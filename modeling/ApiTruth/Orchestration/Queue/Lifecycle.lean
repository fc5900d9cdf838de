import ApiTruth.Orchestration.Queue.Notices

/-!
# The lifecycle of jobs

The transactions write the states of jobs themselves, but along every run these states are those of
the reducer: a job starts in the queue, is leased once for each attempt, and is not written again
when it is over.  Prerequisites come first, and at most one job of a checkpoint is wanted.

## Main definitions

* `Reduces` : the reducer takes one state to another one.
* `Database.IsOrdered` : jobs are leased and succeed after their prerequisites.

## Main results

* `JobChange.reduces` : what a transaction makes of the state of a job.
* `stateChanges_follow_reducer`, `jobs_wait_for_prerequisites`, `wanted_jobs_are_current`.
-/

namespace ApiTruth.Orchestration.Queue

open TransitionSystem List Option

/-- A transition of `reduceJobState` takes the state to another one. -/
def Reduces (state next : JobState) : Prop :=
  state ≠ next ∧ ∃ transition reduced,
    reduceJobState { state } transition = .ok reduced ∧ reduced.state = next

section Changes

variable {db db' : Database} {id : JobIdentity} {job job' : Job} {notice : Option StateNotice}
  {next : JobState}

theorem reduces_of_isWaiting (h : job.IsWaiting)
    (hnext : next = .leased ∨ next = .failed ∨ next = .cancelled ∨ next = .superseded) :
    Reduces job.state next := by
  have hpath (state : JobState) (hstate : state = .queued ∨ state = .retryWait) :
      Reduces state .leased ∧ Reduces state .failed ∧ Reduces state .cancelled ∧
        Reduces state .superseded := by
    rcases hstate with rfl | rfl <;>
      exact ⟨⟨by nofun, .lease, _, rfl, rfl⟩, ⟨by nofun, .dependencyFailed false none, _, rfl, rfl⟩,
        ⟨by nofun, .cancel, _, rfl, rfl⟩, ⟨by nofun, .supersede job.identity, _, rfl, rfl⟩⟩
  obtain ⟨hleased, hfailed, hcancelled, hsuperseded⟩ := hpath job.state h
  rcases hnext with rfl | rfl | rfl | rfl <;> assumption

theorem reduces_of_leased (h : job.state = .leased) (hqueued : next ≠ .queued)
    (hleased : next ≠ .leased) : Reduces job.state next := by
  rw [h]
  refine ⟨hleased.symm, ?_⟩
  cases next with
  | queued => exact absurd rfl hqueued
  | leased => exact absurd rfl hleased
  | retryWait => exact ⟨.retry, _, rfl, rfl⟩
  | succeeded => exact ⟨.succeed, _, rfl, rfl⟩
  | failed => exact ⟨.fail, _, rfl, rfl⟩
  | cancelled => exact ⟨.cancel, _, rfl, rfl⟩
  | superseded => exact ⟨.supersede job.identity, _, rfl, rfl⟩

namespace JobChange

variable (hchange : JobChange db db' id job job' notice)
include hchange

/-- A transaction leaves the state of a job alone or takes one step of the reducer. -/
theorem reduces : job'.state = job.state ∨ Reduces job.state job'.state := by
  cases hchange with
  | unchanged | heartbeat => exact .inl rfl
  | planned change hchange =>
    cases hchange with
    | claim _ _ hwaiting => exact .inr (reduces_of_isWaiting hwaiting (.inl rfl))
    | dependencyFailed hwaiting => exact .inr (reduces_of_isWaiting hwaiting (.inr (.inl rfl)))
    | retry _ _ hleased | exhausted hleased =>
      exact .inr (reduces_of_leased hleased (by nofun) (by nofun))
    | settled hleased =>
      refine .inr (reduces_of_leased hleased ?_ ?_) <;>
        exact fun h => by split at h <;> cases h
  | supersede =>
    rw [Job.state_supersede]
    split_ifs with hwaiting
    · exact .inr (reduces_of_isWaiting hwaiting (.inr (.inr (.inr rfl))))
    · exact .inl rfl
  | cancel =>
    rw [Job.state_cancel]
    split_ifs with hwaiting
    · exact .inr (reduces_of_isWaiting hwaiting (.inr (.inr (.inl rfl))))
    · exact .inl rfl
  | cancelByOperator hnonterminal =>
    rw [Job.state_cancelByOperator]
    rcases Job.nonterminal_iff.mp hnonterminal with hwaiting | hleased
    · rw [if_neg hwaiting.ne_leased]
      exact .inr (reduces_of_isWaiting hwaiting (.inr (.inr (.inl rfl))))
    · exact .inl (by rw [if_pos hleased, hleased])
  | succeed _ hleased => exact .inr (reduces_of_leased hleased (by nofun) (by nofun))

theorem eq_of_terminal (hterminal : job.state.isNonterminal = false) : job' = job := by
  have hnot : ¬job.IsWaiting ∧ job.state ≠ .leased := by
    rw [← not_or, ← Job.nonterminal_iff, hterminal]
    exact Bool.false_ne_true
  cases hchange with
  | unchanged => rfl
  | planned change hchange =>
    cases hchange with
    | claim _ _ hwaiting | dependencyFailed hwaiting => exact absurd hwaiting hnot.1
    | retry _ _ hleased | exhausted hleased | settled hleased => exact absurd hleased hnot.2
  | heartbeat hleased | succeed _ hleased => exact absurd hleased hnot.2
  | supersede | cancel =>
    cases hstate : job.state <;> simp_all [Job.supersede, Job.cancel, JobState.isNonterminal]
  | cancelByOperator hnonterminal => simp [hterminal] at hnonterminal

theorem attemptCount_eq (hne : job'.state ≠ .leased) : job'.attemptCount = job.attemptCount := by
  cases hchange with
  | planned change hchange =>
    cases hchange with
    | claim => exact absurd rfl hne
    | _ => rfl
  | supersede => unfold Job.supersede; split <;> rfl
  | cancel => unfold Job.cancel; split <;> rfl
  | _ => rfl

/-- A job succeeds under a lease. -/
theorem succeeded_cases (hsucceeded : job'.state = .succeeded) :
    job.state = .leased ∨ job.state = .succeeded := by
  cases hchange with
  | unchanged | heartbeat => exact .inr hsucceeded
  | planned change hchange =>
    cases hchange with
    | settled => split at hsucceeded <;> cases hsucceeded
    | _ => cases hsucceeded
  | supersede => rw [Job.state_supersede] at hsucceeded; split at hsucceeded <;> simp_all
  | cancel => rw [Job.state_cancel] at hsucceeded; split at hsucceeded <;> simp_all
  | cancelByOperator =>
    rw [Job.state_cancelByOperator] at hsucceeded
    split at hsucceeded <;> cases hsucceeded
  | succeed _ hleased => exact .inl hleased

end JobChange

end Changes

/-! ### Paths of the reducer -/

/-- The attempts of a job, of which a job that is not there has none. -/
def Database.attemptsOf (db : Database) (id : JobIdentity) : ℕ :=
  ((db.jobs.get? id).map Job.attemptCount).getD 0

abbrev lastOf (db : Database) (visited : List Database) : Database :=
  (db :: visited).getLast (cons_ne_nil db visited)

variable {db db' : Database} {added : List StateNotice}

/-- What a transaction makes of the state and the attempts of one job. -/
theorem Evolves.lifecycle (h : Evolves db db' added) (id : JobIdentity) :
    db'.stateOf id = db.stateOf id ∧ db'.attemptsOf id = db.attemptsOf id ∨
      db.stateOf id = none ∧ db'.stateOf id = some .queued ∧
        db'.attemptsOf id = db.attemptsOf id ∨
      ∃ state next, db.stateOf id = some state ∧ db'.stateOf id = some next ∧ Reduces state next ∧
        db'.attemptsOf id = db.attemptsOf id + if next = .leased then 1 else 0 := by
  unfold Database.stateOf Database.attemptsOf
  cases hjob : db.jobs.get? id with
  | none =>
    cases hjob' : db'.jobs.get? id with
    | none => exact .inl ⟨rfl, rfl⟩
    | some job' =>
      obtain ⟨prepared, -, rfl⟩ := (h.created id job' hjob hjob').1.row
      exact .inr (.inl ⟨rfl, rfl, rfl⟩)
  | some job =>
    obtain ⟨job', notice, hjob', hchange, -⟩ := h.changed id job hjob
    rw [hjob']
    rcases hchange.reduces with hsame | hreduces
    · refine .inl ⟨congrArg some hsame, ?_⟩
      by_cases hleased : job'.state = .leased
      · rcases hchange.leased_cases hleased with ⟨-, hcount⟩ | ⟨hwaiting, -⟩
        · exact hcount
        · exact absurd (hsame ▸ hleased) hwaiting.ne_leased
      · exact hchange.attemptCount_eq hleased
    · refine .inr (.inr ⟨_, _, rfl, rfl, hreduces, ?_⟩)
      split_ifs with hleased
      · rcases hchange.leased_cases hleased with ⟨hheld, -⟩ | ⟨-, -, hcount⟩
        · exact absurd (hheld.trans hleased.symm) hreduces.1
        · exact hcount
      · exact hchange.attemptCount_eq hleased

section

variable {visited : List Database}
  (hsteps : (db :: visited).IsChain fun db db' => ∃ action, Step db action db')
  (id : JobIdentity)
include hsteps

/-- Along a run, the state that a job has and those that it enters are a path of the reducer, which
ends with the state that the job has then. -/
theorem isChain_stateChanges (hdb : Reachable Step IsInitial db) :
    IsChain Reduces ((db.stateOf id).toList ++ stateChanges id (db :: visited)) ∧
      (db.stateOf id = none → ∀ state ∈ (stateChanges id (db :: visited)).head?, state = .queued) ∧
      ((db.stateOf id).toList ++ stateChanges id (db :: visited)).getLast? =
        (lastOf db visited).stateOf id ∧
      db.attemptsOf id + (stateChanges id (db :: visited)).count .leased =
        (lastOf db visited).attemptsOf id := by
  induction visited generalizing db with
  | nil => cases h : db.stateOf id <;> simp [stateChanges, h]
  | cons db' rest ih =>
    rw [isChain_cons_cons] at hsteps
    obtain ⟨⟨action, hstep⟩, hrest⟩ := hsteps
    obtain ⟨added, hevolves, -⟩ := evolves_of_step hdb hstep
    obtain ⟨hchain, hhead, hlast, hcount⟩ := ih hrest (hdb.run (.cons hstep (.nil db')))
    rw [lastOf, getLast_cons (cons_ne_nil db' rest), stateChanges, ← hlast, ← hcount]
    rcases hevolves.lifecycle id with ⟨hsame, hattempts⟩ | ⟨hnone, hqueued, hattempts⟩ |
      ⟨state, next, hstate, hnext, hreduces, hattempts⟩
    · rw [if_pos hsame, nil_append, ← hsame, hattempts]
      exact ⟨hchain, hhead, rfl, rfl⟩
    · rw [hqueued] at hchain ⊢
      rw [hnone, if_neg (by simp), hattempts]
      exact ⟨hchain, fun _ _ h => (Option.some.inj h).symm, rfl, by simp⟩
    · rw [hnext] at hchain ⊢
      rw [hstate, if_neg fun h => hreduces.1 (Option.some.inj h).symm, hattempts]
      refine ⟨isChain_cons_cons.mpr ⟨hreduces, hchain⟩, by simp, by simp, ?_⟩
      simp only [Option.toList_some, cons_append, nil_append, count_cons, beq_iff_eq]
      omega

/-- Along a run from the empty store the states that a job enters start with `queued` and follow the
reducer up to the state of the job; it is leased once for each of its attempts, and not more often
than its row allows. -/
theorem stateChanges_follow_reducer (hdb : IsInitial db) :
    (stateChanges id (db :: visited)).IsChain Reduces ∧
      (∀ state ∈ (stateChanges id (db :: visited)).head?, state = .queued) ∧
      (stateChanges id (db :: visited)).getLast? = (lastOf db visited).stateOf id ∧
      ∀ job, (lastOf db visited).jobs.get? id = some job →
        (stateChanges id (db :: visited)).count .leased = job.attemptCount ∧
          job.attemptCount ≤ job.maxAttempts := by
  have hreachable : Reachable Step IsInitial db := ⟨db, [], hdb, .nil db⟩
  have hnone : db.stateOf id = none ∧ db.attemptsOf id = 0 := by
    obtain ⟨clock, catalog, rfl⟩ := hdb
    exact ⟨rfl, rfl⟩
  obtain ⟨hchain, hhead, hlast, hcount⟩ := isChain_stateChanges hsteps id hreachable
  rw [hnone.1, Option.toList_none, nil_append] at hchain hlast
  rw [hnone.2, Nat.zero_add] at hcount
  refine ⟨hchain, hhead hnone.1, hlast, fun job hjob => ⟨?_, ?_⟩⟩
  · rw [hcount, Database.attemptsOf, hjob]
    rfl
  · have hchecks := meetsChecks_of_reachable (reachable_getLast hreachable hsteps)
    exact (hchecks.jobs id job hjob).attempts.2

end

theorem stateChanges_follow_reducer_sample : sampleDatabase.commits sampleActions = true ∧
    (stateChanges sampleJob (sampleDatabase :: sampleDatabase.visits sampleActions)).IsChain
      Reduces :=
  ⟨commits_sampleActions, (stateChanges_follow_reducer
    (Database.isChain_visits commits_sampleActions) sampleJob ⟨_, _, rfl⟩).1⟩

/-! ### Prerequisites -/

/-- Jobs that are leased or have succeeded have prerequisites that have succeeded. -/
def Database.IsOrdered (db : Database) : Prop :=
  ∀ dependency ∈ db.dependencies, ∃ job prerequisite,
    db.jobs.get? dependency.jobId = some job ∧
      db.jobs.get? dependency.prerequisiteJobId = some prerequisite ∧
      (job.state = .leased ∨ job.state = .succeeded → prerequisite.state = .succeeded)

theorem Evolves.isOrdered (h : Evolves db db' added) (hdb : db.Coherent)
    (hordered : db.IsOrdered) : db'.IsOrdered := by
  intro dependency hdependency
  obtain ⟨-, job', prerequisite', hjob', hprerequisite', hleased⟩ := h.depended hdb hdependency
  refine ⟨job', prerequisite', hjob', hprerequisite', fun hstate => hstate.elim hleased ?_⟩
  intro hsucceeded
  rcases h.dependencies dependency hdependency with hold | ⟨habsent, -⟩
  · obtain ⟨job, prerequisite, hjob, hprerequisite, hready⟩ := hordered dependency hold
    obtain ⟨found, _, hfound, hchange, -⟩ := h.changed _ job hjob
    cases hfound.symm.trans hjob'
    obtain ⟨found', _, hfound', hchange', -⟩ := h.changed _ prerequisite hprerequisite
    cases hfound'.symm.trans hprerequisite'
    have hbefore := hready (hchange.succeeded_cases hsucceeded)
    rw [hchange'.eq_of_terminal (by rw [hbefore]; rfl), hbefore]
  · rw [(h.created _ job' habsent hjob').1.state_eq] at hsucceeded
    cases hsucceeded

/-- In every run jobs that are leased or succeed have prerequisites that have succeeded, no job is
lost, and the row of a job that is over is not written again. -/
theorem jobs_wait_for_prerequisites {actions : List Action} (hdb : Reachable Step IsInitial db)
    (hrun : Run Step db actions db') : db'.IsOrdered ∧
      ∀ id job, db.jobs.get? id = some job → ∃ job', db'.jobs.get? id = some job' ∧
        job.attemptCount ≤ job'.attemptCount ∧ (job.state.isNonterminal = false → job' = job) := by
  constructor
  · obtain ⟨initial, before, hinitial, hbefore⟩ := hdb
    refine ((hbefore.append hrun).invariant
      (I := fun db => Reachable Step IsInitial db ∧ db.IsOrdered) ?_
      ⟨⟨initial, [], hinitial, .nil initial⟩, ?_⟩).2
    · rintro db action db' ⟨hdb, hordered⟩ hstep
      obtain ⟨added, hevolves, -⟩ := evolves_of_step hdb hstep
      exact ⟨hdb.run (.cons hstep (.nil db')),
        hevolves.isOrdered (coherent_of_reachable hdb) hordered⟩
    · obtain ⟨clock, catalog, rfl⟩ := hinitial
      exact fun _ h => absurd h not_mem_nil
  · intro id job hjob
    refine (hrun.invariant (I := fun db => Reachable Step IsInitial db ∧ ∃ job',
      db.jobs.get? id = some job' ∧ job.attemptCount ≤ job'.attemptCount ∧
        (job.state.isNonterminal = false → job' = job)) ?_ ⟨hdb, job, hjob, le_rfl, fun _ => rfl⟩).2
    rintro db action db' ⟨hdb, found, hfound, hle, hkept⟩ hstep
    obtain ⟨added, hevolves, -⟩ := evolves_of_step hdb hstep
    obtain ⟨job', notice, hjob', hchange, -⟩ := hevolves.changed id found hfound
    refine ⟨hdb.run (.cons hstep (.nil db')), job', hjob', hle.trans hchange.attemptCount_le, ?_⟩
    intro hover
    obtain rfl := hkept hover
    exact hchange.eq_of_terminal hover

theorem run_of_commits {actions : List Action} (h : db.commits actions = true) :
    Run Step db actions (lastOf db (db.visits actions)) := by
  induction actions generalizing db with
  | nil => exact .nil db
  | cons action actions ih =>
    rw [Database.commits, Bool.and_eq_true, Bool.and_eq_true, decide_eq_true_eq] at h
    exact .cons (Database.step_next h.1.1 h.1.2) (ih h.2)

theorem jobs_wait_for_prerequisites_sample :
    (lastOf sampleDatabase (sampleDatabase.visits sampleActions)).IsOrdered :=
  (jobs_wait_for_prerequisites ⟨sampleDatabase, [], ⟨_, _, rfl⟩, .nil _⟩
    (run_of_commits commits_sampleActions)).1

/-! ### Current jobs -/

/-- In every reachable state at most one job of a checkpoint is wanted; a job of another
configuration than the active one is over, or leased and asked to stop; and a checkpoint points to a
job of its own that has not been displaced. -/
theorem wanted_jobs_are_current (hdb : Reachable Step IsInitial db) :
    (∀ id id' job job', db.jobs.get? id = some job → db.jobs.get? id' = some job' →
      job.IsWanted → job'.IsWanted → id.slot = id'.slot → id = id') ∧
    (∀ id job, db.jobs.get? id = some job → job.state.isNonterminal = true →
      (∀ active, db.active = some active → active.fingerprint ≠ id.configFingerprint) →
      job.state = .leased ∧ job.cancellationRequested = true) ∧
    ∀ slot id, db.current slot = some id → id.slot = some slot ∧
      ∃ job, db.jobs.get? id = some job ∧ job.IsRespected := by
  have hcoherent := coherent_of_reachable hdb
  refine ⟨fun id id' job job' hjob hjob' hwanted hwanted' heq => ?_,
    fun id job hjob hnonterminal hother => ?_, hcoherent.pointed⟩
  · obtain ⟨⟨slot, hslot, hcurrent⟩, -⟩ := hcoherent.held id job hjob hwanted
    obtain ⟨⟨slot', hslot', hcurrent'⟩, -⟩ := hcoherent.held id' job' hjob' hwanted'
    obtain rfl : slot = slot' := Option.some.inj (hslot.symm.trans (heq.trans hslot'))
    exact Option.some.inj (hcurrent.symm.trans hcurrent')
  · have hrequested : job.cancellationRequested = true := by
      by_contra hnot
      obtain ⟨-, hallowed⟩ :=
        hcoherent.held id job hjob ⟨hnonterminal, Bool.eq_false_iff.mpr hnot⟩
      obtain ⟨active, configuration, hread, hallows⟩ :=
        Database.isAllowedByActiveConfig_iff.mp hallowed
      obtain ⟨hactive, hfingerprint, -⟩ := Database.readActive_eq_ok.mp hread
      rw [allows, Bool.and_eq_true, beq_iff_eq] at hallows
      exact hother active hactive (hfingerprint ▸ hallows.1)
    refine ⟨(Job.nonterminal_iff.mp hnonterminal).resolve_left fun hwaiting => ?_, hrequested⟩
    rw [hcoherent.waiting id job hjob hwaiting] at hrequested
    cases hrequested

theorem wanted_jobs_are_current_sample : sampleDatabase.commits sampleActions = true ∧
    ∀ slot id,
      (lastOf sampleDatabase (sampleDatabase.visits sampleActions)).current slot = some id →
        id.slot = some slot ∧ ∃ job,
          (lastOf sampleDatabase (sampleDatabase.visits sampleActions)).jobs.get? id = some job ∧
            job.IsRespected :=
  ⟨commits_sampleActions,
    (wanted_jobs_are_current ⟨_, _, ⟨_, _, rfl⟩, run_of_commits commits_sampleActions⟩).2.2⟩

end ApiTruth.Orchestration.Queue
