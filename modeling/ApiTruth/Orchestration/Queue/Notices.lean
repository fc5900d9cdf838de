import ApiTruth.Orchestration.Queue.Runs

/-!
# Notices of state changes

A committed operation gives one notice for each job whose state it changes, and none for the others:
neither is a notice given for a job that stays as it is, nor does a notice meet its deduplication
key in the outbox.  Along a run the notices of a job are therefore its states, one after the other.

## Main definitions

* `Database.stateOf` : the `state` column of a job.
* `stateChanges` : the states that a job enters along a run.

## Main results

* `Evolves.filter_added` : the notices of one operation about one job.
* `notices_eq_stateChanges` : the notices about a job after a run.
-/

namespace ApiTruth.Orchestration.Queue

open TransitionSystem List Option

/-- The `state` column of a job, if there is the job. -/
def Database.stateOf (db : Database) (id : JobIdentity) : Option JobState :=
  (db.jobs.get? id).map Job.state

/-- The states that a job enters between the databases of a list and the next ones. -/
def stateChanges (id : JobIdentity) : List Database → List JobState
  | db :: db' :: rest =>
    (if db'.stateOf id = db.stateOf id then [] else (db'.stateOf id).toList) ++
      stateChanges id (db' :: rest)
  | _ => []

section Step

variable {db db' : Database} {added : List StateNotice}

theorem filter_eq_singleton {α κ : Type} [DecidableEq κ] {key : α → κ} {xs : List α}
    (hnodup : (xs.map key).Nodup) {x : α} (hx : x ∈ xs) : xs.filter (key · = key x) = [x] := by
  induction xs with
  | nil => cases hx
  | cons y xs ih =>
    rw [map_cons, nodup_cons] at hnodup
    rcases List.mem_cons.mp hx with rfl | hmem
    · have hrest : xs.filter (key · = key x) = [] := by
        rw [filter_eq_nil_iff]
        intro z hz heq
        exact hnodup.1 (of_decide_eq_true heq ▸ List.mem_map_of_mem hz)
      simp [hrest]
    · have hne : key y ≠ key x := fun heq => hnodup.1 (heq ▸ List.mem_map_of_mem hmem)
      simp [hne, ih hnodup.2 hmem]

/-- The notices of an operation about a job: that of its new state when the state has changed, and
none otherwise. -/
theorem Evolves.filter_added (h : Evolves db db' added) (id : JobIdentity) :
    (added.filter (·.jobId = id)).map StateNotice.state =
      if db'.stateOf id = db.stateOf id then [] else (db'.stateOf id).toList := by
  have hnone (hunsaid : ∀ notice ∈ added, notice.jobId ≠ id) :
      added.filter (·.jobId = id) = [] := by
    rw [filter_eq_nil_iff]
    exact fun notice hnotice heq => hunsaid notice hnotice (of_decide_eq_true heq)
  have hone {notice : StateNotice} (hnotice : notice ∈ added) (hid : notice.jobId = id) :
      added.filter (·.jobId = id) = [notice] := by
    rw [← hid]
    exact filter_eq_singleton h.nodup hnotice
  unfold Database.stateOf
  cases hjob : db.jobs.get? id with
  | some job =>
    obtain ⟨job', notice, hjob', hchange, hadded⟩ := h.changed id job hjob
    rw [hjob', map_some, map_some]
    rcases hchange.notice_cases with ⟨rfl, hstate⟩ | ⟨given, rfl, hid, hstate, hne, -⟩
    · have hunsaid : added.filter (·.jobId = id) = [] := hnone fun notice hnotice hid => by
        cases (hadded notice hid).mp hnotice
      rw [if_pos (congrArg some hstate), hunsaid, map_nil]
    · rw [if_neg fun heq => hne (Option.some.inj heq), hone ((hadded given hid).mpr rfl) hid, map_singleton, hstate]
      rfl
  | none =>
    cases hjob' : db'.jobs.get? id with
    | none =>
      refine (congrArg _ (hnone fun notice hnotice hid => ?_)).trans (if_pos rfl).symm
      obtain ⟨job', hfound⟩ := h.addressed notice hnotice
      rw [hid, hjob'] at hfound
      cases hfound
    | some job' =>
      obtain ⟨hcreated, hadded⟩ := h.created id job' hjob hjob'
      rw [hone ((hadded (createdNotice id) rfl).mpr rfl) rfl, map_some, map_none,
        if_neg (by nofun), hcreated.state_eq]
      rfl

theorem nodup_outbox_of_reachable (hdb : Reachable Step IsInitial db) : db.outbox.Nodup := by
  have hboth : Reachable Step IsInitial db ∧ db.outbox.Nodup := by
    obtain ⟨s, actions, hs, hrun⟩ := hdb
    refine hrun.invariant (I := fun db => Reachable Step IsInitial db ∧ db.outbox.Nodup) ?_
      ⟨⟨s, [], hs, .nil s⟩, ?_⟩
    · rintro db action db' ⟨hdb, hnodup⟩ hstep
      obtain ⟨added, hevolves, houtbox⟩ := evolves_of_step hdb hstep
      refine ⟨hdb.run (.cons hstep (.nil db')), ?_⟩
      rw [houtbox]
      refine hnodup.append (Nodup.of_map _ hevolves.nodup) fun notice hold hnew => ?_
      exact hevolves.notMem_outbox (coherent_of_reachable hdb) hnew hold
    · obtain ⟨clock, catalog, rfl⟩ := hs
      exact nodup_nil
  exact hboth.2

end Step

section

variable {db : Database} {visited : List Database} (hdb : Reachable Step IsInitial db)
  (hsteps : (db :: visited).IsChain fun db db' => ∃ action, Step db action db')
include hdb hsteps

theorem reachable_getLast :
    Reachable Step IsInitial ((db :: visited).getLast (cons_ne_nil db visited)) := by
  induction visited generalizing db with
  | nil => exact hdb
  | cons db' rest ih =>
    rw [isChain_cons_cons] at hsteps
    obtain ⟨⟨action, hstep⟩, hrest⟩ := hsteps
    exact ih (hdb.run (.cons hstep (.nil db'))) hrest

/-- The outbox of a database that a run visits: the notices about a job that it has had before, then
those of the states that the job has entered since. -/
theorem filter_outbox_eq (id : JobIdentity) :
    ((((db :: visited).getLast (cons_ne_nil db visited)).outbox.filter (·.jobId = id)).map
        StateNotice.state) =
      (db.outbox.filter (·.jobId = id)).map StateNotice.state ++ stateChanges id (db :: visited) := by
  induction visited generalizing db with
  | nil => simp [stateChanges]
  | cons db' rest ih =>
    rw [isChain_cons_cons] at hsteps
    obtain ⟨⟨action, hstep⟩, hrest⟩ := hsteps
    obtain ⟨added, hevolves, houtbox⟩ := evolves_of_step hdb hstep
    have hreachable : Reachable Step IsInitial db' := hdb.run (.cons hstep (.nil db'))
    rw [getLast_cons (cons_ne_nil db' rest), ih hreachable hrest, houtbox,
      filter_append, map_append, hevolves.filter_added, append_assoc, stateChanges]

end

/-- Along a run from the empty store, with every state that it visits, the notices in the outbox
about a job are the states that the job has entered, in this order; and no two notices of the outbox
are the same. -/
theorem notices_eq_stateChanges {db : Database} {visited : List Database} (hdb : IsInitial db)
    (hsteps : (db :: visited).IsChain fun db db' => ∃ action, Step db action db') :
    (∀ id, (((db :: visited).getLast (List.cons_ne_nil db visited)).outbox.filter
        (·.jobId = id)).map StateNotice.state = stateChanges id (db :: visited)) ∧
      ((db :: visited).getLast (List.cons_ne_nil db visited)).outbox.Nodup := by
  have hreachable : Reachable Step IsInitial db := ⟨db, [], hdb, .nil db⟩
  refine ⟨fun id => ?_, nodup_outbox_of_reachable (reachable_getLast hreachable hsteps)⟩
  have hempty : db.outbox = [] := by
    obtain ⟨clock, catalog, rfl⟩ := hdb
    rfl
  rw [filter_outbox_eq hreachable hsteps, hempty]
  rfl

theorem notices_eq_stateChanges_sample :
    IsInitial sampleDatabase ∧ sampleDatabase.commits sampleActions = true ∧
      (∀ id, (((sampleDatabase :: sampleDatabase.visits sampleActions).getLast
          (List.cons_ne_nil _ _)).outbox.filter (·.jobId = id)).map StateNotice.state =
        stateChanges id (sampleDatabase :: sampleDatabase.visits sampleActions)) ∧
      ((sampleDatabase :: sampleDatabase.visits sampleActions).getLast
        (List.cons_ne_nil _ _)).outbox.Nodup :=
  have hdb : IsInitial sampleDatabase := ⟨_, _, rfl⟩
  ⟨hdb, commits_sampleActions,
    notices_eq_stateChanges hdb (Database.isChain_visits commits_sampleActions)⟩

end ApiTruth.Orchestration.Queue
