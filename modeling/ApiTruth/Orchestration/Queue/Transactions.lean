import ApiTruth.Orchestration.Queue.Persisted

/-!
# Transactions

An operation that plans nothing leaves the job tables alone, or changes jobs that are there: a
claim, a worker that extends its lease, fails or completes its job, and an operator that cancels
one.

## Main results

* `evolves_of_idle`, `evolves_of_amends`, `evolves_of_update` : transactions that insert no job.
* `Database.Coherent.admissible_of_expiredOutcome_leased`,
  `Database.Coherent.admissible_of_waitingOutcome` : how jobs end that a claim meets.
* `evolves_claimJobs`, `evolves_failJob`, `evolves_completion`, `evolves_cancelJob`.
-/

namespace ApiTruth.Orchestration.Queue

open Catalog Checked Ir List Option OrderedMap

open ApiTruth.Orchestration.Queue.Database

/-! ### Transactions that insert no job -/

section Shapes

variable {db db' : Database}

/-- The job tables are the same; configurations and events may have been added. -/
structure Idle (db db' : Database) : Prop where
  jobs : db'.jobs = db.jobs
  dependencies : db'.dependencies = db.dependencies
  branches : db'.branches = db.branches
  pullRequests : db'.pullRequests = db.pullRequests
  reconciliations : db'.reconciliations = db.reconciliations
  analyses : db'.analyses = db.analyses
  revisionSnapshots : db'.revisionSnapshots = db.revisionSnapshots
  outbox : db'.outbox = db.outbox

theorem Idle.current (h : Idle db db') (slot : Slot) : db'.current slot = db.current slot := by
  cases slot <;>
    simp [Database.current, h.branches, h.pullRequests, h.reconciliations, h.analyses]

theorem Idle.generation (h : Idle db db') (kind : JobKind) (slot : Slot) :
    db'.generation kind slot = db.generation kind slot := by
  cases kind <;> cases slot <;>
    simp [Database.generation, h.branches, h.pullRequests, h.reconciliations, h.analyses]

/-- A transaction that leaves the job tables alone. -/
theorem evolves_of_idle (hdb : db.Coherent) (h : Idle db db')
    (hconfigurations : ∀ fingerprint document,
      db.configurations.get? fingerprint = some document →
        db'.configurations.get? fingerprint = some document)
    (hconfigured : ∀ fingerprint document,
      db'.configurations.get? fingerprint = some document →
        db.configurations.get? fingerprint = some document ∨ isValidConfig document = true)
    (hrecorded : ∀ key stored, db'.events.get? key = some stored →
      db.events.get? key = some stored ∨ isValidEvent stored.envelope = true)
    (hactive : db'.active = db.active ∨ ∀ id job, db.jobs.get? id = some job → ¬ job.IsWanted) :
    Evolves db db' [] where
  configurations := hconfigurations
  configured := hconfigured
  recorded := hrecorded
  active := hactive.imp_right fun hunwanted id job job' hjob hjob' => by
    rw [h.jobs, hjob] at hjob'
    cases hjob'
    exact hunwanted id job hjob
  changed id job hjob :=
    ⟨job, none, by rw [h.jobs, hjob], .unchanged, fun _ _ => by simp⟩
  created id job' hjob hjob' := by
    rw [h.jobs, hjob] at hjob'
    cases hjob'
  addressed := by simp
  nodup := nodup_nil
  outbox := h.outbox
  slots slot := .kept (h.current slot)
  generations kind slot := (h.generation kind slot).ge
  settled key row hrow hsome id job' hid hjob' := by
    rw [h.analyses] at hrow
    rw [h.jobs] at hjob'
    exact hdb.settled key row hrow hsome id job' hid hjob'
  dependencies := by
    rw [h.dependencies]
    exact fun _ => .inl
  produced := by
    rw [h.revisionSnapshots]
    exact fun _ _ => .inl

theorem evolves_refl (hdb : db.Coherent) : Evolves db db [] :=
  evolves_of_idle hdb ⟨rfl, rfl, rfl, rfl, rfl, rfl, rfl, rfl⟩ (fun _ _ => id) (fun _ _ => .inl)
    (fun _ _ => .inl) (.inl rfl)

/-- The tables that no change of a job touches are the same. -/
structure SameDocuments (db db' : Database) : Prop where
  configurations : db'.configurations = db.configurations
  events : db'.events = db.events
  active : db'.active = db.active
  dependencies : db'.dependencies = db.dependencies

/-- A transaction that changes jobs, and asks for none. -/
structure Amends (db db' : Database) (added : List StateNotice) : Prop
    extends SameDocuments db db' where
  absent : ∀ id, db.jobs.get? id = none → db'.jobs.get? id = none
  changed : ∀ id job, db.jobs.get? id = some job → ∃ job' notice,
    db'.jobs.get? id = some job' ∧ JobChange db db' id job job' notice ∧
      ∀ other, other.jobId = id → (other ∈ added ↔ notice = some other)
  addressed : ∀ notice ∈ added, ∃ job, db.jobs.get? notice.jobId = some job
  nodup : (added.map StateNotice.jobId).Nodup
  outbox : db'.outbox = (db.insertNotices added).outbox
  slots : ∀ slot, SlotStep db db' slot
  generations : ∀ kind slot, db.generation kind slot ≤ db'.generation kind slot
  settled : SettledIn db' fun id => ∀ job', db'.jobs.get? id = some job' →
    job'.state.isNonterminal = false
  produced : ∀ analysis found, db'.revisionSnapshots.get? analysis = some found →
    db.revisionSnapshots.get? analysis = some found ∨
      ∃ job', db'.jobs.get? found.producingJob = some job' ∧ job'.state = .succeeded

theorem evolves_of_amends {added : List StateNotice} (h : Amends db db' added) :
    Evolves db db' added where
  configurations := by
    rw [h.configurations]
    exact fun _ _ => id
  configured := by
    rw [h.configurations]
    exact fun _ _ => .inl
  recorded := by
    rw [h.events]
    exact fun _ _ => .inl
  active := .inl h.active
  changed := h.changed
  created id job' hjob hjob' := by
    rw [h.absent id hjob] at hjob'
    cases hjob'
  addressed notice hnotice := by
    obtain ⟨job, hjob⟩ := h.addressed notice hnotice
    obtain ⟨job', -, hjob', -⟩ := h.changed _ job hjob
    exact ⟨job', hjob'⟩
  nodup := h.nodup
  outbox := h.outbox
  slots := h.slots
  generations := h.generations
  settled key found hfound hsome id job' hid := h.settled key found hfound hsome id hid job'
  dependencies := by
    rw [h.dependencies]
    exact fun _ => .inl
  produced := h.produced

theorem settledIn_of_changed (hdb : db.Coherent)
    (hchanged : ∀ id job, db.jobs.get? id = some job → ∃ job' notice,
      db'.jobs.get? id = some job' ∧ JobChange db db' id job job' notice) :
    SettledIn db fun id => ∀ job', db'.jobs.get? id = some job' →
      job'.state.isNonterminal = false := by
  intro key row hrow hsome id hid job' hjob'
  obtain ⟨job, hjob, -⟩ := (hdb.pointed (.analysis key) id (by
    rw [Database.current, hrow]
    exact hid)).2
  obtain ⟨found, notice, hfound, hchange⟩ := hchanged id job hjob
  cases hfound.symm.trans hjob'
  have hterminal := hdb.settled key row hrow hsome id job hid hjob
  rwa [hchange.state_of_terminal hterminal]

variable {notice : Option StateNotice} {id : JobIdentity} {f : Job → Job}

section Changes

variable {job : Job} (hjob : db.jobs.get? id = some job)
  (hchange : JobChange db db' id job (f job) notice)

section

variable (hsame : SameDocuments db db') (hslots : ∀ slot, SlotStep db db' slot)
  (hgenerations : ∀ kind slot, db.generation kind slot ≤ db'.generation kind slot)
  (hsettled : SettledIn db' fun id => ∀ job', db'.jobs.get? id = some job' →
    job'.state.isNonterminal = false)
  (hproduced : ∀ analysis found, db'.revisionSnapshots.get? analysis = some found →
    db.revisionSnapshots.get? analysis = some found ∨
      ∃ job', db'.jobs.get? found.producingJob = some job' ∧ job'.state = .succeeded)
include hjob hchange hsame hslots hgenerations hsettled hproduced

theorem evolves_of_changes {changes : OrderedMap JobIdentity PlannedJobChange}
    (hchanges : AdmissibleChanges db changes) (hnone : changes.get? id = none)
    (hjobs : ∀ other, db'.jobs.get? other = (db.jobs.get? other).map fun row =>
      if other = id then f row else db.changedRow changes other row)
    (houtbox : db'.outbox = (db.insertNotices (db.changeNotices changes ++ notice.toList)).outbox) :
    Evolves db db' (db.changeNotices changes ++ notice.toList) := by
  have hown (given : StateNotice) (hgiven : notice = some given) : given.jobId = id := by
    rcases hchange.notice_cases with ⟨hnone, -⟩ | ⟨found, hsome, hid, -⟩
    · cases hnone.symm.trans hgiven
    · cases hsome.symm.trans hgiven
      exact hid
  have hothers (given : StateNotice) (hgiven : given ∈ db.changeNotices changes) :
      given.jobId ≠ id ∧ ∃ row, db.jobs.get? given.jobId = some row := by
    obtain ⟨other, change, row, hplanned, hrow, hnotice⟩ := mem_changeNotices.mp hgiven
    rw [jobId_of_notice hnotice]
    refine ⟨?_, row, hrow⟩
    rintro rfl
    rw [hnone] at hplanned
    cases hplanned
  refine evolves_of_amends
    { hsame with
      absent := fun other hother => by rw [hjobs, hother, map_none]
      changed := fun other found hfound => ?_
      addressed := fun given hgiven => ?_
      nodup := ?_
      outbox := houtbox
      slots := hslots
      generations := hgenerations
      settled := hsettled
      produced := hproduced }
  · rw [hjobs, hfound, map_some]
    by_cases hother : other = id
    · subst hother
      cases hfound.symm.trans hjob
      refine ⟨f job, notice, by rw [if_pos rfl], hchange, fun given hgiven => ?_⟩
      rw [mem_append, mem_toList]
      exact or_iff_right fun hmem => (hothers given hmem).1 hgiven
    · obtain ⟨found', hchange', hnotice'⟩ := jobChange_changedRow hchanges db' hfound
      refine ⟨_, found', by rw [if_neg hother], hchange', fun given hgiven => ?_⟩
      rw [mem_append, mem_toList, ← hnotice' given hgiven]
      exact or_iff_left fun hmem => hother (hgiven.symm.trans (hown given hmem))
  · rcases List.mem_append.mp hgiven with hmem | hmem
    · exact (hothers given hmem).2
    · exact ⟨job, hown given (Option.mem_toList.mp hmem) ▸ hjob⟩
  · rw [map_append]
    refine List.nodup_append.mpr ⟨nodup_changeNotices changes, by cases notice <;> simp, ?_⟩
    rintro other hother _ hlast rfl
    obtain ⟨given, hgiven, rfl⟩ := List.mem_map.mp hother
    obtain ⟨last, hmem, heq⟩ := List.mem_map.mp hlast
    exact (hothers given hgiven).1 (heq.symm.trans (hown last (Option.mem_toList.mp hmem)))

/-- A transaction that changes one job. -/
theorem evolves_of_update (hjobs : db'.jobs = (db.updateJob id f).jobs)
    (houtbox : db'.outbox = (db.insertNotices notice.toList).outbox) :
    Evolves db db' notice.toList := by
  have hchanges : AdmissibleChanges db .empty := fun other change hplanned => by
    cases hplanned
  refine evolves_of_changes hjob hchange hsame hslots hgenerations hsettled hproduced hchanges
    (get?_empty id) (fun other => ?_) houtbox
  rw [hjobs, updateJob, get?_mapValues]
  rfl

end

include hjob hchange in
theorem changed_of_update (hjobs : db'.jobs = (db.updateJob id f).jobs) (other : JobIdentity) (found : Job)
    (hfound : db.jobs.get? other = some found) : ∃ found' given,
      db'.jobs.get? other = some found' ∧ JobChange db db' other found found' given := by
  rw [hjobs, updateJob, get?_mapValues, hfound, map_some]
  by_cases hother : other = id
  · subst hother
    cases hfound.symm.trans hjob
    exact ⟨_, notice, rfl, by rwa [if_pos rfl]⟩
  · exact ⟨_, none, rfl, by rw [if_neg hother]; exact .unchanged⟩

end Changes

end Shapes

/-! ### Leased and waiting jobs -/

namespace Database.Coherent

variable {db : Database} (hdb : db.Coherent)

include hdb

variable {id : JobIdentity} {job : Job} {code : Option OrchestrationErrorCode} {state : JobState}

variable (hjob : db.jobs.get? id = some job)

include hjob in
theorem failedPrerequisite_of_leased (hleased : job.state = .leased) :
    db.failedPrerequisite id = false := by
  rw [failedPrerequisite, List.any_eq_false]
  intro dependency hdependency
  rw [Bool.and_eq_true, beq_iff_eq, not_and]
  rintro rfl
  obtain ⟨-, found, prerequisite, hfound, hprerequisite, hready⟩ := hdb.depended _ hdependency
  cases hfound.symm.trans hjob
  simp [hprerequisite, hready hleased, isUnsuccessful]

theorem kind_of_failedPrerequisite (h : db.failedPrerequisite id = true) :
    id.kind = .prPreviewAnalysis := by
  obtain ⟨dependency, hdependency, hfailed⟩ := List.any_eq_true.mp h
  rw [Bool.and_eq_true, beq_iff_eq] at hfailed
  exact hfailed.1 ▸ (hdb.depended dependency hdependency).1

include hjob in
/-- How a leased job ends whose lease has run out, or that its worker gives back. -/
theorem admissible_of_expiredOutcome_leased (hleased : job.state = .leased)
    (houtcome : db.expiredOutcome id job = some (state, code)) :
    PlannedJobChange.Admissible db id job (.terminal state code) := by
  rw [expiredOutcome, terminalState, hdb.failedPrerequisite_of_leased hjob hleased] at houtcome
  by_cases hsuperseding : job.supersedingJob.isSome = true
  · rw [if_pos hsuperseding] at houtcome
    cases houtcome
    simpa [hsuperseding] using PlannedJobChange.Admissible.settled hleased
      (hdb.superseded id job hjob hsuperseding)
  · rw [if_neg hsuperseding] at houtcome
    by_cases hrequested : job.cancellationRequested = true
    · rw [if_pos hrequested] at houtcome
      cases houtcome
      simpa [hsuperseding] using PlannedJobChange.Admissible.settled hleased hrequested
    · rw [if_neg hrequested, if_neg Bool.false_ne_true] at houtcome
      by_cases hattempts : job.maxAttempts ≤ job.attemptCount
      · simp only [orElse_none, if_pos hattempts] at houtcome
        cases houtcome
        exact .exhausted hleased (by simpa using hrequested) hattempts
      · simp [hattempts] at houtcome

omit hdb in
theorem admissible_retry
    (hleased : job.state = .leased) (houtcome : db.expiredOutcome id job = none) (delay : ℕ)
    (code : Option OrchestrationErrorCode) :
    PlannedJobChange.Admissible db id job (.retry delay code) := by
  have hrequested : job.cancellationRequested = false := by
    by_contra hrequested
    rw [Bool.not_eq_false] at hrequested
    unfold expiredOutcome terminalState at houtcome
    by_cases hsuperseding : job.supersedingJob.isSome = true <;>
      simp [hsuperseding, hrequested] at houtcome
  have hattempts : job.attemptCount < job.maxAttempts := by
    by_contra hattempts
    simp [expiredOutcome, not_lt.mp hattempts] at houtcome
  exact .retry delay code hleased hrequested hattempts

include hjob in
/-- A waiting job ends only for want of a prerequisite. -/
theorem admissible_of_waitingOutcome (hwaiting : job.IsWaiting)
    (houtcome : db.waitingOutcome id job = some (state, code)) :
    PlannedJobChange.Admissible db id job (.terminal state code) := by
  have hallowed := (hdb.held id job hjob (hdb.isWanted_of_isWaiting hjob hwaiting)).2
  rw [waitingOutcome, hallowed, Bool.not_true, if_neg Bool.false_ne_true, expiredOutcome,
    terminalState, hdb.supersedingJob_of_isWaiting hjob hwaiting,
    hdb.waiting id job hjob hwaiting] at houtcome
  by_cases hfailed : db.failedPrerequisite id = true
  · rw [hfailed] at houtcome
    cases houtcome
    exact .dependencyFailed hwaiting (hdb.kind_of_failedPrerequisite hfailed)
  · simp [hfailed, not_le.mpr (hdb.attempts id job hjob hwaiting)] at houtcome

end Database.Coherent

/-! ### Claims -/

/-- What the loop of a claim has planned is admissible. -/
structure ClaimProgress.Sound (db : Database) (progress : ClaimProgress) : Prop where
  admissible : AdmissibleChanges db progress.changes
  roots : ∀ root ∈ progress.terminalRoots, ∀ job, db.jobs.get? root = some job →
    job.state ≠ .succeeded

namespace ClaimProgress.Sound

variable {db : Database} {progress : ClaimProgress} {id : JobIdentity} {job : Job}

theorem empty (db : Database) : ClaimProgress.Sound db {} where
  admissible id change hchange := by
    cases hchange
  roots _ hroot := absurd hroot not_mem_nil

theorem set (h : progress.Sound db) (hjob : db.jobs.get? id = some job)
    {change : PlannedJobChange} (hchange : change.Admissible db id job) :
    AdmissibleChanges db (progress.changes.set id change) := by
  intro other found hfound
  rw [get?_set] at hfound
  split_ifs at hfound with hother
  · cases hfound
    exact ⟨job, hother ▸ hjob, hother ▸ hchange⟩
  · exact h.admissible other found hfound

theorem finish (h : progress.Sound db) (hjob : db.jobs.get? id = some job)
    (hnonterminal : job.state.isNonterminal = true) {state : JobState}
    {code : Option OrchestrationErrorCode}
    (hchange : PlannedJobChange.Admissible db id job (.terminal state code)) :
    (progress.finish id state code).Sound db where
  admissible := h.set hjob hchange
  roots root hroot found hfound := by
    rcases List.mem_append.mp hroot with hold | hnew
    · exact h.roots root hold found hfound
    · obtain rfl := List.mem_singleton.mp hnew
      cases hfound.symm.trans hjob
      intro hsucceeded
      rw [hsucceeded] at hnonterminal
      cases hnonterminal

theorem claimCandidate (h : progress.Sound db) (hdb : db.Coherent) (batch : ClaimBatch)
    (id : JobIdentity) : (db.claimCandidate batch progress id).Sound db := by
  unfold Database.claimCandidate
  cases hjob : db.jobs.get? id with
  | none => exact h
  | some job =>
    dsimp only
    cases hstate : job.state with
    | leased =>
      dsimp only
      split_ifs
      · exact h
      · cases houtcome : db.expiredOutcome id job with
        | some outcome =>
          exact h.finish hjob (by rw [hstate]; rfl)
            (hdb.admissible_of_expiredOutcome_leased hjob hstate houtcome)
        | none => exact ⟨h.set hjob (Coherent.admissible_retry hstate houtcome _ _), h.roots⟩
    | queued | retryWait =>
      have hwaiting : job.IsWaiting := by simp [Job.IsWaiting, hstate]
      cases houtcome : db.waitingOutcome id job with
      | some outcome =>
        dsimp only
        split_ifs
        · exact h
        · exact h.finish hjob hwaiting.nonterminal
            (hdb.admissible_of_waitingOutcome hjob hwaiting houtcome)
      | none =>
        dsimp only
        split_ifs with hlater hready
        · exact h
        · rw [Bool.and_eq_true] at hready
          exact ⟨h.set hjob (.claim _ _ hwaiting hready.1), h.roots⟩
        · exact h
    | succeeded | failed | cancelled | superseded => exact h

end ClaimProgress.Sound

section Operations

variable {db db' : Database} (hdb : db.Coherent)

include hdb

theorem evolves_claimJobs (batch : ClaimBatch) :
    ∃ added, Evolves db (db.claimJobs batch) added := by
  have hsound : (batch.candidates.foldl (db.claimCandidate batch) {}).Sound db := by
    refine List.foldlRecOn batch.candidates _ (motive := ClaimProgress.Sound db)
      (.empty db) fun progress h id _ => h.claimCandidate hdb batch id
  exact ⟨_, evolves_applyPlannedJobChanges hdb
    (admissible_planTerminalDependents hdb hsound.roots hsound.admissible)⟩

/-! ### Leases -/

variable {worker : WorkerIdentity} {lease : JobLease} {job : Job} {material : Materialized}

omit hdb in
theorem validateLiveJobLease_eq_ok (h : db.validateLiveJobLease worker lease = .ok job) :
    db.jobs.get? lease.jobId = some job ∧ job.state = .leased := by
  obtain ⟨found, hfound, hrest⟩ := orRaise_bind_eq_ok.mp h
  obtain ⟨⟨hleased, -⟩, hrest⟩ := require_bind_eq_ok.mp hrest
  cases pure_eq_ok.mp hrest
  exact ⟨hfound, hleased⟩

omit hdb in
theorem validateLease_eq_ok
    (h : db.validateLease worker lease = .ok job) : db.jobs.get? lease.jobId = some job ∧
      job.state = .leased ∧ job.supersedingJob = none ∧ job.cancellationRequested = false := by
  obtain ⟨found, hfound, hrest⟩ := bind_eq_ok.mp h
  obtain ⟨hsuperseding, hrest⟩ := require_bind_eq_ok.mp hrest
  obtain ⟨hrequested, hrest⟩ := require_bind_eq_ok.mp hrest
  cases pure_eq_ok.mp hrest
  obtain ⟨hjob, hleased⟩ := validateLiveJobLease_eq_ok hfound
  exact ⟨hjob, hleased, hsuperseding, hrequested⟩

theorem evolves_failJob
    (h : db.failJob worker lease = .ok db') : ∃ added, Evolves db db' added := by
  obtain ⟨job, hvalid, hrest⟩ := bind_eq_ok.mp h
  obtain ⟨hjob, hleased⟩ := validateLiveJobLease_eq_ok hvalid
  have hone {change : PlannedJobChange} (hchange : change.Admissible db lease.jobId job) :
      AdmissibleChanges db (empty.set lease.jobId change) :=
    (ClaimProgress.Sound.empty db).set hjob hchange
  cases houtcome : db.expiredOutcome lease.jobId job with
  | some outcome =>
    rw [houtcome] at hrest
    cases pure_eq_ok.mp hrest
    refine ⟨_, evolves_applyPlannedJobChanges hdb (admissible_planTerminalDependents hdb
      (fun root hroot found hfound => ?_)
      (hone (hdb.admissible_of_expiredOutcome_leased hjob hleased houtcome)))⟩
    obtain rfl := List.mem_singleton.mp hroot
    cases hfound.symm.trans hjob
    rw [hleased]
    nofun
  | none =>
    rw [houtcome] at hrest
    cases pure_eq_ok.mp hrest
    exact ⟨_, evolves_applyPlannedJobChanges hdb
      (hone (Coherent.admissible_retry hleased houtcome _ _))⟩

theorem evolves_heartbeatJob
    (h : db.heartbeatJob worker lease = .ok db') : ∃ added, Evolves db db' added := by
  obtain ⟨job, hvalid, hrest⟩ := bind_eq_ok.mp h
  obtain ⟨-, hrest⟩ := require_bind_eq_ok.mp hrest
  cases pure_eq_ok.mp hrest
  obtain ⟨hjob, hleased, -⟩ := validateLease_eq_ok hvalid
  have hchange : JobChange db (db.updateJob lease.jobId (·.heartbeat db.clock)) lease.jobId job
      (job.heartbeat db.clock) none := .heartbeat hleased
  refine ⟨_, evolves_of_update hjob hchange ⟨rfl, rfl, rfl, rfl⟩ (fun slot => .kept ?_)
    (fun kind slot => ?_) ?_ (fun _ _ => .inl) rfl rfl⟩
  · cases slot <;> rfl
  · cases kind <;> cases slot <;> exact le_rfl
  · have hsettled := settledIn_of_changed hdb (changed_of_update hjob hchange rfl)
    exact hsettled

/-! ### Completions -/

variable {parses : ContractSnapshot → Bool} {ended : JobIdentity → Prop}

omit hdb in
theorem completion_eq_ok (h : db.completion parses worker lease material = .ok db') :
    ∃ job target written catalog, db.validateLease worker lease = .ok job ∧
      db.completionTarget job = .ok target ∧
      job.identity.targetRevision = some material.request.immutableRevision ∧
      db.wantsResult target job material = true ∧
      db.writeCompletion job material = .ok written ∧
      written.completeInCatalog parses job material = .ok db' ∧
      db' = { written with catalog := catalog } := by
  obtain ⟨discovered, hdiscovered, hrest⟩ := orRaise_bind_eq_ok.mp h
  obtain ⟨target, htarget, hrest⟩ := bind_eq_ok.mp hrest
  obtain ⟨job, hvalid, hrest⟩ := bind_eq_ok.mp hrest
  cases hdiscovered.symm.trans (validateLease_eq_ok hvalid).1
  obtain ⟨⟨hrevision, -⟩, hrest⟩ := require_bind_eq_ok.mp hrest
  obtain ⟨hwants, hrest⟩ := require_bind_eq_ok.mp hrest
  obtain ⟨-, hrest⟩ := require_bind_eq_ok.mp hrest
  obtain ⟨written, hwritten, hcatalog⟩ := bind_eq_ok.mp hrest
  obtain ⟨catalog, hingested, hpromoted⟩ := bind_eq_ok.mp hcatalog
  refine ⟨discovered, target, written, db'.catalog, hvalid, htarget, hrevision, hwants, hwritten,
    hcatalog, ?_⟩
  split at hpromoted
  · obtain ⟨-, hpromoted⟩ := require_bind_eq_ok.mp hpromoted
    obtain ⟨promoted, -, hdone⟩ := bind_eq_ok.mp hpromoted
    cases pure_eq_ok.mp hdone
    rfl
  · cases pure_eq_ok.mp hpromoted
    rfl

omit hdb in
theorem writeCompletion_eq_ok {written : Database}
    (h : db.writeCompletion job material = .ok written) : ∃ success row,
      row.producingJob = job.identity ∧
      success.selectedRevision = material.request.immutableRevision ∧
      written = { (db.recordSuccess job success).succeedJob job.identity
          (some material.result.snapshot.snapshotId) with
        revisionSnapshots := db.revisionSnapshots.setIfAbsent
          (job.analysisOf material.request.immutableRevision) row } := by
  obtain ⟨stored, -, hrest⟩ := orRaise_bind_eq_ok.mp h
  obtain ⟨-, hrest⟩ := require_bind_eq_ok.mp hrest
  cases pure_eq_ok.mp hrest
  exact ⟨_, _, rfl, rfl, rfl⟩

omit hdb in
theorem agreeAt_recordSuccess (job : Job) (success : LastSuccess) (slot : Slot) :
    AgreeAt slot db (db.recordSuccess job success) := by
  simp only [recordSuccess]
  cases slot with
  | branch key =>
    refine agreeAt_branch ?_
    split
    · exact map_get?_mapValues (fun _ _ => by split <;> rfl) _ _
    all_goals rfl
  | pullRequest key =>
    refine agreeAt_pullRequest ?_
    split
    · rfl
    · exact map_get?_mapValues (fun _ _ => by split <;> rfl) _ _
    all_goals rfl
  | reconciliation key =>
    refine agreeAt_reconciliation ?_
    split <;> rfl
  | analysis key =>
    refine agreeAt_analysis ?_
    split
    · rfl
    · rfl
    all_goals exact map_get?_mapValues (fun _ _ => by split <;> rfl) _ _

omit hdb in
theorem sameRows_recordSuccess (job : Job) (success : LastSuccess) :
    SameRows db (db.recordSuccess job success) := by
  simp only [recordSuccess]
  split <;> rfl

omit hdb in
theorem settledIn_recordSuccess (h : SettledIn db ended)
    (hjob : ended job.identity) (success : LastSuccess) :
    SettledIn (db.recordSuccess job success) ended := by
  have hbaseline : SettledIn
      { db with
        analyses := db.analyses.mapValues fun _ checkpoint =>
          if checkpoint.currentJob = some job.identity then
            { checkpoint with lastTerminalOutcome := some .succeeded }
          else checkpoint } ended := by
    intro key row hrow hsome other hother
    rw [get?_mapValues] at hrow
    obtain ⟨stored, hstored, rfl⟩ := Option.map_eq_some_iff.mp hrow
    by_cases hcurrent : stored.currentJob = some job.identity
    · rw [if_pos hcurrent] at hother
      cases hcurrent.symm.trans hother
      exact hjob
    · rw [if_neg hcurrent] at hsome hother
      exact h key stored hstored hsome other hother
  simp only [recordSuccess]
  split
  · exact h
  · exact h
  all_goals exact hbaseline

variable (id : JobIdentity)

omit hdb in
theorem succeedJob_eq (resultSnapshotId : Option String) :
    db.succeedJob id resultSnapshotId =
      { db with
        jobs := (db.updateJob id (·.succeed db.clock resultSnapshotId)).jobs
        outbox := (db.insertNotices [succeededNotice id]).outbox } := by
  simp only [succeedJob, insertNotices_singleton, insertNotice, updateJob, succeededNotice]
  split <;> rfl

theorem evolves_completion (h : db.completion parses worker lease material = .ok db') :
    ∃ added, Evolves db db' added := by
  obtain ⟨job, target, written, catalog, hvalid, -, -, -, hwritten, -, hdb'⟩ := completion_eq_ok h
  obtain ⟨success, row, hproducing, -, hrecorded⟩ := writeCompletion_eq_ok hwritten
  obtain ⟨hjob, hleased, -, hrequested⟩ := validateLease_eq_ok hvalid
  rw [← hdb.keyed _ _ hjob] at hjob
  have hrows : SameRows db (db.recordSuccess job success) := sameRows_recordSuccess job success
  have hagree (slot : Slot) : AgreeAt slot db (db.recordSuccess job success) :=
    agreeAt_recordSuccess job success slot
  have hsettled {ended : JobIdentity → Prop} (h : SettledIn db ended) (hover : ended job.identity) :=
    settledIn_recordSuccess h hover success
  generalize db.recordSuccess job success = recorded at hrows hagree hsettled hrecorded
  have houtbox : recorded.outbox = db.outbox := by rw [hrows]
  rw [hrecorded, succeedJob_eq] at hdb'
  have hjobs : db'.jobs = (db.updateJob job.identity
      (·.succeed db.clock (some material.result.snapshot.snapshotId))).jobs := by
    rw [hdb', hrows]
    rfl
  have hjob' : db'.jobs.get? job.identity =
      some (job.succeed db.clock (some material.result.snapshot.snapshotId)) := by
    rw [hjobs, updateJob, get?_mapValues, hjob, map_some, if_pos rfl]
  have hchange : JobChange db db' job.identity job
      (job.succeed db.clock (some material.result.snapshot.snapshotId))
      (some (succeededNotice job.identity)) := .succeed _ hleased hrequested
  refine ⟨_, evolves_of_update hjob hchange ?_ (fun slot => .kept ?_) (fun kind slot => ?_) ?_ ?_
    hjobs (by rw [hdb']; exact outbox_insertNotices_congr houtbox _)⟩
  · constructor <;> rw [hdb', hrows]
  · rw [hdb', ← (hagree slot).1]
    cases slot <;> rfl
  · rw [hdb', ← (hagree slot).2 kind]
    cases kind <;> cases slot <;> exact le_rfl
  · have hover := hsettled (settledIn_of_changed hdb (changed_of_update hjob hchange hjobs))
      fun found hfound => by
        cases hjob'.symm.trans hfound
        rfl
    rw [hdb'] at hover ⊢
    exact hover
  · intro analysis found hfound
    rw [hdb'] at hfound
    rw [get?_setIfAbsent] at hfound
    split_ifs at hfound with hanalysis
    · cases hstored : db.revisionSnapshots.get? (job.analysisOf material.request.immutableRevision)
        with
      | some stored =>
        rw [hstored] at hfound
        cases hfound
        exact .inl (hanalysis ▸ hstored)
      | none =>
        rw [hstored] at hfound
        cases hfound
        exact .inr ⟨_, hproducing ▸ hjob', rfl⟩
    · exact .inl hfound

/-! ### Cancellation -/

variable (hpointed : ∀ slot id, db.current slot = some id → id.slot = some slot)

include hpointed in
omit hdb in
theorem current_detachCheckpoint (id : JobIdentity) (slot : Slot) :
    (db.detachCheckpoint id).current slot =
      if db.current slot = some id then none else db.current slot := by
  by_cases hcurrent : db.current slot = some id
  · have hslot := hpointed slot id hcurrent
    cases slot <;> obtain ⟨row, hrow, hid⟩ := Option.bind_eq_some_iff.mp hcurrent <;>
      cases hkind : id.kind <;> simp_all [JobIdentity.slot, detachCheckpoint, Database.current]
  · rw [if_neg hcurrent]
    cases slot with
    | branch key =>
      cases hrow : db.branches.get? key <;> cases hkind : id.kind <;>
        simp_all [detachCheckpoint, Database.current]
    | pullRequest key =>
      cases hrow : db.pullRequests.get? key <;> cases hkind : id.kind <;>
        simp_all [detachCheckpoint, Database.current]
    | reconciliation key =>
      cases hrow : db.reconciliations.get? key <;> cases hkind : id.kind <;>
        simp_all [detachCheckpoint, Database.current]
    | analysis key =>
      cases hrow : db.analyses.get? key <;> cases hkind : id.kind <;>
        simp_all [detachCheckpoint, Database.current]

omit hdb in
theorem generation_detachCheckpoint (kind : JobKind) (slot : Slot) :
    (db.detachCheckpoint id).generation kind slot = db.generation kind slot := by
  have hkeep {α β γ : Type} [DecidableEq α] (table : OrderedMap α β) (key : α) {f : α → β → β}
      {g : β → γ} (hg : ∀ key row, g (f key row) = g row) :
      ((table.mapValues f).get? key).map g = (table.get? key).map g :=
    map_get?_mapValues hg table key
  unfold detachCheckpoint
  cases kind <;> cases slot <;> split <;> first
    | rfl
    | simp only [Database.generation]
      rw [hkeep _ _ fun _ _ => by split <;> rfl]

omit hdb in
theorem sameRows_detachCheckpoint : SameRows db (db.detachCheckpoint id) := by
  unfold detachCheckpoint
  split <;> rfl

omit hdb in
theorem settledIn_detachCheckpoint (h : SettledIn db ended)
    (id : JobIdentity) : SettledIn (db.detachCheckpoint id) ended := by
  unfold detachCheckpoint
  split
  · exact h
  · exact h
  · exact h
  · exact h
  · intro key row hrow hsome other hother
    rw [get?_mapValues] at hrow
    obtain ⟨stored, hstored, rfl⟩ := Option.map_eq_some_iff.mp hrow
    by_cases hcurrent : stored.currentJob = some id
    · rw [if_pos hcurrent] at hother
      cases hother
    · rw [if_neg hcurrent] at hsome hother
      exact h key stored hstored hsome other hother

theorem slotStep_detachCheckpoint {db₁ : Database} {id : JobIdentity}
    (hcurrent : ∀ slot, db₁.current slot = (db.detachCheckpoint id).current slot)
    (hunwanted : ∀ job', db₁.jobs.get? id = some job' → ¬ job'.IsWanted) (slot : Slot) :
    SlotStep db db₁ slot := by
  have hdetached := (hcurrent slot).trans
    (current_detachCheckpoint (fun slot id h => (hdb.pointed slot id h).1) id slot)
  by_cases hid : db.current slot = some id
  · rw [if_pos hid] at hdetached
    refine .moved (fun other hother => ?_) fun old job' hold => ?_
    · rw [hdetached] at hother
      cases hother
    · cases hid.symm.trans hold
      exact hunwanted job'
  · rw [if_neg hid] at hdetached
    exact .kept hdetached

include hpointed in
omit hdb in
theorem current_detachCheckpoint_ne (id : JobIdentity) (slot : Slot) :
    (db.detachCheckpoint id).current slot ≠ some id := by
  rw [current_detachCheckpoint hpointed]
  split_ifs with hid
  · nofun
  · exact hid

theorem evolves_cancel_waiting {id : JobIdentity} (hjob : db.jobs.get? id = some job)
    (hwaiting : job.IsWaiting)
    (hchanges : AdmissibleChanges db (db.planTerminalDependents [id] .empty))
    (hdb' : db' = (((db.cancelledDependents id).detachCheckpoint id).updateJob id
      (·.cancelByOperator db.clock)).insertNotice
        { ofTenant := false, jobId := id, state := .cancelled }) :
    ∃ added, Evolves db db' added := by
  have hpointed (slot : Slot) (id : JobIdentity) (h : db.current slot = some id) :=
    (hdb.pointed slot id h).1
  unfold cancelledDependents at hdb'
  -- the cancelled job is not one of its dependents
  have hnone : (db.planTerminalDependents [id] .empty).get? id = none := by
    rw [get?_planTerminalDependents, if_neg fun hmem =>
      (mem_terminalDependents hmem).1 mem_cons_self, get?_empty]
  generalize db.planTerminalDependents [id] .empty = changes at hchanges hnone hdb'
  have hagree := @agreeAt_applyPlannedJobChanges db changes
  have hrows := @applyPlannedJobChanges_eq db changes
  have hevolves := evolves_applyPlannedJobChanges hdb hchanges
  generalize db.applyPlannedJobChanges changes = mid at hagree hrows hevolves hdb'
  have hdetached : SameRows mid (mid.detachCheckpoint id) := sameRows_detachCheckpoint id
  have hcurrent (slot : Slot) :
      (mid.detachCheckpoint id).current slot = (db.detachCheckpoint id).current slot := by
    rw [current_detachCheckpoint hpointed, current_detachCheckpoint fun slot id h =>
      hpointed slot id ((hagree slot).1.symm.trans h), (hagree slot).1]
  have hgeneration (kind : JobKind) (slot : Slot) :
      (mid.detachCheckpoint id).generation kind slot = db.generation kind slot := by
    rw [generation_detachCheckpoint, (hagree slot).2]
  have hsettled {ended : JobIdentity → Prop} (h : SettledIn mid ended) :=
    settledIn_detachCheckpoint h id
  generalize mid.detachCheckpoint id = detached at hdetached hcurrent hgeneration hsettled hdb'
  have houtbox : detached.outbox = (db.insertNotices (db.changeNotices changes)).outbox := by
    rw [hdetached, hrows]
  have hjobs (other : JobIdentity) : db'.jobs.get? other = (mid.jobs.get? other).map fun row =>
      if other = id then row.cancelByOperator db.clock else row := by
    rw [hdb', ← insertNotices_singleton, jobs_insertNotices, updateJob, get?_mapValues, hdetached]
  have hmid (other : JobIdentity) : mid.jobs.get? other =
      (db.jobs.get? other).map (db.changedRow changes other) := by
    rw [hrows, get?_mapValues]
  have hjob' : db'.jobs.get? id = some (job.cancelByOperator db.clock) := by
    rw [hjobs, hmid, hjob, map_some, map_some, if_pos rfl, changedRow, hnone]
  have hterminal : (job.cancelByOperator db.clock).state.isNonterminal = false := by
    rw [Job.state_cancelByOperator, if_neg hwaiting.ne_leased]
    rfl
  have hslot (slot : Slot) : db'.current slot = (db.detachCheckpoint id).current slot := by
    rw [hdb', ← insertNotices_singleton, current_insertNotices, ← hcurrent]
    cases slot <;> rfl
  have hchange : JobChange db db' id job _ _ := .cancelByOperator hwaiting.nonterminal
    fun slot => (hslot slot).trans_ne (current_detachCheckpoint_ne hpointed id slot)
  refine ⟨_, evolves_of_changes hjob hchange ?_ ?_ (fun kind slot => ?_) ?_ ?_ hchanges hnone
    (fun other => ?_) ?_⟩
  · constructor <;> rw [hdb', ← insertNotices_singleton, insertNotices_eq, updateJob, hdetached,
      hrows]
  · refine slotStep_detachCheckpoint hdb hslot fun job' hfound hwanted => ?_
    cases hjob'.symm.trans hfound
    cases hwanted.2
  · rw [hdb', ← insertNotices_singleton, generation_insertNotices, ← hgeneration]
    cases kind <;> cases slot <;> exact le_rfl
  · have hover : SettledIn mid fun id => ∀ job', db'.jobs.get? id = some job' →
        job'.state.isNonterminal = false := by
      intro key row hrow hsome other hother job' hfound
      by_cases heq : other = id
      · subst heq
        cases hjob'.symm.trans hfound
        exact hterminal
      · rw [hjobs, map_eq_some_iff] at hfound
        obtain ⟨found, hfound, hrest⟩ := hfound
        rw [if_neg heq] at hrest
        exact hrest ▸ hevolves.settled key row hrow hsome other found hother hfound
    have hdone := hsettled hover
    intro key row hrow
    refine hdone key row ?_
    rw [hdb', ← insertNotices_singleton, analyses_insertNotices] at hrow
    exact hrow
  · rw [hdb', ← insertNotices_singleton, revisionSnapshots_insertNotices, updateJob, hdetached,
      hrows]
    exact fun _ _ => .inl
  · rw [hjobs, hmid, Option.map_map]
    by_cases hother : other = id
    · subst hother
      rw [hjob, map_some, map_some, Function.comp_apply, if_pos rfl, if_pos rfl, changedRow, hnone]
    · simp [hother, Function.comp_def]
  · have hupdated : (detached.updateJob id (·.cancelByOperator db.clock)).outbox =
        (db.insertNotices (db.changeNotices changes)).outbox := houtbox
    rw [hdb', insertNotices_append, Job.displacedNotice, if_pos hwaiting, ← insertNotices_singleton]
    exact outbox_insertNotices_congr hupdated _

theorem evolves_cancelJob {id : JobIdentity} (h : db.cancelJob id = .ok db') :
    ∃ added, Evolves db db' added := by
  obtain ⟨job, hjob, hrest⟩ := orRaise_bind_eq_ok.mp h
  obtain ⟨-, -, hrest⟩ := bind_eq_ok.mp hrest
  have hpointed (slot : Slot) (id : JobIdentity) (h : db.current slot = some id) :=
    (hdb.pointed slot id h).1
  have hdependents (hstate : job.state ≠ .succeeded) :
      AdmissibleChanges db (db.planTerminalDependents [id] .empty) := by
    refine admissible_planTerminalDependents hdb (fun root hroot found hfound => ?_)
      (ClaimProgress.Sound.empty db).admissible
    obtain rfl := List.mem_singleton.mp hroot
    cases hfound.symm.trans hjob
    exact hstate
  have hunwanted : ¬ (job.cancelByOperator db.clock).IsWanted := fun hwanted => by
    cases hwanted.2
  cases hstate : job.state with
  | succeeded | failed | superseded =>
    rw [hstate] at hrest
    cases pure_eq_ok.mp hrest
    exact ⟨_, evolves_refl hdb⟩
  | cancelled =>
    rw [hstate] at hrest
    cases pure_eq_ok.mp hrest
    exact ⟨_, evolves_applyPlannedJobChanges hdb (hdependents (by simp [hstate]))⟩
  | leased =>
    rw [hstate] at hrest
    have hdb' := (pure_eq_ok.mp hrest).symm
    have hrows : SameRows db (db.detachCheckpoint id) := sameRows_detachCheckpoint id
    have hjobs : db'.jobs = (db.updateJob id (·.cancelByOperator db.clock)).jobs := by
      rw [hdb', hrows]
      rfl
    have hcurrent (slot : Slot) : db'.current slot = (db.detachCheckpoint id).current slot := by
      rw [hdb']
      cases slot <;> rfl
    have hchange : JobChange db db' id job (job.cancelByOperator db.clock) none := by
      have hcancel : JobChange db db' id job _ _ := .cancelByOperator (by rw [hstate]; rfl)
        fun slot => (hcurrent slot).trans_ne (current_detachCheckpoint_ne hpointed id slot)
      rwa [Job.displacedNotice, if_neg fun hwaiting => hwaiting.ne_leased hstate] at hcancel
    refine ⟨_, evolves_of_update hjob hchange ?_ ?_ (fun kind slot => ?_) ?_ ?_ hjobs
      (by rw [hdb', hrows]; rfl)⟩
    · constructor <;> rw [hdb', hrows] <;> rfl
    · refine slotStep_detachCheckpoint hdb hcurrent fun job' hjob' => ?_
      rw [hjobs, updateJob, get?_mapValues, hjob, map_some, if_pos rfl] at hjob'
      cases hjob'
      exact hunwanted
    · rw [← generation_detachCheckpoint id, hdb']
      cases kind <;> cases slot <;> exact le_rfl
    · have hover := settledIn_detachCheckpoint
        (settledIn_of_changed hdb (changed_of_update hjob hchange hjobs)) id
      rw [hdb'] at hover ⊢
      exact hover
    · rw [hdb', hrows]
      exact fun _ _ => .inl
  | queued | retryWait =>
    rw [hstate] at hrest
    exact evolves_cancel_waiting hdb hjob (by simp [Job.IsWaiting, hstate])
      (hdependents (by simp [hstate])) (pure_eq_ok.mp hrest).symm

end Operations

end ApiTruth.Orchestration.Queue
