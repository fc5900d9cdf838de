import ApiTruth.Orchestration.Queue.System

/-!
# Coherent job tables

A job that is still wanted is the current job of its checkpoint and belongs to the active
configuration; a checkpoint never points to a job that was cancelled or superseded; a job is leased
only after its prerequisites have succeeded; and every notice in the outbox is about a state that
its job has been in.  These facts hold between any two transactions.

## Main definitions

* `Job.IsWaiting`, `Job.IsWanted` : a job in the queue, and one that is not to be stopped.
* `allows` : a configuration lists what a job is about.
* `StateNotice.Fits` : a notice says what has happened to its job.
* `Database.Coherent` : the invariant of the job tables.
-/

namespace ApiTruth.Orchestration.Queue

open Catalog Checked

/-! ### Jobs -/

namespace Job

/-- The job is in the queue, for its first or for another attempt. -/
def IsWaiting (job : Job) : Prop := job.state = .queued ∨ job.state = .retryWait

/-- The job is not over, and nobody has asked to stop it. -/
def IsWanted (job : Job) : Prop :=
  job.state.isNonterminal = true ∧ job.cancellationRequested = false

/-- The job has been neither cancelled nor superseded, and is not about to be. -/
def IsRespected (job : Job) : Prop :=
  job.cancellationRequested = false ∧ job.state ≠ .cancelled ∧ job.state ≠ .superseded

variable {job : Job}

theorem IsWaiting.nonterminal (h : job.IsWaiting) : job.state.isNonterminal = true := by
  rcases h with h | h <;> rw [h] <;> rfl

instance (job : Job) : Decidable job.IsWaiting := inferInstanceAs (Decidable (_ ∨ _))

theorem IsWaiting.ne_leased (h : job.IsWaiting) : job.state ≠ .leased := by
  rcases h with h | h <;> rw [h] <;> decide

theorem nonterminal_iff : job.state.isNonterminal = true ↔ job.IsWaiting ∨ job.state = .leased := by
  rw [IsWaiting]
  cases job.state <;> simp [JobState.isNonterminal]

variable (job) (clock : ℕ) (next : JobIdentity)

theorem state_supersede :
    (job.supersede clock next).state = if job.IsWaiting then .superseded else job.state := by
  unfold supersede IsWaiting
  split <;> simp_all

theorem state_cancel :
    (job.cancel clock).state = if job.IsWaiting then .cancelled else job.state := by
  unfold cancel IsWaiting
  split <;> simp_all

theorem state_cancelByOperator :
    (job.cancelByOperator clock).state = if job.state = .leased then .leased else .cancelled :=
  rfl

end Job

/-! ### Configurations -/

/-- The configuration is the one of the job; it lists the service, the branch of a branch job, and
some branch for a pull request job. -/
def allows (configuration : SchedulingConfiguration) (id : JobIdentity) : Bool :=
  configuration.fingerprint == id.configFingerprint &&
    (configuration.document.findService id.repositoryId id.serviceId).any fun target =>
      match id.kind with
      | .branchAnalysis | .branchReconciliation =>
        id.branch.any (· ∈ target.service.intendedBranches)
      | .prPreviewAnalysis | .prReconciliation => 0 < target.service.intendedBranches.length
      | .baselineAnalysis => true

namespace Database

variable {db db' : Database}

theorem readActive_eq_ok {active : ActiveConfiguration} {configuration : SchedulingConfiguration} :
    db.readActive = .ok (active, configuration) ↔
      db.active = some active ∧ configuration.fingerprint = active.fingerprint ∧
        db.configurations.get? active.fingerprint = some configuration.document := by
  unfold readActive
  constructor
  · intro hread
    obtain ⟨found, hactive, hread⟩ := orRaise_bind_eq_ok.mp hread
    obtain ⟨document, hdocument, hread⟩ := orRaise_bind_eq_ok.mp hread
    cases pure_eq_ok.mp hread
    exact ⟨hactive, rfl, hdocument⟩
  · rintro ⟨hactive, hfingerprint, hdocument⟩
    obtain ⟨fingerprint, document⟩ := configuration
    obtain rfl : fingerprint = active.fingerprint := hfingerprint
    rw [hactive]
    exact orRaise_bind_eq_ok.mpr ⟨active, rfl, orRaise_bind_eq_ok.mpr ⟨document, hdocument, rfl⟩⟩

theorem isAllowedByActiveConfig_iff {id : JobIdentity} :
    db.isAllowedByActiveConfig id = true ↔
      ∃ active configuration, db.readActive = .ok (active, configuration) ∧
        allows configuration id = true := by
  unfold isAllowedByActiveConfig
  cases hread : db.readActive with
  | error e => simp
  | ok found =>
    obtain ⟨active, configuration⟩ := found
    constructor
    · exact fun hallowed => ⟨active, configuration, rfl, hallowed⟩
    · rintro ⟨_, _, hfound, hallowed⟩
      cases hfound
      exact hallowed

end Database

/-! ### The invariant -/

/-- The notice is about a state that the job has been in. -/
def StateNotice.Fits (notice : StateNotice) (job : Job) : Prop :=
  match notice.state with
  | .queued => True
  | .leased => ∃ count ≤ job.attemptCount, notice.reason = some (.attempt count)
  | .retryWait => ∃ count ≤ job.attemptCount, notice.reason = some (.attempt count) ∧
      (job.state = .leased → count < job.attemptCount)
  | .succeeded | .failed | .cancelled | .superseded => job.state.isNonterminal = false

structure Database.Coherent (db : Database) : Prop where
  /-- Configurations and events are checked before they are stored. -/
  configured : ∀ fingerprint document, db.configurations.get? fingerprint = some document →
    isValidConfig document = true
  recorded : ∀ key stored, db.events.get? key = some stored → isValidEvent stored.envelope = true
  keyed : ∀ id job, db.jobs.get? id = some job → job.identity = id
  /-- Every job was asked for by its checkpoint. -/
  slotted : ∀ id job, db.jobs.get? id = some job → ∃ slot, id.slot = some slot ∧
    slot.serviceId = id.serviceId ∧ id.generation ≤ db.generation id.kind slot
  attempts : ∀ id job, db.jobs.get? id = some job → job.IsWaiting →
    job.attemptCount < job.maxAttempts
  waiting : ∀ id job, db.jobs.get? id = some job → job.IsWaiting →
    job.cancellationRequested = false
  superseded : ∀ id job, db.jobs.get? id = some job → job.supersedingJob.isSome = true →
    job.cancellationRequested = true
  /-- A wanted job is the current one and belongs to the active configuration. -/
  held : ∀ id job, db.jobs.get? id = some job → job.IsWanted →
    (∃ slot, id.slot = some slot ∧ db.current slot = some id) ∧
      db.isAllowedByActiveConfig id = true
  pointed : ∀ slot id, db.current slot = some id → id.slot = some slot ∧
    ∃ job, db.jobs.get? id = some job ∧ job.IsRespected
  /-- A baseline whose checkpoint has recorded an outcome is over. -/
  settled : ∀ key row, db.analyses.get? key = some row → row.lastTerminalOutcome.isSome = true →
    ∀ id job, row.currentJob = some id → db.jobs.get? id = some job →
      job.state.isNonterminal = false
  /-- Previews depend on baselines, and are leased after these. -/
  depended : ∀ dependency ∈ db.dependencies, dependency.jobId.kind = .prPreviewAnalysis ∧
    ∃ job prerequisite, db.jobs.get? dependency.jobId = some job ∧
      db.jobs.get? dependency.prerequisiteJobId = some prerequisite ∧
        (job.state = .leased → prerequisite.state = .succeeded)
  produced : ∀ analysis row, db.revisionSnapshots.get? analysis = some row →
    ∃ job, db.jobs.get? row.producingJob = some job ∧ job.state = .succeeded
  notified : ∀ notice ∈ db.outbox, ∃ job, db.jobs.get? notice.jobId = some job ∧ notice.Fits job

namespace Database.Coherent

variable {db : Database} (hdb : db.Coherent)

include hdb

variable {id : JobIdentity}

theorem isWanted_of_isWaiting {job : Job} (hjob : db.jobs.get? id = some job)
    (hwaiting : job.IsWaiting) : job.IsWanted :=
  ⟨hwaiting.nonterminal, hdb.waiting id job hjob hwaiting⟩

theorem supersedingJob_of_isWaiting {job : Job}
    (hjob : db.jobs.get? id = some job) (hwaiting : job.IsWaiting) : job.supersedingJob = none := by
  by_contra hne
  have hrequested := hdb.superseded id job hjob (Option.isSome_iff_ne_none.mpr hne)
  rw [hdb.waiting id job hjob hwaiting] at hrequested
  cases hrequested

theorem eq_of_current_eq {slot slot' : Slot} (h : db.current slot = some id)
    (h' : db.current slot' = some id) : slot = slot' :=
  Option.some.inj ((hdb.pointed slot id h).1.symm.trans (hdb.pointed slot' id h').1)

theorem get?_eq_none_of_lt {slot : Slot} (hslot : id.slot = some slot)
    (hgeneration : db.generation id.kind slot < id.generation) : db.jobs.get? id = none := by
  by_contra hne
  obtain ⟨job, hjob⟩ := Option.ne_none_iff_exists'.mp hne
  obtain ⟨found, hfound, -, hle⟩ := hdb.slotted id job hjob
  rw [hslot] at hfound
  cases hfound
  omega

end Database.Coherent

theorem coherent_initial {db : Database} (hdb : IsInitial db) : db.Coherent := by
  obtain ⟨clock, catalog, rfl⟩ := hdb
  constructor <;> intros <;> simp_all [Database.initial, Database.current]
  cases ‹Slot› <;> simp_all

end ApiTruth.Orchestration.Queue
