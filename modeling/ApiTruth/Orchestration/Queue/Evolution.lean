import ApiTruth.Orchestration.Queue.Planning

/-!
# What a transaction does to the job tables

A transaction changes each job at most once and gives one notice for every change of a state; new
jobs are current jobs of their checkpoints; and a job that gives up its checkpoint is over or about
to be.  Such a transaction keeps the job tables coherent.

## Main definitions

* `PlannedJobChange.Admissible` : the planned changes that a coherent database admits.
* `JobChange` : what a transaction does to one job, with the notice of it.
* `Evolves` : what a transaction does to the job tables.

## Main results

* `Evolves.coherent` : coherence is kept.
-/

namespace ApiTruth.Orchestration.Queue

open Catalog Checked List

/-! ### Changes of one job -/

/-- The planned changes of a job that can be found in a coherent database. -/
inductive PlannedJobChange.Admissible (db : Database) (id : JobIdentity) (job : Job) :
    PlannedJobChange → Prop
  | claim (worker : WorkerIdentity) (token : String) :
      job.IsWaiting → db.readyPrerequisites id = true → Admissible db id job (.claim worker token)
  | retry (delay : ℕ) (code : Option OrchestrationErrorCode) :
      job.state = .leased → job.cancellationRequested = false →
        job.attemptCount < job.maxAttempts → Admissible db id job (.retry delay code)
  | exhausted :
      job.state = .leased → job.cancellationRequested = false →
        job.maxAttempts ≤ job.attemptCount →
        Admissible db id job (.terminal .failed (some (executionFailureCode id.kind)))
  | dependencyFailed :
      job.IsWaiting → id.kind = .prPreviewAnalysis →
        Admissible db id job (.terminal .failed (some .jobDependencyFailed))
  | settled :
      job.state = .leased → job.cancellationRequested = true →
        Admissible db id job
          (.terminal (if job.supersedingJob.isSome = true then .superseded else .cancelled) none)

/-- The notice that a waiting job has been displaced or cancelled. -/
def Job.displacedNotice (job : Job) (notice : StateNotice) : Option StateNotice :=
  if job.IsWaiting then some notice else none

/-- What a transaction does to one job, with the notice of it.  A job that is displaced is not the
current job of a checkpoint afterwards. -/
inductive JobChange (db db' : Database) (id : JobIdentity) (job : Job) :
    Job → Option StateNotice → Prop
  | unchanged : JobChange db db' id job job none
  | planned (change : PlannedJobChange) : change.Admissible db id job →
      JobChange db db' id job (change.apply db.clock job) (change.notice id job)
  | heartbeat : job.state = .leased → JobChange db db' id job (job.heartbeat db.clock) none
  | supersede (next : JobIdentity) : (∀ slot, db'.current slot ≠ some id) →
      JobChange db db' id job (job.supersede db.clock next)
        (job.displacedNotice { jobId := id, state := .superseded,
                               transitionIdentity := some (.supersededBy next) })
  | cancel : (∀ slot, db'.current slot ≠ some id) →
      JobChange db db' id job (job.cancel db.clock)
        (job.displacedNotice { jobId := id, state := .cancelled,
                               transitionIdentity := some .subjectClosed })
  | cancelByOperator : job.state.isNonterminal = true → (∀ slot, db'.current slot ≠ some id) →
      JobChange db db' id job (job.cancelByOperator db.clock)
        (job.displacedNotice { ofTenant := false, jobId := id, state := .cancelled })
  | succeed (resultSnapshotId : Option String) : job.state = .leased →
      job.cancellationRequested = false →
        JobChange db db' id job (job.succeed db.clock resultSnapshotId)
          (some { jobId := id, state := .succeeded })

def createdNotice (id : JobIdentity) : StateNotice :=
  { jobId := id, state := .queued, transitionIdentity := some (.created id) }

/-- A new job is the current one of its checkpoint, and the active configuration allows it. -/
structure Created (db db' : Database) (id : JobIdentity) (job : Job) : Prop where
  row : ∃ prepared : PreparedJob, prepared.identity = id ∧ job = db.newJob prepared
  slot : ∃ slot, id.slot = some slot ∧ slot.serviceId = id.serviceId ∧ db'.current slot = some id ∧
    id.generation ≤ db'.generation id.kind slot
  allowed : db'.isAllowedByActiveConfig id = true

/-- A checkpoint keeps its current job, or lets go of a job that is not wanted any more. -/
inductive SlotStep (db db' : Database) (slot : Slot) : Prop
  | kept (hcurrent : db'.current slot = db.current slot)
  | moved (hcurrent : ∀ id, db'.current slot = some id → db.jobs.get? id = none ∧
        id.slot = some slot ∧ ∃ job, db'.jobs.get? id = some job)
      (hunwanted : ∀ old job', db.current slot = some old → db'.jobs.get? old = some job' →
        ¬ job'.IsWanted)

/-- What a transaction does to the job tables, with the notices that it adds. -/
structure Evolves (db db' : Database) (added : List StateNotice) : Prop where
  configurations : ∀ fingerprint document, db.configurations.get? fingerprint = some document →
    db'.configurations.get? fingerprint = some document
  configured : ∀ fingerprint document, db'.configurations.get? fingerprint = some document →
    db.configurations.get? fingerprint = some document ∨ isValidConfig document = true
  recorded : ∀ key stored, db'.events.get? key = some stored →
    db.events.get? key = some stored ∨ isValidEvent stored.envelope = true
  active : db'.active = db.active ∨ ∀ id job job', db.jobs.get? id = some job →
    db'.jobs.get? id = some job' → ¬ job'.IsWanted
  changed : ∀ id job, db.jobs.get? id = some job → ∃ job' notice,
    db'.jobs.get? id = some job' ∧ JobChange db db' id job job' notice ∧
      ∀ other, other.jobId = id → (other ∈ added ↔ notice = some other)
  created : ∀ id job', db.jobs.get? id = none → db'.jobs.get? id = some job' →
    Created db db' id job' ∧ ∀ other, other.jobId = id → (other ∈ added ↔ other = createdNotice id)
  addressed : ∀ notice ∈ added, ∃ job', db'.jobs.get? notice.jobId = some job'
  nodup : (added.map StateNotice.jobId).Nodup
  outbox : db'.outbox = (db.insertNotices added).outbox
  slots : ∀ slot, SlotStep db db' slot
  generations : ∀ kind slot, db.generation kind slot ≤ db'.generation kind slot
  settled : ∀ key row, db'.analyses.get? key = some row → row.lastTerminalOutcome.isSome = true →
    ∀ id job', row.currentJob = some id → db'.jobs.get? id = some job' →
      job'.state.isNonterminal = false
  dependencies : ∀ dependency ∈ db'.dependencies, dependency ∈ db.dependencies ∨
    db.jobs.get? dependency.jobId = none ∧ dependency.jobId.kind = .prPreviewAnalysis ∧
      (∃ job', db'.jobs.get? dependency.jobId = some job') ∧
      ∃ job', db'.jobs.get? dependency.prerequisiteJobId = some job'
  produced : ∀ analysis row, db'.revisionSnapshots.get? analysis = some row →
    db.revisionSnapshots.get? analysis = some row ∨
      ∃ job', db'.jobs.get? row.producingJob = some job' ∧ job'.state = .succeeded

/-! ### Facts about a change -/

namespace JobChange

variable {db db' : Database} {id : JobIdentity} {job job' : Job} {notice : Option StateNotice}

section

variable (hchange : JobChange db db' id job job' notice)
include hchange

theorem state_of_terminal
    (hterminal : job.state.isNonterminal = false) : job'.state = job.state := by
  cases hchange with
  | unchanged => rfl
  | planned change hchange =>
    cases hchange with
    | claim _ _ hwaiting | dependencyFailed hwaiting =>
      rw [hwaiting.nonterminal] at hterminal
      cases hterminal
    | retry _ _ hleased | exhausted hleased | settled hleased =>
      rw [hleased] at hterminal
      cases hterminal
  | heartbeat => rfl
  | supersede next hcurrent =>
    unfold Job.supersede
    split <;> simp_all [JobState.isNonterminal]
  | cancel hcurrent =>
    unfold Job.cancel
    split <;> simp_all [JobState.isNonterminal]
  | cancelByOperator hnonterminal =>
    rw [hnonterminal] at hterminal
    cases hterminal
  | succeed _ hleased =>
    rw [hleased] at hterminal
    cases hterminal

theorem notice_cases :
    notice = none ∧ job'.state = job.state ∨
      ∃ given, notice = some given ∧ given.jobId = id ∧ given.state = job'.state ∧
        job'.state ≠ job.state ∧ job.state.isNonterminal = true := by
  cases hchange with
  | unchanged => exact .inl ⟨rfl, rfl⟩
  | planned change hchange =>
    cases hchange with
    | claim worker token hwaiting =>
      exact .inr ⟨_, rfl, rfl, rfl, hwaiting.ne_leased.symm, hwaiting.nonterminal⟩
    | retry delay code hleased =>
      exact .inr ⟨_, rfl, rfl, rfl, by rw [hleased]; nofun, by rw [hleased]; rfl⟩
    | exhausted hleased =>
      exact .inr ⟨_, rfl, rfl, rfl, by rw [hleased]; nofun, by rw [hleased]; rfl⟩
    | dependencyFailed hwaiting =>
      refine .inr ⟨_, rfl, rfl, rfl, ?_, hwaiting.nonterminal⟩
      rcases hwaiting with h | h <;> rw [h] <;> nofun
    | settled hleased =>
      refine .inr ⟨_, rfl, rfl, rfl, ?_, by rw [hleased]; rfl⟩
      rw [hleased]
      split <;> nofun
  | heartbeat => exact .inl ⟨rfl, rfl⟩
  | supersede next hcurrent =>
    rw [Job.displacedNotice, Job.state_supersede]
    split_ifs with hwaiting
    · refine .inr ⟨_, rfl, rfl, rfl, ?_, hwaiting.nonterminal⟩
      rcases hwaiting with h | h <;> rw [h] <;> nofun
    · exact .inl ⟨rfl, rfl⟩
  | cancel hcurrent =>
    rw [Job.displacedNotice, Job.state_cancel]
    split_ifs with hwaiting
    · refine .inr ⟨_, rfl, rfl, rfl, ?_, hwaiting.nonterminal⟩
      rcases hwaiting with h | h <;> rw [h] <;> nofun
    · exact .inl ⟨rfl, rfl⟩
  | cancelByOperator hnonterminal =>
    rw [Job.displacedNotice, Job.state_cancelByOperator]
    rcases Job.nonterminal_iff.mp hnonterminal with hwaiting | hleased
    · rw [if_pos hwaiting, if_neg hwaiting.ne_leased]
      refine .inr ⟨_, rfl, rfl, rfl, ?_, hnonterminal⟩
      rcases hwaiting with h | h <;> rw [h] <;> nofun
    · rw [if_pos hleased, if_neg fun hwaiting => hwaiting.ne_leased hleased]
      exact .inl ⟨rfl, hleased.symm⟩
  | succeed _ hleased =>
    exact .inr ⟨_, rfl, rfl, rfl, by rw [hleased]; nofun, by rw [hleased]; rfl⟩

theorem isWanted (hwanted : job'.IsWanted) :
    job.IsWanted := by
  cases hchange with
  | unchanged => exact hwanted
  | planned change hchange =>
    cases hchange with
    | claim worker token hwaiting => exact ⟨hwaiting.nonterminal, hwanted.2⟩
    | retry delay code hleased => exact ⟨by rw [hleased]; rfl, hwanted.2⟩
    | exhausted | dependencyFailed => exact absurd hwanted.1 Bool.false_ne_true
    | settled =>
      have hterminal := hwanted.1
      split at hterminal <;> cases hterminal
  | heartbeat => exact hwanted
  | supersede next hcurrent =>
    obtain ⟨hstate', hrequested'⟩ := hwanted
    cases hstate : job.state <;> simp_all [Job.supersede, JobState.isNonterminal]
  | cancel hcurrent =>
    obtain ⟨hstate', hrequested'⟩ := hwanted
    cases hstate : job.state <;> simp_all [Job.cancel, JobState.isNonterminal]
  | cancelByOperator => exact absurd hwanted.2 (by simp [Job.cancelByOperator])
  | succeed => exact absurd hwanted.1 Bool.false_ne_true

theorem isWaiting_cases (hwaiting : job'.IsWaiting) :
    job' = job ∨ job.state = .leased ∧ job'.attemptCount = job.attemptCount ∧
      job.attemptCount < job.maxAttempts ∧ job'.maxAttempts = job.maxAttempts ∧
      job'.cancellationRequested = false := by
  cases hchange with
  | unchanged => exact .inl rfl
  | planned change hchange =>
    cases hchange with
    | claim | exhausted | dependencyFailed => rcases hwaiting with h | h <;> cases h
    | retry delay code hleased hrequested hattempts =>
      exact .inr ⟨hleased, rfl, hattempts, rfl, hrequested⟩
    | settled =>
      split at hwaiting <;> rcases hwaiting with h | h <;> cases h
  | heartbeat hleased => exact absurd hleased hwaiting.ne_leased
  | supersede next hcurrent =>
    cases hstate : job.state <;> simp_all [Job.supersede, Job.IsWaiting]
  | cancel hcurrent =>
    cases hstate : job.state <;> simp_all [Job.cancel, Job.IsWaiting]
  | cancelByOperator =>
    simp only [Job.IsWaiting, Job.cancelByOperator] at hwaiting
    split at hwaiting <;> rcases hwaiting with h | h <;> cases h
  | succeed => rcases hwaiting with h | h <;> cases h

/-- A job that is leased afterwards was leased before, or waited for prerequisites that have
succeeded. -/
theorem leased_cases (hleased : job'.state = .leased) :
    job.state = .leased ∧ job'.attemptCount = job.attemptCount ∨
      job.IsWaiting ∧ db.readyPrerequisites id = true ∧
        job'.attemptCount = job.attemptCount + 1 := by
  cases hchange with
  | unchanged => exact .inl ⟨hleased, rfl⟩
  | planned change hchange =>
    cases hchange with
    | claim worker token hwaiting hready => exact .inr ⟨hwaiting, hready, rfl⟩
    | retry | exhausted | dependencyFailed => cases hleased
    | settled =>
      split at hleased <;> cases hleased
  | heartbeat hheld => exact .inl ⟨hheld, rfl⟩
  | supersede next hcurrent =>
    cases hstate : job.state <;> simp_all [Job.supersede]
  | cancel hcurrent =>
    cases hstate : job.state <;> simp_all [Job.cancel]
  | cancelByOperator =>
    rw [Job.state_cancelByOperator] at hleased
    split_ifs at hleased with hheld
    exact .inl ⟨hheld, rfl⟩
  | succeed => cases hleased

theorem attemptCount_le :
    job.attemptCount ≤ job'.attemptCount := by
  cases hchange with
  | planned change hchange => cases hchange <;> simp [PlannedJobChange.apply, Job.claim, Job.retry,
      Job.terminate]
  | supersede => unfold Job.supersede; split <;> exact le_rfl
  | cancel => unfold Job.cancel; split <;> exact le_rfl
  | _ => exact le_rfl

theorem supersedingJob_isSome
    (hjob : job.supersedingJob.isSome = true → job.cancellationRequested = true)
    (hsome : job'.supersedingJob.isSome = true) : job'.cancellationRequested = true := by
  cases hchange with
  | planned change hchange => cases hchange <;> exact hjob hsome
  | supersede next hcurrent =>
    cases hstate : job.state <;> simp_all [Job.supersede]
  | cancel hcurrent =>
    cases hstate : job.state <;> simp_all [Job.cancel]
  | cancelByOperator => rfl
  | _ => exact hjob hsome

theorem isRespected (hjob : job.IsRespected)
    {slot : Slot} (hcurrent : db'.current slot = some id) : job'.IsRespected := by
  cases hchange with
  | unchanged | heartbeat => exact hjob
  | planned change hchange =>
    cases hchange with
    | claim | retry | exhausted | dependencyFailed => exact ⟨hjob.1, by nofun, by nofun⟩
    | settled _ hrequested =>
      rw [hjob.1] at hrequested
      cases hrequested
  | supersede _ hdisplaced | cancel hdisplaced | cancelByOperator _ hdisplaced =>
    exact absurd hcurrent (hdisplaced slot)
  | succeed => exact ⟨hjob.1, by nofun, by nofun⟩

theorem identity : job'.identity = job.identity := by
  cases hchange with
  | planned change => cases change <;> rfl
  | supersede => unfold Job.supersede; split <;> rfl
  | cancel => unfold Job.cancel; split <;> rfl
  | _ => rfl

theorem fits {other : StateNotice} (hfits : other.Fits job) : other.Fits job' := by
  have hmono := hchange.attemptCount_le
  unfold StateNotice.Fits at hfits ⊢
  cases hstate : other.state with
  | queued => trivial
  | leased =>
    rw [hstate] at hfits
    obtain ⟨count, hle, hreason⟩ := hfits
    exact ⟨count, hle.trans hmono, hreason⟩
  | retryWait =>
    rw [hstate] at hfits
    obtain ⟨count, hle, hreason, hlt⟩ := hfits
    refine ⟨count, hle.trans hmono, hreason, fun hleased => ?_⟩
    rcases hchange.leased_cases hleased with ⟨hheld, heq⟩ | ⟨-, -, heq⟩
    · rw [heq]
      exact hlt hheld
    · omega
  | succeeded | failed | cancelled | superseded =>
    rw [hstate] at hfits
    exact (hchange.state_of_terminal hfits) ▸ hfits

end

variable {given : StateNotice}

theorem fits_notice (hchange : JobChange db db' id job job' (some given)) :
    given.Fits job' := by
  generalize hnotice : some given = notice at hchange
  cases hchange with
  | unchanged | heartbeat => cases hnotice
  | planned change hchange =>
    cases hchange with
    | claim =>
      cases hnotice
      exact ⟨_, le_rfl, rfl⟩
    | retry =>
      cases hnotice
      exact ⟨_, le_rfl, rfl, by nofun⟩
    | exhausted | dependencyFailed => cases hnotice; rfl
    | settled =>
      cases hnotice
      split_ifs <;> rfl
  | supersede next hcurrent =>
    unfold Job.displacedNotice at hnotice
    split_ifs at hnotice with hwaiting
    cases hnotice
    rcases hwaiting with h | h <;> simp [StateNotice.Fits, Job.supersede, h, JobState.isNonterminal]
  | cancel hcurrent =>
    unfold Job.displacedNotice at hnotice
    split_ifs at hnotice with hwaiting
    cases hnotice
    rcases hwaiting with h | h <;> simp [StateNotice.Fits, Job.cancel, h, JobState.isNonterminal]
  | cancelByOperator hnonterminal =>
    unfold Job.displacedNotice at hnotice
    split_ifs at hnotice with hwaiting
    cases hnotice
    simp [StateNotice.Fits, Job.cancelByOperator, hwaiting.ne_leased, JobState.isNonterminal]
  | succeed => cases hnotice; rfl

theorem not_fits_notice
    (hchange : JobChange db db' id job job' (some given)) : ¬ given.Fits job := by
  intro hfits
  generalize hnotice : some given = notice at hchange
  cases hchange with
  | unchanged | heartbeat => cases hnotice
  | planned change hchange =>
    cases hchange with
    | claim =>
      cases hnotice
      obtain ⟨count, hle, hreason⟩ := hfits
      cases hreason
      omega
    | retry _ _ hleased =>
      cases hnotice
      obtain ⟨count, -, hreason, hlt⟩ := hfits
      cases hreason
      exact absurd (hlt hleased) (lt_irrefl _)
    | exhausted hleased =>
      cases hnotice
      rw [StateNotice.Fits, hleased] at hfits
      cases hfits
    | dependencyFailed hwaiting =>
      cases hnotice
      rw [StateNotice.Fits, hwaiting.nonterminal] at hfits
      cases hfits
    | settled hleased =>
      cases hnotice
      unfold StateNotice.Fits at hfits
      rw [hleased] at hfits
      split_ifs at hfits <;> cases hfits
  | supersede | cancel | cancelByOperator =>
    unfold Job.displacedNotice at hnotice
    split_ifs at hnotice with hwaiting
    cases hnotice
    rw [StateNotice.Fits, hwaiting.nonterminal] at hfits
    cases hfits
  | succeed _ hleased =>
    cases hnotice
    rw [StateNotice.Fits, hleased] at hfits
    cases hfits

end JobChange

namespace Created

variable {db db' : Database} {id : JobIdentity} {job : Job}

theorem state_eq (hjob : Created db db' id job) : job.state = .queued := by
  obtain ⟨prepared, -, rfl⟩ := hjob.row
  rfl

theorem cancellationRequested_eq (hjob : Created db db' id job) :
    job.cancellationRequested = false := by
  obtain ⟨prepared, -, rfl⟩ := hjob.row
  rfl

theorem isRespected (hjob : Created db db' id job) : job.IsRespected :=
  ⟨hjob.cancellationRequested_eq, by rw [hjob.state_eq]; nofun, by rw [hjob.state_eq]; nofun⟩

end Created

/-! ### Facts about a transaction -/

namespace Evolves

variable {db db' : Database} {added : List StateNotice} {id : JobIdentity} {notice : StateNotice}

theorem row_cases (h : Evolves db db' added) {job' : Job} (hjob' : db'.jobs.get? id = some job') :
    (∃ job notice, db.jobs.get? id = some job ∧ JobChange db db' id job job' notice) ∨
      Created db db' id job' := by
  cases hjob : db.jobs.get? id with
  | none => exact .inr (h.created id job' hjob hjob').1
  | some job =>
    obtain ⟨found, notice, hfound, hchange, -⟩ := h.changed id job hjob
    cases hfound.symm.trans hjob'
    exact .inl ⟨job, notice, rfl, hchange⟩

theorem isAllowedByActiveConfig (h : Evolves db db' added) (hactive : db'.active = db.active)
    (hallowed : db.isAllowedByActiveConfig id = true) :
    db'.isAllowedByActiveConfig id = true := by
  obtain ⟨active, configuration, hread, hallows⟩ := Database.isAllowedByActiveConfig_iff.mp hallowed
  obtain ⟨hfound, hfingerprint, hdocument⟩ := Database.readActive_eq_ok.mp hread
  exact Database.isAllowedByActiveConfig_iff.mpr ⟨active, configuration,
    Database.readActive_eq_ok.mpr ⟨hactive.trans hfound, hfingerprint,
      h.configurations _ _ hdocument⟩, hallows⟩

theorem notMem_outbox (h : Evolves db db' added) (hdb : db.Coherent)
    (hnotice : notice ∈ added) : notice ∉ db.outbox := by
  intro hmem
  obtain ⟨job, hjob, hfits⟩ := hdb.notified notice hmem
  obtain ⟨job', given, -, hchange, hadded⟩ := h.changed _ job hjob
  cases (hadded notice rfl).mp hnotice
  exact hchange.not_fits_notice hfits

theorem insertNotices_outbox {notices : List StateNotice}
    (hnew : ∀ notice ∈ notices, notice ∉ db.outbox) (hnodup : notices.Nodup) :
    (db.insertNotices notices).outbox = db.outbox ++ notices := by
  induction notices generalizing db with
  | nil => simp [Database.insertNotices]
  | cons notice notices ih =>
    rw [forall_mem_cons] at hnew
    rw [nodup_cons] at hnodup
    have hinsert : (db.insertNotice notice).outbox = db.outbox ++ [notice] := by
      rw [Database.insertNotice, if_neg hnew.1]
    have hrest := ih (fun other hother => by
      rw [hinsert, mem_append, mem_singleton, not_or]
      exact ⟨hnew.2 other hother, fun heq => hnodup.1 (heq ▸ hother)⟩) hnodup.2
    rw [hinsert, append_assoc] at hrest
    exact hrest

section

variable (h : Evolves db db' added) (hdb : db.Coherent)
include h hdb

theorem outbox_eq :
    db'.outbox = db.outbox ++ added :=
  h.outbox.trans (insertNotices_outbox (fun _ => h.notMem_outbox hdb) (Nodup.of_map _ h.nodup))

theorem held {job' : Job} (hjob' : db'.jobs.get? id = some job') (hwanted : job'.IsWanted) :
    (∃ slot, id.slot = some slot ∧ db'.current slot = some id) ∧
      db'.isAllowedByActiveConfig id = true := by
  rcases h.row_cases hjob' with ⟨job, notice, hjob, hchange⟩ | hcreated
  · obtain ⟨⟨slot, hslot, hcurrent⟩, hallowed⟩ := hdb.held id job hjob (hchange.isWanted hwanted)
    refine ⟨⟨slot, hslot, ?_⟩, ?_⟩
    · cases h.slots slot with
      | kept hkept => exact hkept.trans hcurrent
      | moved _ hunwanted => exact absurd hwanted (hunwanted id job' hcurrent hjob')
    · rcases h.active with hactive | hunwanted
      · exact h.isAllowedByActiveConfig hactive hallowed
      · exact absurd hwanted (hunwanted id job job' hjob hjob')
  · obtain ⟨slot, hslot, -, hcurrent, -⟩ := hcreated.slot
    exact ⟨⟨slot, hslot, hcurrent⟩, hcreated.allowed⟩

theorem pointed {slot : Slot} (hcurrent : db'.current slot = some id) : id.slot = some slot ∧
      ∃ job', db'.jobs.get? id = some job' ∧ job'.IsRespected := by
  cases h.slots slot with
  | kept hkept =>
    obtain ⟨hslot, job, hjob, hrespected⟩ := hdb.pointed slot id (hkept.symm.trans hcurrent)
    obtain ⟨job', notice, hjob', hchange, -⟩ := h.changed id job hjob
    exact ⟨hslot, job', hjob', hchange.isRespected hrespected hcurrent⟩
  | moved hnew =>
    obtain ⟨habsent, hslot, job', hjob'⟩ := hnew id hcurrent
    exact ⟨hslot, job', hjob', (h.created id job' habsent hjob').1.isRespected⟩

theorem depended {dependency : JobDependency} (hdependency : dependency ∈ db'.dependencies) :
    dependency.jobId.kind = .prPreviewAnalysis ∧ ∃ job prerequisite,
      db'.jobs.get? dependency.jobId = some job ∧
        db'.jobs.get? dependency.prerequisiteJobId = some prerequisite ∧
          (job.state = .leased → prerequisite.state = .succeeded) := by
  rcases h.dependencies dependency hdependency with hold | ⟨habsent, hkind, ⟨job', hjob'⟩, other,
    hother⟩
  · obtain ⟨hkind, job, prerequisite, hjob, hprerequisite, hready⟩ := hdb.depended dependency hold
    obtain ⟨job', notice, hjob', hchange, -⟩ := h.changed _ job hjob
    obtain ⟨prerequisite', notice', hprerequisite', hchange', -⟩ :=
      h.changed _ prerequisite hprerequisite
    refine ⟨hkind, job', prerequisite', hjob', hprerequisite', fun hleased => ?_⟩
    have hsucceeded : prerequisite.state = .succeeded := by
      rcases hchange.leased_cases hleased with ⟨hheld, -⟩ | ⟨-, hready', -⟩
      · exact hready hheld
      · simp only [Database.readyPrerequisites, Bool.not_eq_true', List.any_eq_false,
          Bool.and_eq_true, beq_iff_eq, not_and] at hready'
        simpa [hprerequisite] using hready' dependency hold rfl
    rw [hchange'.state_of_terminal (by rw [hsucceeded]; rfl), hsucceeded]
  · refine ⟨hkind, job', other, hjob', hother, fun hleased => ?_⟩
    rw [(h.created _ job' habsent hjob').1.state_eq] at hleased
    cases hleased

theorem notified (hnotice : notice ∈ db'.outbox) :
    ∃ job', db'.jobs.get? notice.jobId = some job' ∧ notice.Fits job' := by
  rw [h.outbox_eq hdb] at hnotice
  rcases List.mem_append.mp hnotice with hold | hnew
  · obtain ⟨job, hjob, hfits⟩ := hdb.notified notice hold
    obtain ⟨job', given, hjob', hchange, -⟩ := h.changed _ job hjob
    exact ⟨job', hjob', hchange.fits hfits⟩
  · obtain ⟨job', hjob'⟩ := h.addressed notice hnew
    refine ⟨job', hjob', ?_⟩
    cases hjob : db.jobs.get? notice.jobId with
    | none =>
      obtain ⟨-, hadded⟩ := h.created _ job' hjob hjob'
      rw [(hadded notice rfl).mp hnew]
      trivial
    | some job =>
      obtain ⟨found, given, hfound, hchange, hadded⟩ := h.changed _ job hjob
      cases hfound.symm.trans hjob'
      cases (hadded notice rfl).mp hnew
      exact hchange.fits_notice

/-- A transaction keeps the job tables coherent. -/
theorem coherent : db'.Coherent where
  configured fingerprint document hdocument :=
    (h.configured fingerprint document hdocument).elim (hdb.configured fingerprint document) id
  recorded key stored hstored :=
    (h.recorded key stored hstored).elim (hdb.recorded key stored) id
  keyed id job' hjob' := by
    rcases h.row_cases hjob' with ⟨job, notice, hjob, hchange⟩ | hcreated
    · exact hchange.identity.trans (hdb.keyed id job hjob)
    · obtain ⟨prepared, rfl, rfl⟩ := hcreated.row
      rfl
  slotted id job' hjob' := by
    rcases h.row_cases hjob' with ⟨job, notice, hjob, hchange⟩ | hcreated
    · obtain ⟨slot, hslot, hservice, hle⟩ := hdb.slotted id job hjob
      exact ⟨slot, hslot, hservice, hle.trans (h.generations id.kind slot)⟩
    · obtain ⟨slot, hslot, hservice, -, hle⟩ := hcreated.slot
      exact ⟨slot, hslot, hservice, hle⟩
  attempts id job' hjob' hwaiting := by
    rcases h.row_cases hjob' with ⟨job, notice, hjob, hchange⟩ | hcreated
    · rcases hchange.isWaiting_cases hwaiting with rfl | ⟨-, hcount, hlt, hmax, -⟩
      · exact hdb.attempts id job' hjob hwaiting
      · omega
    · obtain ⟨prepared, -, rfl⟩ := hcreated.row
      exact Nat.zero_lt_succ 4
  waiting id job' hjob' hwaiting := by
    rcases h.row_cases hjob' with ⟨job, notice, hjob, hchange⟩ | hcreated
    · rcases hchange.isWaiting_cases hwaiting with rfl | ⟨-, -, -, -, hrequested⟩
      · exact hdb.waiting id job' hjob hwaiting
      · exact hrequested
    · exact hcreated.cancellationRequested_eq
  superseded id job' hjob' hsome := by
    rcases h.row_cases hjob' with ⟨job, notice, hjob, hchange⟩ | hcreated
    · exact hchange.supersedingJob_isSome (hdb.superseded id job hjob) hsome
    · obtain ⟨prepared, -, rfl⟩ := hcreated.row
      cases hsome
  held _ _ hjob' hwanted := h.held hdb hjob' hwanted
  pointed _ _ hcurrent := h.pointed hdb hcurrent
  settled := h.settled
  depended _ hdependency := h.depended hdb hdependency
  produced analysis row hrow := by
    rcases h.produced analysis row hrow with hold | hnew
    · obtain ⟨job, hjob, hsucceeded⟩ := hdb.produced analysis row hold
      obtain ⟨job', notice, hjob', hchange, -⟩ := h.changed _ job hjob
      exact ⟨job', hjob', (hchange.state_of_terminal (by rw [hsucceeded]; rfl)).trans hsucceeded⟩
    · exact hnew
  notified _ hnotice := h.notified hdb hnotice

end

end Evolves

end ApiTruth.Orchestration.Queue
