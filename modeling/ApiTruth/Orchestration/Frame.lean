import ApiTruth.Orchestration.Execution

/-!
# What the operations leave alone

The operations of the orchestration store change few rows each.  This file says so in three
relations between the rows before and after: jobs keep the work they were queued for and are not
revived; branches keep their target and at most let go of a job that is not open any more; the
catalog keeps its pointers and rows.  All operations but the activation of a configuration, the
updates of a branch and the completion are treated here.

## Main definitions

* `KeepsJobs`, `KeepsBranches`, `Settles` : the three relations, each with the one before.

## Main results

* `Settles.claimJob`, `Settles.heartbeatJob`, `Settles.failJob`, `Settles.cancelJob` : workers and
  operators.
* `Settles.ingestReconciliationRequest`, `Settles.registerConfiguration`.
* `activateConfigurationByCas_cases` : the activation of a configuration.
-/

namespace ApiTruth.Orchestration

open Catalog Checked Ir Option Function

abbrev LeaseHolder := WorkerIdentity × String

/-- The holder of a lease, whenever it ends. -/
def LeaseColumns.holder (columns : LeaseColumns) : LeaseHolder :=
  (⟨columns.workerId, columns.instanceId⟩, columns.token)

def Job.holder (job : Job) : Option LeaseHolder :=
  job.lease.map LeaseColumns.holder

def Nobody (_ : JobIdentity) (_ : LeaseHolder) : Prop := False

/-- The job is to be done: neither over nor superseded nor cancelled. -/
structure Job.IsOpen (job : Job) : Prop where
  nonterminal : job.state.isNonterminal = true
  supersedingJob : job.supersedingJob = none
  cancellationRequested : job.cancellationRequested = false

namespace Database

variable {db db' db'' : Database} {issued : JobIdentity → LeaseHolder → Prop}

/-! ### Jobs -/

/-- A change of a job that keeps what it was queued with, does not revive it, and brings no
holder but the issued ones. -/
structure SameWork (issued : LeaseHolder → Prop) (job job' : Job) : Prop where
  identity : job'.identity = job.identity
  evidence : job'.evidence = job.evidence
  analysis : ∀ revision, job'.analysisOf revision = job.analysisOf revision
  terminal : job.state.isNonterminal = false → job'.state = job.state
  superseded : job'.supersedingJob = none → job.supersedingJob = none
  cancelled : job'.cancellationRequested = false → job.cancellationRequested = false
  holder : ∀ holder, job'.holder = some holder → issued holder ∨ job.holder = some holder

namespace SameWork

variable {issued : LeaseHolder → Prop}

theorem refl (job : Job) : SameWork issued job job :=
  ⟨rfl, rfl, fun _ => rfl, fun _ => rfl, id, id, fun _ => .inr⟩

theorem trans {job job' job'' : Job} (h : SameWork issued job job')
    (h' : SameWork issued job' job'') : SameWork issued job job'' where
  identity := h'.identity.trans h.identity
  evidence := h'.evidence.trans h.evidence
  analysis revision := (h'.analysis revision).trans (h.analysis revision)
  terminal hs := (h'.terminal (by rwa [h.terminal hs])).trans (h.terminal hs)
  superseded hs := h.superseded (h'.superseded hs)
  cancelled hs := h.cancelled (h'.cancelled hs)
  holder holder hs := (h'.holder holder hs).elim .inl (h.holder holder)

variable {job job' : Job}

theorem mono {issued' : LeaseHolder → Prop} (h : SameWork issued job job')
    (hissued : ∀ holder, issued holder → issued' holder) : SameWork issued' job job' :=
  { h with holder := fun holder hs => (h.holder holder hs).imp_left (hissued holder) }

theorem nonterminal (h : SameWork issued job job')
    (hstate : job'.state.isNonterminal = true) : job.state.isNonterminal = true := by
  by_contra hnot
  rw [h.terminal (by simpa using hnot)] at hstate
  exact hnot hstate

theorem isOpen (h : SameWork issued job job') (hopen : job'.IsOpen) :
    job.IsOpen :=
  ⟨h.nonterminal hopen.nonterminal, h.superseded hopen.supersedingJob,
    h.cancelled hopen.cancellationRequested⟩

theorem of_state (hstate : job.state.isNonterminal = true)
    (hidentity : job'.identity = job.identity) (hevidence : job'.evidence = job.evidence)
    (hanalysis : ∀ revision, job'.analysisOf revision = job.analysisOf revision)
    (hnext : job'.supersedingJob = job.supersedingJob)
    (hcancel : job'.cancellationRequested = job.cancellationRequested)
    (hholder : ∀ holder, job'.holder = some holder → issued holder ∨ job.holder = some holder) :
    SameWork issued job job' :=
  ⟨hidentity, hevidence, hanalysis, fun h => by simp [hstate] at h, fun h => hnext ▸ h,
    fun h => hcancel ▸ h, hholder⟩

theorem supersede (job : Job) (next : JobIdentity) :
    SameWork issued job (job.supersede next) := by
  unfold Job.supersede
  split <;> constructor <;> simp_all [Job.analysisOf, JobState.isNonterminal, Job.holder]

theorem cancel (job : Job) : SameWork issued job job.cancel := by
  unfold Job.cancel
  split <;> constructor <;> simp_all [Job.analysisOf, JobState.isNonterminal, Job.holder]

variable {job : Job}

theorem cancelByOperator (hstate : job.state.isNonterminal = true) :
    SameWork issued job job.cancelByOperator :=
  ⟨rfl, rfl, fun _ => rfl, fun h => by simp [hstate] at h, fun h => h,
    fun h => (by cases h), fun _ => .inr⟩

end SameWork

theorem not_isOpen_supersede (job : Job) (next : JobIdentity) :
    ¬ (job.supersede next).IsOpen := by
  rintro ⟨hstate, hnext, -⟩
  unfold Job.supersede at hstate hnext
  cases h : job.state <;> simp_all [JobState.isNonterminal]

theorem not_isOpen_cancel (job : Job) : ¬ job.cancel.IsOpen := by
  rintro ⟨hstate, -, hcancel⟩
  unfold Job.cancel at hstate hcancel
  cases h : job.state <;> simp_all [JobState.isNonterminal]

theorem not_isOpen_cancelByOperator (job : Job) : ¬ job.cancelByOperator.IsOpen :=
  fun hopen => by cases hopen.cancellationRequested

/-- Jobs keep their work, and new jobs are stored under their identity. -/
structure KeepsJobs (issued : JobIdentity → LeaseHolder → Prop) (db db' : Database) : Prop where
  jobs : ∀ id job, db.jobs id = some job →
    ∃ job', db'.jobs id = some job' ∧ SameWork (issued id) job job'
  newJobs : ∀ id job', db.jobs id = none → db'.jobs id = some job' →
    job'.identity = id ∧ ∀ holder, job'.holder = some holder → issued id holder

namespace KeepsJobs

theorem of_eq (h : db'.jobs = db.jobs) : KeepsJobs issued db db' where
  jobs id job hjob := ⟨job, h ▸ hjob, .refl job⟩
  newJobs id job' hnone hsome := by simp [h, hnone] at hsome

theorem refl (db : Database) : KeepsJobs issued db db :=
  of_eq rfl

theorem of_branches (db : Database) (branches : BranchKey → Option BranchCheckpoint) :
    KeepsJobs issued db { db with branches := branches } :=
  of_eq rfl

theorem trans (h : KeepsJobs issued db db') (h' : KeepsJobs issued db' db'') :
    KeepsJobs issued db db'' where
  jobs id job hjob := by
    obtain ⟨middle, hmiddle, hwork⟩ := h.jobs id job hjob
    obtain ⟨last, hlast, hwork'⟩ := h'.jobs id middle hmiddle
    exact ⟨last, hlast, hwork.trans hwork'⟩
  newJobs id last hnone hlast := by
    cases hmiddle : db'.jobs id with
    | none => exact h'.newJobs id last hmiddle hlast
    | some middle =>
      obtain ⟨hidentity, hholder⟩ := h.newJobs id middle hnone hmiddle
      obtain ⟨other, hother, hwork⟩ := h'.jobs id middle hmiddle
      cases hlast.symm.trans hother
      exact ⟨hwork.identity.trans hidentity,
        fun holder hs => (hwork.holder holder hs).elim (fun hs => hs) (hholder holder)⟩

theorem updateJob {id : JobIdentity} {f : Job → Job}
    (hf : ∀ job, db.jobs id = some job → SameWork (issued id) job (f job)) :
    KeepsJobs issued db (db.updateJob id f) where
  jobs other job hjob := by
    by_cases hid : other = id
    · subst hid
      exact ⟨f job, by simp [Database.updateJob, hjob], hf job hjob⟩
    · exact ⟨job, by simpa [Database.updateJob, hid] using hjob, .refl job⟩
  newJobs other job' hnone hsome := by
    by_cases hid : other = id
    · subst hid
      simp [Database.updateJob, hnone] at hsome
    · simp [Database.updateJob, hid, hnone] at hsome

variable (old : Option JobIdentity)

theorem persistSupersede (next : JobIdentity) :
    KeepsJobs issued db (db.persistSupersede old next) := by
  cases old with
  | none => exact refl db
  | some old =>
    simp only [Database.persistSupersede]
    split_ifs with h
    · exact refl db
    · exact updateJob fun job _ => .supersede job next

theorem persistCancel : KeepsJobs issued db (db.persistCancel old) := by
  cases old with
  | none => exact refl db
  | some old => exact updateJob fun job _ => .cancel job

theorem persistJob (hlease : job.lease = none) :
    KeepsJobs issued db (db.persistJob job) := by
  unfold Database.persistJob
  split
  · exact refl db
  next hnone =>
    refine ⟨fun id other hother => ?_, fun id job' hnone hsome => ?_⟩
    · have hid : id ≠ job.identity := by
        rintro rfl
        simp [hnone] at hother
      exact ⟨other, by simpa [hid] using hother, .refl other⟩
    · by_cases hid : id = job.identity
      · subst hid
        obtain rfl : job = job' := by simpa using hsome
        exact ⟨rfl, fun holder hs => by simp [Job.holder, hlease] at hs⟩
      · simp [hid, hnone] at hsome

end KeepsJobs

/-! ### Branches -/

/-- A change of a checkpoint that keeps its target and at most lets go of its job. -/
structure SameTarget (checkpoint checkpoint' : BranchCheckpoint) : Prop where
  desired : checkpoint'.desired = checkpoint.desired
  evidence : checkpoint'.evidence = checkpoint.evidence
  analysisGeneration : checkpoint'.analysisGeneration = checkpoint.analysisGeneration
  currentJob : checkpoint'.currentJob = checkpoint.currentJob ∨ checkpoint'.currentJob = none

theorem SameTarget.refl (checkpoint : BranchCheckpoint) : SameTarget checkpoint checkpoint :=
  ⟨rfl, rfl, rfl, .inl rfl⟩

theorem SameTarget.currentJob_eq {checkpoint checkpoint' : BranchCheckpoint} {id : JobIdentity}
    (h : SameTarget checkpoint checkpoint') (hid : checkpoint'.currentJob = some id) :
    checkpoint.currentJob = some id := by
  rcases h.currentJob with hsame | hnone
  · exact hsame ▸ hid
  · simp [hnone] at hid

theorem SameTarget.trans {checkpoint checkpoint' checkpoint'' : BranchCheckpoint}
    (h : SameTarget checkpoint checkpoint') (h' : SameTarget checkpoint' checkpoint'') :
    SameTarget checkpoint checkpoint'' where
  desired := h'.desired.trans h.desired
  evidence := h'.evidence.trans h.evidence
  analysisGeneration := h'.analysisGeneration.trans h.analysisGeneration
  currentJob := by
    rcases h'.currentJob with hsame | hnone
    · exact hsame ▸ h.currentJob
    · exact .inr hnone

/-- Jobs keep their work, new jobs are reconciliations, the configurations stay, and checkpoints
keep their target and at most let go of a job that is not open any more. -/
structure KeepsBranches (issued : JobIdentity → LeaseHolder → Prop) (db db' : Database) : Prop
    extends KeepsJobs issued db db' where
  newKind : ∀ id job', db.jobs id = none → db'.jobs id = some job' → id.kind = .branchReconciliation
  active : db'.active = db.active
  configurations : ∀ fingerprint document, db.configurations fingerprint = some document →
    db'.configurations fingerprint = some document
  branches : ∀ key, Option.Rel SameTarget (db.branches key) (db'.branches key)
  released : ∀ id checkpoint checkpoint' job', id.kind = .branchAnalysis →
    db.branches id.key = some checkpoint → checkpoint.currentJob = some id →
    db'.branches id.key = some checkpoint' → checkpoint'.currentJob ≠ some id →
    db'.jobs id = some job' → ¬ job'.IsOpen

namespace KeepsBranches

variable {key : BranchKey}

variable (h : KeepsBranches issued db db')

include h in
theorem checkpoint_of {checkpoint : BranchCheckpoint}
    (hcheckpoint : db.branches key = some checkpoint) :
    ∃ checkpoint', db'.branches key = some checkpoint' ∧ SameTarget checkpoint checkpoint' := by
  have hrel := h.branches key
  rw [hcheckpoint] at hrel
  cases hbranch : db'.branches key with
  | none => simp [hbranch] at hrel
  | some checkpoint' => exact ⟨checkpoint', rfl, by simpa [hbranch] using hrel⟩

include h in
theorem checkpoint_from {checkpoint' : BranchCheckpoint}
    (hcheckpoint : db'.branches key = some checkpoint') :
    ∃ checkpoint, db.branches key = some checkpoint ∧ SameTarget checkpoint checkpoint' := by
  have hrel := h.branches key
  rw [hcheckpoint] at hrel
  cases hbranch : db.branches key with
  | none => simp [hbranch] at hrel
  | some checkpoint => exact ⟨checkpoint, rfl, by simpa [hbranch] using hrel⟩

include h in
theorem job_from {id : JobIdentity} {job' : Job} (hkind : id.kind = .branchAnalysis)
    (hjob' : db'.jobs id = some job') :
    ∃ job, db.jobs id = some job ∧ SameWork (issued id) job job' := by
  cases hjob : db.jobs id with
  | none =>
    have hnew := h.newKind id job' hjob hjob'
    simp [hkind] at hnew
  | some job =>
    obtain ⟨other, hother, hwork⟩ := h.jobs id job hjob
    cases hjob'.symm.trans hother
    exact ⟨job, rfl, hwork⟩

theorem refl (db : Database) : KeepsBranches issued db db :=
  { KeepsJobs.refl db with
    newKind := fun id job' hnone hsome => by simp [hnone] at hsome
    active := rfl
    configurations := fun _ _ h => h
    branches := fun key => by
      cases db.branches key with
      | none => exact .none
      | some checkpoint => exact .some (.refl checkpoint)
    released := fun id checkpoint checkpoint' job' _ hcheckpoint hcurrent hcheckpoint' hnot => by
      cases hcheckpoint.symm.trans hcheckpoint'
      exact absurd hcurrent hnot }

include h in
theorem trans (h' : KeepsBranches issued db' db'') :
    KeepsBranches issued db db'' :=
  { h.toKeepsJobs.trans h'.toKeepsJobs with
    newKind := fun id last hnone hlast => by
      cases hmiddle : db'.jobs id with
      | none => exact h'.newKind id last hmiddle hlast
      | some middle => exact h.newKind id middle hnone hmiddle
    active := h'.active.trans h.active
    configurations := fun fingerprint document hdocument =>
      h'.configurations fingerprint document (h.configurations fingerprint document hdocument)
    branches := fun key => by
      cases hbranch : db.branches key with
      | none =>
        have hrel := h.branches key
        have hrel' := h'.branches key
        cases hmiddle : db'.branches key with
        | none => simpa [hmiddle] using hrel'
        | some middle => simp [hbranch, hmiddle] at hrel
      | some checkpoint =>
        obtain ⟨middle, hmiddle, htarget⟩ := h.checkpoint_of hbranch
        obtain ⟨last, hlast, htarget'⟩ := h'.checkpoint_of hmiddle
        rw [hlast]
        exact .some (htarget.trans htarget')
    released := fun id checkpoint last job hkind hcheckpoint hcurrent hlast hnot hjob hopen => by
      obtain ⟨middle, hmiddle, -⟩ := h.checkpoint_of hcheckpoint
      obtain ⟨middleJob, hmiddleJob, hwork⟩ := h'.job_from hkind hjob
      by_cases hkept : middle.currentJob = some id
      · exact h'.released id middle last job hkind hmiddle hkept hlast hnot hjob hopen
      · exact h.released id checkpoint middle middleJob hkind hcheckpoint hcurrent hmiddle hkept
          hmiddleJob (hwork.isOpen hopen) }

theorem rel_update {f : BranchCheckpoint → BranchCheckpoint}
    (hf : ∀ checkpoint, SameTarget checkpoint (f checkpoint)) (other : BranchKey) :
    Option.Rel SameTarget (db.branches other)
      (update db.branches key ((db.branches key).map f) other) := by
  by_cases hkey : other = key
  · subst hkey
    rw [update_self]
    cases db.branches other with
    | none => exact .none
    | some checkpoint => exact .some (hf checkpoint)
  · rw [update_of_ne hkey]
    exact (refl db : KeepsBranches Nobody db db).branches other

end KeepsBranches

/-! ### The catalog -/

/-- Besides jobs and branches, the catalog keeps its rows and pointers. -/
structure Settles (issued : JobIdentity → LeaseHolder → Prop) (db db' : Database) : Prop
    extends KeepsBranches issued db db' where
  pointers : db'.catalog.pointers = db.catalog.pointers
  snapshots : ∀ id row, db.catalog.snapshots id = some row → db'.catalog.snapshots id = some row
  associations : ∀ analysis row, db.revisionSnapshots analysis = some row →
    db'.revisionSnapshots analysis = some row

namespace Settles

theorem refl (db : Database) : Settles issued db db :=
  { KeepsBranches.refl db with
    pointers := rfl
    snapshots := fun _ _ h => h
    associations := fun _ _ h => h }

theorem trans (h : Settles issued db db') (h' : Settles issued db' db'') : Settles issued db db'' :=
  { h.toKeepsBranches.trans h'.toKeepsBranches with
    pointers := h'.pointers.trans h.pointers
    snapshots := fun id row hrow => h'.snapshots id row (h.snapshots id row hrow)
    associations := fun analysis row hrow =>
      h'.associations analysis row (h.associations analysis row hrow) }

theorem of_jobs {jobs : JobIdentity → Option Job}
    (hjobs : KeepsJobs issued db { db with jobs := jobs })
    (hnew : ∀ id job', db.jobs id = none → jobs id = some job' → id.kind = .branchReconciliation) :
    Settles issued db { db with jobs := jobs } :=
  { hjobs, (refl db : Settles issued db db) with
    newKind := hnew
    released := fun id checkpoint checkpoint' job' _ hcheckpoint hcurrent hcheckpoint' hnot => by
      cases hcheckpoint.symm.trans hcheckpoint'
      exact absurd hcurrent hnot }

theorem of_checkpoint {key : BranchKey} {f : BranchCheckpoint → BranchCheckpoint}
    (hf : ∀ checkpoint, SameTarget checkpoint (f checkpoint) ∧
      (f checkpoint).currentJob = checkpoint.currentJob) :
    Settles issued db
      { db with branches := update db.branches key ((db.branches key).map f) } :=
  { (refl db : Settles issued db db) with
    branches := KeepsBranches.rel_update fun checkpoint => (hf checkpoint).1
    released := fun id checkpoint checkpoint' job' _ hcheckpoint hcurrent hcheckpoint' hnot => by
      refine absurd ?_ hnot
      by_cases hkey : id.key = key
      · subst hkey
        simp only [update_self, hcheckpoint, map_some, Option.some.injEq] at hcheckpoint'
        rw [← hcheckpoint', (hf checkpoint).2, hcurrent]
      · simp only [update_of_ne hkey, hcheckpoint, Option.some.injEq] at hcheckpoint'
        rw [← hcheckpoint', hcurrent] }

theorem of_reconciliations (db : Database)
    (reconciliations : BranchKey → Option ReconciliationCheckpoint) :
    Settles issued db { db with reconciliations := reconciliations } :=
  { (refl db : Settles issued db db) with }

variable {id : JobIdentity} {worker : WorkerIdentity}

variable {f : Job → Job} {configuration : SchedulingConfiguration} {lease : JobLease}

theorem updateJob (hf : ∀ job, db.jobs id = some job → SameWork (issued id) job (f job)) :
    Settles issued db (db.updateJob id f) := by
  refine of_jobs (KeepsJobs.updateJob hf) fun other job' hnone hsome => ?_
  by_cases hid : other = id
  · subst hid
    simp [hnone] at hsome
  · simp [hid, hnone] at hsome

theorem persistSupersede (old : Option JobIdentity) (next : JobIdentity) :
    Settles issued db (db.persistSupersede old next) := by
  cases old with
  | none => exact refl db
  | some old =>
    simp only [Database.persistSupersede]
    split_ifs with h
    · exact refl db
    · exact updateJob fun job _ => .supersede job next

theorem persistJob (hkind : job.identity.kind = .branchReconciliation) (hlease : job.lease = none) :
    Settles issued db (db.persistJob job) := by
  have hjobs : KeepsJobs issued db (db.persistJob job) := .persistJob hlease
  unfold Database.persistJob at hjobs ⊢
  cases h : db.jobs job.identity with
  | some _ => exact refl db
  | none =>
    simp only [h] at hjobs
    refine of_jobs hjobs fun id job' hnone hsome => ?_
    by_cases hid : id = job.identity
    · exact hid ▸ hkind
    · simp [hid, hnone] at hsome

/-! ### Reconciliations and configurations -/

theorem queueReconciliation (configuration : SchedulingConfiguration) (target : TargetConfig)
    (branch reference : String) (evidence : ProviderReference) :
    Settles issued db (db.queueReconciliation configuration target branch reference evidence) := by
  exact (of_reconciliations db _).trans ((persistJob rfl rfl).trans (persistSupersede _ _))

theorem scheduleBranchReconciliation
    {target : TargetConfig} {branch reference : String} {evidence : ProviderReference}
    (h : db.scheduleBranchReconciliation configuration target branch reference evidence
      = .ok db') : Settles issued db db' := by
  unfold Database.scheduleBranchReconciliation at h
  split_ifs at h with hconfigured hrunning
  · cases h
    exact refl db
  · cases h
    exact queueReconciliation configuration target branch reference evidence

theorem ingestReconciliationRequest {request : ReconciliationRequest}
    (h : db.ingestReconciliationRequest request = .ok db') : Settles issued db db' := by
  simp only [Database.ingestReconciliationRequest, bind_eq_ok] at h
  obtain ⟨⟨_, configuration⟩, _, h⟩ := h
  refine foldlM_invariant (I := fun last => Settles issued db last) ?_ (refl db) h
  intro middle serviceId last hmiddle hstep
  obtain ⟨target, -, hstep⟩ := bind_eq_ok.mp hstep
  obtain ⟨branches, -, hstep⟩ := bind_eq_ok.mp hstep
  refine foldlM_invariant (I := fun last => Settles issued db last) ?_ hmiddle hstep
  intro middle branch last hmiddle hstep
  exact hmiddle.trans (scheduleBranchReconciliation hstep)

theorem cancelBranchWork (affected : List String) :
    Settles issued db (db.cancelBranchWork affected) :=
  { (refl db : Settles issued db db) with
    branches := fun key => by
      simp only [Database.cancelBranchWork]
      split_ifs
      · cases db.branches key with
        | none => exact .none
        | some checkpoint => exact .some ⟨rfl, rfl, rfl, .inr rfl⟩
      · exact (refl db : Settles issued db db).branches key
    jobs := fun id job hjob => by
      simp only [Database.cancelBranchWork]
      split_ifs
      · exact ⟨job.cancel, by simp [hjob], .cancel job⟩
      · exact ⟨job, hjob, .refl job⟩
    newJobs := fun id job' hnone hsome => by
      simp [Database.cancelBranchWork, hnone] at hsome
    newKind := fun id job' hnone hsome => by
      simp [Database.cancelBranchWork, hnone] at hsome
    released := fun id checkpoint checkpoint' job' _ hcheckpoint hcurrent hcheckpoint' hnot => by
      by_cases haffected : id.key.serviceId ∈ affected
      · simp only [Database.cancelBranchWork, haffected, hcheckpoint, bind_some, hcurrent,
          and_self, ↓reduceIte, map_eq_some_iff]
        rintro ⟨job, -, rfl⟩
        exact not_isOpen_cancel job
      · simp only [Database.cancelBranchWork, haffected, ↓reduceIte, hcheckpoint,
          Option.some.injEq] at hcheckpoint'
        exact absurd (hcheckpoint' ▸ hcurrent) hnot }

theorem cancelObsoleteReconciliations (affected : List String) (desired : List BranchKey) :
    Settles issued db (db.cancelObsoleteReconciliations affected desired) := by
  unfold Database.cancelObsoleteReconciliations
  refine { (refl db : Settles issued db db) with
    jobs := fun id job hjob => ?_
    newJobs := fun id job' hnone hsome => ?_
    newKind := fun id job' hnone hsome => ?_
    released := ?_ }
  · dsimp only
    split_ifs
    · exact ⟨job.cancel, by simp [hjob], .cancel job⟩
    · exact ⟨job, hjob, .refl job⟩
  · simp [hnone] at hsome
  · simp [hnone] at hsome
  · intro id checkpoint checkpoint' job' _ hcheckpoint hcurrent hcheckpoint' hnot
    cases hcheckpoint.symm.trans hcheckpoint'
    exact absurd hcurrent hnot

theorem scheduleConfigurationTransition (current next : SchedulingConfiguration)
    (evidence : ProviderReference) :
    Settles issued (db.cancelBranchWork (current.document.serviceIds ++ next.document.serviceIds))
      (db.scheduleConfigurationTransition current next evidence) := by
  have hqueue : ∀ (scopes : List (TargetConfig × String)) (start : Database),
      Settles issued start (scopes.foldl (fun db scope => db.queueReconciliation next
        scope.1 scope.2 evidence.providerReference evidence) start) := by
    intro scopes
    induction scopes with
    | nil => exact refl
    | cons scope scopes ih =>
      intro start
      exact (queueReconciliation next scope.1 scope.2 _ evidence).trans (ih _)
  exact (cancelObsoleteReconciliations _ _).trans (hqueue _ _)

theorem registerConfiguration
    (h : db.registerConfiguration configuration = .ok db') : Settles issued db db' := by
  unfold Database.registerConfiguration at h
  split at h
  · next hnone =>
    cases h
    refine { (refl db : Settles issued db db) with configurations := fun fingerprint document hdocument => ?_ }
    have hne : fingerprint ≠ configuration.fingerprint := by
      rintro rfl
      simp [hnone] at hdocument
    simpa [hne] using hdocument
  · split_ifs at h
    cases h
    exact refl db

/-! ### Leases -/

theorem updateCheckpointState (id : JobIdentity) (state : JobState) :
    Settles issued db (db.updateCheckpointState id state) := by
  unfold Database.updateCheckpointState
  split
  · refine of_checkpoint fun checkpoint => ?_
    split
    · exact ⟨⟨rfl, rfl, rfl, .inl rfl⟩, rfl⟩
    · exact ⟨.refl checkpoint, rfl⟩
  · split
    · exact refl db
    · exact of_reconciliations db _

theorem jobs_updateCheckpointState (id : JobIdentity) (state : JobState) :
    (db.updateCheckpointState id state).jobs = db.jobs := by
  unfold Database.updateCheckpointState
  split
  · rfl
  · split <;> rfl

theorem changeState {state : JobState}
    (hopen : ∀ job, db.jobs id = some job → job.state.isNonterminal = true)
    (hf : ∀ job, job.state.isNonterminal = true → SameWork (issued id) job (f job)) :
    Settles issued db ((db.updateCheckpointState id state).updateJob id f) := by
  refine (updateCheckpointState id state).trans (updateJob fun job hjob => hf job (hopen job ?_))
  rwa [jobs_updateCheckpointState] at hjob

theorem terminateJob (state : JobState)
    (hopen : ∀ job, db.jobs id = some job → job.state.isNonterminal = true) :
    Settles issued db (db.terminateJob id state) :=
  changeState hopen fun _ hstate => .of_state hstate rfl rfl (fun _ => rfl) rfl rfl
    fun holder h => by simp [Job.holder] at h

theorem retryJob (hopen : ∀ job, db.jobs id = some job → job.state.isNonterminal = true) :
    Settles issued db (db.retryJob id) :=
  changeState hopen fun _ hstate => .of_state hstate rfl rfl (fun _ => rfl) rfl rfl
    fun holder h => by simp [Job.holder] at h

theorem leaseJob {token : String} (hissued : issued id (worker, token))
    (hopen : ∀ job, db.jobs id = some job → job.state.isNonterminal = true) :
    Settles issued db (db.leaseJob id worker token) :=
  changeState hopen fun _ hstate => .of_state hstate rfl rfl (fun _ => rfl) rfl rfl
    fun holder h => by
      cases h
      exact .inl hissued

theorem terminateOr_of_open {id : JobIdentity} {next : Database}
    (hopen : ∀ job, db.jobs id = some job → job.state.isNonterminal = true)
    (hnext : Settles issued db next) :
    Settles issued db (match terminalState job with
      | some state => db.terminateJob id state
      | none => if job.maxAttempts ≤ job.attemptCount then db.terminateJob id .failed else next) := by
  split
  · exact terminateJob _ hopen
  · split
    · exact terminateJob _ hopen
    · exact hnext

theorem claimJob {worker : WorkerIdentity} {id : JobIdentity} {token : String}
    (hissued : issued id (worker, token)) : Settles issued db (db.claimJob worker id token) := by
  unfold Database.claimJob
  split
  · exact refl db
  next job hjob =>
    have hopen (hstate : job.state.isNonterminal = true) :
        ∀ job, db.jobs id = some job → job.state.isNonterminal = true := by
      intro other hother
      cases hjob.symm.trans hother
      exact hstate
    have hwaiting (hstate : job.state.isNonterminal = true) :
        Settles issued db (if db.clock < job.availableAt then db
          else if !db.isAllowedByActiveConfig id then db.terminateJob id .cancelled
          else match terminalState job with
            | some state => db.terminateJob id state
            | none =>
              if job.maxAttempts ≤ job.attemptCount then db.terminateJob id .failed
              else db.leaseJob id worker token) := by
      split
      · exact refl db
      · split
        · exact terminateJob _ (hopen hstate)
        · exact terminateOr_of_open (hopen hstate) (leaseJob hissued (hopen hstate))
    cases hstate : job.state with
    | leased =>
      have hopen := hopen (by simp [hstate, JobState.isNonterminal])
      simp only
      split
      · exact refl db
      · exact terminateOr_of_open hopen (retryJob hopen)
    | queued => exact hwaiting (by simp [hstate, JobState.isNonterminal])
    | retryWait => exact hwaiting (by simp [hstate, JobState.isNonterminal])
    | succeeded => exact refl db
    | failed => exact refl db
    | cancelled => exact refl db
    | superseded => exact refl db

theorem heartbeatJob (h : db.heartbeatJob worker lease = .ok db') : Settles issued db db' := by
  obtain ⟨-, -, h⟩ := bind_eq_ok.mp h
  cases h
  refine updateJob fun job _ => ⟨rfl, rfl, fun _ => rfl, fun _ => rfl, fun h => h, fun h => h, ?_⟩
  intro holder hs
  exact .inr (by cases hlease : job.lease <;> simp_all [Job.holder, LeaseColumns.holder])

theorem failJob (h : db.failJob worker lease = .ok db') : Settles issued db db' := by
  obtain ⟨job, hlease, h⟩ := bind_eq_ok.mp h
  cases h
  obtain ⟨hjob, hstate, -⟩ := validateLiveJobLease_eq_ok.mp hlease
  have hopen : ∀ job, db.jobs lease.jobId = some job → job.state.isNonterminal = true := by
    intro other hother
    cases hjob.symm.trans hother
    simp [hstate, JobState.isNonterminal]
  exact terminateOr_of_open hopen (retryJob hopen)

theorem detachAndCancel (hjob : db.jobs id = some job) (hstate : job.state.isNonterminal = true) :
    Settles issued db ((db.detachCheckpoint id).updateJob id Job.cancelByOperator) := by
  have hwork : ∀ job, db.jobs id = some job → SameWork (issued id) job job.cancelByOperator := by
    intro other hother
    cases hjob.symm.trans hother
    exact .cancelByOperator hstate
  unfold Database.detachCheckpoint
  cases hkind : id.kind with
  | branchReconciliation => exact (of_reconciliations db _).trans (updateJob hwork)
  | branchAnalysis =>
    refine { (updateJob hwork : Settles issued db _) with
      branches := KeepsBranches.rel_update fun checkpoint => ?_
      released := ?_ }
    · split_ifs
      · exact ⟨rfl, rfl, rfl, .inr rfl⟩
      · exact .refl checkpoint
    · intro other checkpoint checkpoint' job' _ hcheckpoint hcurrent hcheckpoint' hnot hjob'
      by_cases hid : other = id
      · subst hid
        obtain rfl : job.cancelByOperator = job' := by
          simpa [Database.updateJob, hjob] using hjob'
        exact not_isOpen_cancelByOperator job
      · -- the checkpoint only lets go of the cancelled job
        refine absurd ?_ hnot
        by_cases hkey : other.key = id.key
        · have hother : some other ≠ some id := by simpa using hid
          simp only [Database.updateJob, hkey, update_self] at hcheckpoint'
          rw [← hkey, hcheckpoint, map_some, hcurrent, if_neg hother] at hcheckpoint'
          exact Option.some.inj hcheckpoint' ▸ hcurrent
        · simp only [Database.updateJob, update_of_ne hkey, hcheckpoint] at hcheckpoint'
          exact Option.some.inj hcheckpoint' ▸ hcurrent

theorem cancelJob (h : db.cancelJob id = .ok db') : Settles issued db db' := by
  simp only [Database.cancelJob, orRaise_bind_eq_ok] at h
  obtain ⟨job, hjob, h⟩ := h
  obtain ⟨-, -, h⟩ := bind_eq_ok.mp h
  have hcancel (hstate : job.state.isNonterminal = true) :
      Settles issued db ((db.detachCheckpoint id).updateJob id Job.cancelByOperator) :=
    detachAndCancel hjob hstate
  cases hstate : job.state <;> simp only [hstate] at h <;> cases h
  case queued => exact hcancel (by simp [hstate, JobState.isNonterminal])
  case retryWait => exact hcancel (by simp [hstate, JobState.isNonterminal])
  case leased => exact hcancel (by simp [hstate, JobState.isNonterminal])
  all_goals exact refl db

end Settles

/-! ### Activation -/

variable {fingerprint : String}

theorem activateInitialConfiguration_eq_ok
    (h : db.activateInitialConfiguration fingerprint = .ok db') :
    db.active = none ∧ (∃ document, db.configurations fingerprint = some document) ∧
      db' = { db with active := some ⟨fingerprint, 1⟩ } := by
  simp only [Database.activateInitialConfiguration, orRaise_bind_eq_ok, require_bind_eq_ok,
    pure_eq_ok] at h
  obtain ⟨document, hdocument, hactive, rfl⟩ := h
  exact ⟨hactive, ⟨document, hdocument⟩, rfl⟩

variable (issued) in
/-- A later activation does nothing, or cancels the work of all services of both configurations
and queues reconciliations. -/
theorem activateConfigurationByCas_cases {expected : ℕ} {evidence : ProviderReference}
    (h : db.activateConfigurationByCas fingerprint expected evidence = .ok db') :
    db' = db ∨ ∃ active current next,
      db.readActive = .ok current ∧
        Settles issued (({ db with active := some active }).cancelBranchWork
          (current.2.document.serviceIds ++ next)) db' := by
  obtain ⟨⟨active, current⟩, hread, h⟩ := bind_eq_ok.mp h
  simp only [orRaise_bind_eq_ok, require_bind_eq_ok] at h
  obtain ⟨document, -, -, h⟩ := h
  split_ifs at h with hsame
  · exact .inl (pure_eq_ok.mp h).symm
  · cases h
    exact .inr ⟨_, _, _, hread, .scheduleConfigurationTransition _ _ _⟩

end Database

end ApiTruth.Orchestration
