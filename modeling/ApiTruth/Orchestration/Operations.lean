import ApiTruth.Foundation.Runs
import ApiTruth.Orchestration.BranchUpdate

/-!
# Operations

The operations of all processes on the rows of a tenant: control, ingress, workers and operators.
This file says what each of them does, so that the properties of runs are proved from a few facts
and not from the code of the operations.

## Main definitions

* `Action`, `Database.perform`, `Database.Step` : the operations as steps.
* `Database.IsInitial` : nothing has been stored.

## Main results

* `Database.ingestBranchEvent_induction` : what updates and settling steps preserve, an event
  preserves.
* `Database.executeReconciliation_eq_ok` : a reconciliation replaces the checkpoint of its branch.
* `Database.completionBeforePromotion_eq_ok`, `Database.completion_eq_ok` : the checks of a
  completion and what it writes.
-/

namespace ApiTruth.Orchestration

open Catalog Checked Ir TransitionSystem Option

/-! ### Actions -/

inductive Action
  | tick (milliseconds : ℕ)
  | setAccessScope (scopeId : String) (active : Bool)
  | registerConfiguration (configuration : SchedulingConfiguration)
  | activateInitialConfiguration (fingerprint : String)
  | activateConfiguration (fingerprint : String) (expectedCheckpointVersion : ℕ)
      (evidence : ProviderReference)
  | branchEvent (event : BranchEvent)
  | reconciliationRequest (request : ReconciliationRequest)
  | claim (worker : WorkerIdentity) (id : JobIdentity) (token : String)
  | heartbeat (worker : WorkerIdentity) (lease : JobLease)
  | fail (worker : WorkerIdentity) (lease : JobLease)
  | cancel (id : JobIdentity)
  | reconcile (worker : WorkerIdentity) (lease : JobLease) (reference : String)
      (observation : BranchObservation)
  | complete (worker : WorkerIdentity) (lease : JobLease) (material : Materialized)

/-- The holder that a claim may lease its job to. -/
def Action.issues : Action → JobIdentity → LeaseHolder → Prop
  | .claim worker id token => fun other holder => other = id ∧ holder = (worker, token)
  | _ => fun _ _ => False

namespace Database

variable (parses : ContractSnapshot → Bool)

/-- The rows after an operation, or its error. -/
def attempt (db : Database) : Action → Except OrchestrationError Database
  | .tick milliseconds => .ok { db with clock := db.clock + milliseconds }
  | .setAccessScope scopeId active => .ok { db with
      catalog := { db.catalog with
        activeScope := Function.update db.catalog.activeScope scopeId active } }
  | .registerConfiguration configuration => db.registerConfiguration configuration
  | .activateInitialConfiguration fingerprint => db.activateInitialConfiguration fingerprint
  | .activateConfiguration fingerprint expected evidence =>
    db.activateConfigurationByCas fingerprint expected evidence
  | .branchEvent event => db.ingestBranchEvent event
  | .reconciliationRequest request => db.ingestReconciliationRequest request
  | .claim worker id token => .ok (db.claimJob worker id token)
  | .heartbeat worker lease => db.heartbeatJob worker lease
  | .fail worker lease => db.failJob worker lease
  | .cancel id => db.cancelJob id
  | .reconcile worker lease reference observation =>
    db.executeReconciliation worker lease reference observation
  | .complete worker lease material => Prod.fst <$> db.completion parses worker lease material

/-- An operation that raises leaves the rows unchanged. -/
def perform (db : Database) (action : Action) : Database :=
  match db.attempt parses action with
  | .ok db' => db'
  | .error _ => db

def Step (db : Database) (action : Action) (db' : Database) : Prop :=
  db' = db.perform parses action

structure IsInitial (db : Database) : Prop where
  active : db.active = none
  configurations : ∀ fingerprint, db.configurations fingerprint = none
  jobs : ∀ id, db.jobs id = none
  branches : ∀ key, db.branches key = none
  reconciliations : ∀ key, db.reconciliations key = none
  revisionSnapshots : ∀ analysis, db.revisionSnapshots analysis = none
  snapshots : ∀ id, db.catalog.snapshots id = none
  pointers : ∀ key, db.catalog.pointers key = none

variable {parses} {db db' : Database} {issued : JobIdentity → LeaseHolder → Prop}

variable (parses db) in
theorem perform_eq_or (action : Action) :
    db.perform parses action = db ∨
      db.attempt parses action = .ok (db.perform parses action) := by
  unfold perform
  cases db.attempt parses action with
  | error e => exact .inl rfl
  | ok next => exact .inr rfl

/-! ### Ingress -/

variable {configuration : SchedulingConfiguration} {worker : WorkerIdentity}
  {material : Materialized}

theorem readActive_eq_ok {active : ActiveConfiguration} :
    db.readActive = .ok (active, configuration) ↔ db.active = some active ∧
      db.configurations active.fingerprint = some configuration.document ∧
      configuration.fingerprint = active.fingerprint := by
  simp only [readActive, orRaise_bind_eq_ok, pure_eq_ok, Prod.mk.injEq]
  constructor
  · rintro ⟨active', hactive, document, hdocument, rfl, rfl⟩
    exact ⟨hactive, hdocument, rfl⟩
  · rintro ⟨hactive, hdocument, hfingerprint⟩
    refine ⟨active, hactive, configuration.document, hdocument, rfl, ?_⟩
    rw [← hfingerprint]

variable (issued) in
/-- What the updates of a branch and the settling steps preserve, an event preserves. -/
theorem ingestBranchEvent_induction {I : Database → Prop} {event : BranchEvent}
    (h : db.ingestBranchEvent event = .ok db') (hc : db.Coherent) (hI : I db)
    (hupdate : ∀ active configuration target before after checkpoint,
      db.readActive = .ok (active, configuration) → before.Coherent → I before →
      target ∈ configuration.document.targets →
      event.branch ∈ target.service.intendedBranches →
      before.AcceptsUpdate (target.key event.branch) event.desired event.evidence none →
      ReplacesCheckpoint issued configuration target event.branch event.desired event.evidence false
        before after checkpoint → I after)
    (hsettles : ∀ before after, I before → Settles issued before after → I after) :
    I db' ∧ db'.Coherent := by
  obtain ⟨⟨active, configuration⟩, hread, h⟩ := bind_eq_ok.mp h
  refine foldlM_invariant (I := fun last => I last ∧ last.Coherent) ?_ ⟨hI, hc⟩ h
  rintro before serviceId last ⟨hbefore, hcoherent⟩ hstep
  simp only [bind_eq_ok, orRaise_eq_ok] at hstep
  obtain ⟨target, htarget, ⟨after, disposition⟩, hschedule, hstep⟩ := hstep
  have hafter : I after ∧ after.Coherent := by
    rcases scheduleBranch_cases hcoherent hschedule with
      ⟨rfl, -⟩ | ⟨hbranch, haccepts, checkpoint, hreplaces⟩
    · exact ⟨hbefore, hcoherent⟩
    · exact ⟨hupdate active configuration target before after checkpoint hread hcoherent hbefore
        (List.mem_of_find?_eq_some htarget) hbranch haccepts hreplaces,
        hcoherent.replacesCheckpoint hreplaces⟩
  split_ifs at hstep
  · have hsettle : Settles issued after last := .scheduleBranchReconciliation hstep
    exact ⟨hsettles after last hafter.1 hsettle, hafter.2.keepsBranches hsettle.toKeepsBranches⟩
  · cases hstep
    exact hafter

/-! ### Reconciliation -/

theorem targetConfig_eq_some {document : InstallationConfig} {serviceId : String}
    {target : TargetConfig} (h : document.targetConfig serviceId = some target) :
    target ∈ document.targets ∧ target.service.serviceId = serviceId :=
  ⟨List.mem_of_find?_eq_some h, by simpa using List.find?_some h⟩

variable {job : Job} {lease : JobLease}

theorem reconciliationScope_eq_ok {repository : RepositoryConfig}
    (h : db.reconciliationScope job = .ok (configuration, repository)) :
    job.identity.kind = .branchReconciliation ∧
      ∃ active, db.readActive = .ok (active, configuration) := by
  simp only [reconciliationScope, require_bind_eq_ok, orRaise_bind_eq_ok, pure_eq_ok,
    Prod.mk.injEq] at h
  obtain ⟨hactive, hkind, document, hdocument, -, target, -, -, rfl, -⟩ := h
  obtain ⟨active, hactive, hfingerprint⟩ := map_eq_some_iff.mp hactive
  exact ⟨hkind, active, readActive_eq_ok.mpr ⟨hactive, hfingerprint ▸ hdocument, hfingerprint.symm⟩⟩

variable (issued) in
theorem scheduleAuthoritativeBranch_eq_ok (hc : db.Coherent)
    {key : BranchKey} {desired : DesiredState} {evidence : ProviderReference} {forceRepair : Bool}
    (h : db.scheduleAuthoritativeBranch configuration key desired evidence forceRepair = .ok db') :
    ∃ target checkpoint, configuration.document.targetConfig key.serviceId = some target ∧
      target.key key.branch = key ∧
      ReplacesCheckpoint issued configuration target key.branch desired evidence forceRepair db db'
        checkpoint := by
  simp only [scheduleAuthoritativeBranch, orRaise_bind_eq_ok, require_bind_eq_ok] at h
  obtain ⟨target, htarget, ⟨hrepository, hbranch⟩, h⟩ := h
  obtain ⟨⟨scheduled, disposition⟩, hschedule, h⟩ := bind_eq_ok.mp h
  simp only [require_bind_eq_ok, pure_eq_ok] at h
  obtain ⟨-, rfl⟩ := h
  obtain ⟨-, hservice⟩ := targetConfig_eq_some htarget
  rcases scheduleBranch_cases hc hschedule with ⟨-, hnone⟩ | ⟨-, -, checkpoint, hreplaces⟩
  · cases hnone hbranch
  · refine ⟨target, checkpoint, htarget, ?_, hreplaces⟩
    simp [TargetConfig.key, hrepository, hservice]

variable (issued) in
/-- A reconciliation holds its lease, counts only evidence that is neither stale nor in conflict,
replaces the checkpoint of its branch, and is over. -/
theorem executeReconciliation_eq_ok (hc : db.Coherent)
    {reference : String} {observation : BranchObservation}
    (h : db.executeReconciliation worker lease reference observation = .ok db') :
    (lease.jobId.kind = .branchReconciliation ∧ ∃ job, db.validateLease worker lease = .ok job) ∧
    (∃ job', db'.jobs lease.jobId = some job' ∧ job'.state = .succeeded) ∧
    (∀ prior, db.branches lease.jobId.key = some prior →
      classifyProviderUpdate (some prior.providerCheckpoint)
          ⟨observation.providerEvidence, observation.state⟩ ≠ .stale ∧
        classifyProviderUpdate (some prior.providerCheckpoint)
          ⟨observation.providerEvidence, observation.state⟩ ≠ .conflict) ∧
    (∀ value, observation.providerEvidence.order = some ⟨.sequence, value⟩ →
      Decimal.isCanonical value = true) ∧
    ∃ active configuration target checkpoint scheduled,
      db.readActive = .ok (active, configuration) ∧
      configuration.document.targetConfig lease.jobId.key.serviceId = some target ∧
      target.key lease.jobId.key.branch = lease.jobId.key ∧
      ReplacesCheckpoint issued configuration target lease.jobId.key.branch observation.state
        observation.providerEvidence
        (db.forceRepair configuration lease.jobId.key observation.state) db scheduled checkpoint ∧
      Settles issued scheduled db' ∧ db'.branches = scheduled.branches ∧
      ∀ id, id ≠ lease.jobId → db'.jobs id = scheduled.jobs id := by
  obtain ⟨job, hlease, h⟩ := bind_eq_ok.mp h
  obtain ⟨⟨configuration, repository⟩, hscope, h⟩ := bind_eq_ok.mp h
  simp only [orRaise_bind_eq_ok, require_bind_eq_ok] at h
  obtain ⟨current, -, -, hobserved, ⟨hstale, hconflict⟩, h⟩ := h
  obtain ⟨scheduled, hscheduled, h⟩ := bind_eq_ok.mp h
  cases h
  obtain ⟨⟨hjob, hstate, -⟩, -⟩ := validateLease_eq_ok.mp hlease
  obtain hid := hc.identity _ job hjob
  rw [hid] at hscheduled hstale hconflict hobserved
  obtain ⟨hkind, active, hread⟩ := reconciliationScope_eq_ok hscope
  rw [hid] at hkind
  obtain ⟨target, checkpoint, hmem, hkey, hreplaces⟩ :=
    scheduleAuthoritativeBranch_eq_ok issued hc hscheduled
  have hrow : scheduled.jobs lease.jobId = some job :=
    (hreplaces.reconciliationJobs _ hkind).trans hjob
  refine ⟨⟨hkind, job, hlease⟩, ?_, fun prior hprior => ?_, fun value hvalue => ?_,
    active, configuration, target, checkpoint, scheduled, hread, hmem, hkey, hreplaces, ?_, rfl,
    fun other hother => ?_⟩
  · rw [hid]
    exact ⟨{ job with state := .succeeded, lease := none }, by simp [updateJob, hrow], rfl⟩
  · rw [hprior] at hstale hconflict
    exact ⟨fun h => hstale (congrArg some h), fun h => hconflict (congrArg some h)⟩
  · simp only [observedBranch, hvalue, Bool.and_eq_true] at hobserved
    exact hobserved.2
  · refine (Settles.of_reconciliations scheduled _).trans (Settles.updateJob fun other hother => ?_)
    rw [hid] at hother
    obtain rfl : job = other := Option.some.inj (hrow.symm.trans hother)
    exact .of_state (by simp [hstate, JobState.isNonterminal]) rfl rfl (fun _ => rfl) rfl rfl
      fun holder h => by simp [Job.holder] at h
  · simp [updateJob, hid, hother]

/-! ### Completion -/

/-- The lease is live and the branch still wants the result of the job: what a completion checks
before it promotes. -/
structure MayPromote (db : Database) (worker : WorkerIdentity) (lease : JobLease) (job : Job)
    (checkpoint : BranchCheckpoint) (revision : String) : Prop where
  jobRow : db.jobs lease.jobId = some job
  leased : job.state = .leased
  holdsLease : db.HoldsLease worker lease job
  supersedingJob : job.supersedingJob = none
  cancellationRequested : job.cancellationRequested = false
  kind : lease.jobId.kind = .branchAnalysis
  branchRow : db.branches lease.jobId.key = some checkpoint
  currentJob : checkpoint.currentJob = some lease.jobId
  generation : checkpoint.analysisGeneration = lease.jobId.generation
  desired : checkpoint.desired = .present revision
  targetRevision : lease.jobId.targetRevision = some revision
  confirmed : isMonotoneProviderConfirmation ⟨job.evidence, .present revision⟩
    checkpoint.providerCheckpoint = true
  configuration : db.active.map ActiveConfiguration.fingerprint = some lease.jobId.configFingerprint

theorem recordSuccess_settles {id : JobIdentity} {revision snapshotId : String}
    {associationKey : AssociationKey} (hid : job.identity = id) (hjob : db.jobs id = some job)
    (hstate : job.state = .leased) :
    Settles issued db (db.recordSuccess job revision snapshotId associationKey) := by
  subst hid
  have hrecorded : Settles issued db { db with
      branches := Function.update db.branches job.identity.key <|
        (db.branches job.identity.key).map fun checkpoint =>
          { checkpoint with
            latestOutcome := .job .succeeded
            lastSuccessful := some ⟨job.identity, snapshotId, revision, associationKey⟩ } } :=
    .of_checkpoint fun checkpoint => ⟨⟨rfl, rfl, rfl, .inl rfl⟩, rfl⟩
  refine hrecorded.trans (Settles.updateJob fun other hother => ?_)
  obtain rfl : job = other := Option.some.inj (hjob.symm.trans hother)
  exact .of_state (by simp [hstate, JobState.isNonterminal]) rfl rfl (fun _ => rfl) rfl rfl
    fun holder h => by simp [Job.holder] at h

theorem insertRevisionSnapshot_settles (analysis : AnalysisIdentity) (row : RevisionSnapshot) :
    Settles issued db (db.insertRevisionSnapshot analysis row) := by
  unfold insertRevisionSnapshot
  split
  · exact .refl db
  · next hnone =>
    refine { (Settles.refl db : Settles issued db db) with associations := fun other row' hrow => ?_ }
    have hne : other ≠ analysis := by
      rintro rfl
      simp [hnone] at hrow
    simpa [hne] using hrow

theorem jobs_insertRevisionSnapshot (analysis : AnalysisIdentity) (row : RevisionSnapshot) :
    (db.insertRevisionSnapshot analysis row).jobs = db.jobs := by
  unfold insertRevisionSnapshot
  split <;> rfl

theorem Settles.of_catalog {catalog : Store} (hpointers : catalog.pointers = db.catalog.pointers)
    (hsnapshots : ∀ id row, db.catalog.snapshots id = some row → catalog.snapshots id = some row) :
    Settles issued db { db with catalog := catalog } :=
  { (Settles.refl db : Settles issued db db) with
    pointers := hpointers
    snapshots := hsnapshots }

theorem service_of_matchesJob (h : material.matchesJob job = true) :
    material.result.snapshot.service.repositoryId = job.identity.key.repositoryId ∧
      material.result.snapshot.service.serviceId = job.identity.key.serviceId := by
  simp only [Materialized.matchesJob, Bool.and_eq_true, beq_iff_eq, and_assoc] at h
  exact ⟨h.1, h.2.1⟩

variable (issued) in
/-- The checks of a completion hold of the rows it found, and what it has written before the
promotion settles them.  The promotion is asked for the evidence of the checkpoint, the pointer
that is there, and the snapshot that is associated with the revision; the snapshot is eligible or
the pointer already shows it. -/
theorem completionBeforePromotion_eq_ok (hc : db.Coherent)
    {written : Database} {input : PromoteBranchInput}
    (h : db.completionBeforePromotion parses worker lease material = .ok (written, input)) :
    ∃ job checkpoint revision, db.MayPromote worker lease job checkpoint revision ∧
      Settles issued db written ∧
      (∃ job', written.jobs lease.jobId = some job' ∧ job'.state = .succeeded) ∧
      (∃ stored, written.revisionSnapshots (job.analysisOf revision) = some stored ∧
        stored.snapshotId = input.snapshotId) ∧
      input.key = lease.jobId.key ∧ input.provider = checkpoint.evidence ∧
      (∃ expected, input.expected = some expected ∧
        Store.expectedMatches expected (written.catalog.pointers lease.jobId.key) = true) ∧
      (written.catalog.isEligible lease.jobId.key input.snapshotId = true ∨
        ∃ pointer, written.catalog.pointers lease.jobId.key = some pointer ∧
          pointer.snapshotId = input.snapshotId) := by
  simp only [completionBeforePromotion, orRaise_bind_eq_ok, require_bind_eq_ok] at h
  obtain ⟨discovered, hdiscovered, document, -, hactive, target, -, -, h⟩ := h
  obtain ⟨job, hlease, h⟩ := bind_eq_ok.mp h
  simp only [orRaise_bind_eq_ok, require_bind_eq_ok] at h
  obtain ⟨⟨hkind, htarget, hrepository, hservice⟩, checkpoint, hcheckpoint, hcurrent, -,
    ⟨hmatches, -⟩, stored, hstored, hagrees, -, h⟩ := h
  obtain ⟨⟨hjob, hstate, hholds⟩, hnext, hcancel⟩ := validateLease_eq_ok.mp hlease
  obtain rfl : discovered = job := Option.some.inj (hdiscovered.symm.trans hjob)
  have hid := hc.identity _ discovered hjob
  simp only [isCurrentAnalysis, Bool.and_eq_true, beq_iff_eq] at hcurrent
  obtain ⟨⟨⟨hcurrentJob, hgeneration⟩, hdesired⟩, hconfirmed⟩ := hcurrent
  simp only [associationAgrees, Bool.and_eq_true, beq_iff_eq] at hagrees
  obtain ⟨⟨⟨⟨-, -⟩, hsnapshot⟩, -⟩, -⟩ := hagrees
  -- the rows before the catalog is written
  generalize hrecord : (db.recordSuccess discovered material.request.immutableRevision
    material.result.snapshot.snapshotId _).insertRevisionSnapshot _ _ = recorded at hstored h
  have hsettles : Settles issued db recorded :=
    hrecord ▸ (recordSuccess_settles hid hjob hstate).trans (insertRevisionSnapshot_settles _ _)
  have hover : ∃ job', recorded.jobs lease.jobId = some job' ∧ job'.state = .succeeded := by
    refine ⟨{ discovered with
      state := .succeeded
      lease := none
      resultSnapshotId := some material.result.snapshot.snapshotId }, ?_, rfl⟩
    rw [← hrecord, jobs_insertRevisionSnapshot]
    simp [recordSuccess, updateJob, hid, hjob]
  simp only [hid] at hkind htarget hcheckpoint hcurrentJob hgeneration hactive hrepository hservice h
  have hpromote : db.MayPromote worker lease discovered checkpoint material.request.immutableRevision :=
    ⟨hjob, hstate, hholds, hnext, hcancel, hkind, hcheckpoint, hcurrentJob, hgeneration, hdesired,
      htarget, hconfirmed, hactive⟩
  cases hassociation : material.associationKind with
  | reused =>
    simp only [hassociation] at h
    obtain ⟨catalog, hcatalog, h⟩ := bind_eq_ok.mp h
    cases hcatalog
    simp only [require_bind_eq_ok, pure_eq_ok, Prod.mk.injEq] at h
    obtain ⟨hbase, rfl, rfl⟩ := h
    obtain ⟨base, hselection, hreused⟩ := material.reused_base hassociation
    simp only [Materialized.baseIsPointer, hselection, all_some, any_eq_true,
      Bool.and_eq_true, beq_iff_eq] at hbase
    obtain ⟨pointer, hpointer, hshows, -⟩ := hbase
    refine ⟨discovered, checkpoint, _, hpromote, hsettles, hover, ⟨stored, hstored, hsnapshot⟩, rfl,
      rfl, ⟨_, rfl, ?_⟩, .inr ⟨pointer, hpointer, hshows.trans hreused.symm⟩⟩
    simp [hpointer, Store.expectedMatches]
  | analyzed =>
    simp only [hassociation] at h
    split at h
    · next catalog outcome hingest =>
      obtain ⟨catalog', hcatalog, h⟩ := bind_eq_ok.mp h
      cases hcatalog
      simp only [require_bind_eq_ok, pure_eq_ok, Prod.mk.injEq] at h
      obtain ⟨-, rfl, rfl⟩ := h
      obtain ⟨hpointers, hsnapshots, row, hrow, hrowRepository, hrowService⟩ :=
        Store.ingestAnalyzerResult_eq_ok hingest
      obtain ⟨hmatchRepository, hmatchService⟩ := service_of_matchesJob hmatches
      rw [hid] at hmatchRepository hmatchService
      refine ⟨discovered, checkpoint, _, hpromote, hsettles.trans (.of_catalog hpointers hsnapshots),
        hover, ⟨stored, hstored, hsnapshot⟩, rfl, rfl, ⟨_, rfl, ?_⟩,
        .inl (Store.isEligible_iff.mpr ⟨row, hrow, hrowRepository.trans hmatchRepository,
          hrowService.trans hmatchService⟩)⟩
      cases hpointer : catalog.pointers lease.jobId.key <;> simp [Store.expectedMatches]
    · obtain ⟨catalog', hcatalog, -⟩ := bind_eq_ok.mp h
      cases hcatalog

/-- A completion moves the pointer after its checks. -/
theorem completion_eq_ok {outcome : PromotionOutcome}
    (h : db.completion parses worker lease material = .ok (db', outcome)) :
    ∃ written input catalog,
      db.completionBeforePromotion parses worker lease material = .ok (written, input) ∧
      written.catalog.promoteBranch input = .ok (catalog, outcome) ∧
      db' = { written with catalog := catalog } := by
  obtain ⟨⟨written, input⟩, hbefore, h⟩ := bind_eq_ok.mp h
  dsimp only at h
  cases hpromote : written.catalog.promoteBranch input with
  | error error =>
    rw [hpromote] at h
    cases h
  | ok result =>
    rw [hpromote] at h
    cases h
    exact ⟨written, input, result.1, hbefore, hpromote, rfl⟩

end Database

end ApiTruth.Orchestration
