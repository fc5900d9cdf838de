import ApiTruth.Orchestration.Worker

/-!
# Execution of branch jobs

A reconciliation job observes a branch at its provider and schedules what it finds.  An analysis
job ends with the completion transaction: it checks that the branch still wants its result, writes
the result, and promotes the snapshot in the catalog.

## Main definitions

* `Database.executeReconciliation` : the transaction after an observation.
* `Database.completionBeforePromotion` : the completion up to the call of `promoteBranch`.
* `Database.completion` : the whole completion.
-/

namespace ApiTruth.Orchestration

open Catalog Checked Ir

/-! ### Reconciliation -/

/-- What `exactBranchReconciler.observe` returns. -/
structure BranchObservation where
  repositoryId : String
  branch : String
  state : DesiredState
  providerEvidence : ProviderReference
deriving DecidableEq, Repr

/-- The length of a string in UTF-16 code units. -/
def utf16Length (text : String) : ℕ :=
  (text.toList.map fun c => if c.val < 0x10000 then 1 else 2).sum

/-- A revision reference is nonempty, at most 512 units long and free of control characters. -/
def isRevision (value : String) : Bool :=
  0 < utf16Length value && utf16Length value ≤ 512 && value.toList.all fun c => 0x1f < c.val

/-- The checks of `observedBranch`. -/
def observedBranch (observation : BranchObservation) (key : BranchKey)
    (repository : RepositoryConfig) : Bool :=
  observation.repositoryId == key.repositoryId && observation.branch == key.branch
    && (match observation.state with
      | .present revision => isRevision revision
      | .absent => true)
    && observation.providerEvidence.provider == repository.provider
    && (match observation.providerEvidence.order with
      | some ⟨.sequence, value⟩ => Decimal.isCanonical value
      | _ => true)

namespace Database

variable (db : Database)

/-- What a reconciliation prepares: its configuration, if that is still the active one, and its
repository, if the job still agrees with the service. -/
def reconciliationScope (job : Job) :
    Except OrchestrationError (SchedulingConfiguration × RepositoryConfig) := do
  let id := job.identity
  require (db.active.map ActiveConfiguration.fingerprint = some id.configFingerprint)
    .jobSuperseded
  require (id.kind = .branchReconciliation) .reconciliationFailed
  let document ← orRaise (db.configurations id.configFingerprint) .reconciliationFailed
  require (document = job.configDocument ∧ document.configVersion = job.configVersion)
    .reconciliationFailed
  let target ← orRaise (document.findService id.key.repositoryId id.key.serviceId)
    .reconciliationFailed
  require (id.key.branch ∈ target.service.intendedBranches
    ∧ target.service.root = job.serviceRoot
    ∧ target.service.analyzer.adapterId = job.analyzerAdapterId
    ∧ target.service.analyzer.adapterVersion = job.analyzerAdapterVersion) .reconciliationFailed
  return (⟨id.configFingerprint, document⟩, target.repository)

/-- The work of the checkpoint for the active configuration is under way. -/
def inProgress (configuration : SchedulingConfiguration) (key : BranchKey) : Bool :=
  (db.branches key).any fun prior => (db.currentJobRow prior.currentJob).any fun job =>
    job.identity.configFingerprint == configuration.fingerprint && job.state.isNonterminal

def fullyPromoted (key : BranchKey) (observed : DesiredState) : Bool :=
  (db.branches key).any fun prior => prior.latestOutcome == .job .succeeded
    && prior.lastSuccessful.any fun last => .present last.selectedRevision == observed
      && (db.catalog.pointers key).any (·.snapshotId == last.snapshotId)

/-- `forceRepair`: a present branch is analysed again unless its checkpoint wants the observed
revision and that is under way or promoted. -/
def forceRepair (configuration : SchedulingConfiguration) (key : BranchKey)
    (observed : DesiredState) : Bool :=
  observed != .absent && !((db.branches key).any (·.desired == observed)
    && (db.inProgress configuration key || db.fullyPromoted key observed))

/-- The transaction of a reconciliation after its observation, with the reference it was asked
for.  The observation counts unless it is stale or in conflict with the checkpoint. -/
def executeReconciliation (worker : WorkerIdentity) (lease : JobLease) (reference : String)
    (observation : BranchObservation) : Except OrchestrationError Database := do
  let job ← db.validateLease worker lease
  let (configuration, repository) ← db.reconciliationScope job
  let key := job.identity.key
  let current ← orRaise (db.reconciliations key) .jobSuperseded
  require (current.generation = job.identity.generation
    ∧ current.currentJob = some job.identity
    ∧ current.requestedReference = reference) .jobSuperseded
  require (observedBranch observation key repository = true) .reconciliationFailed
  let classification := (db.branches key).map fun prior =>
    classifyProviderUpdate (some prior.providerCheckpoint)
      ⟨observation.providerEvidence, observation.state⟩
  require (classification ≠ some .stale ∧ classification ≠ some .conflict) .reconciliationFailed
  let repair := db.forceRepair configuration key observation.state
  let scheduled ← db.scheduleAuthoritativeBranch configuration key observation.state
    observation.providerEvidence repair
  let outcome : ReconciliationOutcome := match observation.state with
    | .absent => .absent
    | .present _ => if repair then .repaired else .noWork
  let completed : Database := { scheduled with
    reconciliations := Function.update scheduled.reconciliations key
      (some { current with
        lastOutcome := some outcome
        lastCompletedReference := some reference }) }
  return completed.updateJob job.identity fun job => { job with state := .succeeded, lease := none }

end Database

/-! ### Completion -/

/-- The base that an analysis was planned against. -/
structure BaseSelection where
  selectedRevision : String
  snapshotId : String
  pointerVersion : ℕ
  associationKey : AssociationKey
deriving DecidableEq, Repr

/-- What completion compares of an executed update plan. -/
structure ExecutedUpdate where
  targetRevision : String
  targetSourceDigest : String
  analyzer : AnalyzerIdentity
  exchangeVersion : String
  irVersion : String
  identityVersion : String
  configVersion : String
  configFingerprint : String
  targetSnapshotId : String
deriving DecidableEq, Repr

structure AnalysisRequest where
  repositoryId : String
  serviceId : String
  immutableRevision : String
  sourceDigest : String
  analyzer : AnalyzerIdentity
  resolutionInputsFingerprint : String
deriving DecidableEq, Repr

/-- The material of a completion.  A reused snapshot is the one of the base. -/
structure Materialized where
  request : AnalysisRequest
  result : ConvertedAnalyzerSnapshot
  associationKind : AssociationKind
  update : Option ExecutedUpdate
  baseSelection : Option BaseSelection
  reused_base : associationKind = .reused →
    ∃ base, baseSelection = some base ∧ result.snapshot.snapshotId = base.snapshotId

namespace Materialized

variable (material : Materialized)

def matchesJob (job : Job) : Bool :=
  let snapshot := material.result.snapshot
  snapshot.service.repositoryId == job.identity.key.repositoryId
    && snapshot.service.serviceId == job.identity.key.serviceId
    && snapshot.service.root == job.serviceRoot
    && snapshot.source.sourceDigest == material.request.sourceDigest
    && snapshot.analyzer.analyzerId == job.analyzerAdapterId
    && snapshot.analyzer.analyzerVersion == job.analyzerAdapterVersion
    && snapshot.irVersion == job.irVersion
    && snapshot.identityVersion == job.identityVersion
    && snapshot.config.configVersion == job.configVersion
    && snapshot.config.configFingerprint == job.identity.configFingerprint
    && (material.associationKind != .analyzed
      || some snapshot.source.immutableRevision == job.identity.targetRevision)

/-- The executed update plan, if any, is one for the job and the snapshot. -/
def updateMatchesJob (job : Job) : Bool :=
  material.update.all fun update =>
    some update.targetRevision == job.identity.targetRevision
      && update.targetSourceDigest == material.request.sourceDigest
      && update.analyzer == material.request.analyzer
      && update.exchangeVersion == job.exchangeVersion
      && update.irVersion == job.irVersion
      && update.identityVersion == job.identityVersion
      && update.configVersion == job.configVersion
      && update.configFingerprint == job.identity.configFingerprint
      && update.targetSnapshotId == material.result.snapshot.snapshotId

def baseIsLastSuccess (checkpoint : BranchCheckpoint) : Bool :=
  material.baseSelection.all fun base => checkpoint.lastSuccessful.any fun last =>
    last.selectedRevision == base.selectedRevision && last.snapshotId == base.snapshotId
      && last.associationKey == base.associationKey

/-- The base, if any, is still what the pointer shows. -/
def baseIsPointer (pointer : Option BranchPointer) : Bool :=
  material.baseSelection.all fun base => pointer.any fun pointer =>
    pointer.snapshotId == base.snapshotId && pointer.pointerVersion == base.pointerVersion

end Materialized

namespace Database

variable (db : Database)

/-- The branch still wants the result of the job: it is its current job and generation, for the
desired revision, and the evidence of the checkpoint confirms the one the job was queued with. -/
def isCurrentAnalysis (checkpoint : BranchCheckpoint) (job : Job) (revision : String) : Bool :=
  checkpoint.currentJob == some job.identity
    && checkpoint.analysisGeneration == job.identity.generation
    && checkpoint.desired == .present revision
    && isMonotoneProviderConfirmation ⟨job.evidence, .present revision⟩
      checkpoint.providerCheckpoint

def recordSuccess (job : Job) (revision snapshotId : String) (associationKey : AssociationKey) :
    Database :=
  let recorded : Database := { db with
    branches := Function.update db.branches job.identity.key <|
      (db.branches job.identity.key).map fun checkpoint =>
        { checkpoint with
          latestOutcome := .job .succeeded
          lastSuccessful := some ⟨job.identity, snapshotId, revision, associationKey⟩ } }
  recorded.updateJob job.identity fun job =>
    { job with state := .succeeded, lease := none, resultSnapshotId := some snapshotId }

/-- Associate the revision with its snapshot, unless it already is associated. -/
def insertRevisionSnapshot (analysis : AnalysisIdentity) (row : RevisionSnapshot) : Database :=
  match db.revisionSnapshots analysis with
  | some _ => db
  | none => { db with
      revisionSnapshots := Function.update db.revisionSnapshots analysis (some row) }

/-- What is associated with the revision is what the completion brings. -/
def associationAgrees (stored row : RevisionSnapshot) : Bool :=
  stored.sourceDigest == row.sourceDigest
    && (stored.resolutionInputsFingerprint == none
      || stored.resolutionInputsFingerprint == row.resolutionInputsFingerprint)
    && stored.snapshotId == row.snapshotId
    && stored.analyzerStatus == row.analyzerStatus
    && stored.associationKind == row.associationKind

/-- The query before the promotion: the current job of the branch has succeeded with the snapshot
that is associated with the desired revision. -/
def isPromotable (id : JobIdentity) (revision sourceDigest snapshotId : String) : Bool :=
  (db.branches id.key).any fun checkpoint => (db.jobs id).any fun pinned =>
    checkpoint.currentJob == some id
      && checkpoint.analysisGeneration == id.generation
      && checkpoint.desired == .present revision
      && pinned.state == .succeeded
      && (db.revisionSnapshots (pinned.analysisOf revision)).any fun target =>
        target.sourceDigest == sourceDigest && target.snapshotId == snapshotId

/-- The completion of a branch analysis up to the call of `promoteBranch`, with the input of the
call. -/
def completionBeforePromotion (parses : ContractSnapshot → Bool) (worker : WorkerIdentity)
    (lease : JobLease) (material : Materialized) :
    Except OrchestrationError (Database × PromoteBranchInput) := do
  let discovered ← orRaise (db.jobs lease.jobId) .jobLeaseConflict
  let key := discovered.identity.key
  let document ← orRaise (db.configurations discovered.identity.configFingerprint)
    .promotionIneligible
  require (db.active.map ActiveConfiguration.fingerprint
    = some discovered.identity.configFingerprint) .promotionIneligible
  let target ← orRaise (document.findService key.repositoryId key.serviceId) .promotionIneligible
  require (target.service.root = discovered.serviceRoot ∧ key.branch ∈ target.service.intendedBranches)
    .promotionIneligible
  let job ← db.validateLease worker lease
  let revision := material.request.immutableRevision
  require (job.identity.kind = .branchAnalysis ∧ job.identity.targetRevision = some revision
    ∧ key.repositoryId = material.request.repositoryId
    ∧ key.serviceId = material.request.serviceId) .promotionIneligible
  let checkpoint ← orRaise (db.branches key) .promotionIneligible
  require (isCurrentAnalysis checkpoint job revision = true) .promotionIneligible
  require (material.baseIsLastSuccess checkpoint = true) .promotionIneligible
  require (material.matchesJob job = true ∧ material.updateMatchesJob job = true)
    .revisionAssociationConflict
  let snapshotId := material.result.snapshot.snapshotId
  let analysis := job.analysisOf revision
  let row : RevisionSnapshot :=
    { sourceDigest := material.request.sourceDigest
      resolutionInputsFingerprint := some material.request.resolutionInputsFingerprint
      snapshotId := snapshotId
      analyzerStatus := material.result.analyzerStatus
      associationKind := material.associationKind
      producingJob := job.identity }
  let written := (db.recordSuccess job revision snapshotId
    ⟨analysis, material.request.sourceDigest⟩).insertRevisionSnapshot analysis row
  let stored ← orRaise (written.revisionSnapshots analysis) .revisionAssociationConflict
  require (associationAgrees stored row = true) .revisionAssociationConflict
  require (written.isPromotable job.identity revision material.request.sourceDigest snapshotId
    = true) .promotionIneligible
  let catalog ← match material.associationKind with
    | .reused => .ok written.catalog
    | .analyzed => match written.catalog.ingestAnalyzerResult parses material.result with
      | .ok (catalog, _) => .ok catalog
      | .error error => .error (.catalog error)
  let pointer := catalog.pointers key
  require (material.baseIsPointer pointer = true) .promotionIneligible
  return ({ written with catalog := catalog },
    { key := key
      snapshotId := snapshotId
      provider := checkpoint.evidence
      expected := some (match pointer with
        | none => .absent
        | some pointer => .present pointer.pointerVersion) })

def completion (parses : ContractSnapshot → Bool) (worker : WorkerIdentity) (lease : JobLease)
    (material : Materialized) : Except OrchestrationError (Database × PromotionOutcome) := do
  let (written, input) ← db.completionBeforePromotion parses worker lease material
  match written.catalog.promoteBranch input with
  | .ok (catalog, outcome) => return ({ written with catalog := catalog }, outcome)
  | .error error => throw (.catalog error)

end Database

end ApiTruth.Orchestration
