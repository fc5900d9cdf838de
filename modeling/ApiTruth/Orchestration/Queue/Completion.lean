import ApiTruth.Orchestration.Execution
import ApiTruth.Orchestration.Queue.Worker

/-!
# Completion of jobs

An analysis job ends with the completion transaction: it checks that its checkpoint still wants the
result, writes the result and, for a branch, promotes the snapshot in the catalog.  A
reconciliation job observes a branch or a pull request at its provider and schedules what it finds.

## Main definitions

* `Database.completion` : the completion of a branch analysis, a preview or a baseline.
* `Database.executeBranchReconciliation`, `Database.executePullRequestReconciliation` : the
  transaction of a reconciliation after its observation.
-/

namespace ApiTruth.Orchestration.Queue

open Catalog Checked Ir

/-- The identity of the analysis of a revision, from the columns of the job. -/
def Job.analysisOf (job : Job) (revision : String) : AnalysisIdentity where
  repositoryId := job.identity.repositoryId
  serviceId := job.identity.serviceId
  serviceRoot := job.pinned.serviceRoot
  immutableRevision := revision
  analyzerAdapterId := job.pinned.analyzerAdapterId
  analyzerAdapterVersion := job.pinned.analyzerAdapterVersion
  exchangeVersion := job.pinned.exchangeVersion
  irVersion := job.pinned.irVersion
  identityVersion := job.pinned.identityVersion
  configVersion := job.pinned.configVersion
  configFingerprint := job.identity.configFingerprint

def materialMatchesJob (material : Materialized) (job : Job) : Bool :=
  let snapshot := material.result.snapshot
  snapshot.service.repositoryId == job.identity.repositoryId
    && snapshot.service.serviceId == job.identity.serviceId
    && snapshot.service.root == job.pinned.serviceRoot
    && snapshot.source.sourceDigest == material.request.sourceDigest
    && snapshot.analyzer.analyzerId == job.pinned.analyzerAdapterId
    && snapshot.analyzer.analyzerVersion == job.pinned.analyzerAdapterVersion
    && snapshot.irVersion == job.pinned.irVersion
    && snapshot.identityVersion == job.pinned.identityVersion
    && snapshot.config.configVersion == job.pinned.configVersion
    && snapshot.config.configFingerprint == job.identity.configFingerprint
    && (material.associationKind != .analyzed
      || some snapshot.source.immutableRevision == job.identity.targetRevision)

/-- The executed update plan, if any, is one for the job and the snapshot. -/
def updateMatchesJob (material : Materialized) (job : Job) : Bool :=
  material.update.all fun update =>
    some update.targetRevision == job.identity.targetRevision
      && update.targetSourceDigest == material.request.sourceDigest
      && update.analyzer == material.request.analyzer
      && update.exchangeVersion == job.pinned.exchangeVersion
      && update.irVersion == job.pinned.irVersion
      && update.identityVersion == job.pinned.identityVersion
      && update.configVersion == job.pinned.configVersion
      && update.configFingerprint == job.identity.configFingerprint
      && update.targetSnapshotId == material.result.snapshot.snapshotId

def baseIsLastSuccess (material : Materialized) (checkpoint : BranchCheckpoint) : Bool :=
  material.baseSelection.all fun base => checkpoint.lastSuccessful.any fun last =>
    last.selectedRevision == base.selectedRevision && last.snapshotId == base.snapshotId
      && last.associationKey == base.associationKey

/-- What is associated with the revision is what the completion brings. -/
def associationAgrees (stored row : RevisionSnapshot) : Bool :=
  stored.sourceDigest == row.sourceDigest
    && (stored.resolutionInputsFingerprint == none
      || stored.resolutionInputsFingerprint == row.resolutionInputsFingerprint)
    && stored.snapshotId == row.snapshotId
    && stored.analyzerStatus == row.analyzerStatus
    && stored.associationKind == row.associationKind

def isNamedEvidence (evidence : ProviderReference) : Bool :=
  evidence.provider != "" && evidence.providerReference != ""
    && evidence.order.all (·.value != "")

/-- What `exactPullRequestReconciler.observe` returns. -/
structure PullRequestObservation where
  repositoryId : String
  serviceId : String
  pullRequestId : String
  update : PullRequestUpdate
deriving DecidableEq, Repr

/-- The checks of `observedPullRequest`. -/
def observedPullRequest (observation : PullRequestObservation) (key : PullRequestKey)
    (repository : RepositoryConfig) (configuredBaseBranch : String) : Bool :=
  let payload := observation.update.relevantPayload
  let evidence := observation.update.evidence
  observation.repositoryId == key.repositoryId && observation.serviceId == key.serviceId
    && observation.pullRequestId == key.pullRequestId && payload.baseBranch == configuredBaseBranch
    && payload.state != .updated
    && isRevision payload.baseRevision && isRevision payload.headRevision
    && isRevision payload.headBranch
    && isNamedEvidence evidence && evidence.provider == repository.provider
    && (match evidence.order with
      | some ⟨.sequence, value⟩ => Decimal.isCanonical value
      | _ => true)

namespace Database

variable (db : Database)

/-! ### Eligibility -/

/-- The branch still wants the result of the job: it is its current job and generation, for the
desired revision, the evidence of the checkpoint confirms the one the job was queued with, and the
base is still the last success. -/
def isCurrentBranchAnalysis (job : Job) (material : Materialized) : Bool :=
  job.identity.branch.any fun branch =>
    (db.branches.get? ⟨job.identity.repositoryId, job.identity.serviceId, branch⟩).any
      fun checkpoint =>
        checkpoint.currentJob == some job.identity
          && checkpoint.analysisGeneration == job.identity.generation
          && checkpoint.desired == .present material.request.immutableRevision
          && isMonotoneProviderConfirmation
            ⟨job.evidence, .present material.request.immutableRevision⟩
            checkpoint.providerCheckpoint
          && baseIsLastSuccess material checkpoint

/-- The pull request still wants the preview: it is its current job and generation, for the
recorded revisions of an open pull request against a configured branch, and the base of the
material is the recorded base. -/
def isCurrentPreview (target : TargetConfig) (job : Job) (material : Materialized) : Bool :=
  job.identity.pullRequestId.any fun pullRequestId =>
    (db.pullRequests.get? ⟨job.identity.repositoryId, job.identity.serviceId, pullRequestId⟩).any
      fun checkpoint => checkpoint.recorded.any fun update =>
        checkpoint.currentJob == some job.identity
          && checkpoint.analysisGeneration == job.identity.generation
          && !update.relevantPayload.state.isTerminal
          && decide (update.relevantPayload.baseBranch ∈ target.service.intendedBranches)
          && some update.relevantPayload.baseRevision == job.identity.baseRevision
          && some update.relevantPayload.headRevision == job.identity.targetRevision
          && material.baseSelection.map BaseSelection.selectedRevision == job.identity.baseRevision

/-- The analysis checkpoint still wants the baseline: it is its current job and generation. -/
def isCurrentBaseline (job : Job) : Bool :=
  db.analyses.entries.any fun entry => entry.2.currentJob == some job.identity
    && entry.2.attemptGeneration == job.identity.generation

/-- The checkpoint of the job still wants its result. -/
def wantsResult (target : TargetConfig) (job : Job) (material : Materialized) : Bool :=
  match job.identity.kind with
  | .branchAnalysis => db.isCurrentBranchAnalysis job material
  | .prPreviewAnalysis => db.isCurrentPreview target job material
  | .baselineAnalysis | .branchReconciliation | .prReconciliation => db.isCurrentBaseline job

/-- The service of a job that is completed, under the active configuration. -/
def completionTarget (job : Job) : Except OrchestrationErrorCode TargetConfig := do
  let id := job.identity
  let document ← orRaise (db.configurations.get? id.configFingerprint) .promotionIneligible
  require (db.active.map ActiveConfiguration.fingerprint = some id.configFingerprint)
    .promotionIneligible
  let target ← orRaise (document.findService id.repositoryId id.serviceId) .promotionIneligible
  require (target.service.root = job.pinned.serviceRoot) .promotionIneligible
  require (id.kind = .branchAnalysis →
    id.branch.any (· ∈ target.service.intendedBranches) = true) .promotionIneligible
  require (id.kind = .prPreviewAnalysis →
    id.pullRequestId.isSome = true ∧ target.service.intendedBranches ≠ []) .promotionIneligible
  return target

/-! ### Writes of a completion -/

def recordSuccess (job : Job) (success : LastSuccess) : Database :=
  let id := job.identity
  match id.kind with
  | .branchAnalysis =>
    { db with branches := db.branches.mapValues fun key checkpoint =>
        if id.slot = some (.branch key) then
          { checkpoint with latestOutcome := .job .succeeded, lastSuccessful := some success }
        else checkpoint }
  | .prPreviewAnalysis =>
    { db with pullRequests := db.pullRequests.mapValues fun key checkpoint =>
        if id.slot = some (.pullRequest key) then
          { checkpoint with lastPreviewResultJob := some id }
        else checkpoint }
  | .baselineAnalysis | .branchReconciliation | .prReconciliation =>
    { db with analyses := db.analyses.mapValues fun _ checkpoint =>
        if checkpoint.currentJob = some id then
          { checkpoint with lastTerminalOutcome := some .succeeded }
        else checkpoint }

def succeedJob (id : JobIdentity) (resultSnapshotId : Option String) : Database :=
  (db.updateJob id (·.succeed db.clock resultSnapshotId)).insertNotice
    { jobId := id, state := .succeeded }

/-- The query before the promotion: the current job of the branch has succeeded with the snapshot
that is associated with the desired revision. -/
def isPromotable (key : BranchKey) (id : JobIdentity) (revision sourceDigest snapshotId : String) :
    Bool :=
  (db.branches.get? key).any fun checkpoint => (db.jobs.get? id).any fun pinned =>
    checkpoint.currentJob == some id
      && checkpoint.analysisGeneration == id.generation
      && checkpoint.desired == .present revision
      && pinned.state == .succeeded
      && (db.revisionSnapshots.get? (pinned.analysisOf revision)).any fun target =>
        target.sourceDigest == sourceDigest && target.snapshotId == snapshotId

/-- The catalog takes the snapshot of an analysis. -/
def ingestSnapshot (parses : ContractSnapshot → Bool) (material : Materialized) :
    Except OrchestrationErrorCode Store :=
  match material.associationKind with
  | .reused => .ok db.catalog
  | .analyzed => match db.catalog.ingestAnalyzerResult parses material.result with
    | .ok (catalog, _) => .ok catalog
    | .error _ => .error .promotionIneligible

/-- The snapshot of a branch analysis becomes what the branch shows. -/
def promote (catalog : Store) (key : BranchKey) (material : Materialized) :
    Except OrchestrationErrorCode Store := do
  let checkpoint ← orRaise (db.branches.get? key) .promotionIneligible
  let pointer := catalog.pointers key
  require (material.baseIsPointer pointer = true) .promotionIneligible
  let input : PromoteBranchInput :=
    { key := key
      snapshotId := material.result.snapshot.snapshotId
      provider := checkpoint.evidence
      expected := some (match pointer with
        | none => .absent
        | some pointer => .present pointer.pointerVersion) }
  match catalog.promoteBranch input with
  | .ok (catalog, _) => .ok catalog
  | .error _ => .error .promotionIneligible

/-- The rows that a completion writes before the catalog has its say. -/
def writeCompletion (job : Job) (material : Materialized) :
    Except OrchestrationErrorCode Database := do
  let revision := material.request.immutableRevision
  let snapshotId := material.result.snapshot.snapshotId
  let analysis := job.analysisOf revision
  let row : RevisionSnapshot :=
    { sourceDigest := material.request.sourceDigest
      resolutionInputsFingerprint := some material.request.resolutionInputsFingerprint
      snapshotId := snapshotId
      analyzerStatus := material.result.analyzerStatus
      associationKind := material.associationKind
      producingJob := job.identity }
  let recorded := db.recordSuccess job
    ⟨job.identity, snapshotId, revision, ⟨analysis, material.request.sourceDigest⟩⟩
  let succeeded := recorded.succeedJob job.identity (some snapshotId)
  let written : Database := { succeeded with
    revisionSnapshots := db.revisionSnapshots.setIfAbsent analysis row }
  let stored ← orRaise (written.revisionSnapshots.get? analysis) .revisionAssociationConflict
  require (associationAgrees stored row = true) .revisionAssociationConflict
  return written

/-- The promotion at the end of the completion of a branch analysis. -/
def completeInCatalog (parses : ContractSnapshot → Bool) (job : Job) (material : Materialized) :
    Except OrchestrationErrorCode Database := do
  let catalog ← db.ingestSnapshot parses material
  match job.identity.kind, job.identity.branch with
  | .branchAnalysis, some branch =>
    let key : BranchKey := ⟨job.identity.repositoryId, job.identity.serviceId, branch⟩
    require (db.isPromotable key job.identity material.request.immutableRevision
      material.request.sourceDigest material.result.snapshot.snapshotId = true) .promotionIneligible
    let catalog ← db.promote catalog key material
    return { db with catalog := catalog }
  | _, _ => return { db with catalog := catalog }

def completion (parses : ContractSnapshot → Bool) (worker : WorkerIdentity) (lease : JobLease)
    (material : Materialized) : Except OrchestrationErrorCode Database := do
  let discovered ← orRaise (db.jobs.get? lease.jobId) .jobLeaseConflict
  let target ← db.completionTarget discovered
  let job ← db.validateLease worker lease
  require (job.identity.targetRevision = some material.request.immutableRevision
    ∧ job.identity.repositoryId = material.request.repositoryId
    ∧ job.identity.serviceId = material.request.serviceId) .promotionIneligible
  require (db.wantsResult target job material = true) .promotionIneligible
  require (materialMatchesJob material job = true ∧ updateMatchesJob material job = true)
    .revisionAssociationConflict
  let written ← db.writeCompletion job material
  written.completeInCatalog parses job material

/-! ### Reconciliation -/

/-- What a reconciliation prepares: its configuration, if that is still the active one, and its
service, if the job still agrees with it. -/
def reconciliationScope (job : Job) :
    Except OrchestrationErrorCode (SchedulingConfiguration × TargetConfig) := do
  let id := job.identity
  require (db.active.map ActiveConfiguration.fingerprint = some id.configFingerprint)
    .jobSuperseded
  let document ← orRaise (db.configurations.get? id.configFingerprint) .reconciliationFailed
  require (document.configVersion = job.pinned.configVersion) .reconciliationFailed
  let target ← orRaise (document.findService id.repositoryId id.serviceId) .reconciliationFailed
  require (target.service.root = job.pinned.serviceRoot
    ∧ target.service.analyzer.adapterId = job.pinned.analyzerAdapterId
    ∧ target.service.analyzer.adapterVersion = job.pinned.analyzerAdapterVersion)
    .reconciliationFailed
  return (⟨id.configFingerprint, document⟩, target)

/-- `finishReconciliation`: the lease is checked once more, and the job succeeds. -/
def finishReconciliation (worker : WorkerIdentity) (lease : JobLease) :
    Except OrchestrationErrorCode Database := do
  let _ ← db.validateLease worker lease
  return db.succeedJob lease.jobId none

/-- The work of the checkpoint for the active configuration is under way. -/
def inProgress (configuration : SchedulingConfiguration) (prior : BranchCheckpoint) : Bool :=
  (db.currentJobRow prior.currentJob).any fun job =>
    job.identity.configFingerprint == configuration.fingerprint && job.state.isNonterminal

def fullyPromoted (key : BranchKey) (prior : BranchCheckpoint) (observed : DesiredState) : Bool :=
  prior.latestOutcome == .job .succeeded && prior.lastSuccessful.any fun last =>
    .present last.selectedRevision == observed
      && (db.catalog.pointers key).any (·.snapshotId == last.snapshotId)

/-- `forceRepair`: a present branch is analysed again unless its checkpoint wants the observed
revision and that is under way or promoted. -/
def forceRepair (configuration : SchedulingConfiguration) (key : BranchKey)
    (observed : DesiredState) : Bool :=
  observed != .absent && !((db.branches.get? key).any fun prior => prior.desired == observed
    && (db.inProgress configuration prior || db.fullyPromoted key prior observed))

def recordReconciliation (key : BranchKey) (outcome : ReconciliationOutcome) (reference : String) :
    Database :=
  { db with reconciliations := db.reconciliations.mapValues fun other checkpoint =>
      if other = key then
        { checkpoint with
          lastOutcome := some outcome
          lastCompletedReference := some reference
          safeLastErrorCode := none }
      else checkpoint }

/-- The transaction of the reconciliation of a branch after its observation, with the reference it
was asked for.  The observation counts unless it is stale or in conflict with the checkpoint. -/
def executeBranchReconciliation (worker : WorkerIdentity) (lease : JobLease) (reference : String)
    (observation : BranchObservation) : Except OrchestrationErrorCode Database := do
  let job ← db.validateLease worker lease
  let (configuration, target) ← db.reconciliationScope job
  require (job.identity.kind = .branchReconciliation) .reconciliationFailed
  let branch ← orRaise job.identity.branch .reconciliationFailed
  require (branch ∈ target.service.intendedBranches) .reconciliationFailed
  let key : BranchKey := ⟨job.identity.repositoryId, job.identity.serviceId, branch⟩
  let current ← orRaise (db.reconciliations.get? key) .jobSuperseded
  require (current.generation = job.identity.generation
    ∧ current.currentJob = some job.identity
    ∧ current.requestedReference = reference) .jobSuperseded
  require (observedBranch observation key target.repository = true
    ∧ isNamedEvidence observation.providerEvidence = true
    ∧ job.event.all (fun event => (db.events.get? event).isSome) = true) .reconciliationFailed
  let classification := (db.branches.get? key).map fun prior =>
    classifyProviderUpdate (some prior.providerCheckpoint)
      ⟨observation.providerEvidence, observation.state⟩
  require (classification ≠ some .stale ∧ classification ≠ some .conflict) .reconciliationFailed
  let repair := db.forceRepair configuration key observation.state
  let plan ← db.scheduleAuthoritativeBranch job.event configuration key.repositoryId key.serviceId
    branch observation.state observation.providerEvidence repair
  let outcome : ReconciliationOutcome := match observation.state with
    | .absent => .absent
    | .present _ => if repair then .repaired else .noWork
  ((db.persistScheduledJobs plan).recordReconciliation key outcome reference).finishReconciliation
    worker lease

/-- An observation does not count that is stale, in conflict with the checkpoint, or opens a closed
pull request again without newer evidence. -/
def refusesObservation (checkpoint : PullRequestCheckpoint) (update : PullRequestUpdate) : Bool :=
  checkpoint.recorded.any fun recorded =>
    let classification := classifyProviderUpdate (some recorded) update
    classification == .stale || classification == .conflict
      || update.relevantPayload.state == .open && recorded.relevantPayload.state.isTerminal
        && classification != .newer

/-- The event of the job of a pull request, with the base branch that it names. -/
def pullRequestEvent (job : Job) : Except OrchestrationErrorCode (EventEnvelope × String) := do
  let eventKey ← orRaise job.event .reconciliationFailed
  let stored ← orRaise (db.events.get? eventKey) .reconciliationFailed
  match stored.envelope.payload with
  | .pullRequestUpdated _ payload => return (stored.envelope, payload.baseBranch)
  | _ => throw .reconciliationFailed

/-- The transaction of the reconciliation of a pull request after its observation. -/
def executePullRequestReconciliation (worker : WorkerIdentity) (lease : JobLease)
    (observation : PullRequestObservation) : Except OrchestrationErrorCode Database := do
  let job ← db.validateLease worker lease
  let (configuration, target) ← db.reconciliationScope job
  require (job.identity.kind = .prReconciliation) .reconciliationFailed
  let pullRequestId ← orRaise job.identity.pullRequestId .reconciliationFailed
  let (event, baseBranch) ← db.pullRequestEvent job
  require (baseBranch ∈ target.service.intendedBranches) .reconciliationFailed
  let key : PullRequestKey := ⟨job.identity.repositoryId, job.identity.serviceId, pullRequestId⟩
  let checkpoint ← orRaise (db.pullRequests.get? key) .jobSuperseded
  require (checkpoint.reconciliationGeneration = job.identity.generation
    ∧ checkpoint.currentJob = some job.identity) .jobSuperseded
  require (observedPullRequest observation key target.repository baseBranch = true)
    .reconciliationFailed
  require (refusesObservation checkpoint observation.update = false) .reconciliationFailed
  let plan ← db.scheduleAuthoritativePullRequest event configuration key.repositoryId key.serviceId
    pullRequestId observation.update job.identity
  (db.persistScheduledJobs plan).finishReconciliation worker lease

end Database

end ApiTruth.Orchestration.Queue
