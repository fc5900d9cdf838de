import ApiTruth.Orchestration.PullRequest
import ApiTruth.Orchestration.Worker

/-!
# Rows of the job queue

The rows of one tenant that scheduling and the workers write: jobs of all five kinds with their
dependencies, the four tables of checkpoints that point to their current jobs, the active
configuration, events with their targets, and the notices of state changes in the outbox.  A job is
identified by the digest of its semantic identity, and a notice by the digest of its own; both are
modelled by the value they are taken of.  Columns that nothing here reads or constrains (the digest
of the configuration document, creation and update times, row versions) are left out.

## Main definitions

* `JobIdentity`, `Job` and the updates of a job: `Job.claim`, `Job.retry`, `Job.terminate`,
  `Job.supersede`, `Job.cancel`, `Job.cancelByOperator`, `Job.succeed`.
* `reduceJobState` : the transitions of a job as the reducer has them.
* `BranchCheckpoint`, `PullRequestCheckpoint`, `ReconciliationCheckpoint`, `AnalysisCheckpoint`.
* `Slot`, `Database.current` : what a checkpoint is about, and the job it points to.
-/

namespace ApiTruth.Orchestration.Queue

open Catalog

/-! ### Jobs -/

inductive JobKind
  | baselineAnalysis
  | branchAnalysis
  | prPreviewAnalysis
  | branchReconciliation
  | prReconciliation
deriving DecidableEq, Repr

/-- `kind.endsWith("reconciliation")`. -/
def JobKind.isReconciliation : JobKind → Bool
  | branchReconciliation | prReconciliation => true
  | baselineAnalysis | branchAnalysis | prPreviewAnalysis => false

inductive OrchestrationErrorCode
  | invalidOrchestrationInput
  | configurationNotFound
  | configurationConflict
  | eventIdConflict
  | eventSubjectMismatch
  | eventOrderConflict
  | jobNotFoundOrDenied
  | jobLeaseConflict
  | jobSuperseded
  | jobCancelled
  | jobDependencyFailed
  | jobExecutionFailed
  | reconciliationFailed
  | promotionIneligible
  | revisionAssociationConflict
  | orchestrationStorageError
deriving DecidableEq, Repr

/-- The `semantic_identity` of a job, whose digest is the job id. -/
structure JobIdentity where
  kind : JobKind
  repositoryId : String
  serviceId : String
  branch : Option String := none
  pullRequestId : Option String := none
  baseRevision : Option String := none
  targetRevision : Option String := none
  generation : ℕ
  analysis : Option AnalysisIdentity := none
  configFingerprint : String
deriving DecidableEq, Repr

/-- The columns that pin the analysis of a job to its configuration. -/
structure PinnedAnalysis where
  serviceRoot : String
  analyzerAdapterId : String
  analyzerAdapterVersion : String
  exchangeVersion : String
  irVersion : String
  identityVersion : String
  configVersion : String
deriving DecidableEq, Repr

structure EventKey where
  producerId : String
  eventId : String
deriving DecidableEq, Repr

/-- A row of `orchestration_jobs`. -/
structure Job where
  identity : JobIdentity
  pinned : PinnedAnalysis
  event : Option EventKey
  evidence : ProviderReference
  state : JobState := .queued
  attemptCount : ℕ := 0
  maxAttempts : ℕ := 5
  availableAt : ℕ
  lease : Option LeaseColumns := none
  cancellationRequested : Bool := false
  supersedingJob : Option JobIdentity := none
  safeLastErrorCode : Option OrchestrationErrorCode := none
  resultSnapshotId : Option String := none
  completedAt : Option ℕ := none
deriving DecidableEq, Repr

namespace Job

variable (clock : ℕ) (job : Job)

/-- A worker leases the job: its next attempt begins. -/
def claim (worker : WorkerIdentity) (token : String) : Job :=
  { job with
    state := .leased
    attemptCount := job.attemptCount + 1
    lease := some ⟨worker.workerId, worker.instanceId, token, clock + leaseDurationMs⟩
    safeLastErrorCode := none }

/-- The worker extends its lease. -/
def heartbeat : Job :=
  { job with lease := job.lease.map ({ · with expiresAt := clock + leaseDurationMs }) }

/-- The job waits for its next attempt. -/
def retry (delay : ℕ) (code : Option OrchestrationErrorCode) : Job :=
  { job with
    state := .retryWait
    lease := none
    safeLastErrorCode := code
    availableAt := clock + delay }

/-- The job ends without a result. -/
def terminate (state : JobState) (code : Option OrchestrationErrorCode) : Job :=
  { job with
    state := state
    lease := none
    safeLastErrorCode := code
    completedAt := some clock }

def requestCancel : Job := { job with cancellationRequested := true }

/-- The update of `persistSupersede`: a leased job keeps its lease and learns of its successor. -/
def supersede (next : JobIdentity) : Job :=
  match job.state with
  | .queued | .retryWait =>
    { job with
      state := .superseded
      cancellationRequested := true
      supersedingJob := some next
      completedAt := some clock }
  | .leased => { job with cancellationRequested := true, supersedingJob := some next }
  | .succeeded | .failed | .cancelled | .superseded => job

/-- The update of `persistCancel`: a leased job keeps its lease and learns of it. -/
def cancel : Job :=
  match job.state with
  | .queued | .retryWait => { job with state := .cancelled, completedAt := some clock }
  | .leased => { job with cancellationRequested := true }
  | .succeeded | .failed | .cancelled | .superseded => job

/-- The update of `cancelJob`. -/
def cancelByOperator : Job :=
  { job with
    state := if job.state = .leased then .leased else .cancelled
    cancellationRequested := true
    completedAt := if job.state = .leased then job.completedAt else some clock }

/-- The job ends with a result, which a reconciliation does not have. -/
def succeed (resultSnapshotId : Option String) : Job :=
  { job with
    state := .succeeded
    lease := none
    resultSnapshotId := resultSnapshotId
    completedAt := some clock }

end Job

/-! ### The reducer of job states -/

/-- A job as `reduceJobState` sees it. -/
structure ReducedJob where
  state : JobState
  errorCode : Option OrchestrationErrorCode := none
  supersedingJobId : Option JobIdentity := none
deriving DecidableEq, Repr

/-- The transitions of `reduceJobState`. -/
inductive JobTransition
  | lease
  | succeed
  | retry
  | fail
  | cancel
  | supersede (supersedingJobId : JobIdentity)
  | dependencyFailed (cancellationRequested : Bool) (supersedingJobId : Option JobIdentity)
deriving DecidableEq, Repr

/-- One transition of a job; a terminal job is left as it is. -/
def reduceJobState (current : ReducedJob) (transition : JobTransition) :
    Except OrchestrationErrorCode ReducedJob :=
  if !current.state.isNonterminal then .ok current
  else match transition with
    | .dependencyFailed cancellationRequested supersedingJobId =>
      match supersedingJobId with
      | some next => .ok { state := .superseded, supersedingJobId := some next }
      | none =>
        if cancellationRequested then .ok { state := .cancelled }
        else if current.state = .queued ∨ current.state = .retryWait then
          .ok { state := .failed, errorCode := some .jobDependencyFailed }
        else .error .jobLeaseConflict
    | .cancel => .ok { state := .cancelled }
    | .supersede next => .ok { state := .superseded, supersedingJobId := some next }
    | .lease =>
      if current.state = .queued ∨ current.state = .retryWait then .ok { state := .leased }
      else .error .jobLeaseConflict
    | .succeed =>
      if current.state = .leased then .ok { state := .succeeded } else .error .jobLeaseConflict
    | .retry =>
      if current.state = .leased then .ok { state := .retryWait } else .error .jobLeaseConflict
    | .fail =>
      if current.state = .leased then
        .ok { state := .failed, errorCode := some .jobExecutionFailed }
      else .error .jobLeaseConflict

/-! ### Checkpoints -/

structure PullRequestKey where
  repositoryId : String
  serviceId : String
  pullRequestId : String
deriving DecidableEq, Repr

/-- The `last_successful_*` columns, all set or none. -/
structure LastSuccess where
  jobId : JobIdentity
  snapshotId : String
  selectedRevision : String
  associationKey : AssociationKey
deriving DecidableEq, Repr

/-- A row of `orchestration_branch_checkpoints`. -/
structure BranchCheckpoint where
  desired : DesiredState
  evidence : ProviderReference
  checkpointVersion : ℕ
  analysisGeneration : ℕ
  currentJob : Option JobIdentity
  latestOutcome : BranchOutcome
  lastSuccessful : Option LastSuccess := none
deriving DecidableEq, Repr

/-- The checkpoint as the current side of a classification. -/
def BranchCheckpoint.providerCheckpoint (checkpoint : BranchCheckpoint) :
    ProviderCheckpoint DesiredState :=
  ⟨checkpoint.evidence, checkpoint.desired⟩

/-- A row of `orchestration_pr_checkpoints`: no recorded update means `pending`. -/
structure PullRequestCheckpoint where
  recorded : Option PullRequestUpdate
  checkpointVersion : ℕ
  analysisGeneration : ℕ
  reconciliationGeneration : ℕ
  currentJob : Option JobIdentity
  reconciliationRequest : Option PullRequestUpdate
  latestOutcome : JobState
  lastPreviewResultJob : Option JobIdentity := none
deriving DecidableEq, Repr

/-- A row of `orchestration_reconciliation_checkpoints`. -/
structure ReconciliationCheckpoint where
  requestedReference : String
  generation : ℕ
  currentJob : Option JobIdentity
  lastCompletedReference : Option String := none
  lastOutcome : Option ReconciliationOutcome := none
  safeLastErrorCode : Option OrchestrationErrorCode := none
deriving DecidableEq, Repr

/-- A row of `orchestration_analysis_checkpoints`. -/
structure AnalysisCheckpoint where
  attemptGeneration : ℕ
  currentJob : Option JobIdentity
  lastTerminalOutcome : Option JobState
deriving DecidableEq, Repr

inductive Slot
  | branch (key : BranchKey)
  | pullRequest (key : PullRequestKey)
  | reconciliation (key : BranchKey)
  | analysis (identity : AnalysisIdentity)
deriving DecidableEq, Repr

/-- The checkpoint that a job works for. -/
def JobIdentity.slot (id : JobIdentity) : Option Slot :=
  match id.kind with
  | .branchAnalysis => id.branch.map fun branch => .branch ⟨id.repositoryId, id.serviceId, branch⟩
  | .prPreviewAnalysis | .prReconciliation =>
    id.pullRequestId.map fun pullRequestId =>
      .pullRequest ⟨id.repositoryId, id.serviceId, pullRequestId⟩
  | .branchReconciliation =>
    id.branch.map fun branch => .reconciliation ⟨id.repositoryId, id.serviceId, branch⟩
  | .baselineAnalysis => id.analysis.map .analysis

def Slot.serviceId : Slot → String
  | branch key | reconciliation key => key.serviceId
  | pullRequest key => key.serviceId
  | analysis identity => identity.serviceId

/-! ### Events -/

/-- The `disposition` of an event for one target. -/
inductive EventDisposition
  | scheduled
  | ignoredUnconfiguredBranch
  | ignoredStale
  | reconciliationRequired
  | deferredHandler
  | noWork
deriving DecidableEq, Repr

/-- The `safe_reason` of a disposition. -/
inductive SafeReason
  | unconfiguredBranch
  | stale
  | reconciliationRequired
  | deferredHandler
  | noWork
deriving DecidableEq, Repr

structure ScheduledTarget where
  repositoryId : String
  serviceId : String
  scopeKey : String
  disposition : EventDisposition
  safeReason : Option SafeReason := none
  jobId : Option JobIdentity := none
  reconciliationId : Option JobIdentity := none
deriving DecidableEq, Repr

/-- A row of `orchestration_event_targets`. -/
structure EventTarget where
  event : EventKey
  target : ScheduledTarget
deriving DecidableEq, Repr

/-- The payload of a `configuration.changed` event; the affected services and scope are missing
from what stands in for the payload when no event activated the configuration. -/
structure ConfigurationPayload where
  configVersion : String
  configFingerprint : String
  affected : Option (List String × String) := none
deriving DecidableEq, Repr

/-- The payload of an event, as far as scheduling reads it. -/
inductive EventPayload
  | baselineRequested (immutableRevision : String)
  | pullRequestUpdated (pullRequestId : String) (payload : PullRequestPayload)
  | branchUpdated (branch newRevision : String) (deleted : Bool)
  | deploymentChanged
  | configurationChanged (payload : ConfigurationPayload)
  | sourceDocumentChanged
  | reconciliationRequested (environments : List String) (providerSnapshotReference : String)
deriving DecidableEq, Repr

structure EventEnvelope where
  key : EventKey
  repositoryId : Option String
  serviceIds : List String
  evidence : ProviderReference
  payload : EventPayload
deriving DecidableEq, Repr

/-- A row of `orchestration_events`. -/
structure StoredEvent where
  envelope : EventEnvelope
  activeConfigFingerprint : String
deriving DecidableEq, Repr

/-! ### Notices of state changes -/

/-- The `transitionIdentity` in the identity of a notice. -/
inductive TransitionIdentity
  | created (identity : JobIdentity)
  | supersededBy (supersedingJobId : JobIdentity)
  | subjectClosed
deriving DecidableEq, Repr

/-- The `reason` in the identity of a notice. -/
inductive NoticeReason
  | attempt (count : ℕ)
  | code (code : OrchestrationErrorCode)
deriving DecidableEq, Repr

/-- A `job.state_changed` row of the outbox: the value its deduplication key is the digest of.  The
tenant is missing from the identity when an operator cancels. -/
structure StateNotice where
  ofTenant : Bool := true
  jobId : JobIdentity
  state : JobState
  reason : Option NoticeReason := none
  transitionIdentity : Option TransitionIdentity := none
deriving DecidableEq, Repr

/-! ### The database -/

/-- The row of `orchestration_active_configurations`. -/
structure ActiveConfiguration where
  fingerprint : String
  checkpointVersion : ℕ
  evidence : Option ProviderReference := none
  activationEvent : Option EventKey := none
deriving DecidableEq, Repr

/-- A row of `orchestration_job_dependencies`. -/
structure JobDependency where
  jobId : JobIdentity
  prerequisiteJobId : JobIdentity
deriving DecidableEq, Repr

/-- A row of `orchestration_revision_snapshots`.  The unique index on the target makes the
analysis its key. -/
structure RevisionSnapshot where
  sourceDigest : String
  resolutionInputsFingerprint : Option String
  snapshotId : String
  analyzerStatus : AnalyzerStatus
  associationKind : AssociationKind
  producingJob : JobIdentity
deriving DecidableEq, Repr

structure Database where
  /-- The database clock, in milliseconds. -/
  clock : ℕ
  configurations : OrderedMap String InstallationConfig
  active : Option ActiveConfiguration
  events : OrderedMap EventKey StoredEvent
  eventTargets : List EventTarget
  jobs : OrderedMap JobIdentity Job
  dependencies : List JobDependency
  branches : OrderedMap BranchKey BranchCheckpoint
  pullRequests : OrderedMap PullRequestKey PullRequestCheckpoint
  reconciliations : OrderedMap BranchKey ReconciliationCheckpoint
  analyses : OrderedMap AnalysisIdentity AnalysisCheckpoint
  revisionSnapshots : OrderedMap AnalysisIdentity RevisionSnapshot
  outbox : List StateNotice
  catalog : Store

namespace Database

/-- The store before anything has happened. -/
def initial (clock : ℕ) (catalog : Store) : Database where
  clock := clock
  configurations := .empty
  active := none
  events := .empty
  eventTargets := []
  jobs := .empty
  dependencies := []
  branches := .empty
  pullRequests := .empty
  reconciliations := .empty
  analyses := .empty
  revisionSnapshots := .empty
  outbox := []
  catalog := catalog

variable (db : Database)

/-- The job that a checkpoint points to. -/
def current : Slot → Option JobIdentity
  | .branch key => (db.branches.get? key).bind BranchCheckpoint.currentJob
  | .pullRequest key => (db.pullRequests.get? key).bind PullRequestCheckpoint.currentJob
  | .reconciliation key => (db.reconciliations.get? key).bind ReconciliationCheckpoint.currentJob
  | .analysis identity => (db.analyses.get? identity).bind AnalysisCheckpoint.currentJob

/-- The generation of the last job of a kind that a checkpoint has asked for. -/
def generation : JobKind → Slot → ℕ
  | .branchAnalysis, .branch key => ((db.branches.get? key).map (·.analysisGeneration)).getD 0
  | .prPreviewAnalysis, .pullRequest key =>
    ((db.pullRequests.get? key).map (·.analysisGeneration)).getD 0
  | .prReconciliation, .pullRequest key =>
    ((db.pullRequests.get? key).map (·.reconciliationGeneration)).getD 0
  | .branchReconciliation, .reconciliation key =>
    ((db.reconciliations.get? key).map (·.generation)).getD 0
  | .baselineAnalysis, .analysis identity =>
    ((db.analyses.get? identity).map (·.attemptGeneration)).getD 0
  | _, _ => 0

/-- The row of a job that a checkpoint points to. -/
def currentJobRow (current : Option JobIdentity) : Option Job :=
  current.bind db.jobs.get?

/-- `UPDATE orchestration_jobs … WHERE job_id = id`. -/
def updateJob (id : JobIdentity) (f : Job → Job) : Database :=
  { db with jobs := db.jobs.mapValues fun other job => if other = id then f job else job }

/-- `INSERT INTO orchestration_outbox … ON CONFLICT (tenant_id, dedupe_key) DO NOTHING`. -/
def insertNotice (notice : StateNotice) : Database :=
  if notice ∈ db.outbox then db else { db with outbox := db.outbox ++ [notice] }

def insertNotices (notices : List StateNotice) : Database :=
  notices.foldl insertNotice db

end Database

end ApiTruth.Orchestration.Queue
