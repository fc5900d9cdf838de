import ApiTruth.Foundation.Runs
import ApiTruth.Orchestration.Scheduling

/-!
# The checkpoint of a pull request

For every pull request of a service there is one checkpoint: the last accepted update with its
evidence, or only a request for an exact observation.  Two paths change it.  An event of the
provider is placed by `classifyProviderUpdate`; one that cannot be compared only asks for a
reconciliation.  The reconciliation job observes the pull request and records what it sees.

The rows are those of one pull request of one service.  Other processes change the states of its
jobs in any way and activate configurations.

## Main definitions

* `PullRequestRows.schedulePullRequest` : schedule an event or an observation.
* `PullRequestRows.completeReconciliation` : the last transaction of a reconciliation job.
* `PullRequestRows.perform` : one action of any of the processes.
-/

namespace ApiTruth.Orchestration

open Catalog Checked

/-! ### Rows -/

/-- The `state` of a pull request. -/
inductive PullRequestState
  | open
  | updated
  | closed
  | merged
deriving DecidableEq, Repr

def PullRequestState.isTerminal : PullRequestState → Bool
  | closed | merged => true
  | «open» | updated => false

/-- The relevant payload of an update of a pull request. -/
structure PullRequestPayload where
  state : PullRequestState
  baseBranch : String
  baseRevision : String
  headBranch : String
  headRevision : String
deriving DecidableEq, Repr

/-- An update of a pull request with its evidence. -/
abbrev PullRequestUpdate := ProviderCheckpoint PullRequestPayload

inductive PullRequestJobKind
  | prPreviewAnalysis
  | prReconciliation
deriving DecidableEq, Repr

/-- The `semantic_identity` of a job about a pull request, whose digest is the job id. -/
structure PullRequestJobId where
  kind : PullRequestJobKind
  baseRevision : String
  targetRevision : String
  generation : ℕ
  configFingerprint : String
deriving DecidableEq, Repr

/-- A row of `orchestration_pr_checkpoints`: no recorded update means `pending`. -/
structure PullRequestCheckpoint where
  recorded : Option PullRequestUpdate
  checkpointVersion : ℕ
  analysisGeneration : ℕ
  reconciliationGeneration : ℕ
  currentJob : Option PullRequestJobId
  reconciliationRequest : Option PullRequestUpdate
deriving DecidableEq, Repr

/-- What the configuration says about the service and its repository. -/
structure PullRequestConfiguration where
  fingerprint : String
  provider : String
  intendedBranches : List String
deriving DecidableEq, Repr

structure PullRequestRows where
  configuration : PullRequestConfiguration
  checkpoint : Option PullRequestCheckpoint
  jobs : PullRequestJobId → Option JobState

/-- `persistSupersede` on the state of a job. -/
def JobState.supersede : JobState → JobState
  | .queued | .retryWait => .superseded
  | state => state

/-- `persistCancel` on the state of a job. -/
def JobState.cancel : JobState → JobState
  | .queued | .retryWait => .cancelled
  | state => state

namespace PullRequestRows

variable (rows : PullRequestRows)

/-! ### Scheduling -/

/-- The configured base branch of a pull request is an intended one. -/
def selectPullRequestScope (payload : PullRequestPayload) : Bool :=
  rows.configuration.intendedBranches.contains payload.baseBranch

def persistJob (id : PullRequestJobId) : PullRequestRows :=
  { rows with jobs := Function.update rows.jobs id (some ((rows.jobs id).getD .queued)) }

def updateJob (id : PullRequestJobId) (f : JobState → JobState) : PullRequestRows :=
  { rows with jobs := Function.update rows.jobs id ((rows.jobs id).map f) }

/-- Supersede the current job, unless it is the next one or the one that reconciles. -/
def supersedeCurrent (next : PullRequestJobId) (reconciliationJob : Option PullRequestJobId) :
    PullRequestRows :=
  match rows.checkpoint.bind PullRequestCheckpoint.currentJob with
  | none => rows
  | some current =>
    if current = next ∨ some current = reconciliationJob then rows
    else rows.updateJob current JobState.supersede

/-- Cancel the current job, unless it is the one that reconciles. -/
def cancelCurrent (reconciliationJob : Option PullRequestJobId) : PullRequestRows :=
  match rows.checkpoint.bind PullRequestCheckpoint.currentJob with
  | none => rows
  | some current =>
    if some current = reconciliationJob then rows else rows.updateJob current JobState.cancel

def recorded : Option PullRequestUpdate :=
  rows.checkpoint.bind PullRequestCheckpoint.recorded

/-- The current job is a reconciliation that is still under way. -/
def reconciles : Bool :=
  match rows.checkpoint.bind PullRequestCheckpoint.currentJob with
  | none => false
  | some current => current.kind == .prReconciliation
      && (rows.jobs current).any JobState.isNonterminal

/-- An update that cannot be compared asks for a reconciliation of the next generation and leaves
the recorded update as it is. -/
def requestReconciliation (update : PullRequestUpdate) : PullRequestRows :=
  let generation := match rows.checkpoint with
    | none => 1
    | some current => current.reconciliationGeneration + 1
  let id : PullRequestJobId :=
    { kind := .prReconciliation
      baseRevision := update.relevantPayload.baseRevision
      targetRevision := update.relevantPayload.headRevision
      generation := generation
      configFingerprint := rows.configuration.fingerprint }
  let checkpoint : PullRequestCheckpoint := match rows.checkpoint with
    | none =>
      { recorded := none, checkpointVersion := 1, analysisGeneration := 0,
        reconciliationGeneration := generation, currentJob := some id,
        reconciliationRequest := some update }
    | some current =>
      { current with
        reconciliationGeneration := generation
        currentJob := some id
        reconciliationRequest := some update }
  { (rows.persistJob id).supersedeCurrent id none with checkpoint := some checkpoint }

def acceptedCheckpoint (update : PullRequestUpdate) (job : Option PullRequestJobId) :
    PullRequestCheckpoint where
  recorded := some update
  checkpointVersion := match rows.checkpoint with
    | none => 1
    | some current => current.checkpointVersion + 1
  analysisGeneration := match rows.checkpoint with
    | none => 1
    | some current => current.analysisGeneration + 1
  reconciliationGeneration := (rows.checkpoint.map fun c => c.reconciliationGeneration).getD 0
  currentJob := job
  reconciliationRequest := none

/-- An accepted update is recorded: a closed pull request cancels its job, an open one gets a new
preview. -/
def acceptUpdate (update : PullRequestUpdate) (reconciliationJob : Option PullRequestJobId) :
    PullRequestRows :=
  if update.relevantPayload.state.isTerminal then
    { rows.cancelCurrent reconciliationJob with
      checkpoint := some (rows.acceptedCheckpoint update none) }
  else
    let id : PullRequestJobId :=
      { kind := .prPreviewAnalysis
        baseRevision := update.relevantPayload.baseRevision
        targetRevision := update.relevantPayload.headRevision
        generation := (rows.acceptedCheckpoint update none).analysisGeneration
        configFingerprint := rows.configuration.fingerprint }
    { (rows.persistJob id).supersedeCurrent id reconciliationJob with
      checkpoint := some (rows.acceptedCheckpoint update (some id)) }

/-- The classification of an event: a pending checkpoint counts as none. -/
def classification (update : PullRequestUpdate) : ProviderUpdateClassification :=
  classifyProviderUpdate rows.recorded update

/-- The event repeats the one that asked for the reconciliation under way. -/
def repeatsRequest (update : PullRequestUpdate) : Bool :=
  match rows.checkpoint.bind PullRequestCheckpoint.reconciliationRequest with
  | none => false
  | some request => classifyProviderUpdate (some request) update == .exactReplay

/-- Schedule an update of the pull request: an event, or the observation of a reconciliation job,
which counts as newer. -/
def schedulePullRequest (update : PullRequestUpdate)
    (reconciliationJob : Option PullRequestJobId) :
    Except OrchestrationError (PullRequestRows × EventDisposition) :=
  if !rows.selectPullRequestScope update.relevantPayload then
    .ok (rows, .ignoredUnconfiguredBranch)
  else
    let repeated := reconciliationJob.isNone && rows.repeatsRequest update
    let classification := if reconciliationJob.isSome then .newer else rows.classification update
    match if repeated then ProviderUpdateClassification.exactReplay else classification with
    | .conflict => .error .eventOrderConflict
    | .stale => .ok (rows, .ignoredStale)
    | .exactReplay =>
      if !repeated then .ok (rows, .noWork)
      else if rows.reconciles then .ok (rows, .reconciliationRequired)
      else .ok (rows.requestReconciliation update, .reconciliationRequired)
    | .incomparable => .ok (rows.requestReconciliation update, .reconciliationRequired)
    | .first | .newer => .ok (rows.acceptUpdate update reconciliationJob, .scheduled)

/-! ### Reconciliation -/

/-- `observedPullRequest`: an observation is about a configured base branch, comes from the
provider of the repository and has a canonical sequence if it has one. -/
def isObservedPullRequest (configuredBaseBranch : String) (update : PullRequestUpdate) : Bool :=
  update.relevantPayload.baseBranch == configuredBaseBranch
    && update.relevantPayload.state != .updated
    && update.evidence.provider == rows.configuration.provider
    && match update.evidence.order with
      | some ⟨.sequence, value⟩ => Decimal.isCanonical value
      | _ => true

/-- The observation is refused: it is stale or in conflict, or it reopens the pull request without
being newer. -/
def refusesObservation (update : PullRequestUpdate) : Bool :=
  match rows.recorded with
  | none => false
  | some recorded =>
    let classification := classifyProviderUpdate (some recorded) update
    classification == .stale || classification == .conflict
      || (update.relevantPayload.state == .open && recorded.relevantPayload.state.isTerminal
        && classification != .newer)

/-- The last transaction of a reconciliation job: its lease is still valid, the job is still the
current one of the checkpoint, and the observation is recorded. -/
def completeReconciliation (job : PullRequestJobId) (leaseValid : Bool)
    (configuredBaseBranch : String) (update : PullRequestUpdate) :
    Except OrchestrationError PullRequestRows := do
  require (job.kind = .prReconciliation) .reconciliationFailed
  require (rows.isObservedPullRequest configuredBaseBranch update = true) .reconciliationFailed
  require (leaseValid = true ∧ rows.jobs job = some .leased) .jobLeaseConflict
  require (rows.configuration.fingerprint = job.configFingerprint) .jobSuperseded
  let checkpoint ← orRaise rows.checkpoint .jobSuperseded
  require (checkpoint.reconciliationGeneration = job.generation
    ∧ checkpoint.currentJob = some job) .jobSuperseded
  require (rows.refusesObservation update = false) .reconciliationFailed
  require (rows.selectPullRequestScope update.relevantPayload = true) .eventSubjectMismatch
  let (scheduled, _) ← rows.schedulePullRequest update (some job)
  return scheduled.updateJob job fun _ => .succeeded

/-! ### Actions of the processes -/

/-- One transaction of one of the processes that share the checkpoint. -/
inductive Action
  | event (update : PullRequestUpdate)
  | reconcile (job : PullRequestJobId) (leaseValid : Bool) (configuredBaseBranch : String)
      (update : PullRequestUpdate)
  | activate (configuration : PullRequestConfiguration)
  | moveJobs (jobs : PullRequestJobId → Option JobState)

/-- The rows after one action; an operation that raises is rolled back. -/
def perform : Action → PullRequestRows
  | .event update =>
    match rows.schedulePullRequest update none with
    | .ok (next, _) => next
    | .error _ => rows
  | .reconcile job leaseValid configuredBaseBranch update =>
    match rows.completeReconciliation job leaseValid configuredBaseBranch update with
    | .ok next => next
    | .error _ => rows
  | .activate configuration => { rows with configuration := configuration }
  | .moveJobs jobs => { rows with jobs := jobs }

def Step (rows : PullRequestRows) (action : Action) (next : PullRequestRows) : Prop :=
  next = rows.perform action

def IsInitial : Prop := rows.checkpoint = none

end PullRequestRows

end ApiTruth.Orchestration
