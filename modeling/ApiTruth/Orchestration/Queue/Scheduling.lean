import ApiTruth.Orchestration.Queue.Rows

/-!
# Planning of jobs

Scheduling reads the checkpoints and makes a plan: the jobs to insert, the jobs to supersede or
cancel, the dependencies and the checkpoint writes.  Nothing is written before the plan is
persisted, so every part of a plan is made from the rows of the start of the transaction.  The
source orders the staged parts by table and key before it writes them; the parts staged for
different keys do not meet, and the order is not modelled.  For the same reason what the source
defers until all services are planned is planned here service by service.

## Main definitions

* `SchedulingPlan` and its staging: `stageJob`, `stageSupersede`, `stageCancel`, `stageCheckpoint`.
* `Database.scheduleBaseline`, `Database.scheduleBranch`, `Database.scheduleBranchReconciliation`,
  `Database.schedulePullRequest` : plan one checkpoint.
* `Database.scheduleEventTargets`, `Database.scheduleConfigurationTransition` : plan an event, and
  a change of the configuration.
-/

namespace ApiTruth.Orchestration.Queue

open Catalog Checked

/-! ### Plans -/

/-- A job to be inserted unless its id is taken. -/
structure PreparedJob where
  identity : JobIdentity
  pinned : PinnedAnalysis
  event : Option EventKey
  evidence : ProviderReference
deriving DecidableEq, Repr

inductive PreparedTransition
  | cancel (oldJob : JobIdentity)
  | supersede (oldJob nextJob : JobIdentity)
deriving DecidableEq, Repr

def PreparedTransition.oldJob : PreparedTransition → JobIdentity
  | cancel oldJob | supersede oldJob _ => oldJob

/-- A staged statement on one checkpoint: the row it leaves, from the row it finds. -/
inductive CheckpointWrite
  | branch (key : BranchKey) (apply : Option BranchCheckpoint → BranchCheckpoint)
  | pullRequest (key : PullRequestKey) (apply : Option PullRequestCheckpoint → PullRequestCheckpoint)
  | reconciliation (key : BranchKey)
      (apply : Option ReconciliationCheckpoint → ReconciliationCheckpoint)
  | analysis (identity : AnalysisIdentity) (apply : Option AnalysisCheckpoint → AnalysisCheckpoint)

def CheckpointWrite.slot : CheckpointWrite → Slot
  | branch key _ => .branch key
  | pullRequest key _ => .pullRequest key
  | reconciliation key _ => .reconciliation key
  | analysis identity _ => .analysis identity

structure SchedulingPlan where
  targets : List ScheduledTarget := []
  jobs : List PreparedJob := []
  transitions : List PreparedTransition := []
  dependencies : List JobDependency := []
  checkpointWrites : List CheckpointWrite := []

structure JobInput where
  kind : JobKind
  branch : Option String := none
  pullRequestId : Option String := none
  baseRevision : Option String := none
  targetRevision : Option String := none
  generation : ℕ
deriving DecidableEq, Repr

def jobIdentity (configuration : SchedulingConfiguration) (target : TargetConfig)
    (input : JobInput) : JobIdentity where
  kind := input.kind
  repositoryId := target.repository.repositoryId
  serviceId := target.service.serviceId
  branch := input.branch
  pullRequestId := input.pullRequestId
  baseRevision := input.baseRevision
  targetRevision := input.targetRevision
  generation := input.generation
  analysis := input.targetRevision.map (analysisIdentity configuration target)
  configFingerprint := configuration.fingerprint

/-- The columns that pin a job to its configuration. -/
def pinnedAnalysis (configuration : SchedulingConfiguration) (target : TargetConfig) :
    PinnedAnalysis where
  serviceRoot := target.service.root
  analyzerAdapterId := target.service.analyzer.adapterId
  analyzerAdapterVersion := target.service.analyzer.adapterVersion
  exchangeVersion := analyzerExchangeVersion
  irVersion := configuredAnalyzerIrVersion target.service.analyzer
  identityVersion := identityVersion
  configVersion := configuration.document.configVersion

namespace SchedulingPlan

variable (plan : SchedulingPlan)

/-- Stage a job; a job staged twice is inserted once. -/
def stageJob (event : Option EventKey) (configuration : SchedulingConfiguration)
    (target : TargetConfig) (input : JobInput) (evidence : ProviderReference) : SchedulingPlan :=
  let prepared : PreparedJob :=
    ⟨jobIdentity configuration target input, pinnedAnalysis configuration target, event, evidence⟩
  { plan with jobs := plan.jobs.filter (·.identity ≠ prepared.identity) ++ [prepared] }

/-- Stage the supersession of the job that a checkpoint points to, unless it is the next one. -/
def stageSupersede (oldJob : Option JobIdentity) (nextJob : JobIdentity) : SchedulingPlan :=
  match oldJob with
  | none => plan
  | some oldJob =>
    if oldJob = nextJob then plan
    else { plan with transitions := plan.transitions ++ [.supersede oldJob nextJob] }

/-- Stage the cancellation of the job that a checkpoint points to. -/
def stageCancel (oldJob : Option JobIdentity) : SchedulingPlan :=
  match oldJob with
  | none => plan
  | some oldJob => { plan with transitions := plan.transitions ++ [.cancel oldJob] }

def stageCheckpoint (write : CheckpointWrite) : SchedulingPlan :=
  { plan with checkpointWrites := plan.checkpointWrites ++ [write] }

def stageDependency (jobId prerequisiteJobId : JobIdentity) : SchedulingPlan :=
  { plan with dependencies := plan.dependencies ++ [⟨jobId, prerequisiteJobId⟩] }

end SchedulingPlan

namespace Database

variable (db : Database)

/-! ### Baselines -/

/-- The identity of the analysis of a revision without a branch. -/
def baselineIdentity (configuration : SchedulingConfiguration) (target : TargetConfig)
    (revision : String) (generation : ℕ) : JobIdentity :=
  jobIdentity configuration target
    { kind := .baselineAnalysis, targetRevision := some revision, generation := generation }

/-- A baseline of the next generation is queued. -/
def stageBaseline (plan : SchedulingPlan) (event : EventEnvelope)
    (configuration : SchedulingConfiguration) (target : TargetConfig) (revision : String)
    (generation : ℕ) : SchedulingPlan :=
  let write : Option AnalysisCheckpoint → AnalysisCheckpoint := fun _ =>
    { attemptGeneration := generation
      currentJob := some (baselineIdentity configuration target revision generation)
      lastTerminalOutcome := none }
  (plan.stageJob event.key configuration target
    { kind := .baselineAnalysis, targetRevision := some revision, generation := generation }
    event.evidence).stageCheckpoint
      (.analysis (analysisIdentity configuration target revision) write)

/-- The job that brings, or has brought, the analysis of a revision, and whether it was there
before. -/
def scheduleBaseline (plan : SchedulingPlan) (event : EventEnvelope)
    (configuration : SchedulingConfiguration) (target : TargetConfig) (revision : String) :
    Except OrchestrationErrorCode (JobIdentity × Bool × SchedulingPlan) :=
  let key := analysisIdentity configuration target revision
  let queued (generation : ℕ) := (baselineIdentity configuration target revision generation, false,
    stageBaseline plan event configuration target revision generation)
  match db.revisionSnapshots.get? key, db.analyses.get? key with
  | some existing, _ => .ok (existing.producingJob, true, plan)
  | none, none => .ok (queued 1)
  | none, some current =>
    if current.lastTerminalOutcome = some .succeeded then .error .orchestrationStorageError
    else match current.currentJob, current.lastTerminalOutcome with
      | some jobId, none => .ok (jobId, true, plan)
      | _, _ => .ok (queued (current.attemptGeneration + 1))

/-! ### Branches -/

/-- `sameSemanticTarget`: no repair is forced, and the checkpoint already wants the state, through
a job of the active configuration when the branch is present. -/
def sameSemanticTarget (configuration : SchedulingConfiguration) (current : BranchCheckpoint)
    (desired : DesiredState) (forceRepair : Bool) : Bool :=
  !forceRepair && current.desired == desired && (desired == .absent ||
    (db.currentJobRow current.currentJob).any
      (·.identity.configFingerprint == configuration.fingerprint))

/-- The checkpoint takes over newer evidence for the target it already has. -/
def confirmBranch (plan : SchedulingPlan) (key : BranchKey) (current : BranchCheckpoint)
    (evidence : ProviderReference) : SchedulingPlan :=
  plan.stageCheckpoint <| .branch key fun stored =>
    { stored.getD current with
      evidence := evidence
      checkpointVersion := current.checkpointVersion + 1 }

/-- The `checkpoint_version` that an update leaves. -/
def nextBranchVersion (key : BranchKey) : ℕ :=
  ((db.branches.get? key).map (·.checkpointVersion)).getD 0 + 1

/-- The branch is gone: its work is cancelled and nothing is current. -/
def scheduleAbsence (plan : SchedulingPlan) (key : BranchKey) (evidence : ProviderReference) :
    SchedulingPlan :=
  (plan.stageCancel (db.current (.branch key))).stageCheckpoint <| .branch key fun stored =>
    match stored with
    | none =>
      { desired := .absent
        evidence := evidence
        checkpointVersion := db.nextBranchVersion key
        analysisGeneration := db.generation .branchAnalysis (.branch key)
        currentJob := none
        latestOutcome := .absent }
    | some row =>
      { row with
        desired := .absent
        evidence := evidence
        checkpointVersion := db.nextBranchVersion key
        currentJob := none
        latestOutcome := .absent }

/-- The next analysis of a branch is queued, and the current one superseded. -/
def scheduleAnalysis (plan : SchedulingPlan) (event : Option EventKey)
    (configuration : SchedulingConfiguration) (target : TargetConfig) (branch revision : String)
    (evidence : ProviderReference) : JobIdentity × SchedulingPlan :=
  let key := target.key branch
  let generation := db.generation .branchAnalysis (.branch key) + 1
  let input : JobInput :=
    { kind := .branchAnalysis, branch := some branch, targetRevision := some revision,
      generation := generation }
  let jobId := jobIdentity configuration target input
  let write : Option BranchCheckpoint → BranchCheckpoint := fun stored =>
    { desired := .present revision
      evidence := evidence
      checkpointVersion := db.nextBranchVersion key
      analysisGeneration := generation
      currentJob := some jobId
      latestOutcome := .job .queued
      lastSuccessful := stored.bind BranchCheckpoint.lastSuccessful }
  (jobId, ((plan.stageJob event configuration target input evidence).stageSupersede
    (db.current (.branch key)) jobId).stageCheckpoint (.branch key write))

/-- One update of a branch.  An event is classified against the checkpoint; an authoritative
observation, given with its `forceRepair`, counts as newer. -/
def scheduleBranch (plan : SchedulingPlan) (event : Option EventKey)
    (configuration : SchedulingConfiguration) (target : TargetConfig) (branch : String)
    (desired : DesiredState) (evidence : ProviderReference) (authoritative : Option Bool) :
    Except OrchestrationErrorCode (ScheduledTarget × SchedulingPlan) :=
  let key := target.key branch
  let base (disposition : EventDisposition) (safeReason : Option SafeReason) : ScheduledTarget :=
    { repositoryId := key.repositoryId, serviceId := key.serviceId,
      scopeKey := "branch:" ++ branch, disposition := disposition, safeReason := safeReason }
  if branch ∉ target.service.intendedBranches then
    .ok (base .ignoredUnconfiguredBranch (some .unconfiguredBranch), plan)
  else
    let current := db.branches.get? key
    let classification := match authoritative with
      | none => classifyProviderUpdate (current.map BranchCheckpoint.providerCheckpoint)
          ⟨evidence, desired⟩
      | some _ => .newer
    match classification with
    | .conflict => .error .eventOrderConflict
    | .stale => .ok (base .ignoredStale (some .stale), plan)
    | .exactReplay => .ok (base .noWork (some .noWork), plan)
    | .incomparable =>
      .ok (base .reconciliationRequired (some .reconciliationRequired), plan)
    | .first | .newer =>
      match current.filter (db.sameSemanticTarget configuration · desired
        (authoritative.getD false)) with
      | some row =>
        let nonterminal := (db.currentJobRow row.currentJob).any (·.state.isNonterminal)
        .ok (if nonterminal then { base .scheduled none with jobId := row.currentJob }
            else base .noWork (some .noWork), confirmBranch plan key row evidence)
      | none => match desired with
        | .absent => .ok (base .scheduled none, db.scheduleAbsence plan key evidence)
        | .present revision =>
          let (jobId, scheduled) :=
            db.scheduleAnalysis plan event configuration target branch revision evidence
          .ok ({ base .scheduled none with jobId := some jobId }, scheduled)

/-- An update of a branch by an authoritative observation. -/
def scheduleAuthoritativeBranch (event : Option EventKey) (configuration : SchedulingConfiguration)
    (repositoryId serviceId branch : String) (desired : DesiredState)
    (evidence : ProviderReference) (forceRepair : Bool) :
    Except OrchestrationErrorCode SchedulingPlan := do
  let target ← orRaise (configuration.document.targetConfig serviceId) .eventSubjectMismatch
  require (target.repository.repositoryId = repositoryId
    ∧ branch ∈ target.service.intendedBranches) .eventSubjectMismatch
  let (scheduled, plan) ← db.scheduleBranch {} event configuration target branch desired evidence
    (some forceRepair)
  require (scheduled.disposition ≠ .reconciliationRequired) .reconciliationFailed
  return { plan with targets := [scheduled] }

/-! ### Reconciliations of branches -/

/-- A reconciliation of the next generation is queued, and the current one superseded. -/
def queueReconciliation (plan : SchedulingPlan) (event : Option EventKey)
    (configuration : SchedulingConfiguration) (target : TargetConfig) (branch reference : String)
    (evidence : ProviderReference) : JobIdentity × SchedulingPlan :=
  let key := target.key branch
  let generation := db.generation .branchReconciliation (.reconciliation key) + 1
  let input : JobInput :=
    { kind := .branchReconciliation, branch := some branch, generation := generation }
  let jobId := jobIdentity configuration target input
  let write : Option ReconciliationCheckpoint → ReconciliationCheckpoint := fun stored =>
    { requestedReference := reference
      generation := generation
      currentJob := some jobId
      lastCompletedReference := stored.bind ReconciliationCheckpoint.lastCompletedReference }
  (jobId, ((plan.stageJob event configuration target input evidence).stageSupersede
    (db.current (.reconciliation key)) jobId).stageCheckpoint (.reconciliation key write))

/-- Ask for an exact observation of a branch, unless one with the same reference is under way. -/
def scheduleBranchReconciliation (plan : SchedulingPlan) (event : EventEnvelope)
    (configuration : SchedulingConfiguration) (target : TargetConfig)
    (branch reference : String) : Except OrchestrationErrorCode (JobIdentity × SchedulingPlan) :=
  if branch ∉ target.service.intendedBranches then .error .eventSubjectMismatch
  else
    let underWay := (db.reconciliations.get? (target.key branch)).bind fun current =>
      current.currentJob.filter fun jobId => current.requestedReference == reference
        && (db.jobs.get? jobId).any (·.state.isNonterminal)
    match underWay with
    | some jobId => .ok (jobId, plan)
    | none => .ok (db.queueReconciliation plan event.key configuration target branch reference
        event.evidence)

/-- The configured branches that a reconciliation of the given environments is about; no
environment means all branches. -/
def selectReconciliationBranches (service : ServiceConfig) (environments : List String) :
    Except OrchestrationErrorCode (List String) := do
  if service.intendedBranches = [] then return []
  else if environments = [] then return canonicalStrings service.intendedBranches
  else
    let selected ← environments.mapM fun name =>
      orRaise (service.environments.find? (·.name == name)) .eventSubjectMismatch
    return canonicalStrings ((selected.filterMap (·.intendedBranch)).filter
      (· ∈ service.intendedBranches))

/-! ### Pull requests -/

/-- An authoritative observation is requested, by a reconciliation of the next generation. -/
def requestPullRequestReconciliation (plan : SchedulingPlan) (event : EventEnvelope)
    (configuration : SchedulingConfiguration) (target : TargetConfig) (pullRequestId : String)
    (update : PullRequestUpdate) : JobIdentity × SchedulingPlan :=
  let key : PullRequestKey :=
    ⟨target.repository.repositoryId, target.service.serviceId, pullRequestId⟩
  let generation := db.generation .prReconciliation (.pullRequest key) + 1
  let input : JobInput :=
    { kind := .prReconciliation, pullRequestId := some pullRequestId,
      baseRevision := some update.relevantPayload.baseRevision,
      targetRevision := some update.relevantPayload.headRevision, generation := generation }
  let jobId := jobIdentity configuration target input
  let write : Option PullRequestCheckpoint → PullRequestCheckpoint := fun stored =>
    match stored with
    | none =>
      { recorded := none
        checkpointVersion := 1
        analysisGeneration := 0
        reconciliationGeneration := generation
        currentJob := some jobId
        reconciliationRequest := some update
        latestOutcome := .queued }
    | some row =>
      { row with
        reconciliationGeneration := generation
        currentJob := some jobId
        reconciliationRequest := some update
        latestOutcome := .queued }
  (jobId, ((plan.stageJob event.key configuration target input event.evidence).stageSupersede
    (db.current (.pullRequest key)) jobId).stageCheckpoint (.pullRequest key write))

/-- The row of a pull request that takes over an update. -/
def acceptedPullRequest (key : PullRequestKey) (update : PullRequestUpdate)
    (job : Option JobIdentity) (stored : Option PullRequestCheckpoint) : PullRequestCheckpoint :=
  let current := db.pullRequests.get? key
  { recorded := some update
    checkpointVersion := (current.map (·.checkpointVersion)).getD 0 + 1
    analysisGeneration := db.generation .prPreviewAnalysis (.pullRequest key) + 1
    reconciliationGeneration := ((stored.orElse fun _ => current).map
      (·.reconciliationGeneration)).getD 0
    currentJob := job
    reconciliationRequest := none
    latestOutcome := if job.isSome then .queued else .cancelled
    lastPreviewResultJob := stored.bind PullRequestCheckpoint.lastPreviewResultJob }

/-- An update is taken over: a preview of the next generation is queued, or the work of a closed
pull request is cancelled.  The reconciliation that brings the update is not superseded. -/
def acceptPullRequest (plan : SchedulingPlan) (event : EventEnvelope)
    (configuration : SchedulingConfiguration) (target : TargetConfig) (pullRequestId : String)
    (update : PullRequestUpdate) (reconciliationJob : Option JobIdentity) :
    Option JobIdentity × SchedulingPlan :=
  let key : PullRequestKey :=
    ⟨target.repository.repositoryId, target.service.serviceId, pullRequestId⟩
  let oldJob := (db.current (.pullRequest key)).filter (some · ≠ reconciliationJob)
  if update.relevantPayload.state.isTerminal then
    (none, (plan.stageCancel oldJob).stageCheckpoint
      (.pullRequest key (db.acceptedPullRequest key update none)))
  else
    let input : JobInput :=
      { kind := .prPreviewAnalysis, pullRequestId := some pullRequestId,
        baseRevision := some update.relevantPayload.baseRevision,
        targetRevision := some update.relevantPayload.headRevision,
        generation := db.generation .prPreviewAnalysis (.pullRequest key) + 1 }
    let jobId := jobIdentity configuration target input
    (some jobId, ((plan.stageJob event.key configuration target input update.evidence).stageSupersede
      oldJob jobId).stageCheckpoint
        (.pullRequest key (db.acceptedPullRequest key update (some jobId))))

/-- The baseline that the preview of an update depends on. -/
def requireBaseline (scheduled : Option JobIdentity × SchedulingPlan) (event : EventEnvelope)
    (configuration : SchedulingConfiguration) (target : TargetConfig) (baseRevision : String) :
    Except OrchestrationErrorCode SchedulingPlan :=
  match scheduled with
  | (none, plan) => .ok plan
  | (some jobId, plan) => do
    let (prerequisite, _, plan) ← db.scheduleBaseline plan event configuration target baseRevision
    return plan.stageDependency jobId prerequisite

/-- The classification of an update of a pull request, which counts as a replay when it repeats
the pending request. -/
def classifyPullRequest (current : Option PullRequestCheckpoint) (update : PullRequestUpdate) :
    ProviderUpdateClassification × Bool :=
  let repeated := (current.bind PullRequestCheckpoint.reconciliationRequest).any fun request =>
    classifyProviderUpdate (some request) update == .exactReplay
  (if repeated then .exactReplay
    else classifyProviderUpdate (current.bind PullRequestCheckpoint.recorded) update, repeated)

def reconciliationUnderWay (current : Option PullRequestCheckpoint) : Option JobIdentity :=
  (current.bind PullRequestCheckpoint.currentJob).filter fun jobId =>
    jobId.kind == .prReconciliation && (db.jobs.get? jobId).any (·.state.isNonterminal)

def schedulePullRequest (plan : SchedulingPlan) (event : EventEnvelope)
    (configuration : SchedulingConfiguration) (target : TargetConfig) (pullRequestId : String)
    (payload : PullRequestPayload) :
    Except OrchestrationErrorCode (ScheduledTarget × SchedulingPlan) :=
  let key : PullRequestKey :=
    ⟨target.repository.repositoryId, target.service.serviceId, pullRequestId⟩
  let base (disposition : EventDisposition) (safeReason : Option SafeReason) : ScheduledTarget :=
    { repositoryId := key.repositoryId, serviceId := key.serviceId,
      scopeKey := "pr:" ++ pullRequestId, disposition := disposition, safeReason := safeReason }
  let update : PullRequestUpdate := ⟨event.evidence, payload⟩
  let current := db.pullRequests.get? key
  let request :=
    let (reconciliationId, plan) :=
      db.requestPullRequestReconciliation plan event configuration target pullRequestId update
    .ok ({ base .reconciliationRequired (some .reconciliationRequired) with
      reconciliationId := some reconciliationId }, plan)
  if payload.baseBranch ∉ target.service.intendedBranches then
    .ok (base .ignoredUnconfiguredBranch (some .unconfiguredBranch), plan)
  else match classifyPullRequest current update with
    | (.conflict, _) => .error .eventOrderConflict
    | (.stale, _) => .ok (base .ignoredStale (some .stale), plan)
    | (.exactReplay, false) => .ok (base .noWork (some .noWork), plan)
    | (.exactReplay, true) => match db.reconciliationUnderWay current with
      | some jobId => .ok ({ base .reconciliationRequired (some .reconciliationRequired) with
          reconciliationId := some jobId }, plan)
      | none => request
    | (.incomparable, _) => request
    | (.first, _) | (.newer, _) => do
      let accepted := db.acceptPullRequest plan event configuration target pullRequestId update none
      let plan ← db.requireBaseline accepted event configuration target payload.baseRevision
      return ({ base .scheduled none with jobId := accepted.1 }, plan)

/-- An update of a pull request by an authoritative observation. -/
def scheduleAuthoritativePullRequest (event : EventEnvelope)
    (configuration : SchedulingConfiguration) (repositoryId serviceId pullRequestId : String)
    (update : PullRequestUpdate) (reconciliationJob : JobIdentity) :
    Except OrchestrationErrorCode SchedulingPlan := do
  let target ← orRaise (configuration.document.targetConfig serviceId) .eventSubjectMismatch
  require (target.repository.repositoryId = repositoryId
    ∧ update.relevantPayload.baseBranch ∈ target.service.intendedBranches) .eventSubjectMismatch
  let accepted := db.acceptPullRequest {} event configuration target pullRequestId update
    (some reconciliationJob)
  db.requireBaseline accepted event configuration target update.relevantPayload.baseRevision

/-! ### Events -/

def scheduleEventTarget (event : EventEnvelope) (configuration : SchedulingConfiguration)
    (plan : SchedulingPlan) (serviceId : String) :
    Except OrchestrationErrorCode SchedulingPlan := do
  let target ← orRaise (configuration.document.targetConfig serviceId) .eventSubjectMismatch
  let base (scopeKey : String) (disposition : EventDisposition) (safeReason : Option SafeReason) :
      ScheduledTarget :=
    { repositoryId := target.repository.repositoryId, serviceId := serviceId,
      scopeKey := scopeKey, disposition := disposition, safeReason := safeReason }
  let report (plan : SchedulingPlan) (scheduled : ScheduledTarget) : SchedulingPlan :=
    { plan with targets := plan.targets ++ [scheduled] }
  match event.payload with
  | .deploymentChanged | .sourceDocumentChanged =>
    return report plan (base "deferred" .deferredHandler (some .deferredHandler))
  | .branchUpdated branch newRevision deleted =>
    let desired := if deleted then .absent else .present newRevision
    let (scheduled, plan) ← db.scheduleBranch plan event.key configuration target branch desired
      event.evidence none
    if scheduled.disposition = .reconciliationRequired then
      let (reconciliationId, plan) ← db.scheduleBranchReconciliation plan event configuration
        target branch event.evidence.providerReference
      return report plan { scheduled with reconciliationId := some reconciliationId }
    else return report plan scheduled
  | .pullRequestUpdated pullRequestId payload =>
    let (scheduled, plan) ← db.schedulePullRequest plan event configuration target pullRequestId
      payload
    return report plan scheduled
  | .baselineRequested revision =>
    let (jobId, coalesced, plan) ← db.scheduleBaseline plan event configuration target revision
    return report plan (if coalesced then base "baseline" .noWork (some .noWork)
      else { base "baseline" .scheduled none with jobId := some jobId })
  | .reconciliationRequested environments reference =>
    let branches ← selectReconciliationBranches target.service environments
    if branches = [] then
      return report plan (base "reconciliation" .ignoredUnconfiguredBranch
        (some .unconfiguredBranch))
    else branches.foldlM (fun plan branch => do
      let (jobId, plan) ← db.scheduleBranchReconciliation plan event configuration target branch
        reference
      return report plan { base ("reconciliation:" ++ branch) .scheduled none with
        jobId := some jobId }) plan
  | .configurationChanged _ => return report plan (base "configuration" .scheduled none)

/-- The plan of an event for the services it names. -/
def scheduleEventTargets (event : EventEnvelope) (configuration : SchedulingConfiguration) :
    Except OrchestrationErrorCode SchedulingPlan :=
  event.serviceIds.foldlM (db.scheduleEventTarget event configuration) {}

/-! ### Configurations -/

/-- `serviceTargets`: the last service with the given id. -/
def serviceTarget (document : InstallationConfig) (serviceId : String) : Option TargetConfig :=
  document.targets.reverse.find? (·.service.serviceId == serviceId)

/-- The branches that are to be observed after a configuration change. -/
def desiredReconciliations (document : InstallationConfig) (affectedServiceIds : List String) :
    List (TargetConfig × String) :=
  (affectedServiceIds.filterMap (serviceTarget document)).flatMap fun target =>
    (canonicalStrings target.service.intendedBranches).map (target, ·)

/-- The current analysis of a branch is cancelled. -/
def cancelBranchWork (plan : SchedulingPlan) (entry : BranchKey × BranchCheckpoint) :
    SchedulingPlan :=
  (plan.stageCancel entry.2.currentJob).stageCheckpoint <| .branch entry.1 fun stored =>
    { stored.getD entry.2 with currentJob := none, latestOutcome := .job .cancelled }

/-- The current work of a pull request is cancelled. -/
def cancelPullRequestWork (plan : SchedulingPlan) (entry : PullRequestKey × PullRequestCheckpoint) :
    SchedulingPlan :=
  (plan.stageCancel entry.2.currentJob).stageCheckpoint <| .pullRequest entry.1 fun stored =>
    { stored.getD entry.2 with currentJob := none, latestOutcome := .cancelled }

/-- A reconciliation that is no longer configured is cancelled. -/
def cancelObsoleteReconciliation (plan : SchedulingPlan)
    (entry : BranchKey × ReconciliationCheckpoint) : SchedulingPlan :=
  (plan.stageCancel entry.2.currentJob).stageCheckpoint <| .reconciliation entry.1 fun stored =>
    { stored.getD entry.2 with currentJob := none, lastOutcome := some .obsolete }

def cancelBaseline (plan : SchedulingPlan) (entry : AnalysisIdentity × AnalysisCheckpoint) :
    SchedulingPlan :=
  (plan.stageCancel entry.2.currentJob).stageCheckpoint <| .analysis entry.1 fun stored =>
    { stored.getD entry.2 with currentJob := none, lastTerminalOutcome := some .cancelled }

/-- The transition to another configuration: the work of the affected services is cancelled, and
reconciliations are queued for their configured branches. -/
def scheduleConfigurationTransition (next : SchedulingConfiguration)
    (affectedServiceIds : List String) (evidence : ProviderReference) (event : Option EventKey) :
    SchedulingPlan :=
  let desired := desiredReconciliations next.document affectedServiceIds
  let branchRows := db.branches.entries.filter (·.1.serviceId ∈ affectedServiceIds)
  let prRows := db.pullRequests.entries.filter (·.1.serviceId ∈ affectedServiceIds)
  let obsoleteRows := db.reconciliations.entries.filter fun entry =>
    entry.1.serviceId ∈ affectedServiceIds
      && entry.1 ∉ desired.map fun (target, branch) => target.key branch
  let analysisRows := db.analyses.entries.filter fun entry =>
    entry.1.serviceId ∈ affectedServiceIds
      && (db.currentJobRow entry.2.currentJob).any (·.state.isNonterminal)
  let cancelled := obsoleteRows.foldl cancelObsoleteReconciliation
    (prRows.foldl cancelPullRequestWork (branchRows.foldl cancelBranchWork {}))
  let queued := desired.foldl (fun plan (target, branch) => (db.queueReconciliation plan event next
    target branch evidence.providerReference evidence).2) cancelled
  analysisRows.foldl cancelBaseline queued

end Database

end ApiTruth.Orchestration.Queue
