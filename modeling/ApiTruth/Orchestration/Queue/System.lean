import ApiTruth.Orchestration.Queue.Completion

/-!
# The job queue as a system

The operations on the rows of one tenant: configurations are registered and activated, events are
ingested, workers claim and finish jobs, operators cancel them, and time passes.  An operation that
raises an error is rolled back, and so is one that leaves a row that violates a constraint of its
table.  Who may perform an operation is not modelled.

## Main definitions

* `Database.ingestEvent`, `Database.activateConfigurationByCas`.
* `Action`, `Database.perform` : the operations, each as one transaction.
* `Database.MeetsChecks` : every row satisfies the constraints of its table.
* `Step` : the transactions that are committed.
-/

namespace ApiTruth.Orchestration.Queue

open Catalog Checked Ir

/-! ### Inputs -/

/-- The parts of `parseConfig` that scheduling relies on: the ids of repositories and of services
are unique, and no text is empty. -/
def isValidConfig (document : InstallationConfig) : Bool :=
  decide (document.repositories.map RepositoryConfig.repositoryId).Nodup
    && decide document.serviceIds.Nodup
    && document.configVersion != ""
    && document.targets.all fun target =>
      target.repository.repositoryId != "" && target.service.serviceId != ""
        && target.service.root != "" && target.service.analyzer.adapterId != ""
        && target.service.analyzer.adapterVersion != ""
        && target.service.analyzer.irVersion != some ""
        && target.service.intendedBranches.all (· != "")

/-- No text of the payload of an event is empty. -/
def isNamedPayload : EventPayload → Bool
  | .baselineRequested revision => revision != ""
  | .pullRequestUpdated pullRequestId payload =>
    pullRequestId != "" && payload.baseBranch != "" && payload.baseRevision != ""
      && payload.headBranch != "" && payload.headRevision != ""
  | .branchUpdated branch newRevision _ => branch != "" && newRevision != ""
  | .deploymentChanged | .sourceDocumentChanged => true
  | .configurationChanged payload => payload.configVersion != "" && payload.configFingerprint != ""
  | .reconciliationRequested environments reference =>
    environments.all (· != "") && reference != ""

/-- The parts of `parseEvent` that scheduling relies on: the subjects are distinct, and no text is
empty. -/
def isValidEvent (event : EventEnvelope) : Bool :=
  event.key.producerId != "" && event.key.eventId != "" && event.repositoryId != some ""
    && !event.serviceIds.isEmpty && decide event.serviceIds.Nodup
    && event.serviceIds.all (· != "")
    && isNamedEvidence event.evidence && isNamedPayload event.payload

/-! ### Configurations -/

/-- `calculateConfigurationImpact`: another configuration affects the services of both.  Two stored
configurations with one fingerprint are the same row. -/
def configurationImpact (active candidate : SchedulingConfiguration) : List String :=
  if active.fingerprint ≠ candidate.fingerprint
      ∨ active.document.configVersion ≠ candidate.document.configVersion then
    canonicalStrings (active.document.serviceIds ++ candidate.document.serviceIds)
  else []

namespace Database

variable (db : Database)

def readConfiguration (fingerprint : String) :
    Except OrchestrationErrorCode SchedulingConfiguration := do
  let document ← orRaise (db.configurations.get? fingerprint) .configurationNotFound
  return ⟨fingerprint, document⟩

def registerConfiguration (configuration : SchedulingConfiguration) :
    Except OrchestrationErrorCode Database := do
  require (configuration.fingerprint ≠ "" ∧ isValidConfig configuration.document = true)
    .invalidOrchestrationInput
  let stored := db.configurations.setIfAbsent configuration.fingerprint configuration.document
  require (stored.get? configuration.fingerprint = some configuration.document)
    .configurationConflict
  return { db with configurations := stored }

/-- Activate the first configuration of the tenant. -/
def activateInitialConfiguration (fingerprint : String) :
    Except OrchestrationErrorCode Database := do
  let _ ← db.readConfiguration fingerprint
  require (db.active = none) .configurationConflict
  return { db with active := some { fingerprint := fingerprint, checkpointVersion := 1 } }

/-- The next configuration is active, activated by an event or by hand. -/
def activate (active : ActiveConfiguration) (fingerprint : String) (evidence : ProviderReference)
    (event : Option EventKey) : Database :=
  { db with
    active := some
      { fingerprint := fingerprint
        checkpointVersion := active.checkpointVersion + 1
        evidence := some evidence
        activationEvent := event } }

/-- Activate a stored configuration, expecting a version of the active row. -/
def activateConfigurationByCas (fingerprint : String) (expectedCheckpointVersion : ℕ)
    (evidence : ProviderReference) : Except OrchestrationErrorCode Database := do
  require (isNamedEvidence evidence = true) .invalidOrchestrationInput
  let (active, current) ← db.readActive
  let candidate ← db.readConfiguration fingerprint
  require (active.checkpointVersion = expectedCheckpointVersion) .configurationConflict
  if fingerprint = active.fingerprint then return db
  else
    let plan := db.scheduleConfigurationTransition candidate
      (configurationImpact current candidate) evidence none
    return (db.activate active fingerprint evidence none).persistScheduledJobs plan

/-! ### Events -/

/-- `discoverSchedulingLocks` raises for a service that the active configuration does not list, and
for an environment that its service does not list. -/
def discoverSchedulingLocks (event : EventEnvelope) (configuration : SchedulingConfiguration) :
    Except OrchestrationErrorCode Unit := do
  let _ ← event.serviceIds.mapM fun serviceId => do
    let target ← orRaise (configuration.document.targetConfig serviceId) .eventSubjectMismatch
    match event.payload with
    | .reconciliationRequested environments _ =>
      let _ ← selectReconciliationBranches target.service environments
      return ()
    | _ => return ()
  return ()

/-- `resolveTargets`: every service of the event belongs to the repository that it names, and to
one repository in all documents. -/
def resolveTargets (event : EventEnvelope) (documents : List InstallationConfig) :
    Except OrchestrationErrorCode (List ScheduledTarget) := do
  let owners := documents.flatMap InstallationConfig.targets
  require (∀ left ∈ owners, ∀ right ∈ owners, left.service.serviceId = right.service.serviceId →
    left.repository.repositoryId = right.repository.repositoryId) .eventSubjectMismatch
  event.serviceIds.mapM fun serviceId => do
    let owner ← orRaise (owners.find? (·.service.serviceId == serviceId)) .eventSubjectMismatch
    require (event.repositoryId.all (· == owner.repository.repositoryId) = true)
      .eventSubjectMismatch
    return { repositoryId := owner.repository.repositoryId, serviceId := serviceId,
             scopeKey := "configuration", disposition := .scheduled }

/-- The event names the repository of its services where it has to. -/
def namesRepository (event : EventEnvelope) : Bool :=
  match event.payload with
  | .baselineRequested _ | .branchUpdated .. | .pullRequestUpdated .. => event.repositoryId.isSome
  | .deploymentChanged | .configurationChanged _ | .sourceDocumentChanged
  | .reconciliationRequested .. => true

/-- The event, its targets and its plan are stored. -/
def storeEvent (event : EventEnvelope) (fingerprint : String) (targets : List ScheduledTarget) :
    Database :=
  { db with
    events := db.events.set event.key ⟨event, fingerprint⟩
    eventTargets := db.eventTargets ++ targets.map (⟨event.key, ·⟩) }

/-- The active configuration as the current side of a classification, if its activation came with
evidence.  The payload is that of the activating event, if any. -/
def activationCheckpoint (active : ActiveConfiguration) (current : SchedulingConfiguration) :
    Option (ProviderCheckpoint ConfigurationPayload) :=
  active.evidence.map fun evidence =>
    ⟨evidence, match active.activationEvent.bind db.events.get? with
      | some ⟨⟨_, _, _, _, .configurationChanged payload⟩, _⟩ => payload
      | _ => { configVersion := current.document.configVersion,
               configFingerprint := active.fingerprint }⟩

/-- What a `configuration.changed` event comes to. -/
def activationDisposition : ProviderUpdateClassification → EventDisposition
  | .stale => .ignoredStale
  | .incomparable => .reconciliationRequired
  | .exactReplay => .noWork
  | .first | .newer | .conflict => .scheduled

/-- A `configuration.changed` event whose services are the affected ones activates its
configuration when it is first or newer. -/
def ingestConfigurationChange (event : EventEnvelope) (payload : ConfigurationPayload) :
    Except OrchestrationErrorCode Database := do
  let (active, current) ← db.readActive
  let candidate ← db.readConfiguration payload.configFingerprint
  let targets ← resolveTargets event [current.document, candidate.document]
  let impact := configurationImpact current candidate
  require (canonicalStrings event.serviceIds = impact
    ∧ payload.affected.map (canonicalStrings ·.1) = some impact
    ∧ payload.configVersion = candidate.document.configVersion) .eventSubjectMismatch
  let classification := classifyProviderUpdate (db.activationCheckpoint active current)
    ⟨event.evidence, payload⟩
  require (classification ≠ .conflict) .eventOrderConflict
  let disposition := activationDisposition classification
  let reported := targets.map ({ · with disposition := disposition })
  if disposition = .scheduled then
    require (event.serviceIds = impact) .eventSubjectMismatch
    let plan := db.scheduleConfigurationTransition candidate impact event.evidence event.key
    let activated := db.activate active candidate.fingerprint event.evidence event.key
    return (activated.storeEvent event active.fingerprint reported).persistScheduledJobs plan
  else return db.storeEvent event active.fingerprint reported

/-- Any other event plans the services it names, under the active configuration. -/
def ingestSchedulingEvent (event : EventEnvelope) : Except OrchestrationErrorCode Database := do
  let (active, configuration) ← db.readActive
  let _ ← resolveTargets event [configuration.document]
  require (namesRepository event = true) .eventSubjectMismatch
  let plan ← db.scheduleEventTargets event configuration
  return (db.storeEvent event active.fingerprint plan.targets).persistScheduledJobs plan

/-- `ingestEvent`: a repeated delivery of an event changes none of these rows. -/
def ingestEvent (event : EventEnvelope) : Except OrchestrationErrorCode Database := do
  require (isValidEvent event = true) .invalidOrchestrationInput
  let (_, configuration) ← db.readActive
  discoverSchedulingLocks event configuration
  match db.events.get? event.key with
  | some stored =>
    require (stored.envelope = event) .eventIdConflict
    return db
  | none =>
    match event.payload with
    | .configurationChanged payload => db.ingestConfigurationChange event payload
    | _ => db.ingestSchedulingEvent event

end Database

/-! ### Constraints -/

/-- The constraints of `orchestration_jobs`, as the migrations leave them. -/
@[mk_iff] structure Job.Checks (job : Job) : Prop where
  branch : job.identity.kind = .branchAnalysis ∨ job.identity.kind = .branchReconciliation →
    job.identity.branch.isSome = true ∧ job.identity.pullRequestId = none
  pullRequest : job.identity.kind = .prPreviewAnalysis ∨ job.identity.kind = .prReconciliation →
    job.identity.pullRequestId.isSome = true
  baseline : job.identity.kind = .baselineAnalysis →
    job.identity.branch = none ∧ job.identity.pullRequestId = none
  generation : 0 < job.identity.generation
  attempts : 0 < job.maxAttempts ∧ job.attemptCount ≤ job.maxAttempts
  lease : job.state = .leased ↔ job.lease.isSome = true
  completed : job.state.isNonterminal = false ↔ job.completedAt.isSome = true
  result : job.resultSnapshotId.isSome = true → job.state = .succeeded
  supersession : job.supersedingJob.isSome = true →
    (job.state = .superseded ∨ job.state = .leased) ∧ job.cancellationRequested = true
  errorCode : job.safeLastErrorCode.isSome = true → job.state = .retryWait ∨ job.state = .failed
  identity : job.identity.repositoryId ≠ "" ∧ job.identity.serviceId ≠ "" ∧
    job.identity.configFingerprint ≠ "" ∧ job.identity.branch ≠ some "" ∧
    job.identity.pullRequestId ≠ some "" ∧ job.identity.baseRevision ≠ some "" ∧
    job.identity.targetRevision ≠ some "" ∧ isNamedEvidence job.evidence = true
  pinned : job.pinned.serviceRoot ≠ "" ∧ job.pinned.analyzerAdapterId ≠ "" ∧
    job.pinned.analyzerAdapterVersion ≠ "" ∧ job.pinned.exchangeVersion ≠ "" ∧
    job.pinned.irVersion ≠ "" ∧ job.pinned.identityVersion ≠ "" ∧ job.pinned.configVersion ≠ ""

/-- The constraints of `orchestration_branch_checkpoints`. -/
@[mk_iff] structure BranchCheckpoint.Checks (key : BranchKey) (checkpoint : BranchCheckpoint) : Prop where
  version : 0 < checkpoint.checkpointVersion
  generation : checkpoint.currentJob.isSome = true → 0 < checkpoint.analysisGeneration
  desired : checkpoint.desired = .absent → checkpoint.currentJob = none
  identity : key.repositoryId ≠ "" ∧ key.serviceId ≠ "" ∧ key.branch ≠ "" ∧
    checkpoint.desired ≠ .present "" ∧ isNamedEvidence checkpoint.evidence = true

/-- The constraints of `orchestration_pr_checkpoints`. -/
@[mk_iff] structure PullRequestCheckpoint.Checks (key : PullRequestKey)
    (checkpoint : PullRequestCheckpoint) : Prop where
  version : 0 < checkpoint.checkpointVersion
  generation : checkpoint.currentJob.isSome = true →
    0 < checkpoint.analysisGeneration ∨ 0 < checkpoint.reconciliationGeneration
  pending : checkpoint.recorded = none → checkpoint.reconciliationRequest.isSome = true
  recorded : ∀ update, checkpoint.recorded = some update →
    update.relevantPayload.baseBranch ≠ "" ∧ update.relevantPayload.baseRevision ≠ "" ∧
      update.relevantPayload.headBranch ≠ "" ∧ update.relevantPayload.headRevision ≠ "" ∧
      isNamedEvidence update.evidence = true
  identity : key.repositoryId ≠ "" ∧ key.serviceId ≠ "" ∧ key.pullRequestId ≠ ""

/-- The constraints of `orchestration_reconciliation_checkpoints`. -/
@[mk_iff] structure ReconciliationCheckpoint.Checks (key : BranchKey)
    (checkpoint : ReconciliationCheckpoint) : Prop where
  generation : 0 < checkpoint.generation
  errorCode : checkpoint.lastOutcome = some .failed ↔ checkpoint.safeLastErrorCode.isSome = true
  identity : key.repositoryId ≠ "" ∧ key.serviceId ≠ "" ∧ key.branch ≠ "" ∧
    checkpoint.requestedReference ≠ ""

/-- The constraints of `orchestration_analysis_checkpoints`. -/
@[mk_iff] structure AnalysisCheckpoint.Checks (key : AnalysisIdentity) (checkpoint : AnalysisCheckpoint) :
    Prop where
  generation : 0 < checkpoint.attemptGeneration
  outcome : ∀ state, checkpoint.lastTerminalOutcome = some state → state.isNonterminal = false
  identity : key.repositoryId ≠ "" ∧ key.serviceId ≠ "" ∧ key.serviceRoot ≠ "" ∧
    key.immutableRevision ≠ "" ∧ key.analyzerAdapterId ≠ "" ∧ key.analyzerAdapterVersion ≠ "" ∧
    key.exchangeVersion ≠ "" ∧ key.irVersion ≠ "" ∧ key.identityVersion ≠ "" ∧
    key.configVersion ≠ "" ∧ key.configFingerprint ≠ ""

/-- The constraints of `orchestration_event_targets`. -/
@[mk_iff] structure EventTarget.Checks (row : EventTarget) : Prop where
  references : row.target.disposition = .scheduled ∧ row.target.reconciliationId = none ∨
    row.target.disposition = .reconciliationRequired ∧ row.target.jobId = none ∨
    row.target.jobId = none ∧ row.target.reconciliationId = none
  identity : row.event.producerId ≠ "" ∧ row.event.eventId ≠ "" ∧ row.target.repositoryId ≠ "" ∧
    row.target.serviceId ≠ "" ∧ row.target.scopeKey ≠ ""

/-- Every row of the job table and its checkpoints satisfies the constraints of its table. -/
@[mk_iff] structure Database.MeetsChecks (db : Database) : Prop where
  jobs : ∀ id job, db.jobs.get? id = some job → job.Checks
  branches : ∀ key row, db.branches.get? key = some row → row.Checks key
  pullRequests : ∀ key row, db.pullRequests.get? key = some row → row.Checks key
  reconciliations : ∀ key row, db.reconciliations.get? key = some row → row.Checks key
  analyses : ∀ key row, db.analyses.get? key = some row → row.Checks key
  eventTargets : ∀ row ∈ db.eventTargets, row.Checks

instance (job : Job) : Decidable job.Checks := decidable_of_iff' _ (Job.checks_iff job)

instance (key : BranchKey) (checkpoint : BranchCheckpoint) : Decidable (checkpoint.Checks key) :=
  decidable_of_iff' _ (BranchCheckpoint.checks_iff key checkpoint)

instance (key : PullRequestKey) (checkpoint : PullRequestCheckpoint) :
    Decidable (checkpoint.Checks key) :=
  haveI (update : PullRequestUpdate → Prop) [DecidablePred update] :
      Decidable (∀ found, checkpoint.recorded = some found → update found) :=
    inferInstanceAs (Decidable (∀ found ∈ checkpoint.recorded, update found))
  decidable_of_iff' _ (PullRequestCheckpoint.checks_iff key checkpoint)

instance (key : BranchKey) (checkpoint : ReconciliationCheckpoint) :
    Decidable (checkpoint.Checks key) :=
  decidable_of_iff' _ (ReconciliationCheckpoint.checks_iff key checkpoint)

instance (key : AnalysisIdentity) (checkpoint : AnalysisCheckpoint) :
    Decidable (checkpoint.Checks key) :=
  haveI : Decidable (∀ state, checkpoint.lastTerminalOutcome = some state →
      state.isNonterminal = false) :=
    inferInstanceAs (Decidable (∀ state ∈ checkpoint.lastTerminalOutcome,
      state.isNonterminal = false))
  decidable_of_iff' _ (AnalysisCheckpoint.checks_iff key checkpoint)

instance (row : EventTarget) : Decidable row.Checks := decidable_of_iff' _ (EventTarget.checks_iff row)

/-- The rows are checked one after the other. -/
instance (db : Database) : Decidable db.MeetsChecks :=
  haveI {κ α : Type} [DecidableEq κ] (table : OrderedMap κ α) (p : κ → α → Prop)
      [∀ key row, Decidable (p key row)] :
      Decidable (∀ key row, table.get? key = some row → p key row) :=
    decidable_of_iff (∀ entry ∈ table.entries, p entry.1 entry.2)
      ⟨fun h key row hrow => h (key, row) (table.get?_eq_some_iff.mp hrow),
        fun h entry hentry => h entry.1 entry.2 (table.get?_eq_some_iff.mpr hentry)⟩
  decidable_of_iff' _ (Database.meetsChecks_iff db)

/-! ### Steps -/

inductive Action
  | wait (ms : ℕ)
  | registerConfiguration (configuration : SchedulingConfiguration)
  | activateInitialConfiguration (fingerprint : String)
  | activateConfigurationByCas (fingerprint : String) (expectedCheckpointVersion : ℕ)
      (evidence : ProviderReference)
  | ingestEvent (event : EventEnvelope)
  | claimJobs (batch : ClaimBatch)
  | heartbeatJob (worker : WorkerIdentity) (lease : JobLease)
  | failJob (worker : WorkerIdentity) (lease : JobLease)
  | complete (parses : ContractSnapshot → Bool) (worker : WorkerIdentity) (lease : JobLease)
      (material : Materialized)
  | reconcileBranch (worker : WorkerIdentity) (lease : JobLease) (reference : String)
      (observation : BranchObservation)
  | reconcilePullRequest (worker : WorkerIdentity) (lease : JobLease)
      (observation : PullRequestObservation)
  | cancelJob (id : JobIdentity)

/-- One operation; the rows are those before the commit. -/
def Database.perform (db : Database) : Action → Except OrchestrationErrorCode Database
  | .wait ms => .ok { db with clock := db.clock + ms }
  | .registerConfiguration configuration => db.registerConfiguration configuration
  | .activateInitialConfiguration fingerprint => db.activateInitialConfiguration fingerprint
  | .activateConfigurationByCas fingerprint expectedCheckpointVersion evidence =>
    db.activateConfigurationByCas fingerprint expectedCheckpointVersion evidence
  | .ingestEvent event => db.ingestEvent event
  | .claimJobs batch => .ok (db.claimJobs batch)
  | .heartbeatJob worker lease => db.heartbeatJob worker lease
  | .failJob worker lease => db.failJob worker lease
  | .complete parses worker lease material => db.completion parses worker lease material
  | .reconcileBranch worker lease reference observation =>
    db.executeBranchReconciliation worker lease reference observation
  | .reconcilePullRequest worker lease observation =>
    db.executePullRequestReconciliation worker lease observation
  | .cancelJob id => db.cancelJob id

/-- A committed operation: nothing is raised, and every row satisfies its constraints. -/
def Step (db : Database) (action : Action) (db' : Database) : Prop :=
  db.perform action = .ok db' ∧ db'.MeetsChecks

/-- The store before anything has happened, with any catalog. -/
def IsInitial (db : Database) : Prop := ∃ clock catalog, db = .initial clock catalog

end ApiTruth.Orchestration.Queue
