import ApiTruth.Orchestration.Store

/-!
# Scheduling of branch work

A branch event or an authoritative reconciliation moves the checkpoint of a branch and queues its
next analysis; evidence that cannot be ordered queues a reconciliation instead; a configuration
change cancels the work of every service and queues reconciliations for the configured branches.

## Main definitions

* `Database.scheduleBranch` : one update of a branch, from an event or authoritative.
* `Database.scheduleBranchReconciliation` : ask for an exact observation of a branch.
* `Database.ingestBranchEvent`, `Database.ingestReconciliationRequest`.
* `Database.activateConfigurationByCas` : change the configuration.
-/

namespace ApiTruth.Orchestration

open Catalog Checked

/-- The `disposition` of an event for one target. -/
inductive EventDisposition
  | ignoredUnconfiguredBranch
  | ignoredStale
  | noWork
  | scheduled
  | reconciliationRequired
deriving DecidableEq, Repr

/-- The parts of a `branch.updated` event that scheduling reads: a `deleted` reference is absent,
any other is present at the new revision. -/
structure BranchEvent where
  serviceIds : List String
  branch : String
  desired : DesiredState
  evidence : ProviderReference
deriving DecidableEq, Repr

/-- The parts of a `reconciliation.requested` event that scheduling reads. -/
structure ReconciliationRequest where
  serviceIds : List String
  environments : List String
  providerSnapshotReference : String
  evidence : ProviderReference
deriving DecidableEq, Repr

namespace Database

variable (db : Database)

/-! ### Branches -/

def branchAnalysisIdentity (configuration : SchedulingConfiguration) (target : TargetConfig)
    (branch revision : String) (generation : ℕ) : JobIdentity where
  kind := .branchAnalysis
  key := target.key branch
  targetRevision := some revision
  generation := generation
  analysis := some (analysisIdentity configuration target revision)
  configFingerprint := configuration.fingerprint

/-- `sameSemanticTarget`: no repair is forced, and the checkpoint already wants the state, through
a job of the active configuration when the branch is present. -/
def sameSemanticTarget (configuration : SchedulingConfiguration) (key : BranchKey)
    (desired : DesiredState) (forceRepair : Bool) : Bool :=
  !forceRepair && (db.branches key).any fun current =>
    current.desired == desired && (desired == .absent ||
      (db.currentJobRow current.currentJob).any
        (·.identity.configFingerprint == configuration.fingerprint))

/-- The checkpoint takes over newer evidence for the target it already has. -/
def confirmBranch (key : BranchKey) (evidence : ProviderReference) : Database :=
  { db with
    branches := Function.update db.branches key <| (db.branches key).map fun current =>
      { current with
        evidence := evidence
        checkpointVersion := current.checkpointVersion + 1 } }

/-- The branch is gone: its work is cancelled and nothing is current. -/
def scheduleAbsence (key : BranchKey) (evidence : ProviderReference) : Database :=
  let checkpoint : BranchCheckpoint := match db.branches key with
    | none =>
      { desired := .absent, evidence := evidence, checkpointVersion := 1, analysisGeneration := 0,
        currentJob := none, latestOutcome := .absent }
    | some current =>
      { current with
        desired := .absent
        evidence := evidence
        checkpointVersion := current.checkpointVersion + 1
        currentJob := none
        latestOutcome := .absent }
  let moved : Database := { db with
    branches := Function.update db.branches key (some checkpoint) }
  moved.persistCancel ((db.branches key).bind BranchCheckpoint.currentJob)

def nextGeneration (key : BranchKey) : ℕ :=
  match db.branches key with
  | none => 1
  | some current => current.analysisGeneration + 1

/-- The next analysis of a branch is queued, and the current one superseded. -/
def scheduleAnalysis (configuration : SchedulingConfiguration) (target : TargetConfig)
    (branch revision : String) (evidence : ProviderReference) : Database :=
  let key := target.key branch
  let generation := db.nextGeneration key
  let id := branchAnalysisIdentity configuration target branch revision generation
  let checkpoint : BranchCheckpoint := match db.branches key with
    | none =>
      { desired := .present revision, evidence := evidence, checkpointVersion := 1,
        analysisGeneration := generation, currentJob := some id, latestOutcome := .job .queued }
    | some current =>
      { current with
        desired := .present revision
        evidence := evidence
        checkpointVersion := current.checkpointVersion + 1
        analysisGeneration := generation
        currentJob := some id
        latestOutcome := .job .queued }
  let moved : Database := { db with
    branches := Function.update db.branches key (some checkpoint) }
  (moved.persistJob (db.newJob configuration target id evidence)).persistSupersede
    ((db.branches key).bind BranchCheckpoint.currentJob) id

/-- One update of a branch.  An event is classified against the checkpoint; an authoritative
observation, given with its `forceRepair`, counts as newer. -/
def scheduleBranch (configuration : SchedulingConfiguration) (target : TargetConfig)
    (branch : String) (desired : DesiredState) (evidence : ProviderReference)
    (authoritative : Option Bool) : Except OrchestrationError (Database × EventDisposition) :=
  let key := target.key branch
  if branch ∉ target.service.intendedBranches then .ok (db, .ignoredUnconfiguredBranch)
  else
    let classification := match authoritative with
      | none => classifyProviderUpdate
          ((db.branches key).map BranchCheckpoint.providerCheckpoint) ⟨evidence, desired⟩
      | some _ => .newer
    match classification with
    | .conflict => .error .eventOrderConflict
    | .stale => .ok (db, .ignoredStale)
    | .exactReplay => .ok (db, .noWork)
    | .incomparable => .ok (db, .reconciliationRequired)
    | .first | .newer =>
      if db.sameSemanticTarget configuration key desired (authoritative.getD false) then
        let current := (db.branches key).bind fun current => db.currentJobRow current.currentJob
        .ok (db.confirmBranch key evidence,
          if current.any (·.state.isNonterminal) then .scheduled else .noWork)
      else match desired with
        | .absent => .ok (db.scheduleAbsence key evidence, .scheduled)
        | .present revision =>
          .ok (db.scheduleAnalysis configuration target branch revision evidence, .scheduled)

/-- An update of a branch by an authoritative observation. -/
def scheduleAuthoritativeBranch (configuration : SchedulingConfiguration) (key : BranchKey)
    (desired : DesiredState) (evidence : ProviderReference) (forceRepair : Bool) :
    Except OrchestrationError Database := do
  let target ← orRaise (configuration.document.targetConfig key.serviceId) .eventSubjectMismatch
  require (target.repository.repositoryId = key.repositoryId
    ∧ key.branch ∈ target.service.intendedBranches) .eventSubjectMismatch
  let (scheduled, disposition) ← db.scheduleBranch configuration target key.branch desired
    evidence (some forceRepair)
  require (disposition ≠ .reconciliationRequired) .reconciliationFailed
  return scheduled

/-! ### Reconciliations -/

/-- A reconciliation job of the next generation is queued, and the current one superseded. -/
def queueReconciliation (configuration : SchedulingConfiguration) (target : TargetConfig)
    (branch reference : String) (evidence : ProviderReference) : Database :=
  let key := target.key branch
  let generation := match db.reconciliations key with
    | none => 1
    | some current => current.generation + 1
  let id : JobIdentity :=
    { kind := .branchReconciliation, key := key, targetRevision := none,
      generation := generation, analysis := none,
      configFingerprint := configuration.fingerprint }
  let checkpoint : ReconciliationCheckpoint := match db.reconciliations key with
    | none => { requestedReference := reference, generation := generation, currentJob := some id }
    | some current =>
      { current with
        requestedReference := reference
        generation := generation
        currentJob := some id
        lastOutcome := none }
  let moved : Database := { db with
    reconciliations := Function.update db.reconciliations key (some checkpoint) }
  (moved.persistJob (db.newJob configuration target id evidence)).persistSupersede
    ((db.reconciliations key).bind ReconciliationCheckpoint.currentJob) id

/-- Ask for an exact observation of a branch, unless one with the same reference is under way. -/
def scheduleBranchReconciliation (configuration : SchedulingConfiguration)
    (target : TargetConfig) (branch reference : String) (evidence : ProviderReference) :
    Except OrchestrationError Database :=
  if branch ∉ target.service.intendedBranches then .error .eventSubjectMismatch
  else if (db.reconciliations (target.key branch)).any fun current =>
      current.requestedReference == reference &&
        (db.currentJobRow current.currentJob).any (·.state.isNonterminal) then .ok db
  else .ok (db.queueReconciliation configuration target branch reference evidence)

/-- A branch event schedules every service it names, under the active configuration.  A repeated
delivery of an event changes none of these rows. -/
def ingestBranchEvent (event : BranchEvent) : Except OrchestrationError Database := do
  let (_, configuration) ← db.readActive
  event.serviceIds.foldlM (fun db serviceId => do
    let target ← orRaise (configuration.document.targetConfig serviceId) .eventSubjectMismatch
    let (db, disposition) ←
      db.scheduleBranch configuration target event.branch event.desired event.evidence none
    if disposition = .reconciliationRequired then
      db.scheduleBranchReconciliation configuration target event.branch
        event.evidence.providerReference event.evidence
    else return db) db

/-- The configured branches that a reconciliation of the given environments is about; no
environment means all branches. -/
def selectReconciliationBranches (service : ServiceConfig) (environments : List String) :
    Except OrchestrationError (List String) :=
  if service.intendedBranches = [] then .ok []
  else if environments = [] then .ok service.intendedBranches
  else environments.foldlM (fun selected name => do
    let environment ← orRaise (service.environments.find? (·.name == name)) .eventSubjectMismatch
    match environment.intendedBranch with
    | some branch =>
      return if branch ∈ service.intendedBranches then selected ++ [branch] else selected
    | none => return selected) []

/-- A reconciliation event asks for an observation of every selected branch. -/
def ingestReconciliationRequest (request : ReconciliationRequest) :
    Except OrchestrationError Database := do
  let (_, configuration) ← db.readActive
  request.serviceIds.foldlM (fun db serviceId => do
    let target ← orRaise (configuration.document.targetConfig serviceId) .eventSubjectMismatch
    let branches ← selectReconciliationBranches target.service request.environments
    branches.dedup.foldlM (fun db branch => db.scheduleBranchReconciliation configuration target
      branch request.providerSnapshotReference request.evidence) db) db

/-! ### Configurations -/

/-- Store a configuration under its fingerprint. -/
def registerConfiguration (configuration : SchedulingConfiguration) :
    Except OrchestrationError Database :=
  match db.configurations configuration.fingerprint with
  | none => .ok { db with
      configurations := Function.update db.configurations configuration.fingerprint
        (some configuration.document) }
  | some document =>
    if document = configuration.document then .ok db else .error .configurationConflict

/-- Activate the first configuration of the tenant. -/
def activateInitialConfiguration (fingerprint : String) : Except OrchestrationError Database := do
  let _ ← orRaise (db.configurations fingerprint) .configurationNotFound
  require (db.active = none) .configurationConflict
  return { db with active := some ⟨fingerprint, 1⟩ }

/-- The branches that are to be observed after a configuration change. -/
def desiredReconciliations (document : InstallationConfig) : List (TargetConfig × String) :=
  document.targets.flatMap fun target => target.service.intendedBranches.dedup.map (target, ·)

/-- Cancel the current analysis of every branch of the affected services.  The current job of a
checkpoint is a job of the branch of the checkpoint. -/
def cancelBranchWork (affected : List String) : Database :=
  { db with
    branches := fun key =>
      if key.serviceId ∈ affected then
        (db.branches key).map fun checkpoint =>
          { checkpoint with currentJob := none, latestOutcome := .job .cancelled }
      else db.branches key
    jobs := fun id =>
      if id.key.serviceId ∈ affected
          ∧ (db.branches id.key).bind BranchCheckpoint.currentJob = some id then
        (db.jobs id).map Job.cancel
      else db.jobs id }

/-- Cancel the reconciliations of the affected services that are no longer configured. -/
def cancelObsoleteReconciliations (affected : List String) (desired : List BranchKey) : Database :=
  { db with
    reconciliations := fun key =>
      if key.serviceId ∈ affected ∧ key ∉ desired then
        (db.reconciliations key).map fun checkpoint =>
          { checkpoint with currentJob := none, lastOutcome := some .obsolete }
      else db.reconciliations key
    jobs := fun id =>
      if id.key.serviceId ∈ affected ∧ id.key ∉ desired
          ∧ (db.reconciliations id.key).bind ReconciliationCheckpoint.currentJob = some id then
        (db.jobs id).map Job.cancel
      else db.jobs id }

/-- The transition between two configurations with different fingerprints: every service of
either is affected. -/
def scheduleConfigurationTransition (current next : SchedulingConfiguration)
    (evidence : ProviderReference) : Database :=
  let affected := current.document.serviceIds ++ next.document.serviceIds
  let desired := desiredReconciliations next.document
  let cancelled := (db.cancelBranchWork affected).cancelObsoleteReconciliations affected
    (desired.map fun (target, branch) => target.key branch)
  desired.foldl (fun db (target, branch) =>
    db.queueReconciliation next target branch evidence.providerReference evidence) cancelled

/-- Activate a stored configuration, expecting a version of the active row.  An accepted
`configuration.changed` event has the same effect. -/
def activateConfigurationByCas (fingerprint : String) (expectedCheckpointVersion : ℕ)
    (evidence : ProviderReference) : Except OrchestrationError Database := do
  let (active, current) ← db.readActive
  let document ← orRaise (db.configurations fingerprint) .configurationNotFound
  require (active.checkpointVersion = expectedCheckpointVersion) .configurationConflict
  if fingerprint = active.fingerprint then return db
  else
    let activated : Database := { db with
      active := some ⟨fingerprint, active.checkpointVersion + 1⟩ }
    return activated.scheduleConfigurationTransition current ⟨fingerprint, document⟩ evidence

end Database

end ApiTruth.Orchestration
