import ApiTruth.Orchestration.ProviderUpdate

/-!
# Configurations, checkpoints and jobs

The rows that the branch work of the orchestration store reads and writes, for one tenant.  A job
is identified by the digest of its semantic identity, and an association by the digest of its key;
both digests are modelled by the value they are taken of.  Baseline and pull request jobs write no
branch checkpoint and no pointer, and are left out.

## Main definitions

* `InstallationConfig`, `TargetConfig`, `analysisIdentity`.
* `Job`, `BranchCheckpoint`, `ReconciliationCheckpoint`, `RevisionSnapshot`, `Database`.
* `Database.persistJob`, `Database.persistSupersede`, `Database.persistCancel`.
-/

namespace ApiTruth.Orchestration

open Catalog Checked

/-! ### Configurations -/

structure EnvironmentConfig where
  name : String
  intendedBranch : Option String
deriving DecidableEq, Repr

structure AnalyzerConfig where
  adapterId : String
  adapterVersion : String
  irVersion : Option String
deriving DecidableEq, Repr

structure ServiceConfig where
  serviceId : String
  root : String
  analyzer : AnalyzerConfig
  intendedBranches : List String
  environments : List EnvironmentConfig
deriving DecidableEq, Repr

structure RepositoryConfig where
  repositoryId : String
  provider : String
  services : List ServiceConfig
deriving DecidableEq, Repr

/-- The document of an installation configuration. -/
structure InstallationConfig where
  configVersion : String
  repositories : List RepositoryConfig
deriving DecidableEq, Repr

/-- A stored configuration with its fingerprint. -/
structure SchedulingConfiguration where
  fingerprint : String
  document : InstallationConfig
deriving DecidableEq, Repr

structure TargetConfig where
  repository : RepositoryConfig
  service : ServiceConfig
deriving DecidableEq, Repr

namespace InstallationConfig

def targets (document : InstallationConfig) : List TargetConfig :=
  document.repositories.flatMap fun repository => repository.services.map (⟨repository, ·⟩)

def targetConfig (document : InstallationConfig) (serviceId : String) : Option TargetConfig :=
  document.targets.find? (·.service.serviceId == serviceId)

/-- The service of a repository, as executions look it up. -/
def findService (document : InstallationConfig) (repositoryId serviceId : String) :
    Option TargetConfig := do
  let repository ← document.repositories.find? (·.repositoryId == repositoryId)
  let service ← repository.services.find? (·.serviceId == serviceId)
  return ⟨repository, service⟩

def serviceIds (document : InstallationConfig) : List String :=
  document.targets.map (·.service.serviceId)

end InstallationConfig

def configuredAnalyzerIrVersion (analyzer : AnalyzerConfig) : String :=
  analyzer.irVersion.getD "1.0.0"

/-- `ANALYZER_EXCHANGE_VERSION`. -/
def analyzerExchangeVersion : String := "1.0.0"

/-- `IDENTITY_VERSION`. -/
def identityVersion : String := "1.0.0"

namespace TargetConfig

def key (target : TargetConfig) (branch : String) : BranchKey :=
  ⟨target.repository.repositoryId, target.service.serviceId, branch⟩

end TargetConfig

/-- What an analysis of a revision is identified by. -/
structure AnalysisIdentity where
  repositoryId : String
  serviceId : String
  serviceRoot : String
  immutableRevision : String
  analyzerAdapterId : String
  analyzerAdapterVersion : String
  exchangeVersion : String
  irVersion : String
  identityVersion : String
  configVersion : String
  configFingerprint : String
deriving DecidableEq, Repr

def analysisIdentity (configuration : SchedulingConfiguration) (target : TargetConfig)
    (revision : String) : AnalysisIdentity where
  repositoryId := target.repository.repositoryId
  serviceId := target.service.serviceId
  serviceRoot := target.service.root
  immutableRevision := revision
  analyzerAdapterId := target.service.analyzer.adapterId
  analyzerAdapterVersion := target.service.analyzer.adapterVersion
  exchangeVersion := analyzerExchangeVersion
  irVersion := configuredAnalyzerIrVersion target.service.analyzer
  identityVersion := identityVersion
  configVersion := configuration.document.configVersion
  configFingerprint := configuration.fingerprint

/-! ### Jobs -/

inductive JobKind
  | branchAnalysis
  | branchReconciliation
deriving DecidableEq, Repr

/-- The `state` of a job. -/
inductive JobState
  | queued
  | leased
  | retryWait
  | succeeded
  | failed
  | cancelled
  | superseded
deriving DecidableEq, Repr

/-- The states in which a job is still to be done. -/
def JobState.isNonterminal : JobState → Bool
  | queued | leased | retryWait => true
  | succeeded | failed | cancelled | superseded => false

/-- The `semantic_identity` of a job, whose digest is the job id. -/
structure JobIdentity where
  kind : JobKind
  key : BranchKey
  targetRevision : Option String
  generation : ℕ
  analysis : Option AnalysisIdentity
  configFingerprint : String
deriving DecidableEq, Repr

/-- The lease of a job: its holder, its token and when it ends. -/
structure LeaseColumns where
  workerId : String
  instanceId : String
  token : String
  expiresAt : ℕ
deriving DecidableEq, Repr

/-- A row of `orchestration_jobs`. -/
structure Job where
  identity : JobIdentity
  serviceRoot : String
  analyzerAdapterId : String
  analyzerAdapterVersion : String
  exchangeVersion : String
  irVersion : String
  identityVersion : String
  configVersion : String
  configDocument : InstallationConfig
  evidence : ProviderReference
  state : JobState := .queued
  cancellationRequested : Bool := false
  supersedingJob : Option JobIdentity := none
  lease : Option LeaseColumns := none
  attemptCount : ℕ := 0
  maxAttempts : ℕ := 5
  availableAt : ℕ
  resultSnapshotId : Option String := none
deriving DecidableEq, Repr

namespace Job

/-- The identity of the analysis of a revision, from the columns of the job. -/
def analysisOf (job : Job) (revision : String) : AnalysisIdentity where
  repositoryId := job.identity.key.repositoryId
  serviceId := job.identity.key.serviceId
  serviceRoot := job.serviceRoot
  immutableRevision := revision
  analyzerAdapterId := job.analyzerAdapterId
  analyzerAdapterVersion := job.analyzerAdapterVersion
  exchangeVersion := job.exchangeVersion
  irVersion := job.irVersion
  identityVersion := job.identityVersion
  configVersion := job.configVersion
  configFingerprint := job.identity.configFingerprint

/-- `persistSupersede`: a leased job keeps its lease and learns that it is superseded. -/
def supersede (job : Job) (next : JobIdentity) : Job :=
  match job.state with
  | .queued | .retryWait =>
    { job with state := .superseded, cancellationRequested := true, supersedingJob := some next }
  | .leased => { job with cancellationRequested := true, supersedingJob := some next }
  | .succeeded | .failed | .cancelled | .superseded => job

/-- `persistCancel`: a leased job keeps its lease and learns that it is cancelled. -/
def cancel (job : Job) : Job :=
  match job.state with
  | .queued | .retryWait => { job with state := .cancelled }
  | .leased => { job with cancellationRequested := true }
  | .succeeded | .failed | .cancelled | .superseded => job

end Job

/-! ### Checkpoints -/

/-- The desired state of a branch: the relevant payload of its provider updates. -/
inductive DesiredState
  | present (revision : String)
  | absent
deriving DecidableEq, Repr

/-- The `latest_outcome` of a branch. -/
inductive BranchOutcome
  | job (state : JobState)
  | absent
deriving DecidableEq, Repr

/-- The key of a row of `orchestration_revision_snapshots`, whose digest is stored with the last
success of a branch. -/
structure AssociationKey where
  analysis : AnalysisIdentity
  sourceDigest : String
deriving DecidableEq, Repr

/-- The `last_successful_*` columns, all set or none. -/
structure LastSuccess where
  jobId : JobIdentity
  snapshotId : String
  selectedRevision : String
  associationKey : AssociationKey
deriving DecidableEq, Repr

/-- A row of `orchestration_branch_checkpoints`. -/
structure BranchCheckpoint where
  desired : DesiredState
  evidence : ProviderReference
  checkpointVersion : ℕ
  analysisGeneration : ℕ
  currentJob : Option JobIdentity
  latestOutcome : BranchOutcome
  lastSuccessful : Option LastSuccess := none
deriving DecidableEq, Repr

/-- The checkpoint as the current side of a classification. -/
def BranchCheckpoint.providerCheckpoint (checkpoint : BranchCheckpoint) :
    ProviderCheckpoint DesiredState :=
  ⟨checkpoint.evidence, checkpoint.desired⟩

/-- The `last_outcome` of a reconciliation. -/
inductive ReconciliationOutcome
  | absent
  | repaired
  | noWork
  | failed
  | obsolete
deriving DecidableEq, Repr

/-- A row of `orchestration_reconciliation_checkpoints`. -/
structure ReconciliationCheckpoint where
  requestedReference : String
  generation : ℕ
  currentJob : Option JobIdentity
  lastOutcome : Option ReconciliationOutcome := none
  lastCompletedReference : Option String := none
deriving DecidableEq, Repr

/-- The `association_kind` of a revision. -/
inductive AssociationKind
  | analyzed
  | reused
deriving DecidableEq, Repr

/-- A row of `orchestration_revision_snapshots`.  The unique index on the target makes the
analysis its key, so the source digest is an ordinary column. -/
structure RevisionSnapshot where
  sourceDigest : String
  resolutionInputsFingerprint : Option String
  snapshotId : String
  analyzerStatus : AnalyzerStatus
  associationKind : AssociationKind
  producingJob : JobIdentity
deriving DecidableEq, Repr

/-- The row of `orchestration_active_configurations`. -/
structure ActiveConfiguration where
  fingerprint : String
  checkpointVersion : ℕ
deriving DecidableEq, Repr

inductive OrchestrationError
  | configurationNotFound
  | configurationConflict
  | eventSubjectMismatch
  | eventOrderConflict
  | jobNotFoundOrDenied
  | jobLeaseConflict
  | jobSuperseded
  | jobCancelled
  | jobExecutionFailed
  | reconciliationFailed
  | promotionIneligible
  | revisionAssociationConflict
  | catalog (error : CatalogError)
deriving DecidableEq, Repr

structure Database where
  /-- The database clock, in milliseconds. -/
  clock : ℕ
  configurations : String → Option InstallationConfig
  active : Option ActiveConfiguration
  jobs : JobIdentity → Option Job
  branches : BranchKey → Option BranchCheckpoint
  reconciliations : BranchKey → Option ReconciliationCheckpoint
  revisionSnapshots : AnalysisIdentity → Option RevisionSnapshot
  catalog : Store

namespace Database

variable (db : Database)

def readActive : Except OrchestrationError (ActiveConfiguration × SchedulingConfiguration) := do
  let active ← orRaise db.active .configurationNotFound
  let document ← orRaise (db.configurations active.fingerprint) .configurationNotFound
  return (active, ⟨active.fingerprint, document⟩)

/-! ### Writing jobs -/

def newJob (configuration : SchedulingConfiguration) (target : TargetConfig)
    (identity : JobIdentity) (evidence : ProviderReference) : Job where
  identity := identity
  serviceRoot := target.service.root
  analyzerAdapterId := target.service.analyzer.adapterId
  analyzerAdapterVersion := target.service.analyzer.adapterVersion
  exchangeVersion := analyzerExchangeVersion
  irVersion := configuredAnalyzerIrVersion target.service.analyzer
  identityVersion := identityVersion
  configVersion := configuration.document.configVersion
  configDocument := configuration.document
  evidence := evidence
  availableAt := db.clock

def persistJob (job : Job) : Database :=
  match db.jobs job.identity with
  | some _ => db
  | none => { db with jobs := Function.update db.jobs job.identity (some job) }

def updateJob (id : JobIdentity) (f : Job → Job) : Database :=
  { db with jobs := Function.update db.jobs id ((db.jobs id).map f) }

/-- Supersede the job that a checkpoint points to, unless it is the next one. -/
def persistSupersede (old : Option JobIdentity) (next : JobIdentity) : Database :=
  match old with
  | none => db
  | some old => if old = next then db else db.updateJob old (·.supersede next)

def persistCancel (old : Option JobIdentity) : Database :=
  match old with
  | none => db
  | some old => db.updateJob old Job.cancel

/-- The row of the job that a checkpoint points to. -/
def currentJobRow (current : Option JobIdentity) : Option Job :=
  current.bind db.jobs

end Database

end ApiTruth.Orchestration
