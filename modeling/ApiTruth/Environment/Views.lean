import ApiTruth.Catalog.BranchPointer
import ApiTruth.Environment.Resolution
import ApiTruth.Environment.Serving
import ApiTruth.Foundation.Tables

/-!
# The view of an environment

`getEnvironment` reads, for one principal, what an environment serves: the active configuration of
the tenant, the checkpoint of the environment with its current observation, and the bindings and
snapshots the observation is resolved with.  Everything is read from one state of the database.

## Main definitions

* `InstallationConfig`, `TenantRows` : the configuration and the rows of one tenant.
* `TenantRows.getEnvironment` : the view.
* `TenantRows.Serves` : the environment serves a snapshot to a principal.

## Main results

* `TenantRows.hasScopes_iff` : the join over scopes and grants decides whether all are held.
* `TenantRows.getEnvironment_of_serves`, `TenantRows.serves_of_reports` : the view reports a
  snapshot exactly when it is served.
-/

namespace ApiTruth.Environment

open Catalog Checked Ir List Option

/-! ### Configurations -/

/-- An environment of a service, with the scope of its deployment authority. -/
structure EnvironmentConfig where
  name : String
  intendedBranch : Option String := none
  deploymentAuthority : String
deriving DecidableEq, Repr

structure ServiceConfig where
  serviceId : String
  intendedBranches : List String := []
  environments : List EnvironmentConfig
deriving DecidableEq, Repr

structure RepositoryConfig where
  repositoryId : String
  accessScopeId : String
  services : List ServiceConfig
deriving DecidableEq, Repr

/-- The parts of an installation configuration that views and their validation read. -/
structure InstallationConfig where
  accessScopes : List String
  repositories : List RepositoryConfig
deriving DecidableEq, Repr

/-- An environment of a service of a repository. -/
structure EnvironmentKey where
  repositoryId : String
  serviceId : String
  environment : String
deriving DecidableEq, Repr

namespace InstallationConfig

variable (config : InstallationConfig)

def hasShape : Bool :=
  config.accessScopes ≠ [] && config.accessScopes.all (· ≠ "") && config.repositories ≠ []
    && config.repositories.all fun repository =>
      repository.repositoryId ≠ "" && repository.accessScopeId ≠ "" && repository.services ≠ []
        && repository.services.all fun service =>
          service.serviceId ≠ "" && service.intendedBranches.all (· ≠ "")
            && decide service.intendedBranches.Nodup
            && service.environments.all fun environment =>
              environment.name ≠ "" && environment.intendedBranch ≠ some ""
                && environment.deploymentAuthority ≠ ""

/-- `validateConfigReferences` finds no issue. -/
def validateConfigReferences : Bool :=
  decide config.accessScopes.Nodup
    && decide (config.repositories.map RepositoryConfig.repositoryId).Nodup
    && decide (config.repositories.flatMap fun repository =>
        repository.services.map ServiceConfig.serviceId).Nodup
    && config.repositories.all fun repository =>
      config.accessScopes.contains repository.accessScopeId
        && repository.services.all fun service =>
          decide (service.environments.map EnvironmentConfig.name).Nodup
            && service.environments.all fun environment =>
              environment.intendedBranch.all service.intendedBranches.contains
                && config.accessScopes.contains environment.deploymentAuthority

/-- `parseConfig` on a document of the right members. -/
def parseConfig : Option InstallationConfig :=
  if config.hasShape && config.validateConfigReferences then some config else none

def findEnvironment (key : EnvironmentKey) : Option (RepositoryConfig × EnvironmentConfig) := do
  let repository ← config.repositories.find? (·.repositoryId == key.repositoryId)
  let service ← repository.services.find? (·.serviceId == key.serviceId)
  let environment ← service.environments.find? (·.name == key.environment)
  return (repository, environment)

end InstallationConfig

/-! ### Rows -/

/-- A row of `access_scopes`. -/
structure AccessScope where
  accessScopeId : String
  active : Bool
deriving DecidableEq, Repr

/-- A row of `principal_scope_grants`. -/
structure ScopeGrant where
  principalId : String
  accessScopeId : String
  active : Bool
deriving DecidableEq, Repr

/-- The primary key of a grant. -/
def ScopeGrant.key (grant : ScopeGrant) : String × String :=
  (grant.principalId, grant.accessScopeId)

/-- A configuration that `orchestration_active_configurations` refers to. -/
structure ConfigurationRow where
  configFingerprint : String
  documentSha256 : String
  document : InstallationConfig
deriving DecidableEq, Repr

/-- The columns of `environment_serving_checkpoints` that are read. -/
structure ServingCheckpointRow where
  key : EnvironmentKey
  version : ℕ
  reconciliationRequired : Bool
  current : Option EventIdentity
deriving DecidableEq, Repr

/-- The columns of `environment_serving_observations` that are read; `inventory` is null unless
the serving status is known. -/
structure ServingObservationRow where
  id : EventIdentity
  key : EnvironmentKey
  activeConfigFingerprint : String
  sourceAccessLabel : String
  completeness : Completeness
  servingKnown : Bool
  inventory : Option Json
  /-- The check constraint on the ids. -/
  named : id.producerId ≠ "" ∧ id.eventId ≠ ""
deriving DecidableEq

/-- A row of `environment_artifact_bindings`. -/
structure ArtifactBindingRow where
  repositoryId : String
  serviceId : String
  artifactId : String
  revision : String
deriving DecidableEq, Repr

/-- The primary key of a binding. -/
def ArtifactBindingRow.key (row : ArtifactBindingRow) : String × String × String :=
  (row.repositoryId, row.serviceId, row.artifactId)

/-- A row of `environment_deployment_attempts`. -/
structure DeploymentAttemptRow extends DeploymentAttempt where
  eventId : String
  key : EnvironmentKey
  activeConfigFingerprint : String
deriving DecidableEq, Repr

/-- The rows of one tenant that the view of an environment reads. -/
structure TenantRows where
  activeConfiguration : Option ConfigurationRow
  accessScopes : Table AccessScope.accessScopeId
  scopeGrants : Table ScopeGrant.key
  checkpoints : Table ServingCheckpointRow.key
  observations : Table ServingObservationRow.id
  artifactBindings : Table ArtifactBindingRow.key
  snapshots : Table SnapshotRow.snapshotId
  deploymentAttempts : List DeploymentAttemptRow

inductive ViewError
  | invalidEnvironmentInput
  | environmentNotFoundOrDenied
  | environmentStorageError
deriving DecidableEq, Repr

structure Principal where
  tenantId : String
  principalId : String
deriving DecidableEq, Repr

/-- What `getEnvironment` returns. -/
structure EnvironmentView extends EnvironmentResolution where
  key : EnvironmentKey
  configFingerprint : String
  checkpointVersion : Option String
  reconciliationRequired : Bool
deriving DecidableEq, Repr

/-- `/^[^\u0000-\u001f]{1,512}$/`, whose length counts UTF-16 code units. -/
def isId (value : String) : Bool :=
  0 < (utf16 value).length && (utf16 value).length ≤ 512 && value.toList.all fun c => 0x1f < c.val

/-- `parseFields` accepts the fields of a principal. -/
def Principal.isValid (principal : Principal) : Bool :=
  isId principal.tenantId && isId principal.principalId

/-- `parseFields` accepts the fields of a key. -/
def EnvironmentKey.isValid (key : EnvironmentKey) : Bool :=
  isId key.repositoryId && isId key.serviceId && isId key.environment

/-! ### Inventories -/

/-- The members of an object. -/
def members? : Json → Option (List (String × Json))
  | .obj members => some members
  | _ => none

def nonEmptyMember (name : String) (members : List (String × Json)) : Option String :=
  match members.lookup name with
  | some (.str value) => if value = "" then none else some value
  | _ => none

/-- The artifact of an item of a stored inventory, with the members of its revision. -/
def readArtifact (item : Json) : Option (String × List (String × Json)) := do
  let row ← members? item
  let artifactId ← nonEmptyMember "artifact_id" row
  let revision ← (row.lookup "revision").bind members?
  return (artifactId, revision)

def readRevision (revision : List (String × Json)) : Option Revision :=
  match revision.lookup "state", nonEmptyMember "revision" revision with
  | some (.str "known"), some value => some (.known value)
  | some (.str "unknown"), _ => some (.unknown "unavailable")
  | _, _ => none

def readItem (item : Json) : Option InventoryItem := do
  let (artifactId, revision) ← readArtifact item
  let revision ← readRevision revision
  return { artifactId, revision }

def readInventory (inventory : Option Json) : Except ViewError ServingState :=
  match inventory with
  | some (.arr items) => do
    let items ← orRaise (items.mapM readItem) .environmentStorageError
    return .known items
  | _ => .error .environmentStorageError

def ServingObservationRow.report (row : ServingObservationRow) :
    Except ViewError ServingReport := do
  let servingState ← if row.servingKnown then readInventory row.inventory
    else pure (.unknown "unavailable" none)
  return { completeness := row.completeness, servingState }

/-- The document of a configuration, if it parses and has the stored digest. -/
def ConfigurationRow.read (hash : InstallationConfig → String) (row : ConfigurationRow) :
    Option InstallationConfig := do
  let document ← row.document.parseConfig
  if hash document = row.documentSha256 then some document else none

/-! ### The view -/

namespace TenantRows

variable (rows : TenantRows)

/-- `hasScopes`: the count of the join is the number of distinct scopes. -/
def hasScopes (principalId : String) (scopeIds : List String) : Bool :=
  (rows.accessScopes.join rows.scopeGrants scopeIds.dedup AccessScope.active
    (principalId, ·.accessScopeId) ScopeGrant.active).length == scopeIds.dedup.length

/-- The subquery over `unnest(required_scope_ids)` finds no scope that is not held. -/
def holdsRequired (principalId : String) (required : List String) : Bool :=
  required.all fun scopeId => decide (rows.accessScopes.Has scopeId AccessScope.active)
    && decide (rows.scopeGrants.Has (principalId, scopeId) ScopeGrant.active)

/-- The observation that a checkpoint joins with. -/
def currentObservation (state : ServingCheckpointRow) : Option ServingObservationRow :=
  (state.current.bind rows.observations.find?).filter (·.key == state.key)

/-- The current observation of an environment, if it was made under the configuration. -/
def observationUnder (key : EnvironmentKey) (fingerprint : String) :
    Option ServingObservationRow :=
  ((rows.checkpoints.find? key).bind rows.currentObservation).filter
    (·.activeConfigFingerprint == fingerprint)

/-- The snapshots of a revision under a configuration, as both queries select them. -/
def isCandidate (key : EnvironmentKey) (fingerprint revision : String) (row : SnapshotRow) : Bool :=
  row.repositoryId == key.repositoryId && row.serviceId == key.serviceId
    && row.immutableRevision == revision && row.configFingerprint == fingerprint

/-- The snapshots of the given revisions that the principal may see. -/
def revisionSnapshots (principalId : String) (key : EnvironmentKey) (fingerprint : String)
    (revisions : List String) : List SnapshotRow :=
  rows.snapshots.rows.filter fun row =>
    revisions.any (isCandidate key fingerprint · row) && row.requiredScopeIds ≠ []
      && rows.holdsRequired principalId row.requiredScopeIds

def readStoredSnapshot (parses : ContractSnapshot → Bool) (key : EnvironmentKey)
    (snapshotId : String) : Option SnapshotRow :=
  (rows.snapshots.find? snapshotId).filter fun row =>
    row.repositoryId == key.repositoryId && row.serviceId == key.serviceId
      && Store.verifyStoredSnapshotRow parses row

/-- The stored snapshot of a candidate passes its checks and is the one the query selected. -/
def isStored (parses : ContractSnapshot → Bool) (key : EnvironmentKey) (fingerprint : String)
    (candidate : SnapshotRow) : Bool :=
  (rows.readStoredSnapshot parses key candidate.snapshotId).any fun stored =>
    stored.document.source.immutableRevision == candidate.immutableRevision
      && stored.document.config.configFingerprint == fingerprint

/-- The bindings of the artifacts of an inventory. -/
def bindingsOf (key : EnvironmentKey) (artifactIds : List String) : List ArtifactBinding :=
  (rows.artifactBindings.rows.filter fun row =>
    row.repositoryId == key.repositoryId && row.serviceId == key.serviceId
      && artifactIds.contains row.artifactId).map fun row => ⟨row.artifactId, row.revision⟩

/-- The attempts made in an environment under a configuration. -/
def attemptsOf (key : EnvironmentKey) (fingerprint : String) : List DeploymentAttempt :=
  (rows.deploymentAttempts.filter fun row =>
    row.key == key && row.activeConfigFingerprint == fingerprint).map
      DeploymentAttemptRow.toDeploymentAttempt

end TenantRows

namespace ServingReport

def artifactIds (report : ServingReport) : List String := report.servingState.artifactIds

def revisions (report : ServingReport) : List String :=
  match report.servingState with
  | .known inventory => inventory.filterMap fun item =>
    match item.revision with
    | .known revision => some revision
    | .unknown _ => none
  | .unknown _ _ => []

end ServingReport

/-- A resolution is withheld while reconciliation is required. -/
def EnvironmentResolution.safe (resolution : EnvironmentResolution)
    (reconciliationRequired : Bool) : EnvironmentResolution :=
  if reconciliationRequired
      && (resolution.deployment == .deployed || resolution.deployment == .confirmedNotDeployed)
  then { deployment := .unknown, contract := .unavailable, active := [],
         latestAttempt := resolution.latestAttempt }
  else resolution

namespace TenantRows

variable (rows : TenantRows)

/-- What the current observation is resolved with. -/
def resolutionInput (principalId : String) (key : EnvironmentKey) (fingerprint : String)
    (observation : Option ServingReport) : ResolutionInput where
  observation := observation
  latestAttempt := latestComparableAttempt (rows.attemptsOf key fingerprint)
  artifactBindings := rows.bindingsOf key (observation.elim [] ServingReport.artifactIds)
  revisionSnapshots :=
    (rows.revisionSnapshots principalId key fingerprint
      (observation.elim [] ServingReport.revisions)).map fun row =>
        ⟨row.immutableRevision, row.snapshotId⟩

/-- The view of an environment whose current observation has been read. -/
def viewOf (principalId : String) (key : EnvironmentKey) (fingerprint : String)
    (observation : Option ServingReport) : EnvironmentView :=
  let state := rows.checkpoints.find? key
  let reconciliationRequired := state.any (·.reconciliationRequired)
    || state.isSome && (rows.observationUnder key fingerprint).isNone
  { ((rows.resolutionInput principalId key fingerprint observation).resolveEnvironment).safe
      reconciliationRequired with
    key, configFingerprint := fingerprint,
    checkpointVersion := state.map (toString ·.version), reconciliationRequired }

/-- The view of an environment in the rows of its tenant. -/
def getEnvironment (hash : InstallationConfig → String) (parses : ContractSnapshot → Bool)
    (principal : Principal) (key : EnvironmentKey) : Except ViewError EnvironmentView := do
  require (principal.isValid = true) .invalidEnvironmentInput
  require (key.isValid = true) .invalidEnvironmentInput
  let current ← orRaise rows.activeConfiguration .environmentNotFoundOrDenied
  let document ← orRaise (current.read hash) .environmentStorageError
  let (repository, environment) ← orRaise (document.findEnvironment key)
    .environmentNotFoundOrDenied
  require (rows.hasScopes principal.principalId
    [repository.accessScopeId, environment.deploymentAuthority] = true)
    .environmentNotFoundOrDenied
  let observed := rows.observationUnder key current.configFingerprint
  require (observed.all (fun row =>
    rows.hasScopes principal.principalId [row.sourceAccessLabel]) = true)
    .environmentNotFoundOrDenied
  let observation ← observed.mapM ServingObservationRow.report
  require ((rows.revisionSnapshots principal.principalId key current.configFingerprint
    (observation.elim [] ServingReport.revisions)).all
      (rows.isStored parses key current.configFingerprint) = true) .environmentStorageError
  return rows.viewOf principal.principalId key current.configFingerprint observation

/-! ### Scopes -/

variable {rows}

/-- The principal holds the scope: both the scope and its grant are active. -/
def Holds (rows : TenantRows) (principalId scopeId : String) : Prop :=
  rows.accessScopes.Has scopeId AccessScope.active ∧
    rows.scopeGrants.Has (principalId, scopeId) ScopeGrant.active

instance (principalId scopeId : String) : Decidable (rows.Holds principalId scopeId) :=
  inferInstanceAs (Decidable (_ ∧ _))

variable {principalId : String}

/-- The count of the join decides whether every scope is held. -/
theorem hasScopes_iff {scopeIds : List String} :
    rows.hasScopes principalId scopeIds = true ↔
      ∀ scopeId ∈ scopeIds, rows.Holds principalId scopeId := by
  rw [hasScopes, beq_iff_eq, Table.length_join, Table.length_select_eq_iff _ scopeIds.nodup_dedup]
  refine forall_congr' fun scopeId => ?_
  rw [mem_dedup]
  refine imp_congr_right fun _ => ⟨?_, ?_⟩
  · rintro ⟨scope, hscope, rfl, hholds⟩
    rw [Bool.and_eq_true, decide_eq_true_eq] at hholds
    exact ⟨⟨scope, hscope, rfl, hholds.1⟩, hholds.2⟩
  · rintro ⟨⟨scope, hscope, rfl, hactive⟩, hgrant⟩
    exact ⟨scope, hscope, rfl, (Bool.and_eq_true _ _).mpr ⟨hactive, decide_eq_true hgrant⟩⟩

theorem holdsRequired_iff {required : List String} :
    rows.holdsRequired principalId required = true ↔
      ∀ scopeId ∈ required, rows.Holds principalId scopeId := by
  simp [holdsRequired, Holds]

/-! ### What an environment serves -/

/-- The integrity checks of the stored snapshots pass. -/
def SnapshotsIntact (rows : TenantRows) (parses : ContractSnapshot → Bool) : Prop :=
  ∀ row ∈ rows.snapshots.rows, Store.verifyStoredSnapshotRow parses row = true ∧
    row.requiredScopeIds ≠ []

/-- The rows by which an environment serves a snapshot of a revision. -/
structure Served where
  configuration : ConfigurationRow
  repository : RepositoryConfig
  environment : EnvironmentConfig
  state : ServingCheckpointRow
  observation : ServingObservationRow
  artifactId : String
  revision : String
  snapshot : SnapshotRow

/-- The report of the observation that is served. -/
def Served.report (served : Served) : ServingReport where
  completeness := .complete
  servingState := .known [⟨served.artifactId, .known served.revision⟩]

/-- The environment serves a snapshot to a principal: the active configuration lists it, its
checkpoint is settled on a complete observation of one artifact made under that configuration, the
artifact is bound to its revision, and the revision has one snapshot that the principal may see. -/
structure Serves (rows : TenantRows) (hash : InstallationConfig → String) (principalId : String)
    (key : EnvironmentKey) (served : Served) : Prop where
  configuration : rows.activeConfiguration = some served.configuration
  configured : (served.configuration.read hash).bind (·.findEnvironment key) =
    some (served.repository, served.environment)
  scopes : ∀ scopeId ∈ [served.repository.accessScopeId, served.environment.deploymentAuthority,
    served.observation.sourceAccessLabel], rows.Holds principalId scopeId
  state : rows.checkpoints.find? key = some served.state
  settled : served.state.reconciliationRequired = false
  observed : rows.currentObservation served.state = some served.observation
  current : served.observation.activeConfigFingerprint = served.configuration.configFingerprint
  complete : served.observation.completeness = .complete
  known : served.observation.servingKnown = true
  inventory : ∃ item, served.observation.inventory = some (.arr [item]) ∧
    readItem item = some ⟨served.artifactId, .known served.revision⟩
  bound : (rows.artifactBindings.find? (key.repositoryId, key.serviceId, served.artifactId)).map
    ArtifactBindingRow.revision = some served.revision
  visible : rows.revisionSnapshots principalId key served.configuration.configFingerprint
    [served.revision] = [served.snapshot]

end TenantRows

/-- The view reports a deployed and resolved contract that needs no reconciliation. -/
structure EnvironmentView.Reports (view : EnvironmentView) (snapshotId version : String)
    (fingerprint : String) : Prop where
  deployed : view.deployment = .deployed
  resolved : view.contract = .resolved
  settled : view.reconciliationRequired = false
  snapshotId : view.snapshotId = some snapshotId
  checkpointVersion : view.checkpointVersion = some version
  configFingerprint : view.configFingerprint = fingerprint

/-! ### The view reports what is served -/

variable {item : InventoryItem} {completeness : Completeness}

theorem readInventory_eq_ok_iff {inventory : Option Json} :
    readInventory inventory = .ok (.known [item]) ↔
      ∃ stored, inventory = some (.arr [stored]) ∧ readItem stored = some item := by
  unfold readInventory
  split
  · next items =>
    simp only [orRaise_bind_eq_ok, pure_eq_ok, ServingState.known.injEq, Option.some.injEq,
      Json.arr.injEq]
    constructor
    · rintro ⟨_, hread, rfl⟩
      rcases items with _ | ⟨stored, _ | ⟨next, rest⟩⟩
      · simp at hread
      · exact ⟨stored, rfl, by simpa [bind_eq_some_iff] using hread⟩
      · simp [mapM_cons, bind_eq_some_iff] at hread
    · rintro ⟨stored, rfl, hread⟩
      exact ⟨[item], by simp [hread], rfl⟩
  · next hnot =>
    simp only [reduceCtorEq, false_iff, not_exists, not_and]
    rintro stored rfl
    exact absurd rfl (hnot _)

variable {row : ServingObservationRow}

theorem ServingObservationRow.report_eq_ok_iff :
    row.report = .ok ⟨completeness, .known [item]⟩ ↔
      row.completeness = completeness ∧ row.servingKnown = true ∧
        ∃ stored, row.inventory = some (.arr [stored]) ∧ readItem stored = some item := by
  unfold ServingObservationRow.report
  by_cases hknown : row.servingKnown = true
  · simp only [hknown, ↓reduceIte, bind_eq_ok, pure_eq_ok, ServingReport.mk.injEq, true_and]
    rw [← readInventory_eq_ok_iff]
    constructor
    · rintro ⟨state, hstate, rfl, rfl⟩
      exact ⟨rfl, hstate⟩
    · rintro ⟨rfl, hstate⟩
      exact ⟨_, hstate, rfl, rfl⟩
  · simp [hknown, bind, Except.bind, pure, Except.pure]

namespace TenantRows

variable {rows : TenantRows} {key : EnvironmentKey} {parses : ContractSnapshot → Bool}

theorem mem_revisionSnapshots {principalId fingerprint revision : String} {row : SnapshotRow} :
    row ∈ rows.revisionSnapshots principalId key fingerprint [revision] ↔
      row ∈ rows.snapshots.rows ∧ isCandidate key fingerprint revision row = true ∧
        row.requiredScopeIds ≠ [] ∧ ∀ scopeId ∈ row.requiredScopeIds, rows.Holds principalId scopeId := by
  simp [revisionSnapshots, holdsRequired_iff, and_assoc]

theorem bindingsOf_singleton (rows : TenantRows) (key : EnvironmentKey) (artifactId : String) :
    rows.bindingsOf key [artifactId] =
      ((rows.artifactBindings.find? (key.repositoryId, key.serviceId, artifactId)).map fun row =>
        ⟨row.artifactId, row.revision⟩).toList := by
  have hkey : (fun row : ArtifactBindingRow => row.repositoryId == key.repositoryId
      && row.serviceId == key.serviceId && [artifactId].contains row.artifactId) =
        fun row => decide (row.key = (key.repositoryId, key.serviceId, artifactId)) := by
    funext row
    rw [Bool.eq_iff_iff]
    simp [ArtifactBindingRow.key, and_assoc]
  rw [bindingsOf, hkey, Table.filter_key]
  cases rows.artifactBindings.find? (key.repositoryId, key.serviceId, artifactId) <;> rfl

theorem filter_bindingsOf_eq_iff {artifactId revision : String} :
    (rows.bindingsOf key [artifactId]).filter (·.artifactId == artifactId) =
        [⟨artifactId, revision⟩] ↔
      (rows.artifactBindings.find? (key.repositoryId, key.serviceId, artifactId)).map
        ArtifactBindingRow.revision = some revision := by
  rw [bindingsOf_singleton]
  cases hfind : rows.artifactBindings.find? (key.repositoryId, key.serviceId, artifactId) with
  | none => simp
  | some row =>
    obtain ⟨-, hkey⟩ := rows.artifactBindings.find?_eq_some_iff.mp hfind
    have hartifact : row.artifactId = artifactId := congrArg (fun key => key.2.2) hkey
    simp [hartifact]

theorem filter_revisionSnapshots_eq_iff {principalId fingerprint revision snapshotId : String} :
    ((rows.revisionSnapshots principalId key fingerprint [revision]).map fun row =>
        (⟨row.immutableRevision, row.snapshotId⟩ : SnapshotOfRevision)).filter
          (·.revision == revision) = [⟨revision, snapshotId⟩] ↔
      ∃ snapshot, rows.revisionSnapshots principalId key fingerprint [revision] = [snapshot] ∧
        snapshot.snapshotId = snapshotId := by
  have hrevision : ∀ row ∈ rows.revisionSnapshots principalId key fingerprint [revision],
      row.immutableRevision = revision := by
    intro row hrow
    have hcandidate := (mem_revisionSnapshots.mp hrow).2.1
    simp only [isCandidate, Bool.and_eq_true, beq_iff_eq] at hcandidate
    exact hcandidate.1.2
  have hall : ∀ stored ∈ (rows.revisionSnapshots principalId key fingerprint [revision]).map
      (fun row => (⟨row.immutableRevision, row.snapshotId⟩ : SnapshotOfRevision)),
      (stored.revision == revision) = true := by
    intro stored hstored
    obtain ⟨row, hrow, rfl⟩ := List.mem_map.mp hstored
    exact beq_iff_eq.mpr (hrevision row hrow)
  rw [List.filter_eq_self.mpr hall, map_eq_singleton_iff]
  refine exists_congr fun snapshot => and_congr_right fun hsingle => ?_
  rw [SnapshotOfRevision.mk.injEq]
  exact and_iff_right (hrevision snapshot (hsingle ▸ mem_singleton_self snapshot))

/-- The artifact of an inventory of one resolves to the one visible snapshot of its revision, when
it is bound to that revision. -/
theorem resolveItem_eq_found_iff_of_single {principalId fingerprint artifactId revision : String}
    {snapshotId : String} :
    (rows.resolutionInput principalId key fingerprint
        (some ⟨completeness, .known [⟨artifactId, .known revision⟩]⟩)).resolveItem
          ⟨artifactId, .known revision⟩ = .found revision snapshotId ↔
      (rows.artifactBindings.find? (key.repositoryId, key.serviceId, artifactId)).map
          ArtifactBindingRow.revision = some revision ∧
        ∃ snapshot, rows.revisionSnapshots principalId key fingerprint [revision] = [snapshot] ∧
          snapshot.snapshotId = snapshotId := by
  rw [ResolutionInput.resolveItem_eq_found_iff, ← filter_bindingsOf_eq_iff,
    ← filter_revisionSnapshots_eq_iff]
  exact and_iff_right rfl

variable {fingerprint : String} {hash : InstallationConfig → String} {principal : Principal}

theorem observationUnder_eq_some_iff :
    rows.observationUnder key fingerprint = some row ↔
      ∃ state, rows.checkpoints.find? key = some state ∧ rows.currentObservation state = some row ∧
        row.activeConfigFingerprint = fingerprint := by
  rw [observationUnder, filter_eq_some_iff, bind_eq_some_iff, beq_iff_eq]
  constructor
  · rintro ⟨⟨state, hstate, hrow⟩, hcurrent⟩
    exact ⟨state, hstate, hrow, hcurrent⟩
  · rintro ⟨state, hstate, hrow, hcurrent⟩
    exact ⟨⟨state, hstate, hrow⟩, hcurrent⟩

theorem all_isStored (hintact : rows.SnapshotsIntact parses)
    (principalId : String) (key : EnvironmentKey) (fingerprint : String) (revisions : List String) :
    (rows.revisionSnapshots principalId key fingerprint revisions).all
      (rows.isStored parses key fingerprint) = true := by
  rw [List.all_eq_true]
  intro row hrow
  simp only [revisionSnapshots, mem_filter, Bool.and_eq_true, List.any_eq_true] at hrow
  obtain ⟨hmem, ⟨⟨revision, -, hcandidate⟩, -⟩, -⟩ := hrow
  simp only [isCandidate, Bool.and_eq_true, beq_iff_eq] at hcandidate
  obtain ⟨⟨⟨hrepository, hservice⟩, -⟩, hfingerprint⟩ := hcandidate
  have hverify := (hintact row hmem).1
  have hfind : rows.snapshots.find? row.snapshotId = some row :=
    rows.snapshots.find?_eq_some_iff.mpr ⟨hmem, rfl⟩
  have hread : rows.readStoredSnapshot parses key row.snapshotId = some row := by
    simp [readStoredSnapshot, hfind, hrepository, hservice, hverify]
  simp only [Store.verifyStoredSnapshotRow, Bool.and_eq_true, beq_iff_eq] at hverify
  obtain ⟨⟨⟨⟨⟨⟨-, hrevision⟩, -⟩, -⟩, hconfig⟩, -⟩, -⟩ := hverify
  simp [isStored, hread, hrevision, hconfig, hfingerprint]

theorem toResolution_viewOf {principalId fingerprint : String} {observation : Option ServingReport}
    (hsettled : (rows.viewOf principalId key fingerprint observation).reconciliationRequired =
      false) :
    (rows.viewOf principalId key fingerprint observation).toEnvironmentResolution =
      (rows.resolutionInput principalId key fingerprint observation).resolveEnvironment := by
  simp only [viewOf] at hsettled ⊢
  simp only [hsettled, EnvironmentResolution.safe, Bool.false_and, Bool.false_eq_true, ↓reduceIte]

theorem reconciliationRequired_viewOf_eq_false_iff (principalId : String)
    (observation : Option ServingReport) (hrow : rows.observationUnder key fingerprint = some row) :
    (rows.viewOf principalId key fingerprint observation).reconciliationRequired = false ↔
      (rows.checkpoints.find? key).any (·.reconciliationRequired) = false := by
  simp [viewOf, hrow]

theorem getEnvironment_of_serves {served : Served} (hintact : rows.SnapshotsIntact parses)
    (hprincipal : principal.isValid = true) (hkey : key.isValid = true)
    (h : rows.Serves hash principal.principalId key served) :
    ∃ view, rows.getEnvironment hash parses principal key = .ok view ∧
      view.Reports served.snapshot.snapshotId (toString served.state.version)
        served.configuration.configFingerprint ∧
      view.active.map ActiveArtifact.revision = [some served.revision] := by
  obtain ⟨document, hdocument, hfound⟩ := bind_eq_some_iff.mp h.configured
  have hobserved : rows.observationUnder key served.configuration.configFingerprint =
      some served.observation :=
    observationUnder_eq_some_iff.mpr ⟨served.state, h.state, h.observed, h.current⟩
  obtain ⟨stored, hinventory, hitem⟩ := h.inventory
  have hreport : served.observation.report = .ok served.report :=
    ServingObservationRow.report_eq_ok_iff.mpr ⟨h.complete, h.known, stored, hinventory, hitem⟩
  have hscopes : rows.hasScopes principal.principalId
      [served.repository.accessScopeId, served.environment.deploymentAuthority] = true :=
    hasScopes_iff.mpr fun scopeId hscope => h.scopes scopeId (mem_append_left _ hscope)
  have hlabel : rows.hasScopes principal.principalId [served.observation.sourceAccessLabel] =
      true :=
    hasScopes_iff.mpr fun scopeId hscope => h.scopes scopeId
      (mem_cons_of_mem _ (mem_cons_of_mem _ hscope))
  have hresolved : (rows.resolutionInput principal.principalId key
      served.configuration.configFingerprint (some served.report)).resolveEnvironment = _ :=
    ResolutionInput.resolveEnvironment_of_found rfl
      (resolveItem_eq_found_iff_of_single.mpr ⟨h.bound, served.snapshot, h.visible, rfl⟩)
  refine ⟨rows.viewOf principal.principalId key served.configuration.configFingerprint
    (some served.report), ?_, ?_⟩
  · simp only [getEnvironment, require_bind_eq_ok, orRaise_bind_eq_ok]
    refine ⟨hprincipal, hkey, _, h.configuration, document, hdocument, _, hfound, hscopes,
      by simpa [hobserved] using hlabel, ?_⟩
    rw [hobserved]
    refine bind_eq_ok.mpr ⟨some served.report, by simp [hreport], ?_⟩
    exact require_bind_eq_ok.mpr ⟨all_isStored hintact _ _ _ _, rfl⟩
  · have hsettled := (reconciliationRequired_viewOf_eq_false_iff principal.principalId
      (some served.report) hobserved).mpr (by simpa [h.state] using h.settled)
    have hview := (toResolution_viewOf hsettled).trans hresolved
    refine ⟨?_, by rw [hview]; rfl⟩
    exact {
      deployed := congrArg EnvironmentResolution.deployment hview
      resolved := congrArg EnvironmentResolution.contract hview
      settled := hsettled
      snapshotId := congrArg EnvironmentResolution.snapshotId hview
      checkpointVersion := by simp [viewOf, h.state]
      configFingerprint := rfl }

theorem serves_of_reports {view : EnvironmentView} {snapshotId version fingerprint : String}
    (h : rows.getEnvironment hash parses principal key = .ok view)
    (hreports : view.Reports snapshotId version fingerprint) :
    principal.isValid = true ∧ key.isValid = true ∧
      ∃ served, rows.Serves hash principal.principalId key served ∧
        served.snapshot.snapshotId = snapshotId ∧ toString served.state.version = version ∧
        served.configuration.configFingerprint = fingerprint ∧
        view.active.map ActiveArtifact.revision = [some served.revision] := by
  simp only [getEnvironment, require_bind_eq_ok, orRaise_bind_eq_ok] at h
  obtain ⟨hprincipal, hkey, current, hcurrent, document, hdocument, ⟨repository, environment⟩,
    hfound, hscopes, hlabel, h⟩ := h
  obtain ⟨observation, hobservation, h⟩ := bind_eq_ok.mp h
  obtain ⟨-, h⟩ := require_bind_eq_ok.mp h
  cases h
  refine ⟨hprincipal, hkey, ?_⟩
  have hview := toResolution_viewOf hreports.settled
  obtain ⟨item, served, found, hsingle, hitem⟩ := ResolutionInput.resolveEnvironment_resolved
    ((congrArg EnvironmentResolution.deployment hview).symm.trans hreports.deployed)
    ((congrArg EnvironmentResolution.contract hview).symm.trans hreports.resolved)
  have hobserved : observation = some ⟨.complete, .known [item]⟩ := hsingle
  subst hobserved
  obtain ⟨artifactId, reference⟩ := item
  obtain rfl : reference = .known served := (ResolutionInput.resolveItem_eq_found_iff.mp hitem).1
  have hresolved := hview.trans (ResolutionInput.resolveEnvironment_of_found hsingle hitem)
  obtain ⟨hbound, snapshot, hvisible, rfl⟩ := resolveItem_eq_found_iff_of_single.mp hitem
  -- the report comes from the current observation of the checkpoint
  cases hrow : rows.observationUnder key current.configFingerprint with
  | none => simp [hrow, pure, Except.pure] at hobservation
  | some row =>
    obtain ⟨state, hstate, hjoined, hmade⟩ := observationUnder_eq_some_iff.mp hrow
    have hreport : row.report = .ok ⟨.complete, .known [⟨artifactId, .known served⟩]⟩ := by
      rw [hrow] at hobservation
      obtain ⟨report, hreport, hsome⟩ := map_eq_ok.mp hobservation
      rw [hreport, Option.some.inj hsome]
    obtain ⟨hcomplete, hknown, hinventory⟩ := ServingObservationRow.report_eq_ok_iff.mp hreport
    refine ⟨⟨current, repository, environment, state, row, artifactId, served, snapshot⟩,
      ?_, ?_, ?_, hreports.configFingerprint, by rw [hresolved]; rfl⟩
    · exact {
        configuration := hcurrent
        configured := bind_eq_some_iff.mpr ⟨document, hdocument, hfound⟩
        scopes := by
          have hlabel' : rows.hasScopes principal.principalId [row.sourceAccessLabel] = true := by
            simpa [hrow] using hlabel
          have hconfigured := hasScopes_iff.mp hscopes
          have hsource := hasScopes_iff.mp hlabel'
          simp only [forall_mem_cons] at hconfigured hsource ⊢
          exact ⟨hconfigured.1, hconfigured.2.1, hsource⟩
        state := hstate
        settled := by
          have hsettled := (reconciliationRequired_viewOf_eq_false_iff _ _ hrow).mp hreports.settled
          simpa [hstate] using hsettled
        observed := hjoined
        current := hmade
        complete := hcomplete
        known := hknown
        inventory := hinventory
        bound := hbound
        visible := hvisible }
    · have hid := hreports.snapshotId
      rw [hresolved] at hid
      simpa [ResolutionInput.served] using hid
    · have hversion := hreports.checkpointVersion
      simpa [viewOf, hstate] using hversion

end TenantRows

end ApiTruth.Environment
