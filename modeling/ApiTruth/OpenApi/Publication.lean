import ApiTruth.OpenApi.Compiler
import ApiTruth.OpenApi.EnvironmentPin

/-!
# Publications

A publication stores the bytes of a compiled snapshot, pinned to a revision, to a version of a
branch pointer or to a version of an environment checkpoint, and a current pointer for each key.
Each operation is one transaction; an operation that raises leaves the rows unchanged.

The bytes of a document are `encode`, the canonical JSON of the document with its provenance, and
`sha256` digests bytes; `publicationIdOf` digests the identity of a publication.  The digest of a
stored snapshot is modelled by the value it is the digest of.

## Main definitions

* `PublicationSelector`, `Preparation`, `prepareOpenApiPublication` : what is published.
* `PublicationDb` : the rows of one tenant.
* `PublicationDb.publish`, `PublicationDb.readCurrent` : the operations.
-/

namespace ApiTruth.OpenApi

open Catalog Checked Environment Ir

/-! ### Selectors -/

structure SelectorBase where
  repositoryId : String
  serviceId : String
  snapshotId : String
  revision : String
  configFingerprint : String
deriving DecidableEq, Repr

/-- `OpenApiPublicationSelector`. -/
inductive PublicationSelector
  | revision (base : SelectorBase)
  | branch (base : SelectorBase) (branch pointerVersion : String)
  | environment (selector : EnvironmentSelector)
deriving DecidableEq, Repr

/-- The `kind` of a selector. -/
inductive SelectorKind
  | revision
  | branch
  | environment
deriving DecidableEq, Repr

/-- A publication key, with the value of its selector. -/
structure PublicationKey where
  repositoryId : String
  serviceId : String
  kind : SelectorKind
  value : String
deriving DecidableEq, Repr

/-- `/^[1-9][0-9]*$/`. -/
def isVersion (text : String) : Bool := Decimal.isCanonical text && text != "0"

def PublicationKey.isValid (key : PublicationKey) : Bool :=
  key.repositoryId != "" && key.serviceId != "" && key.value != ""

/-- The environment that a key of that kind names. -/
def PublicationKey.environment (key : PublicationKey) : EnvironmentKey :=
  ⟨key.repositoryId, key.serviceId, key.value⟩

/-- The branch that a key of that kind names. -/
def PublicationKey.branch (key : PublicationKey) : BranchKey :=
  ⟨key.repositoryId, key.serviceId, key.value⟩

def EnvironmentSelector.base (selector : EnvironmentSelector) : SelectorBase where
  repositoryId := selector.repositoryId
  serviceId := selector.serviceId
  snapshotId := selector.snapshotId
  revision := selector.revision
  configFingerprint := selector.configFingerprint

namespace PublicationSelector

/-- The fields that every selector has. -/
def base : PublicationSelector → SelectorBase
  | revision base => base
  | branch base _ _ => base
  | environment selector => selector.base

/-- `keyFromSelector`. -/
def key : PublicationSelector → PublicationKey
  | revision base => ⟨base.repositoryId, base.serviceId, .revision, base.revision⟩
  | branch base name _ => ⟨base.repositoryId, base.serviceId, .branch, name⟩
  | environment selector =>
    ⟨selector.repositoryId, selector.serviceId, .environment, selector.environment⟩

def pinnedVersion : PublicationSelector → Option String
  | revision _ => none
  | branch _ _ pointerVersion => some pointerVersion
  | environment selector => some selector.checkpointVersion

/-- `parseSelector`: the strings are nonempty and an environment asserts one snapshot. -/
def parses (selector : PublicationSelector) : Bool :=
  let base := selector.base
  base.repositoryId != "" && base.serviceId != "" && base.snapshotId != "" && base.revision != ""
    && base.configFingerprint != ""
    && match selector with
      | revision _ => true
      | branch _ name pointerVersion => name != "" && pointerVersion != ""
      | environment selector => selector.environment != "" && selector.checkpointVersion != ""
        && selector.resolvedSnapshotIds.length == 1 && selector.resolvedSnapshotIds.all (· != "")

def names (selector : PublicationSelector) (snapshot : ContractSnapshot) : Bool :=
  let base := selector.base
  base.repositoryId == snapshot.service.repositoryId
    && base.repositoryId == snapshot.source.repositoryId
    && base.serviceId == snapshot.service.serviceId && base.snapshotId == snapshot.snapshotId
    && base.revision == snapshot.source.immutableRevision
    && base.configFingerprint == snapshot.config.configFingerprint
    && match selector with
      | environment selector => selector.resolvedSnapshotIds.head? == some snapshot.snapshotId
      | _ => true

end PublicationSelector

/-! ### Preparations -/

structure Provenance where
  selector : PublicationSelector
  snapshotId : String
  repositoryId : String
  serviceId : String
  revision : String
  sourceDigest : String
  configVersion : String
  configFingerprint : String
deriving DecidableEq, Repr

def provenance (snapshot : ContractSnapshot) (selector : PublicationSelector) : Provenance where
  selector := selector
  snapshotId := snapshot.snapshotId
  repositoryId := snapshot.service.repositoryId
  serviceId := snapshot.service.serviceId
  revision := snapshot.source.immutableRevision
  sourceDigest := snapshot.source.sourceDigest
  configVersion := snapshot.config.configVersion
  configFingerprint := snapshot.config.configFingerprint

/-- `OpenApiPublicationPreparation`; the document, its bytes and their digest come together. -/
structure Preparation where
  publishable : Bool
  mode : CompileMode
  document : Option Document
  bytes : Option (List UInt8)
  contentSha256 : Option String
  diagnostics : List CompileDiagnostic
  provenance : Provenance

structure PublicationIdentity where
  tenantId : String
  key : PublicationKey
  pinnedVersion : Option String
  snapshotId : String
  revision : String
  configVersion : String
  configFingerprint : String
  sourceDigest : String
  contentSha256 : Option String
deriving DecidableEq, Repr

/-- The functions that publications are computed with. -/
structure Toolchain where
  host : Host
  /-- The UTF-8 bytes of the canonical JSON of a document with its provenance. -/
  encode : Document → Provenance → List UInt8
  sha256 : List UInt8 → String
  publicationIdOf : PublicationIdentity → String
  /-- `validateOpenApiDocument` accepts the document with its provenance. -/
  validates : Document → Provenance → Bool
  /-- `canonicalOrchestrationHash` on configurations. -/
  configHash : InstallationConfig → String

section

variable (tools : Toolchain)

/-- `prepareOpenApiPublication`; nothing where the source throws. -/
def prepareOpenApiPublication (snapshot : ContractSnapshot) (mode : CompileMode)
    (selector : PublicationSelector) : Option Preparation :=
  if selector.parses && selector.names snapshot then
    (compileOpenApiSnapshot tools.host snapshot mode).map fun compiled =>
      let provenance := provenance snapshot selector
      let bytes := compiled.document.map (tools.encode · provenance)
      { publishable := compiled.document.isSome && mode == .strict && compiled.diagnostics.isEmpty
        mode, document := compiled.document, bytes, contentSha256 := bytes.map tools.sha256
        diagnostics := compiled.diagnostics, provenance }
  else none

def publicationId (tenantId : String) (preparation : Preparation) : String :=
  let p := preparation.provenance
  tools.publicationIdOf
    { tenantId
      key := p.selector.key
      pinnedVersion := p.selector.pinnedVersion
      snapshotId := p.snapshotId
      revision := p.revision
      configVersion := p.configVersion
      configFingerprint := p.configFingerprint
      sourceDigest := p.sourceDigest
      contentSha256 := preparation.contentSha256 }

/-- The document of a preparation passes `validateOpenApiDocument`. -/
def isValidated (preparation : Preparation) : Bool :=
  preparation.document.any (tools.validates · preparation.provenance)

end

/-! ### Rows -/

/-- A row of `openapi_publications`. -/
structure PublicationRow where
  key : PublicationKey
  branchPointerVersion : Option String
  environmentCheckpointVersion : Option String
  environmentScopeIds : Option (List String)
  snapshotId : String
  immutableRevision : String
  configVersion : String
  configFingerprint : String
  sourceDigest : String
  snapshotContentSha256 : ContractSnapshot
  contentSha256 : String
deriving DecidableEq

/-- A row of `openapi_current_pointers`. -/
structure CurrentPointer where
  publicationId : String
  pointerVersion : ℕ
deriving DecidableEq, Repr

/-- The columns of `orchestration_branch_checkpoints` that a branch pin reads. -/
structure BranchCheckpointRow where
  isPresent : Bool
  desiredRevision : Option String
  lastSuccessfulSnapshotId : Option String
  latestOutcome : Option String
deriving DecidableEq, Repr

/-- The rows of one tenant that publications read and write. -/
structure PublicationDb where
  rows : TenantRows
  branchPointers : BranchKey → Option BranchPointer
  branchCheckpoints : BranchKey → Option BranchCheckpointRow
  artifacts : String → Option (List UInt8)
  publications : String → Option PublicationRow
  currentPointers : PublicationKey → Option CurrentPointer

/-- The `code` of an `OpenApiStorageError`. -/
inductive OpenApiStorageError
  | invalidPublication
  | notFoundOrDenied
  | stalePointer
  | corruptStorage
  | storageError
deriving DecidableEq, Repr

/-- The pointer a caller of `publish` expects. -/
inductive ExpectedPublicationPointer
  | absent
  | present (pointerVersion : String)
deriving DecidableEq, Repr

def ExpectedPublicationPointer.isValid : ExpectedPublicationPointer → Bool
  | absent => true
  | present pointerVersion => isVersion pointerVersion

def ExpectedPublicationPointer.agrees (expected : ExpectedPublicationPointer)
    (current : Option CurrentPointer) : Bool :=
  match expected with
  | absent => current.isNone
  | present pointerVersion => current.any (toString ·.pointerVersion == pointerVersion)

structure PublishedOpenApi where
  publicationId : String
  contentSha256 : String
  pointerVersion : ℕ
  bytes : List UInt8
  snapshotId : String
deriving DecidableEq, Repr

namespace PublicationDb

variable (db : PublicationDb)

/-! ### Pins -/

/-- `branchPointer`: the snapshot and the version of a branch, unless its checkpoint has moved
on. -/
def branchPointer (key : BranchKey) : Except OpenApiStorageError BranchPointer := do
  let pointer ← orRaise (db.branchPointers key) .notFoundOrDenied
  let snapshot ← orRaise ((db.rows.snapshots.find? pointer.snapshotId).filter fun row =>
    row.repositoryId == key.repositoryId && row.serviceId == key.serviceId) .notFoundOrDenied
  require ((db.branchCheckpoints key).all (fun state => state.isPresent
    && state.desiredRevision == some snapshot.immutableRevision
    && state.lastSuccessfulSnapshotId == some pointer.snapshotId
    && state.latestOutcome != some "reconciliation_required") = true) .stalePointer
  return pointer

/-- The error that a pin of an environment raises. -/
def pinError : PinRefusal → OpenApiStorageError
  | .stale => .stalePointer
  | .denied => .notFoundOrDenied
  | .corrupt => .corruptStorage

/-- The scopes that a publication for an environment rests on. -/
def environmentScopes (tools : Toolchain) (principalId : String) (selector : EnvironmentSelector) :
    Except OpenApiStorageError (List String) :=
  (checkEnvironmentPin db.rows principalId tools.configHash selector).mapError pinError

/-- The pin of a selector is the current one; an environment returns its scopes. -/
def checkPin (tools : Toolchain) (principalId : String) :
    PublicationSelector → Except OpenApiStorageError (Option (List String))
  | .revision _ => .ok none
  | .branch base name pointerVersion => do
    let pointer ← db.branchPointer ⟨base.repositoryId, base.serviceId, name⟩
    require (pointer.snapshotId = base.snapshotId ∧
      toString pointer.pointerVersion = pointerVersion) .stalePointer
    return none
  | .environment selector => some <$> db.environmentScopes tools principalId selector

/-- Both queries over the required scopes return exactly these. -/
def hasExactScopes (principalId : String) (scopes : List String) : Bool :=
  let activeScopes := (db.rows.accessScopes.select scopes AccessScope.active).map
    AccessScope.accessScopeId
  let grants := (db.rows.scopeGrants.select (scopes.map (principalId, ·)) ScopeGrant.active).map
    ScopeGrant.accessScopeId
  activeScopes.insertionSort (· ≤ ·) == scopes.insertionSort (· ≤ ·)
    && grants.insertionSort (· ≤ ·) == scopes.insertionSort (· ≤ ·)

/-- The columns of a stored snapshot repeat its document. -/
def isIntact (host : Host) (row : SnapshotRow) : Bool :=
  let snapshot := row.document
  decide (snapshot.Accepted host) && snapshot.snapshotId == row.snapshotId
    && snapshot.service.repositoryId == row.repositoryId
    && snapshot.service.serviceId == row.serviceId
    && snapshot.source.immutableRevision == row.immutableRevision
    && snapshot.config.configFingerprint == row.configFingerprint
    && normalizedContractContent snapshot == row.contentSha256
    && snapshotIdentity snapshot == row.identitySha256

/-- `authorizedSnapshot`: the stored snapshot, if the principal holds its scopes. -/
def authorizedSnapshot (host : Host) (principalId snapshotId : String) :
    Except OpenApiStorageError SnapshotRow := do
  let row ← orRaise (db.rows.snapshots.find? snapshotId) .notFoundOrDenied
  require (row.requiredScopeIds ≠ []) .corruptStorage
  require (db.hasExactScopes principalId row.requiredScopeIds = true) .notFoundOrDenied
  require (isIntact host row = true) .corruptStorage
  return row

/-! ### Publishing -/

/-- `INSERT INTO openapi_artifacts ... ON CONFLICT DO NOTHING`. -/
def insertArtifact (contentSha256 : String) (bytes : List UInt8) : PublicationDb :=
  match db.artifacts contentSha256 with
  | some _ => db
  | none => { db with artifacts := Function.update db.artifacts contentSha256 (some bytes) }

/-- `INSERT INTO openapi_publications ... ON CONFLICT DO NOTHING`. -/
def insertPublication (publicationId : String) (row : PublicationRow) : PublicationDb :=
  match db.publications publicationId with
  | some _ => db
  | none => { db with publications := Function.update db.publications publicationId (some row) }

/-- The version of a current pointer, zero while there is none. -/
def pointerVersion (key : PublicationKey) : ℕ :=
  (db.currentPointers key).elim 0 CurrentPointer.pointerVersion

/-- Point the key to a publication, under the next version. -/
def setPointer (key : PublicationKey) (publicationId : String) : PublicationDb :=
  { db with
    currentPointers := Function.update db.currentPointers key
      (some ⟨publicationId, db.pointerVersion key + 1⟩) }

structure Manifest where
  publicationId : String
  bytes : List UInt8
  row : PublicationRow

/-- The published document of a manifest. -/
def Manifest.published (manifest : Manifest) (pointerVersion : ℕ) : PublishedOpenApi where
  publicationId := manifest.publicationId
  contentSha256 := manifest.row.contentSha256
  pointerVersion := pointerVersion
  bytes := manifest.bytes
  snapshotId := manifest.row.snapshotId

/-- Move the current pointer to a publication, unless it is there already. -/
def promotePublication (manifest : Manifest) (expected : ExpectedPublicationPointer) :
    Except OpenApiStorageError (PublicationDb × PublishedOpenApi) := do
  let ⟨id, bytes, row⟩ := manifest
  if (db.currentPointers row.key).any (·.publicationId == id) then
    require (db.artifacts row.contentSha256 = some bytes) .corruptStorage
    return (db, manifest.published (db.pointerVersion row.key))
  else
    require (expected.agrees (db.currentPointers row.key) = true) .stalePointer
    let stored := db.insertArtifact row.contentSha256 bytes
    require (stored.artifacts row.contentSha256 = some bytes) .corruptStorage
    return ((stored.insertPublication id row).setPointer row.key id,
      manifest.published (db.pointerVersion row.key + 1))

def publicationRow (preparation : Preparation) (contentSha256 : String)
    (environmentScopeIds : Option (List String)) (stored : SnapshotRow) : PublicationRow :=
  let p := preparation.provenance
  { key := p.selector.key
    branchPointerVersion := match p.selector with
      | .branch _ _ pointerVersion => some pointerVersion
      | _ => none
    environmentCheckpointVersion := match p.selector with
      | .environment selector => some selector.checkpointVersion
      | _ => none
    environmentScopeIds
    snapshotId := p.selector.base.snapshotId
    immutableRevision := p.selector.base.revision
    configVersion := p.configVersion
    configFingerprint := p.selector.base.configFingerprint
    sourceDigest := p.sourceDigest
    snapshotContentSha256 := stored.contentSha256
    contentSha256 }

/-- The checks of `publish`, and what it writes. -/
def checkedManifest (tools : Toolchain) (context : Principal) (prepared : Preparation)
    (expected : ExpectedPublicationPointer) : Except OpenApiStorageError Manifest := do
  require (context.tenantId ≠ "" ∧ context.principalId ≠ "") .invalidPublication
  require (prepared.mode = .strict ∧ prepared.publishable = true ∧ prepared.diagnostics = [])
    .invalidPublication
  let contentSha256 ← orRaise prepared.contentSha256 .invalidPublication
  let bytes ← orRaise prepared.bytes .invalidPublication
  let selector := prepared.provenance.selector
  require (selector.key.isValid = true ∧ selector.pinnedVersion.all isVersion = true ∧
    expected.isValid = true ∧ tools.sha256 bytes = contentSha256) .invalidPublication
  let scopeIds ← db.checkPin tools context.principalId selector
  let stored ← db.authorizedSnapshot tools.host context.principalId selector.base.snapshotId
  let checked ← orRaise (prepareOpenApiPublication tools stored.document .strict selector)
    .storageError
  require (checked.publishable = true ∧ checked.contentSha256 = some contentSha256 ∧
    checked.bytes = some bytes ∧ checked.provenance = prepared.provenance) .invalidPublication
  require (isValidated tools checked = true) .invalidPublication
  return ⟨publicationId tools context.tenantId checked, bytes,
    publicationRow checked contentSha256 scopeIds stored⟩

/-- Publish a preparation under the key of its selector. -/
def publish (tools : Toolchain) (context : Principal) (prepared : Preparation)
    (expected : ExpectedPublicationPointer) :
    Except OpenApiStorageError (PublicationDb × PublishedOpenApi) := do
  let manifest ← db.checkedManifest tools context prepared expected
  db.promotePublication manifest expected

/-! ### Reading -/

def manifestSelector (row : PublicationRow) : Option PublicationSelector :=
  let base : SelectorBase :=
    ⟨row.key.repositoryId, row.key.serviceId, row.snapshotId, row.immutableRevision,
      row.configFingerprint⟩
  match row.key.kind, row.branchPointerVersion, row.environmentCheckpointVersion with
  | .revision, none, none =>
    if row.key.value = row.immutableRevision then some (.revision base) else none
  | .branch, some version, none =>
    if row.key.value ≠ "" ∧ isVersion version = true then
      some (.branch base row.key.value version) else none
  | .environment, none, some version =>
    if row.key.value ≠ "" ∧ isVersion version = true then
      some (.environment
        { repositoryId := row.key.repositoryId
          serviceId := row.key.serviceId
          snapshotId := row.snapshotId
          revision := row.immutableRevision
          configFingerprint := row.configFingerprint
          environment := row.key.value
          checkpointVersion := version
          resolvedSnapshotIds := [row.snapshotId] })
    else none
  | _, _, _ => none

/-- The pin of a stored publication is the current one. -/
def checkStoredPin (tools : Toolchain) (principalId : String) (row : PublicationRow) :
    Except OpenApiStorageError Unit :=
  match row.key.kind with
  | .revision => .ok ()
  | .branch => do
    let pointer ← db.branchPointer row.key.branch
    require (pointer.snapshotId = row.snapshotId ∧
      some (toString pointer.pointerVersion) = row.branchPointerVersion) .stalePointer
  | .environment => do
    let scopeIds ← db.environmentScopes tools principalId
      { repositoryId := row.key.repositoryId
        serviceId := row.key.serviceId
        snapshotId := row.snapshotId
        revision := row.immutableRevision
        configFingerprint := row.configFingerprint
        environment := row.key.value
        checkpointVersion := row.environmentCheckpointVersion.getD ""
        resolvedSnapshotIds := [row.snapshotId] }
    require (row.environmentScopeIds = some scopeIds) .corruptStorage

/-- `verifyPublication`: the columns repeat the snapshot. -/
def verifyPublication (row : PublicationRow) (stored : SnapshotRow) : Bool :=
  let snapshot := stored.document
  row.key.repositoryId == snapshot.service.repositoryId
    && row.key.serviceId == snapshot.service.serviceId
    && row.immutableRevision == snapshot.source.immutableRevision
    && row.configVersion == snapshot.config.configVersion
    && row.configFingerprint == snapshot.config.configFingerprint
    && row.sourceDigest == snapshot.source.sourceDigest
    && row.snapshotContentSha256 == stored.contentSha256

/-- `verifyManifest`: the publication is what the snapshot compiles to under its selector. -/
def verifyManifest (tools : Toolchain) (tenantId : String) (manifest : Manifest)
    (snapshot : ContractSnapshot) : Except OpenApiStorageError PublicationSelector := do
  let selector ← orRaise (manifestSelector manifest.row) .corruptStorage
  let checked ← orRaise (prepareOpenApiPublication tools snapshot .strict selector)
    .corruptStorage
  require (checked.publishable = true ∧ checked.contentSha256 = some manifest.row.contentSha256 ∧
    checked.bytes = some manifest.bytes ∧
    publicationId tools tenantId checked = manifest.publicationId ∧
    isValidated tools checked = true) .corruptStorage
  return selector

/-- The publication that the current pointer of a key joins with. -/
def currentManifest (key : PublicationKey) : Option Manifest := do
  let current ← db.currentPointers key
  let row ← (db.publications current.publicationId).filter (·.key == key)
  let bytes ← db.artifacts row.contentSha256
  return ⟨current.publicationId, bytes, row⟩

structure ValidatedOpenApiRead where
  publication : PublishedOpenApi
  snapshot : ContractSnapshot
  selector : PublicationSelector

/-- `readCurrentOpenApiWithClient`: the current publication of a key. -/
def readCurrent (tools : Toolchain) (context : Principal) (key : PublicationKey) :
    Except OpenApiStorageError ValidatedOpenApiRead := do
  require (context.tenantId ≠ "" ∧ context.principalId ≠ "") .invalidPublication
  require (key.isValid = true) .invalidPublication
  let manifest ← orRaise (db.currentManifest key) .notFoundOrDenied
  db.checkStoredPin tools context.principalId manifest.row
  let stored ← db.authorizedSnapshot tools.host context.principalId manifest.row.snapshotId
  require (verifyPublication manifest.row stored = true) .corruptStorage
  let selector ← verifyManifest tools context.tenantId manifest stored.document
  require (stored.document.service.repositoryId = key.repositoryId ∧
    stored.document.service.serviceId = key.serviceId ∧
    (key.kind = .revision → stored.document.source.immutableRevision = key.value)) .corruptStorage
  require (tools.sha256 manifest.bytes = manifest.row.contentSha256) .corruptStorage
  return ⟨manifest.published (db.pointerVersion key), stored.document, selector⟩

end PublicationDb

end ApiTruth.OpenApi
