import ApiTruth.Catalog.BranchPointer
import ApiTruth.Foundation.Json.Members
import ApiTruth.Foundation.Runs

/-!
# Ingestion of analyzer results

The catalog keeps the whole document of a snapshot beside the columns that repeat parts of it and
two digests.  A later result for the same snapshot id is accepted when it repeats what is stored.

Documents are JSON values.  The parsers, the digest and the round trip of a document through the
database are given from outside.

## Main definitions

* `contractSnapshotFromAnalyzerResult` : the snapshot document of an analyzer result.
* `DocumentStore.ingestAnalyzerResult` : store a document, or verify the one stored under its id.
* `DocumentRow.Repeats` : a converted result repeats what a row stores.

## Main results

* `DocumentStore.Step.rows_eq` : a step keeps every stored row.
* `DocumentStore.ingestAnalyzerResult_of_stored` : what a later ingestion answers.
-/

namespace ApiTruth.Catalog

open Checked List Option

/-! ### Results of an analyzer -/

/-- The `status` of an analyzer result. -/
inductive AnalyzerResultStatus
  | success
  | partialResult
  | failed
deriving DecidableEq, Repr

/-- The `source` of an analyzer result. -/
structure AnalyzerResultSource where
  repositoryId : String
  serviceId : String
  serviceRoot : String
  immutableRevision : String
  sourceDigest : String
  accessLabel : String
deriving DecidableEq, Repr

/-- The parts of an analyzer result that the catalog reads.  What it hands on unread is a JSON
value. -/
structure AnalyzerResult where
  status : AnalyzerResultStatus
  irVersion : String
  identityVersion : String
  snapshotId : String
  source : AnalyzerResultSource
  analyzer : Json
  completedAt : String
  coverage : Json
  evidence : List Json
  schemas : Json
  securitySchemes : Option Json
  endpoints : Json
  claims : Json
  dependencies : Json
  diagnostics : Json
deriving DecidableEq

def memberAt (names : List String) (value : Json) : Json :=
  names.foldl (fun value name => value.member name) value

def nonEmptyString : Json → Option String
  | .str s => if s = "" then none else some s
  | _ => none

namespace AnalyzerResultStatus

def ofJson : Json → Option AnalyzerResultStatus
  | .str "success" => some .success
  | .str "partial" => some .partialResult
  | .str "failed" => some .failed
  | _ => none

end AnalyzerResultStatus

def AnalyzerResult.ofJson (input : Json) : Option AnalyzerResult := do
  let text (names : List String) := nonEmptyString (memberAt names input)
  let status ← AnalyzerResultStatus.ofJson (input.member "status")
  let irVersion ← text ["ir_version"]
  let identityVersion ← text ["identity_version"]
  let snapshotId ← text ["snapshot_id"]
  let repositoryId ← text ["source", "repository_id"]
  let serviceId ← text ["source", "service_id"]
  let serviceRoot ← text ["source", "service_root"]
  let immutableRevision ← text ["source", "immutable_revision"]
  let sourceDigest ← text ["source", "source_digest"]
  let accessLabel ← text ["source", "access_label"]
  let completedAt ← text ["completed_at"]
  return {
    status, irVersion, identityVersion, snapshotId, completedAt
    source := { repositoryId, serviceId, serviceRoot, immutableRevision, sourceDigest, accessLabel }
    analyzer := input.member "analyzer"
    coverage := input.member "coverage"
    evidence := (input.member "evidence").items
    schemas := input.member "schemas"
    securitySchemes := input.members.lookup "security_schemes"
    endpoints := input.member "endpoints"
    claims := input.member "claims"
    dependencies := input.member "dependencies"
    diagnostics := input.member "diagnostics" }

inductive IngestionError
  | invalidCatalogInput
  | invalidSnapshot
  | snapshotIneligible
  | catalog (error : CatalogError)
deriving DecidableEq, Repr

structure CatalogHost where
  /-- `parseAnalyzerResult(result).ok`. -/
  acceptsAnalyzerResult : Json → Bool
  /-- `parseContractSnapshot(document).ok`. -/
  parseContractSnapshot : Json → Bool
  /-- The hexadecimal SHA-256 digest of a text. -/
  sha256 : String → String
  /-- The document that the database returns for a stored one. -/
  jsonb : Json → Json

/-- Digests do not collide, the database returns the value that was stored, and validation does
not look at the order of members. -/
structure CatalogHost.Faithful (host : CatalogHost) : Prop where
  sha256_injective : Function.Injective host.sha256
  canon_jsonb : ∀ document, Json.canon (host.jsonb document) = Json.canon document
  parse_congr : ∀ {i j}, Json.canon i = Json.canon j →
    host.parseContractSnapshot i = host.parseContractSnapshot j

/-! ### Scopes and digests -/

/-- `canonicalScopeIds` : at least one scope, each with a name, in the order of their bytes. -/
def canonicalScopeIds (values : List Json) : Option (List String) := do
  let scopes ← values.mapM nonEmptyString
  if scopes = [] then none else some (canonicalSet scopes)

variable (host : CatalogHost)

def parseAnalyzerResult (input : Json) : Option AnalyzerResult :=
  if host.acceptsAnalyzerResult input then AnalyzerResult.ofJson input else none

def sha256Canonical (value : Json) : String := "sha256:" ++ host.sha256 (Json.canonicalJson value)

/-- `normalizedContractContent`. -/
def normalizedDocument (snapshot : Json) : Json := snapshot.without "created_at"

def snapshotContentSha256 (snapshot : Json) : String :=
  sha256Canonical host (normalizedDocument snapshot)

/-- What `snapshotIdentitySha256` hashes. -/
def documentIdentity (snapshot : Json) : Json :=
  .obj [("snapshot_id", memberAt ["snapshot_id"] snapshot),
    ("repository_id", memberAt ["service", "repository_id"] snapshot),
    ("service_id", memberAt ["service", "service_id"] snapshot),
    ("immutable_revision", memberAt ["source", "immutable_revision"] snapshot),
    ("analyzer", memberAt ["analyzer"] snapshot),
    ("ir_version", memberAt ["ir_version"] snapshot),
    ("identity_version", memberAt ["identity_version"] snapshot),
    ("config_fingerprint", memberAt ["config", "config_fingerprint"] snapshot)]

def snapshotIdentitySha256 (snapshot : Json) : String :=
  sha256Canonical host (documentIdentity snapshot)

/-! ### Conversion -/

/-- `CONFIG_VERSION`. -/
def configVersion : String := "1.0.0"

/-- The columns of `catalog_snapshots` that repeat members of the document. -/
structure DocumentColumns where
  snapshotId : String
  repositoryId : String
  serviceId : String
  immutableRevision : String
  irVersion : String
  identityVersion : String
  configFingerprint : String
deriving DecidableEq, Repr

/-- What `contractSnapshotFromAnalyzerResult` returns, with the columns read off the snapshot. -/
structure ConvertedDocument where
  columns : DocumentColumns
  snapshot : Json
  requiredScopeIds : List String
  analyzerStatus : AnalyzerStatus
deriving DecidableEq

namespace AnalyzerResult

variable (result : AnalyzerResult)

def storedStatus : Option AnalyzerStatus :=
  match result.status with
  | .success => some .success
  | .partialResult => some .partialResult
  | .failed => none

/-- The scopes of the source and of every piece of evidence. -/
def accessLabels : List Json :=
  .str result.source.accessLabel :: result.evidence.map (·.member "access_label")

def columns (configFingerprint : String) : DocumentColumns where
  snapshotId := result.snapshotId
  repositoryId := result.source.repositoryId
  serviceId := result.source.serviceId
  immutableRevision := result.source.immutableRevision
  irVersion := result.irVersion
  identityVersion := result.identityVersion
  configFingerprint

def document (configFingerprint : String) : Json :=
  .obj ([("ir_version", .str result.irVersion),
    ("identity_version", .str result.identityVersion),
    ("snapshot_id", .str result.snapshotId),
    ("service", .obj [("service_id", .str result.source.serviceId),
      ("repository_id", .str result.source.repositoryId),
      ("root", .str result.source.serviceRoot)]),
    ("source", .obj [("repository_id", .str result.source.repositoryId),
      ("immutable_revision", .str result.source.immutableRevision),
      ("source_digest", .str result.source.sourceDigest)]),
    ("analyzer", result.analyzer),
    ("config", .obj [("config_version", .str configVersion),
      ("config_fingerprint", .str configFingerprint)]),
    ("created_at", .str result.completedAt),
    ("coverage", result.coverage),
    ("evidence", .arr result.evidence),
    ("schemas", result.schemas)]
    ++ (result.securitySchemes.map ("security_schemes", ·)).toList
    ++ [("endpoints", result.endpoints),
      ("claims", result.claims),
      ("editorial_reviews", .arr []),
      ("export_eligibility", .arr []),
      ("dependencies", result.dependencies),
      ("diagnostics", result.diagnostics)])

end AnalyzerResult

def contractSnapshotFromAnalyzerResult (input : Json) (configFingerprint : String) :
    Except IngestionError ConvertedDocument := do
  let result ← orRaise (parseAnalyzerResult host input) .invalidSnapshot
  let status ← orRaise result.storedStatus .snapshotIneligible
  let scopes ← orRaise (canonicalScopeIds result.accessLabels) .invalidCatalogInput
  require (host.parseContractSnapshot (result.document configFingerprint) = true) .invalidSnapshot
  return {
    columns := result.columns configFingerprint
    snapshot := result.document configFingerprint
    requiredScopeIds := scopes
    analyzerStatus := status }

/-- The members of a document that its columns repeat. -/
def DocumentColumns.match (columns : DocumentColumns) (snapshot : Json) : Bool :=
  decide (memberAt ["snapshot_id"] snapshot = .str columns.snapshotId)
    && decide (memberAt ["service", "repository_id"] snapshot = .str columns.repositoryId)
    && decide (memberAt ["source", "repository_id"] snapshot = .str columns.repositoryId)
    && decide (memberAt ["service", "service_id"] snapshot = .str columns.serviceId)
    && decide (memberAt ["source", "immutable_revision"] snapshot = .str columns.immutableRevision)
    && decide (memberAt ["ir_version"] snapshot = .str columns.irVersion)
    && decide (memberAt ["identity_version"] snapshot = .str columns.identityVersion)
    && decide (memberAt ["config", "config_fingerprint"] snapshot = .str columns.configFingerprint)

/-! ### Rows -/

/-- A row of `catalog_snapshots`. -/
structure DocumentRow where
  columns : DocumentColumns
  analyzerStatus : AnalyzerStatus
  identitySha256 : String
  contentSha256 : String
  requiredScopeIds : List String
  document : Json
deriving DecidableEq

/-- The coverage of a document is the one of the status it is stored with. -/
def statusMatchesCoverage (status : AnalyzerStatus) (snapshot : Json) : Bool :=
  match status with
  | .success => decide (memberAt ["coverage", "status"] snapshot = .str "complete")
  | .partialResult => decide (memberAt ["coverage", "status"] snapshot = .str "incomplete")

/-- The row inserted for a converted document.  The column of the document is `jsonb`. -/
def documentRow (converted : ConvertedDocument) : DocumentRow where
  columns := converted.columns
  analyzerStatus := converted.analyzerStatus
  identitySha256 := snapshotIdentitySha256 host converted.snapshot
  contentSha256 := snapshotContentSha256 host converted.snapshot
  requiredScopeIds := converted.requiredScopeIds
  document := host.jsonb converted.snapshot

/-- `verifyStoredSnapshotRow`. -/
def verifyStoredDocumentRow (row : DocumentRow) : Bool :=
  host.parseContractSnapshot row.document
    && decide (canonicalScopeIds (row.requiredScopeIds.map .str) = some row.requiredScopeIds)
    && row.columns.match row.document
    && statusMatchesCoverage row.analyzerStatus row.document
    && decide (snapshotIdentitySha256 host row.document = row.identitySha256)
    && decide (snapshotContentSha256 host row.document = row.contentSha256)

/-- A converted document repeats what a row stores: the digest of the identity, the content apart
from `created_at`, the status and the scopes. -/
structure DocumentRow.Repeats (row : DocumentRow) (converted : ConvertedDocument) : Prop where
  identity : snapshotIdentitySha256 host row.document =
    snapshotIdentitySha256 host converted.snapshot
  content : Json.canon (row.document.without "created_at") =
    Json.canon (converted.snapshot.without "created_at")
  status : row.analyzerStatus = converted.analyzerStatus
  scopes : ∀ scope, scope ∈ row.requiredScopeIds ↔ scope ∈ converted.requiredScopeIds

/-! ### Ingestion -/

/-- The input of `ingestAnalyzerResult`. -/
structure IngestAnalyzerResultInput where
  tenantId : String
  result : Json
  configFingerprint : String

/-- What `ingestAnalyzerResult` returns. -/
structure DocumentWriteResult where
  outcome : WriteOutcome
  snapshotId : String
  contentSha256 : String
  requiredScopeIds : List String
deriving DecidableEq, Repr

/-- The rows of the snapshots and of the access scopes, by tenant and id. -/
structure DocumentStore where
  /-- `active` of an access scope that exists. -/
  scopes : String → String → Option Bool
  documents : String → String → Option DocumentRow

namespace DocumentStore

variable (store : DocumentStore)

/-- The rows with a document row put in its place. -/
def put (tenantId : String) (row : DocumentRow) : DocumentStore :=
  { store with
    documents := fun tenant id =>
      if tenant = tenantId ∧ id = row.columns.snapshotId then some row
      else store.documents tenant id }

/-- `lockRequiredScopes` : every scope exists and is active. -/
def ActiveScopes (tenantId : String) (requiredScopeIds : List String) : Prop :=
  ∀ scope ∈ requiredScopeIds, store.scopes tenantId scope = some true

instance (tenantId : String) (requiredScopeIds : List String) :
    Decidable (store.ActiveScopes tenantId requiredScopeIds) :=
  inferInstanceAs (Decidable (∀ scope ∈ requiredScopeIds, _))

/-- The stored row is read back, verified and compared with the row of the result. -/
def answerFrom (tenantId : String) (stored row : DocumentRow) (outcome : WriteOutcome) :
    Except IngestionError (DocumentStore × DocumentWriteResult) := do
  require (verifyStoredDocumentRow host stored = true) (.catalog .storageError)
  require (stored.identitySha256 = row.identitySha256 ∧ stored.contentSha256 = row.contentSha256
    ∧ stored.analyzerStatus = row.analyzerStatus
    ∧ stored.requiredScopeIds = row.requiredScopeIds) (.catalog .snapshotIdentityConflict)
  return (store.put tenantId stored,
    ⟨outcome, row.columns.snapshotId, row.contentSha256, row.requiredScopeIds⟩)

/-- `ingestAnalyzerResult` : a row that is in the way is left as it is. -/
def ingestAnalyzerResult (input : IngestAnalyzerResultInput) :
    Except IngestionError (DocumentStore × DocumentWriteResult) := do
  require (input.tenantId ≠ "" ∧ input.configFingerprint ≠ "") .invalidCatalogInput
  let converted ← contractSnapshotFromAnalyzerResult host input.result input.configFingerprint
  require (store.ActiveScopes input.tenantId converted.requiredScopeIds)
    (.catalog .unknownAccessScope)
  let row := documentRow host converted
  match store.documents input.tenantId row.columns.snapshotId with
  | some stored => store.answerFrom host input.tenantId stored row .existing
  | none => store.answerFrom host input.tenantId row row .inserted

end DocumentStore

/-! ### Digests of equal documents -/

variable {i j : Json}

section

variable (h : Json.canon i = Json.canon j)
include h

theorem canon_memberAt (names : List String) :
    Json.canon (memberAt names i) = Json.canon (memberAt names j) := by
  induction names generalizing i j with
  | nil => exact h
  | cons name names ih => exact ih (Json.canon_member h name)

theorem memberAt_eq_str_congr
    (names : List String) (s : String) : memberAt names i = .str s ↔ memberAt names j = .str s := by
  have hcanon := canon_memberAt h names
  constructor
  · intro hi
    rw [hi] at hcanon
    exact Json.eq_str_of_canon_eq hcanon.symm
  · intro hj
    rw [hj] at hcanon
    exact Json.eq_str_of_canon_eq hcanon

theorem canon_documentIdentity :
    Json.canon (documentIdentity i) = Json.canon (documentIdentity j) := by
  simp only [documentIdentity, Json.canon_obj, map_cons, map_nil, canon_memberAt h]

theorem canon_normalizedDocument :
    Json.canon (normalizedDocument i) = Json.canon (normalizedDocument j) := by
  rw [normalizedDocument, normalizedDocument, Json.canon_without, Json.canon_without, h]

theorem DocumentColumns.match_congr
    (columns : DocumentColumns) : columns.match i = columns.match j := by
  simp only [DocumentColumns.match, memberAt_eq_str_congr h]

theorem statusMatchesCoverage_congr
    (status : AnalyzerStatus) : statusMatchesCoverage status i = statusMatchesCoverage status j := by
  cases status <;> simp only [statusMatchesCoverage, memberAt_eq_str_congr h]

end

/-! ### Canonical scopes -/

theorem mapM_nonEmptyString_str {scopes strings : List String}
    (h : (scopes.map Json.str).mapM nonEmptyString = some strings) : strings = scopes := by
  induction scopes generalizing strings with
  | nil => simpa using h.symm
  | cons scope scopes ih =>
    simp only [map_cons, mapM_cons, nonEmptyString] at h
    by_cases hscope : scope = ""
    · simp [hscope] at h
    · rw [if_neg hscope] at h
      cases hrest : (scopes.map Json.str).mapM nonEmptyString with
      | none => simp [hrest] at h
      | some rest =>
        obtain rfl := ih hrest
        simpa [hrest] using h.symm

variable {scopes : List String}

theorem canonicalSet_of_canonicalScopeIds
    (h : canonicalScopeIds (scopes.map .str) = some scopes) : canonicalSet scopes = scopes := by
  simp only [canonicalScopeIds, bind_eq_bind, bind_eq_some_iff] at h
  obtain ⟨strings, hstrings, hset⟩ := h
  obtain rfl := mapM_nonEmptyString_str hstrings
  split_ifs at hset
  exact Option.some.inj hset

theorem canonicalSet_of_canonicalScopeIds_eq {values : List Json}
    (h : canonicalScopeIds values = some scopes) : canonicalSet scopes = scopes := by
  simp only [canonicalScopeIds, bind_eq_bind, bind_eq_some_iff] at h
  obtain ⟨strings, -, hset⟩ := h
  split_ifs at hset
  cases hset
  exact canonicalSet_canonicalSet strings

section Faithful

variable {host : CatalogHost}

theorem sha256Canonical_eq_iff (hhost : host.Faithful) :
    sha256Canonical host i = sha256Canonical host j ↔ Json.canon i = Json.canon j := by
  rw [sha256Canonical, sha256Canonical, String.append_right_inj, hhost.sha256_injective.eq_iff,
    Json.canonicalJson_inj]

variable {converted : ConvertedDocument}

theorem contractSnapshotFromAnalyzerResult_eq_ok {input : Json} {configFingerprint : String}
    (h : contractSnapshotFromAnalyzerResult host input configFingerprint = .ok converted) :
    canonicalSet converted.requiredScopeIds = converted.requiredScopeIds ∧
      host.parseContractSnapshot converted.snapshot = true ∧
      converted.columns.match converted.snapshot = true := by
  simp only [contractSnapshotFromAnalyzerResult, orRaise_bind_eq_ok, require_bind_eq_ok,
    pure_eq_ok] at h
  obtain ⟨result, -, status, -, scopes, hscopes, hparse, rfl⟩ := h
  refine ⟨canonicalSet_of_canonicalScopeIds_eq hscopes, hparse, ?_⟩
  simp [DocumentColumns.match, AnalyzerResult.document, AnalyzerResult.columns, memberAt,
    Json.member, OrderedMap.lookup_cons_ite]

theorem DocumentRow.repeats_iff (hhost : host.Faithful) {row : DocumentRow}
    (hrow : verifyStoredDocumentRow host row = true)
    (hscopes : canonicalSet converted.requiredScopeIds = converted.requiredScopeIds) :
    row.Repeats host converted ↔
      row.identitySha256 = (documentRow host converted).identitySha256 ∧
      row.contentSha256 = (documentRow host converted).contentSha256 ∧
      row.analyzerStatus = (documentRow host converted).analyzerStatus ∧
      row.requiredScopeIds = (documentRow host converted).requiredScopeIds := by
  simp only [verifyStoredDocumentRow, Bool.and_eq_true, decide_eq_true_eq] at hrow
  obtain ⟨⟨⟨⟨⟨-, hrowScopes⟩, -⟩, -⟩, hidentity⟩, hcontent⟩ := hrow
  have hset := canonicalSet_of_canonicalScopeIds hrowScopes
  rw [← hidentity, ← hcontent]
  have hscopesIff : row.requiredScopeIds = converted.requiredScopeIds ↔
      ∀ scope, scope ∈ row.requiredScopeIds ↔ scope ∈ converted.requiredScopeIds := by
    rw [← canonicalSet_eq_iff, hset, hscopes]
  constructor
  · rintro ⟨hid, hbody, hstatus, hmem⟩
    exact ⟨hid, (sha256Canonical_eq_iff hhost).mpr hbody, hstatus, hscopesIff.mpr hmem⟩
  · rintro ⟨hid, hbody, hstatus, hmem⟩
    exact ⟨hid, (sha256Canonical_eq_iff hhost).mp hbody, hstatus, hscopesIff.mp hmem⟩

theorem verifyStoredDocumentRow_documentRow (hhost : host.Faithful)
    (hparse : host.parseContractSnapshot converted.snapshot = true)
    (hcolumns : converted.columns.match converted.snapshot = true)
    (hscopes : canonicalScopeIds (converted.requiredScopeIds.map .str) =
      some converted.requiredScopeIds)
    (hstatus : statusMatchesCoverage converted.analyzerStatus converted.snapshot = true) :
    verifyStoredDocumentRow host (documentRow host converted) = true := by
  have hcanon := hhost.canon_jsonb converted.snapshot
  simp only [verifyStoredDocumentRow, documentRow, Bool.and_eq_true]
  refine ⟨⟨⟨⟨⟨?_, decide_eq_true hscopes⟩, ?_⟩, ?_⟩, ?_⟩, ?_⟩
  · rw [hhost.parse_congr hcanon, hparse]
  · rw [DocumentColumns.match_congr hcanon, hcolumns]
  · rw [statusMatchesCoverage_congr hcanon, hstatus]
  · exact decide_eq_true ((sha256Canonical_eq_iff hhost).mpr (canon_documentIdentity hcanon))
  · exact decide_eq_true ((sha256Canonical_eq_iff hhost).mpr (canon_normalizedDocument hcanon))

end Faithful

namespace DocumentStore

/-! ### Histories -/

/-- What happens to the catalog: an ingestion with its answer, or a change of an access scope. -/
inductive DocumentAction
  | ingest (input : IngestAnalyzerResultInput)
      (answer : Except IngestionError DocumentWriteResult)
  | setScope (tenantId scope : String) (active : Option Bool)

/-- One action.  An ingestion that raises is rolled back. -/
inductive Step : DocumentStore → DocumentAction → DocumentStore → Prop
  | ingested {store store' : DocumentStore} {input : IngestAnalyzerResultInput}
      {result : DocumentWriteResult} :
      store.ingestAnalyzerResult host input = .ok (store', result) →
      Step store (.ingest input (.ok result)) store'
  | refused {store : DocumentStore} {input : IngestAnalyzerResultInput} {error : IngestionError} :
      store.ingestAnalyzerResult host input = .error error →
      Step store (.ingest input (.error error)) store
  | setScope (store : DocumentStore) (tenantId scope : String) (active : Option Bool) :
      Step store (.setScope tenantId scope active)
        { store with scopes := fun tenant id =>
            if tenant = tenantId ∧ id = scope then active else store.scopes tenant id }

/-- The document that an action has had accepted for a tenant and a snapshot id. -/
def acceptedDocument (tenantId snapshotId : String) : DocumentAction → Option ConvertedDocument
  | .ingest input (.ok result) =>
    if input.tenantId = tenantId ∧ result.snapshotId = snapshotId then
      (contractSnapshotFromAnalyzerResult host input.result input.configFingerprint).toOption
    else none
  | _ => none

/-- Every stored row reads back under its own id. -/
def RowsVerified (store : DocumentStore) : Prop :=
  ∀ tenantId snapshotId row, store.documents tenantId snapshotId = some row →
    row.columns.snapshotId = snapshotId ∧ verifyStoredDocumentRow host row = true

variable {host} {store store' : DocumentStore} {input : IngestAnalyzerResultInput}

variable {tenantId : String} {result : DocumentWriteResult} {action : DocumentAction}
  {actions : List DocumentAction}

theorem put_of_stored {row : DocumentRow}
    (h : store.documents tenantId row.columns.snapshotId = some row) :
    store.put tenantId row = store := by
  have hdocuments : (store.put tenantId row).documents = store.documents := by
    funext tenant id
    show (if tenant = tenantId ∧ id = row.columns.snapshotId then some row
      else store.documents tenant id) = _
    split_ifs with hkey
    · rw [hkey.1, hkey.2, h]
    · rfl
  show (⟨store.scopes, (store.put tenantId row).documents⟩ : DocumentStore) = store
  rw [hdocuments]

theorem answerFrom_eq_ok {stored row : DocumentRow} {outcome : WriteOutcome}
    (h : store.answerFrom host tenantId stored row outcome = .ok (store', result)) :
    result.snapshotId = row.columns.snapshotId ∧ verifyStoredDocumentRow host stored = true ∧
      store' = store.put tenantId stored := by
  simp only [answerFrom, require_bind_eq_ok, pure_eq_ok, Prod.mk.injEq] at h
  obtain ⟨hverify, -, rfl, rfl⟩ := h
  exact ⟨rfl, hverify, rfl⟩

theorem ingestAnalyzerResult_eq_ok
    (h : store.ingestAnalyzerResult host input = .ok (store', result)) :
    ∃ converted,
      contractSnapshotFromAnalyzerResult host input.result input.configFingerprint =
        .ok converted ∧
      result.snapshotId = converted.columns.snapshotId ∧
      ∃ stored, stored = (store.documents input.tenantId converted.columns.snapshotId).getD
          (documentRow host converted) ∧
        verifyStoredDocumentRow host stored = true ∧
        store' = store.put input.tenantId stored := by
  simp only [ingestAnalyzerResult, require_bind_eq_ok] at h
  obtain ⟨-, hconvert⟩ := h
  obtain ⟨converted, hconverted, h⟩ := bind_eq_ok.mp hconvert
  simp only [require_bind_eq_ok] at h
  obtain ⟨-, h⟩ := h
  refine ⟨converted, hconverted, ?_⟩
  have hrow : (documentRow host converted).columns.snapshotId = converted.columns.snapshotId := rfl
  rw [hrow] at h
  cases hstored : store.documents input.tenantId converted.columns.snapshotId with
  | none =>
    rw [hstored] at h
    obtain ⟨hid, hverify, rfl⟩ := answerFrom_eq_ok h
    exact ⟨hid, _, rfl, hverify, rfl⟩
  | some stored =>
    rw [hstored] at h
    obtain ⟨hid, hverify, rfl⟩ := answerFrom_eq_ok h
    exact ⟨hid, _, rfl, hverify, rfl⟩

/-- What one action does to the rows: those that are stored stay, and an accepted document takes
a free place. -/
theorem Step.documents_eq (hstep : Step host store action store')
    (hrows : store.RowsVerified host) (tenantId snapshotId : String) :
    store'.documents tenantId snapshotId = (store.documents tenantId snapshotId).or
      ((acceptedDocument host tenantId snapshotId action).map (documentRow host)) := by
  cases hstep with
  | @ingested _ input result h =>
    obtain ⟨converted, hconverted, hid, stored, hstored, -, rfl⟩ := ingestAnalyzerResult_eq_ok h
    have haccepted : acceptedDocument host tenantId snapshotId (.ingest input (.ok result)) =
        if input.tenantId = tenantId ∧ converted.columns.snapshotId = snapshotId
        then some converted else none := by
      rw [acceptedDocument, hid, hconverted]
      rfl
    have hcolumns : stored.columns.snapshotId = converted.columns.snapshotId := by
      cases hrow : store.documents input.tenantId converted.columns.snapshotId with
      | none =>
        rw [hstored, hrow]
        rfl
      | some row =>
        rw [hstored, hrow]
        exact (hrows _ _ _ hrow).1
    rw [haccepted]
    show (if tenantId = input.tenantId ∧ snapshotId = stored.columns.snapshotId then some stored
      else store.documents tenantId snapshotId) = _
    rw [hcolumns]
    by_cases hkey : tenantId = input.tenantId ∧ snapshotId = converted.columns.snapshotId
    · obtain ⟨rfl, rfl⟩ := hkey
      rw [if_pos ⟨rfl, rfl⟩, if_pos ⟨rfl, rfl⟩, hstored]
      cases store.documents input.tenantId converted.columns.snapshotId <;> rfl
    · have hkey' : ¬ (input.tenantId = tenantId ∧ converted.columns.snapshotId = snapshotId) :=
        fun h => hkey ⟨h.1.symm, h.2.symm⟩
      rw [if_neg hkey, if_neg hkey']
      cases store.documents tenantId snapshotId <;> rfl
  | refused h => cases hrow : store.documents tenantId snapshotId <;> simp [acceptedDocument]
  | setScope tenantId' scope active =>
    cases store.documents tenantId snapshotId <;> simp [acceptedDocument]

theorem Step.rowsVerified (hstep : Step host store action store')
    (hrows : store.RowsVerified host) : store'.RowsVerified host := by
  intro tenantId snapshotId row hrow
  cases hstep with
  | ingested h =>
    obtain ⟨converted, -, -, stored, hstored, hverify, rfl⟩ := ingestAnalyzerResult_eq_ok h
    have hput : (if tenantId = _ ∧ snapshotId = stored.columns.snapshotId then some stored
      else store.documents tenantId snapshotId) = some row := hrow
    split_ifs at hput with hkey
    · cases hput
      exact ⟨hkey.2.symm, hverify⟩
    · exact hrows _ _ _ hput
  | refused h => exact hrows _ _ _ hrow
  | setScope tenantId' scope active => exact hrows _ _ _ hrow

/-- What a whole history does to the rows: those that were stored stay, and a free place goes to
the first document accepted for it. -/
theorem documents_run (hrun : TransitionSystem.Run (Step host) store actions store')
    (hrows : store.RowsVerified host) (tenantId snapshotId : String) :
    store'.documents tenantId snapshotId = (store.documents tenantId snapshotId).or
      ((actions.findSome? (acceptedDocument host tenantId snapshotId)).map (documentRow host)) := by
  induction hrun with
  | nil store => simp
  | @cons store middle last action actions hstep _ ih =>
    rw [ih (hstep.rowsVerified hrows), hstep.documents_eq hrows, findSome?_cons]
    cases store.documents tenantId snapshotId <;>
      cases acceptedDocument host tenantId snapshotId action <;> simp

theorem rowsVerified_run (hrun : TransitionSystem.Run (Step host) store actions store')
    (hrows : store.RowsVerified host) : store'.RowsVerified host :=
  hrun.invariant (fun _ _ _ h hstep => hstep.rowsVerified h) hrows

/-! ### What a later ingestion answers -/

/-- The answer to a result that repeats what is stored. -/
def existingAnswer (host : CatalogHost) (converted : ConvertedDocument) : DocumentWriteResult :=
  ⟨.existing, converted.columns.snapshotId, snapshotContentSha256 host converted.snapshot,
    converted.requiredScopeIds⟩

/-- The answer to a result that is stored for the first time. -/
def insertedAnswer (host : CatalogHost) (converted : ConvertedDocument) : DocumentWriteResult :=
  { existingAnswer host converted with outcome := .inserted }

section Stored

variable {converted : ConvertedDocument} {row : DocumentRow}
  (hinput : input.tenantId ≠ "" ∧ input.configFingerprint ≠ "")
  (hconverted : contractSnapshotFromAnalyzerResult host input.result input.configFingerprint =
    .ok converted)

include hinput hconverted

theorem ingestAnalyzerResult_of_inactive
    (hscopes : ¬ store.ActiveScopes input.tenantId converted.requiredScopeIds) :
    store.ingestAnalyzerResult host input = .error (.catalog .unknownAccessScope) := by
  simp [ingestAnalyzerResult, hconverted, hscopes, require, hinput.1, hinput.2, bind, Except.bind]

/-- A result for a stored id with active scopes is answered by the comparison with the row. -/
theorem ingestAnalyzerResult_of_stored (hhost : host.Faithful) (hrows : store.RowsVerified host)
    (hscopes : store.ActiveScopes input.tenantId converted.requiredScopeIds)
    (hstored : store.documents input.tenantId converted.columns.snapshotId = some row) :
    (row.Repeats host converted → store.ingestAnalyzerResult host input =
      .ok (store, existingAnswer host converted)) ∧
    (¬ row.Repeats host converted → store.ingestAnalyzerResult host input =
      .error (.catalog .snapshotIdentityConflict)) := by
  obtain ⟨hid, hverify⟩ := hrows _ _ _ hstored
  obtain ⟨hset, -, -⟩ := contractSnapshotFromAnalyzerResult_eq_ok hconverted
  have hput : store.put input.tenantId row = store := put_of_stored (by rw [hid, hstored])
  have hlookup : store.documents input.tenantId (documentRow host converted).columns.snapshotId =
      some row := hstored
  have heval : store.ingestAnalyzerResult host input =
      store.answerFrom host input.tenantId row (documentRow host converted) .existing := by
    simp [ingestAnalyzerResult, hconverted, require, hinput.1, hinput.2, hscopes, hlookup, bind,
      Except.bind]
  rw [heval, DocumentRow.repeats_iff hhost hverify hset]
  constructor
  · intro h
    simp only [answerFrom, require, if_pos hverify, if_pos h, hput]
    rfl
  · intro h
    simp only [answerFrom, require, if_pos hverify, if_neg h]
    rfl

theorem ingestAnalyzerResult_of_free (hhost : host.Faithful)
    (hscopes : store.ActiveScopes input.tenantId converted.requiredScopeIds)
    (hnames : canonicalScopeIds (converted.requiredScopeIds.map .str) =
      some converted.requiredScopeIds)
    (hstatus : statusMatchesCoverage converted.analyzerStatus converted.snapshot = true)
    (hfree : store.documents input.tenantId converted.columns.snapshotId = none) :
    store.ingestAnalyzerResult host input =
      .ok (store.put input.tenantId (documentRow host converted), insertedAnswer host converted) := by
  obtain ⟨-, hparse, hcolumns⟩ := contractSnapshotFromAnalyzerResult_eq_ok hconverted
  have hverify := verifyStoredDocumentRow_documentRow hhost hparse hcolumns hnames hstatus
  have hlookup : store.documents input.tenantId (documentRow host converted).columns.snapshotId =
      none := hfree
  have heval : store.ingestAnalyzerResult host input = store.answerFrom host input.tenantId
      (documentRow host converted) (documentRow host converted) .inserted := by
    simp [ingestAnalyzerResult, hconverted, require, hinput.1, hinput.2, hscopes, hlookup, bind,
      Except.bind]
  rw [heval]
  simp only [answerFrom, require, if_pos hverify, and_self, if_true]
  rfl

end Stored

/-- Every document is accepted, and the database sorts the members of a document. -/
def sampleHost : CatalogHost where
  acceptsAnalyzerResult _ := true
  parseContractSnapshot _ := true
  sha256 text := text
  jsonb := Json.canon

theorem sampleHost_faithful : sampleHost.Faithful where
  sha256_injective := fun _ _ h => h
  canon_jsonb := Json.canon_canon
  parse_congr := fun _ => rfl

/-- A complete result without endpoints, from a source with the given access label. -/
def sampleResult (accessLabel : String) : Json :=
  .obj [("status", .str "success"),
    ("ir_version", .str "1.0.0"),
    ("identity_version", .str "1.0.0"),
    ("snapshot_id", .str "snapshot-1"),
    ("source", .obj [("repository_id", .str "shop"), ("service_id", .str "orders"),
      ("service_root", .str "services/orders"), ("immutable_revision", .str "9fceb02"),
      ("source_digest", .str "sha256:ab"), ("access_label", .str accessLabel)]),
    ("analyzer", .obj [("adapter_id", .str "express"), ("adapter_version", .str "1.0.0")]),
    ("completed_at", .str "2024-05-01T00:00:00Z"),
    ("coverage", .obj [("status", .str "complete")]),
    ("evidence", .arr []), ("schemas", .obj []), ("endpoints", .arr []), ("claims", .arr []),
    ("dependencies", .arr []), ("diagnostics", .arr [])]

def sampleIngestion (accessLabel : String) : IngestAnalyzerResultInput :=
  ⟨"acme", sampleResult accessLabel, "config-1"⟩

def sampleConverted (accessLabel : String) : ConvertedDocument :=
  match contractSnapshotFromAnalyzerResult sampleHost (sampleResult accessLabel) "config-1" with
  | .ok converted => converted
  | .error _ => ⟨⟨"", "", "", "", "", "", ""⟩, .null, [], .success⟩

/-- An empty catalog in which the scope `internal` is active. -/
def sampleCatalog : DocumentStore where
  scopes _ scope := if scope = "internal" then some true else none
  documents _ _ := none

theorem sampleConverted_internal :
    contractSnapshotFromAnalyzerResult sampleHost (sampleResult "internal") "config-1" =
      .ok (sampleConverted "internal") ∧
    (sampleConverted "internal").requiredScopeIds = ["internal"] ∧
    canonicalScopeIds ((sampleConverted "internal").requiredScopeIds.map .str) =
      some (sampleConverted "internal").requiredScopeIds ∧
    statusMatchesCoverage (sampleConverted "internal").analyzerStatus
      (sampleConverted "internal").snapshot = true := by
  refine ⟨rfl, ?_, ?_, ?_⟩
  all_goals decide +kernel

theorem sampleConverted_restricted :
    contractSnapshotFromAnalyzerResult sampleHost (sampleResult "restricted") "config-1" =
      .ok (sampleConverted "restricted") ∧
    (sampleConverted "restricted").requiredScopeIds = ["restricted"] ∧
    (sampleConverted "restricted").columns.snapshotId = "snapshot-1" := by
  refine ⟨rfl, ?_, ?_⟩
  all_goals decide +kernel

def sampleStored : DocumentStore :=
  sampleCatalog.put "acme" (documentRow sampleHost (sampleConverted "internal"))

theorem sampleIngestion_named (scope : String) :
    (sampleIngestion scope).tenantId ≠ "" ∧ (sampleIngestion scope).configFingerprint ≠ "" := by
  constructor <;> simp [sampleIngestion]

theorem sample_run :
    TransitionSystem.Run (Step sampleHost) sampleCatalog
      [.ingest (sampleIngestion "internal")
        (.ok (insertedAnswer sampleHost (sampleConverted "internal")))] sampleStored := by
  obtain ⟨hconverted, hscopes, hnames, hstatus⟩ := sampleConverted_internal
  refine .cons (.ingested ?_) (.nil _)
  refine ingestAnalyzerResult_of_free (sampleIngestion_named "internal") hconverted
    sampleHost_faithful ?_ hnames hstatus rfl
  · intro scope hscope
    obtain rfl := List.mem_singleton.mp hscope
    rfl

theorem sampleStored_documents :
    sampleStored.documents "acme" "snapshot-1" =
      some (documentRow sampleHost (sampleConverted "internal")) := by
  have hid : (sampleConverted "internal").columns.snapshotId = "snapshot-1" := by decide +kernel
  show (if "acme" = "acme" ∧ "snapshot-1" = (sampleConverted "internal").columns.snapshotId
    then some _ else none) = _
  rfl

end DocumentStore

end ApiTruth.Catalog
