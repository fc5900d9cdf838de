import ApiTruth.Foundation.Checked
import ApiTruth.Foundation.Decimal
import ApiTruth.Foundation.Json.Text
import ApiTruth.Foundation.Locking
import ApiTruth.Foundation.Patterns

/-!
# Reviews of inferred history

The owner of an archived inference annotates it with decisions.  A review is appended to a log of
the tenant, the principal and the history record: the request names the version that it expects to
be the latest, and the review has the next one.  Each row carries a digest of the decision, its
versions and the source that the history record was inferred from, and is checked against it
whenever it is read.

The digest function and the hash of the advisory lock are parameters.  `created_at` is the text that
PostgreSQL renders for the clock of the insertion.  A request arrives as the own data of an object,
which a JSON value models; proxies and accessors are refused before anything is read.

## Main definitions

* `parseSemanticHistoryReview`, `validateHistory`, `digest`, `verify` : the checks of a call.
* `recordSemanticHistoryReview` : the statements of a recording call.
* `readSemanticHistoryReviews` : the latest reviews of a history record.

## Main results

* `verify_projection` : a row that was recorded for the same source is read back as it is.
* `isLocal_recordSemanticHistoryReview` : a call reads and writes below its advisory lock.
-/

namespace ApiTruth.Semantics

open Checked Locking List Decimal
open Json (canon canonicalJson)

/-- `MAX_BIGINT`. -/
def maxBigint : ℕ := 9223372036854775807

inductive SemanticHistoryReviewDecision
  | acknowledged
  | followUp
  | dismissed
deriving DecidableEq, Repr

namespace SemanticHistoryReviewDecision

/-- The stored spelling. -/
def text : SemanticHistoryReviewDecision → String
  | acknowledged => "acknowledged"
  | followUp => "follow_up"
  | dismissed => "dismissed"

/-- `decision(value)`, with the decision that the text spells. -/
def ofText? (value : String) : Option SemanticHistoryReviewDecision :=
  [acknowledged, followUp, dismissed].find? fun decision => decision.text == value

@[simp] theorem ofText?_text (decision : SemanticHistoryReviewDecision) :
    ofText? decision.text = some decision := by
  cases decision <;> rfl

end SemanticHistoryReviewDecision

/-- `SemanticHistoryReviewErrorCode`: refused input, a stale or changed intent, or storage. -/
inductive SemanticHistoryReviewErrorCode
  | invalid
  | conflict
  | storage
deriving DecidableEq, Repr

/-- `bigintString`: `/^[1-9][0-9]{0,18}$/`, or also `0` when the number need not be positive, and at
most `max`. -/
def bigintString (value : String) (positive : Bool) (max : ℕ) : Bool :=
  Decimal.isCanonical value && decide (value.length ≤ 19) && !(positive && value == "0") &&
    decide (Decimal.value value ≤ max)

variable {positive : Bool}

theorem bigintString_iff {value : String} {max : ℕ} :
    bigintString value positive max = true ↔ isCanonical value = true ∧
      value.length ≤ 19 ∧ (positive = true → value ≠ "0") ∧ Decimal.value value ≤ max := by
  cases positive <;> simp [bigintString, and_assoc]

theorem bigintString_toString {n max : ℕ} (hmax : max ≤ maxBigint)
    (hpositive : positive = true → 0 < n) (hn : n ≤ max) :
    bigintString (toString n) positive max = true := by
  refine bigintString_iff.mpr ⟨isCanonical_toString n, ?_, fun h hzero => ?_, ?_⟩
  · have hlt : n < 10 ^ 19 := lt_of_le_of_lt (hn.trans hmax) (by decide)
    exact (Nat.length_repr_le_iff (by decide)).mpr hlt
  · have hvalue : n = Decimal.value "0" := by rw [← hzero, Decimal.value_toString]
    exact absurd hvalue (Nat.ne_of_gt (hpositive h))
  · rwa [value_toString]

structure SemanticHistoryReviewRequest where
  historyId : String
  decision : SemanticHistoryReviewDecision
  expectedVersion : String
deriving DecidableEq, Repr

/-- `parseSemanticHistoryReview`.  Room is left for the next version of the expected one. -/
def parseSemanticHistoryReview (input : Json) :
    Except SemanticHistoryReviewErrorCode SemanticHistoryReviewRequest :=
  match input with
  | .obj members => do
    require (members.length = 3 ∧
      ∀ member ∈ members, member.1 ∈ ["historyId", "decision", "expectedVersion"]) .invalid
    match members.lookup "historyId", members.lookup "decision",
        members.lookup "expectedVersion" with
    | some (.str historyId), some (.str decision), some (.str expectedVersion) => do
      require (bigintString historyId true maxBigint = true ∧
        bigintString expectedVersion false (maxBigint - 1) = true) .invalid
      let decision ← orRaise (SemanticHistoryReviewDecision.ofText? decision) .invalid
      return { historyId, decision, expectedVersion }
    | _, _, _ => .error .invalid
  | _ => .error .invalid

theorem versions_of_parse {input : Json} {request : SemanticHistoryReviewRequest}
    (h : parseSemanticHistoryReview input = .ok request) :
    bigintString request.historyId true maxBigint = true ∧
      bigintString request.expectedVersion false (maxBigint - 1) = true := by
  unfold parseSemanticHistoryReview at h
  split at h
  · rw [require_bind_eq_ok] at h
    obtain ⟨-, h⟩ := h
    split at h
    · rw [require_bind_eq_ok, orRaise_bind_eq_ok] at h
      obtain ⟨hbounds, decision, -, hrequest⟩ := h
      cases hrequest
      exact hbounds
    · cases h
  · cases h

/-- The selection of the source, as far as it is bound. -/
structure QuerySelection where
  repositoryId : String
  serviceId : String
  selector : Json

structure SemanticHistoryScope where
  tenantId : String
  principalId : String
  selection : QuerySelection
  pin : Json
  configurationHash : String
  provider : String
  model : String
  endpointIds : List String

structure SemanticHistoryProvenance where
  provider : String
  model : String
  promptVersion : String
  selector : Json
  pin : Json

structure SemanticHistoryRecord where
  historyId : String
  verification : String
  normative : Bool
  result : Json
  requestedEndpointIds : List String
  provenance : SemanticHistoryProvenance

def validateHistory (scope : SemanticHistoryScope) (history : SemanticHistoryRecord) :
    Except SemanticHistoryReviewErrorCode Unit :=
  require (bigintString history.historyId true maxBigint = true ∧
    history.verification = "inferred" ∧ history.normative = false ∧
    history.provenance.provider = scope.provider ∧ history.provenance.model = scope.model ∧
    canonicalJson history.provenance.pin = canonicalJson scope.pin ∧
    canonicalJson history.provenance.selector = canonicalJson scope.selection.selector ∧
    1 ≤ history.requestedEndpointIds.length ∧ history.requestedEndpointIds.length ≤ 16 ∧
    history.requestedEndpointIds.Nodup ∧
    ∀ id ∈ history.requestedEndpointIds, id ∈ scope.endpointIds) .storage

def digest (sha256 : String → String) (scope : SemanticHistoryScope)
    (history : SemanticHistoryRecord) (version expectedVersion : String)
    (selectedDecision : SemanticHistoryReviewDecision) : String :=
  "sha256:" ++ sha256 (canonicalJson (.obj [
    ("tenantId", .str scope.tenantId), ("principalId", .str scope.principalId),
    ("historyId", .str history.historyId), ("repositoryId", .str scope.selection.repositoryId),
    ("serviceId", .str scope.selection.serviceId), ("selector", scope.selection.selector),
    ("pin", scope.pin), ("configurationHash", .str scope.configurationHash),
    ("provider", .str scope.provider), ("model", .str scope.model),
    ("promptVersion", .str history.provenance.promptVersion),
    ("requestedEndpointIds",
      .arr ((history.requestedEndpointIds.insertionSort (· ≤ ·)).map .str)),
    ("safeResult", history.result), ("decision", .str selectedDecision.text),
    ("reviewVersion", .str version), ("expectedVersion", .str expectedVersion)]))

/-- The owner of a log and the history record that it is about. -/
structure HistoryIdentity where
  tenantId : String
  principalId : String
  historyId : ℕ
deriving DecidableEq, Repr

/-- A row of `semantic_history_reviews`; the check of its column makes a decision of the text. -/
structure StoredReview where
  identity : HistoryIdentity
  reviewVersion : ℕ
  expectedVersion : ℕ
  decision : SemanticHistoryReviewDecision
  recordSha256 : String
  createdAt : String
deriving DecidableEq, Repr

structure ReviewRow where
  reviewVersion : String
  expectedVersion : String
  decision : String
  recordSha256 : String
  createdAt : String
deriving DecidableEq, Repr

def projection (row : StoredReview) : ReviewRow where
  reviewVersion := toString row.reviewVersion
  expectedVersion := toString row.expectedVersion
  decision := row.decision.text
  recordSha256 := row.recordSha256
  createdAt := row.createdAt

/-- `SemanticHistoryReviewRecord`, with its fixed disclaimers. -/
structure SemanticHistoryReviewRecord where
  historyId : String
  reviewVersion : String
  expectedVersion : String
  decision : SemanticHistoryReviewDecision
  createdAt : String
  metadataOnly : Bool := true
  nonNormative : Bool := true
  verification : String := "inferred"
deriving DecidableEq, Repr

structure SemanticHistoryReviewReceipt extends SemanticHistoryReviewRecord where
  replayed : Bool
deriving DecidableEq, Repr

structure SemanticHistoryReviewReadResult where
  historyId : String
  records : List SemanticHistoryReviewRecord
  truncated : Bool
  metadataOnly : Bool := true
  nonNormative : Bool := true
  verification : String := "inferred"
deriving DecidableEq, Repr

/-- `/^\d{4}-\d{2}-\d{2}T\d{2}:\d{2}:\d{2}\.\d{6}Z$/`, where `d` stands for a digit. -/
def isCreatedAt (text : String) : Bool :=
  let shape := "dddd-dd-ddTdd:dd:dd.ddddddZ".toList
  decide (text.toList.length = shape.length) &&
    (shape.zip text.toList).all fun (s, c) => if s = 'd' then c.isDigit else c = s

def verify (sha256 : String → String) (row : ReviewRow) (scope : SemanticHistoryScope)
    (history : SemanticHistoryRecord) :
    Except SemanticHistoryReviewErrorCode SemanticHistoryReviewRecord := do
  require (bigintString row.reviewVersion true maxBigint = true ∧
    bigintString row.expectedVersion false (maxBigint - 1) = true ∧
    Decimal.value row.reviewVersion = Decimal.value row.expectedVersion + 1) .storage
  let decision ← orRaise (SemanticHistoryReviewDecision.ofText? row.decision) .storage
  require (isCreatedAt row.createdAt = true ∧
    digest sha256 scope history row.reviewVersion row.expectedVersion decision =
      row.recordSha256) .storage
  return {
    historyId := history.historyId
    reviewVersion := row.reviewVersion
    expectedVersion := row.expectedVersion
    decision
    createdAt := row.createdAt }

def identityOf (scope : SemanticHistoryScope) (history : SemanticHistoryRecord) : HistoryIdentity :=
  ⟨scope.tenantId, scope.principalId, Decimal.value history.historyId⟩

/-- What the digest binds of the scope and the history record beside their identity. -/
structure HistorySource where
  repositoryId : String
  serviceId : String
  selector : Json
  pin : Json
  configurationHash : String
  provider : String
  model : String
  promptVersion : String
  requestedEndpointIds : List String
  safeResult : Json

/-- The source of an archived inference, up to the order of the members of its JSON values. -/
def sourceOf (scope : SemanticHistoryScope) (history : SemanticHistoryRecord) : HistorySource where
  repositoryId := scope.selection.repositoryId
  serviceId := scope.selection.serviceId
  selector := canon scope.selection.selector
  pin := canon scope.pin
  configurationHash := scope.configurationHash
  provider := scope.provider
  model := scope.model
  promptVersion := history.provenance.promptVersion
  requestedEndpointIds := history.requestedEndpointIds.insertionSort (· ≤ ·)
  safeResult := canon history.result

/-- The archived inferences: their owners, records and sources.  A record is never changed. -/
abbrev Archive := HistoryIdentity → Option HistorySource

/-- The reviews of a history record, in the order in which they were stored. -/
def reviewsOf (rows : List StoredReview) (identity : HistoryIdentity) : List StoredReview :=
  rows.filter fun row => decide (row.identity = identity)

/-- `ORDER BY review_version DESC`. -/
def newestFirst (rows : List StoredReview) : List StoredReview :=
  rows.insertionSort fun row other => other.reviewVersion ≤ row.reviewVersion

/-- The constraints of `semantic_history_reviews` on a new row: the checks of its columns, the
primary key, the unique expected version and the reference to the archived inference. -/
def accepts (archive : Archive) (rows : List StoredReview) (row : StoredReview) : Bool :=
  decide (0 < row.reviewVersion ∧ row.reviewVersion ≤ maxBigint ∧ row.expectedVersion < maxBigint) &&
    isSha256 row.recordSha256 &&
    (reviewsOf rows row.identity).all (fun other =>
      other.reviewVersion ≠ row.reviewVersion && other.expectedVersion ≠ row.expectedVersion) &&
    (archive row.identity).isSome &&
    decide (row.identity.tenantId ≠ "" ∧ row.identity.principalId ≠ "" ∧
      0 < row.identity.historyId) &&
    decide (row.reviewVersion = row.expectedVersion + 1)

/-- A call of `recordSemanticHistoryReview`; `createdAt` is what its insertion reads of the clock. -/
structure ReviewCall where
  scope : SemanticHistoryScope
  history : SemanticHistoryRecord
  request : Json
  createdAt : String

namespace ReviewCall

def identity (call : ReviewCall) : HistoryIdentity := identityOf call.scope call.history

/-- The checks before the lock is taken. -/
def admitted (call : ReviewCall) :
    Except SemanticHistoryReviewErrorCode SemanticHistoryReviewRequest := do
  let parsed ← parseSemanticHistoryReview call.request
  require (parsed.historyId = call.history.historyId) .invalid
  validateHistory call.scope call.history
  return parsed

/-- The row that the call inserts behind the expected version. -/
def row (sha256 : String → String) (call : ReviewCall) (parsed : SemanticHistoryReviewRequest) :
    StoredReview where
  identity := call.identity
  reviewVersion := Decimal.value parsed.expectedVersion + 1
  expectedVersion := Decimal.value parsed.expectedVersion
  decision := parsed.decision
  recordSha256 := digest sha256 call.scope call.history
    (toString (Decimal.value parsed.expectedVersion + 1)) parsed.expectedVersion parsed.decision
  createdAt := call.createdAt

end ReviewCall

section Calls

variable (sha256 : String → String) (archive : Archive)

/-- The answer to a request whose expected version has been used. -/
def replay (call : ReviewCall) (parsed : SemanticHistoryReviewRequest) (row : StoredReview) :
    Except SemanticHistoryReviewErrorCode SemanticHistoryReviewReceipt := do
  let prior ← verify sha256 (projection row) call.scope call.history
  require (prior.decision = parsed.decision) .conflict
  return { prior with replayed := true }

/-- The version of the latest review, `0` without one. -/
def currentVersion (call : ReviewCall) (rows : List StoredReview) :
    Except SemanticHistoryReviewErrorCode String :=
  match (newestFirst (reviewsOf rows call.identity)).head? with
  | some latest => do
    let record ← verify sha256 (projection latest) call.scope call.history
    return record.reviewVersion
  | none => .ok "0"

def insertedReceipt (call : ReviewCall) (parsed : SemanticHistoryReviewRequest)
    (row : StoredReview) : Except SemanticHistoryReviewErrorCode SemanticHistoryReviewReceipt := do
  let receipt ← verify sha256 (projection row) call.scope call.history
  require (receipt.reviewVersion = toString (Decimal.value parsed.expectedVersion + 1) ∧
    receipt.decision = parsed.decision) .storage
  return { receipt with replayed := false }

/-- The insertion, which the constraints of the table can refuse; its row is read back. -/
def insertReview (call : ReviewCall) (parsed : SemanticHistoryReviewRequest) :
    Program StoredReview (Except SemanticHistoryReviewErrorCode SemanticHistoryReviewReceipt) :=
  .read fun rows =>
    if accepts archive rows (call.row sha256 parsed) = true then
      match insertedReceipt sha256 call parsed (call.row sha256 parsed) with
      | .ok receipt => .finish (.ok receipt) [call.row sha256 parsed]
      | .error code => .finish (.error code) []
    else .finish (.error .storage) []

/-- The statements of `recordSemanticHistoryReview` after its lock.  Whatever raises rolls the
transaction back. -/
def recordSemanticHistoryReview (call : ReviewCall) :
    Program StoredReview (Except SemanticHistoryReviewErrorCode SemanticHistoryReviewReceipt) :=
  match call.admitted with
  | .error code => .finish (.error code) []
  | .ok parsed =>
    .read fun rows =>
      match (reviewsOf rows call.identity).filter fun row =>
          decide (row.expectedVersion = Decimal.value parsed.expectedVersion) with
      | [previous] => .finish (replay sha256 call parsed previous) []
      | _ :: _ :: _ => .finish (.error .storage) []
      | [] =>
        .read fun rows =>
          match currentVersion sha256 call rows with
          | .error code => .finish (.error code) []
          | .ok current =>
            if current = parsed.expectedVersion then insertReview sha256 archive call parsed
            else .finish (.error .conflict) []

/-- `records[i-1].reviewVersion === records[i].reviewVersion + 1` along the list. -/
def areConsecutive : List SemanticHistoryReviewRecord → Bool
  | newer :: older :: records =>
    decide (Decimal.value newer.reviewVersion = Decimal.value older.reviewVersion + 1) &&
      areConsecutive (older :: records)
  | _ => true

/-- `readSemanticHistoryReviews`, one statement on the committed rows. -/
def readSemanticHistoryReviews (scope : SemanticHistoryScope) (history : SemanticHistoryRecord)
    (limit : ℤ) (rows : List StoredReview) :
    Except SemanticHistoryReviewErrorCode SemanticHistoryReviewReadResult := do
  require (1 ≤ limit ∧ limit ≤ 20) .invalid
  validateHistory scope history
  let selected := (newestFirst (reviewsOf rows (identityOf scope history))).take (limit.toNat + 1)
  let records ← selected.mapM fun row => verify sha256 (projection row) scope history
  require (areConsecutive records = true) .storage
  return {
    historyId := history.historyId
    records := records.take limit.toNat
    truncated := decide (limit.toNat < selected.length) }

end Calls

/-! ### What a row that was recorded for a source says -/

def sourceDigest (sha256 : String → String) (identity : HistoryIdentity) (source : HistorySource)
    (version expectedVersion : String) (decision : SemanticHistoryReviewDecision) : String :=
  "sha256:" ++ sha256 (canonicalJson (.obj [
    ("tenantId", .str identity.tenantId), ("principalId", .str identity.principalId),
    ("historyId", .str (toString identity.historyId)), ("repositoryId", .str source.repositoryId),
    ("serviceId", .str source.serviceId), ("selector", source.selector), ("pin", source.pin),
    ("configurationHash", .str source.configurationHash), ("provider", .str source.provider),
    ("model", .str source.model), ("promptVersion", .str source.promptVersion),
    ("requestedEndpointIds", .arr (source.requestedEndpointIds.map .str)),
    ("safeResult", source.safeResult), ("decision", .str decision.text),
    ("reviewVersion", .str version), ("expectedVersion", .str expectedVersion)]))

/-- The digest binds the identity and the source of the history record, and nothing else of a
call. -/
theorem digest_eq_sourceDigest {scope : SemanticHistoryScope} {history : SemanticHistoryRecord}
    (hid : isCanonical history.historyId = true) (sha256 : String → String)
    (version expectedVersion : String) (decision : SemanticHistoryReviewDecision) :
    digest sha256 scope history version expectedVersion decision =
      sourceDigest sha256 (identityOf scope history) (sourceOf scope history) version
        expectedVersion decision := by
  have hhistory : toString (identityOf scope history).historyId = history.historyId :=
    toString_value hid
  rw [sourceDigest, hhistory]
  simp only [digest, canonicalJson, Json.canon_obj, identityOf, sourceOf, map_cons,
    map_nil, Json.canon_canon]

def recordOf (row : StoredReview) : SemanticHistoryReviewRecord where
  historyId := toString row.identity.historyId
  reviewVersion := toString row.reviewVersion
  expectedVersion := toString row.expectedVersion
  decision := row.decision
  createdAt := row.createdAt

/-- The row passes every check of a reader that is authorised for the archived source. -/
structure IsRecorded (sha256 : String → String) (archive : Archive) (row : StoredReview) : Prop where
  reviewVersion : row.reviewVersion = row.expectedVersion + 1
  bounded : row.reviewVersion ≤ maxBigint
  createdAt : isCreatedAt row.createdAt = true
  digest : ∀ source, archive row.identity = some source →
    row.recordSha256 = sourceDigest sha256 row.identity source (toString row.reviewVersion)
      (toString row.expectedVersion) row.decision

/-- The caller's authorisation: the history record is the archived one of this source. -/
def IsAuthorized (archive : Archive) (scope : SemanticHistoryScope)
    (history : SemanticHistoryRecord) : Prop :=
  archive (identityOf scope history) = some (sourceOf scope history)

section Checks

variable {sha256 : String → String} {archive : Archive} {scope : SemanticHistoryScope}
  {history : SemanticHistoryRecord}

theorem isCanonical_of_validateHistory (h : validateHistory scope history = .ok ⟨⟩) :
    isCanonical history.historyId = true :=
  (bigintString_iff.mp (require_eq_ok.mp h).1).1

/-- A row that was recorded for the same source is read back as it is. -/
theorem verify_projection {row : StoredReview} (hrow : IsRecorded sha256 archive row)
    (hidentity : row.identity = identityOf scope history) (hauthorized : IsAuthorized archive scope history)
    (hid : isCanonical history.historyId = true) :
    verify sha256 (projection row) scope history = .ok (recordOf row) := by
  have hversion : bigintString (toString row.reviewVersion) true maxBigint = true :=
    bigintString_toString le_rfl (fun _ => hrow.reviewVersion ▸ Nat.succ_pos _) hrow.bounded
  have hexpected : bigintString (toString row.expectedVersion) false (maxBigint - 1) = true := by
    refine bigintString_toString (Nat.sub_le _ _) (fun h => Bool.noConfusion h) ?_
    have := hrow.reviewVersion
    have := hrow.bounded
    omega
  have hdigest : digest sha256 scope history (toString row.reviewVersion)
      (toString row.expectedVersion) row.decision = row.recordSha256 := by
    rw [digest_eq_sourceDigest hid, ← hidentity]
    exact (hrow.digest _ (hidentity ▸ hauthorized)).symm
  have hhistory : toString row.identity.historyId = history.historyId := by
    rw [hidentity]
    exact toString_value hid
  simp only [verify, projection, recordOf, hhistory, require_bind_eq_ok, orRaise_bind_eq_ok,
    value_toString, SemanticHistoryReviewDecision.ofText?_text, Option.some.injEq,
    exists_eq_left', hdigest]
  exact ⟨⟨hversion, hexpected, hrow.reviewVersion⟩, ⟨hrow.createdAt, trivial⟩, rfl⟩

end Checks

/-! ### The advisory lock -/

/-- The number that `pg_advisory_xact_lock` takes for a history record. -/
def advisoryKey (hashtextextended : String → ℤ) (tenantId principalId historyId : String) : ℤ :=
  hashtextextended ("api-truth:semantic-history-review:" ++
    canonicalJson (.arr [.str tenantId, .str principalId, .str historyId]))

namespace ReviewCall

/-- A call that fails its first checks takes no lock. -/
def lock (hashtextextended : String → ℤ) (call : ReviewCall) : Option ℤ :=
  match call.admitted with
  | .ok _ => some (advisoryKey hashtextextended call.scope.tenantId call.scope.principalId
      call.history.historyId)
  | .error _ => none

end ReviewCall

/-- The lock under which a row is written. -/
def StoredReview.key (hashtextextended : String → ℤ) (row : StoredReview) : ℤ :=
  advisoryKey hashtextextended row.identity.tenantId row.identity.principalId
    (toString row.identity.historyId)

section Locality

variable {hashtextextended : String → ℤ} {call : ReviewCall} {parsed : SemanticHistoryReviewRequest}

theorem admitted_eq_ok : call.admitted = .ok parsed ↔
    parseSemanticHistoryReview call.request = .ok parsed ∧
      parsed.historyId = call.history.historyId ∧
      validateHistory call.scope call.history = .ok ⟨⟩ := by
  constructor
  · intro h
    obtain ⟨request, hparse, h⟩ := bind_eq_ok.mp h
    obtain ⟨hid, h⟩ := require_bind_eq_ok.mp h
    obtain ⟨⟨⟩, hvalid, h⟩ := bind_eq_ok.mp h
    cases h
    exact ⟨hparse, hid, hvalid⟩
  · rintro ⟨hparse, hid, hvalid⟩
    exact bind_eq_ok.mpr ⟨parsed, hparse, require_bind_eq_ok.mpr ⟨hid,
      bind_eq_ok.mpr ⟨⟨⟩, hvalid, rfl⟩⟩⟩

theorem isCanonical_of_admitted (h : call.admitted = .ok parsed) :
    isCanonical call.history.historyId = true :=
  isCanonical_of_validateHistory (admitted_eq_ok.mp h).2.2

variable {row : StoredReview} {rows rows' : List StoredReview}

theorem key_eq_lock (h : call.admitted = .ok parsed) (hrow : row.identity = call.identity) :
    some (row.key hashtextextended) = call.lock hashtextextended := by
  have hid : toString row.identity.historyId = call.history.historyId := by
    rw [hrow]
    exact toString_value (isCanonical_of_admitted h)
  rw [ReviewCall.lock, h, StoredReview.key, hid, hrow]
  rfl

theorem reviewsOf_part (h : call.admitted = .ok parsed) (rows : List StoredReview) :
    reviewsOf (Program.part (StoredReview.key hashtextextended) (call.lock hashtextextended) rows)
      call.identity = reviewsOf rows call.identity := by
  rw [reviewsOf, Program.part, List.filter_filter]
  refine filter_congr fun row _ => ?_
  by_cases hrow : row.identity = call.identity
  · simp [hrow, key_eq_lock h hrow]
  · simp [hrow]

/-- A statement that reads the reviews of its identity only is the same on equal parts. -/
theorem reviewsOf_congr (h : call.admitted = .ok parsed)
    (hpart : Program.part (StoredReview.key hashtextextended) (call.lock hashtextextended) rows =
      Program.part (StoredReview.key hashtextextended) (call.lock hashtextextended) rows') :
    reviewsOf rows call.identity = reviewsOf rows' call.identity := by
  rw [← reviewsOf_part h rows, hpart, reviewsOf_part h rows']

theorem accepts_congr (archive : Archive)
    (h : reviewsOf rows row.identity = reviewsOf rows' row.identity) :
    accepts archive rows row = accepts archive rows' row := by
  rw [accepts, h, accepts]

variable {sha256 : String → String} {archive : Archive}

theorem isLocal_insertReview (h : call.admitted = .ok parsed) :
    (insertReview sha256 archive call parsed).IsLocal (StoredReview.key hashtextextended)
      (call.lock hashtextextended) := by
  constructor
  · intro rows rows' hpart
    have haccepts : accepts archive rows (call.row sha256 parsed) =
        accepts archive rows' (call.row sha256 parsed) :=
      accepts_congr archive (reviewsOf_congr h hpart)
    simp only [haccepts]
  · intro rows
    beta_reduce
    split_ifs
    · split
      · intro row hrow
        rw [List.mem_singleton.mp hrow]
        exact key_eq_lock h rfl
      · exact forall_mem_nil _
    · exact forall_mem_nil _

/-- A call reads and writes below its advisory lock. -/
theorem isLocal_recordSemanticHistoryReview (call : ReviewCall) :
    (recordSemanticHistoryReview sha256 archive call).IsLocal (StoredReview.key hashtextextended)
      (call.lock hashtextextended) := by
  unfold recordSemanticHistoryReview
  split
  · exact forall_mem_nil _
  · next parsed h =>
    constructor
    · intro rows rows' hpart
      simp only [reviewsOf_congr h hpart]
    · intro rows
      beta_reduce
      split
      · exact forall_mem_nil _
      · exact forall_mem_nil _
      · constructor
        · intro rows rows' hpart
          simp only [currentVersion, reviewsOf_congr h hpart]
        · intro rows
          beta_reduce
          split
          · exact forall_mem_nil _
          · split_ifs
            · exact isLocal_insertReview h
            · exact forall_mem_nil _

end Locality

/-- Recording calls and the table that they append to. -/
def historyReviews (sha256 : String → String) (hashtextextended : String → ℤ) (archive : Archive) :
    Service StoredReview (Except SemanticHistoryReviewErrorCode SemanticHistoryReviewReceipt) ℤ
      ReviewCall where
  keyOf := StoredReview.key hashtextextended
  lock := ReviewCall.lock hashtextextended
  program := recordSemanticHistoryReview sha256 archive
  isLocal := isLocal_recordSemanticHistoryReview

end ApiTruth.Semantics
