import ApiTruth.Semantics.Kernel

/-!
# Discovery across services

The corpus service groups the candidates of a keyword search by their service and pin, asks the
semantic service about each group and checks the result once more before it passes it on.  The result
arrives as a JSON value: it is copied within bounds, its members are checked field by field, and a
result that fails a check makes the whole response unavailable.

## Main definitions

* `SemanticAnalysisResult.toJson` : a result of the kernel as a JSON value.
* `Group`, `allowedEvidence` : a group of candidates and the evidence that may be cited for it.
* `validCoverage`, `validDiscoveryResult`, `groupResult`.
-/

namespace ApiTruth.Semantics

open Ir Regex

/-! ### Results as JSON values -/

def SemanticContextCoverage.toJson (coverage : SemanticContextCoverage) : Json :=
  .obj [("status", .str (if coverage.isComplete then "complete" else "partial")),
    ("requestedEndpointIds", stringArray coverage.requestedEndpointIds),
    ("analyzedEndpointIds", stringArray coverage.analyzedEndpointIds),
    ("omittedEndpointIds", stringArray coverage.omittedEndpointIds)]

def SemanticSuggestion.toJson (suggestion : SemanticSuggestion) : Json :=
  .obj [("endpointId", .str suggestion.endpointId), ("intent", .str suggestion.intent),
    ("summary", .str suggestion.summary), ("evidenceIds", stringArray suggestion.evidenceIds)]

def SemanticProvenance.toJson (provenance : SemanticProvenance) : Json :=
  .obj [("provider", .str provenance.provider.text), ("model", .str provenance.model),
    ("promptVersion", .str provenance.promptVersion.text),
    ("selector", provenance.selector.toJson), ("pin", provenance.pin.toJson)]

/-- The members of an answer. -/
def SemanticOutput.members : SemanticOutput → List (String × Json)
  | suggestions items =>
    [("status", .str "suggestions"), ("suggestions", arrayOf SemanticSuggestion.toJson items)]
  | ambiguous candidates reason =>
    [("status", .str "ambiguous"), ("candidateEndpointIds", stringArray candidates),
      ("reason", .str reason)]
  | noMatch reason => [("status", .str "no_match"), ("reason", .str reason)]

def SemanticAnalysisResult.toJson : SemanticAnalysisResult → Json
  | disabled => .obj [("status", .str "disabled")]
  | noContext coverage =>
    .obj ([("status", .str "no_context")] ++
      optionalMember "contextCoverage" SemanticContextCoverage.toJson coverage)
  | answered output provenance coverage =>
    .obj (output.members ++
      [("verification", .str "inferred"), ("review", .str "unreviewed"), ("normative", .bool false),
        ("provenance", provenance.toJson)] ++
      optionalMember "contextCoverage" SemanticContextCoverage.toJson coverage)

/-! ### Groups -/

/-- `CorpusOperationCandidate`, as far as a group looks at it. -/
structure CorpusOperationCandidate where
  endpointId : String
  method : String
  path : String
  evidenceIds : List String
deriving DecidableEq, Repr

/-- `Group`; the selector of a candidate names the service of the candidate. -/
structure Group where
  repositoryId : String
  serviceId : String
  selector : Query.QuerySelection
  pin : Query.QueryPin
  candidates : List CorpusOperationCandidate
  repositoryId_eq : selector.repositoryId = repositoryId
  serviceId_eq : selector.serviceId = serviceId

def Group.endpointIds (group : Group) : List String := group.candidates.map (·.endpointId)

/-- The evidence is in the scope of the group and may be cited for the endpoint. -/
def isAllowedEvidence (group : Group) (snapshot : ContractSnapshot) (endpointId : String)
    (evidence : Evidence) : Bool :=
  evidence.sourceId == snapshot.source.repositoryId &&
    evidence.sourceVersion == snapshot.source.immutableRevision &&
    evidence.scope.serviceId == group.serviceId &&
    evidence.scope.snapshotId == some snapshot.snapshotId &&
    evidence.scope.revision == some snapshot.source.immutableRevision &&
    (evidence.scope.endpointId.isNone || evidence.scope.endpointId == some endpointId) &&
    (evidence.sourceKind == "api_document" && evidence.method == .typeDeclaration &&
        (evidence.scope.endpointId.isNone || evidence.scope.endpointId == some endpointId) ||
      evidence.sourceKind == "source_code" && evidence.scope.endpointId == some endpointId &&
        (evidence.method == .typeDeclaration || evidence.method == .deterministicAnalysis))

/-- `allowedEvidence` : the evidence that may be cited, by endpoint. -/
def allowedEvidence (group : Group) (snapshot : ContractSnapshot) :
    OrderedMap String (List String) :=
  .ofEntries (group.endpointIds.map fun endpointId =>
    (endpointId, (snapshot.evidence.filter
      (isAllowedEvidence group snapshot endpointId)).map Evidence.evidenceId))

/-! ### Checks of a result -/

/-- `/(?:https?:\/\/|\bBearer\s+|(?:api[_-]?key|secret|password|token|authorization)\s*[:=])/i`. -/
def corpusPattern : Regex :=
  oneOf [inOrder [anyCase "http", optional (anyCase "s"), exactly "://"],
    inOrder [boundary, anyCase "Bearer", atLeast 1 space],
    inOrder [credentialName, many space, among ":="]]

def safeText (value : String) (max : ℕ) : Bool :=
  decide (0 < unitLength value) && decide (unitLength value ≤ max) &&
    !value.toList.any isControl && !corpusPattern.test value

mutual

/-- `String(value)`. -/
def coerce : Json → String
  | .null => "null"
  | .bool value => if value then "true" else "false"
  | .num n => String.ofList n.numeral
  | .str text => text
  | .arr items => ",".intercalate (coerceItems items)
  | .obj _ => "[object Object]"

/-- The texts of the items that `String` joins; `null` has none. -/
def coerceItems : List Json → List String
  | [] => []
  | .null :: items => "" :: coerceItems items
  | item :: items => coerce item :: coerceItems items

end

/-- Values that a set compares by value; arrays and objects are all distinct. -/
def isPrimitive : Json → Bool
  | .arr _ => false
  | .obj _ => false
  | _ => true

def isSafeText (value : Json) (max : ℕ) : Bool := (text? value).any (safeText · max)

/-- The limits of `copyJson`. -/
def corpusLimits : Json.Limits := ⟨4194304, 50000, 64, 10001, none⟩

def copyJson (value : Json) : Option Json := Json.copyWithin corpusLimits value

/-- `fields` : the object with exactly these members, in this order. -/
def fields (names : List String) (value : Json) : Option Json :=
  match value with
  | .obj members =>
    if members.length = names.length ∧ ∀ m ∈ members, m.1 ∈ names then
      (names.mapM fun name => (members.lookup name).map fun v => (name, v)).map .obj
    else none
  | _ => none

def equal (left right : Json) : Bool := Json.canonicalJson left == Json.canonicalJson right

/-- The analyzed endpoints of a coverage that `validCoverage` accepts for these endpoints. -/
def coverageAnalyzed (input : Option Json) (expected : List String) : Option (List String) := do
  let value ← input.bind (fields ["status", "requestedEndpointIds", "analyzedEndpointIds",
    "omittedEndpointIds"])
  let analyzed ← texts? (value.member "analyzedEndpointIds")
  let omitted ← texts? (value.member "omittedEndpointIds")
  if equal (value.member "requestedEndpointIds") (stringArray expected) &&
      decide analyzed.Nodup && decide omitted.Nodup && analyzed.all expected.contains &&
      omitted.all expected.contains && analyzed.length + omitted.length == expected.length &&
      (expected.all fun id => analyzed.contains id != omitted.contains id) &&
      hasText value "status" (if omitted.isEmpty then "complete" else "partial")
  then some analyzed
  else none

def validCoverage (input : Option Json) (group : Group) : Bool :=
  (coverageAnalyzed input group.endpointIds).isSome

/-- `common`: the coverage has analyzed something, and the provenance is that of the group. -/
def common (value : Json) (group : Group) : Bool :=
  (coverageAnalyzed (value.members.lookup "contextCoverage") group.endpointIds).any
      (fun analyzed => !analyzed.isEmpty) &&
    hasText value "verification" "inferred" && hasText value "review" "unreviewed" &&
    value.member "normative" == .bool false &&
    (fields ["provider", "model", "promptVersion", "selector", "pin"]
      (value.member "provenance")).any fun provenance =>
        ["openai", "gemini", "claude"].contains (coerce (provenance.member "provider")) &&
        isSafeText (provenance.member "model") 128 &&
        ["semantic-discovery-1", "semantic-discovery-source-1"].contains
          (coerce (provenance.member "promptVersion")) &&
        equal (provenance.member "pin") group.pin.toJson &&
        equal (provenance.member "selector") group.selector.selector.toJson

/-- The names of an answer, with the coverage where the value has one. -/
def answerNames (input : Json) (names : List String) : List String :=
  ["status"] ++ names ++ ["verification", "review", "normative", "provenance"] ++
    if (input.members.lookup "contextCoverage").isSome then ["contextCoverage"] else []

/-- The endpoints that the coverage of a value says are analyzed. -/
def analyzedOf (value : Json) (group : Group) : List String :=
  (coverageAnalyzed (value.members.lookup "contextCoverage") group.endpointIds).getD []

def validSuggestion (group : Group) (allowed : OrderedMap String (List String))
    (analyzed : List String) (item : Json) : Bool :=
  (fields ["endpointId", "intent", "summary", "evidenceIds"] item).any fun suggestion =>
    let endpointId := coerce (suggestion.member "endpointId")
    group.endpointIds.contains endpointId && analyzed.contains endpointId &&
      isSafeText (suggestion.member "intent") 120 && isSafeText (suggestion.member "summary") 300 &&
      (texts? (suggestion.member "evidenceIds")).any fun ids =>
        decide (1 ≤ ids.length) && decide (ids.length ≤ 8) && decide ids.Nodup &&
          ids.all fun id => (allowed.get? endpointId).any fun known => known.contains id

def validDiscoveryResult (input : Json) (group : Group)
    (allowed : OrderedMap String (List String)) : Option Json := do
  if hasText input "status" "disabled" then
    (← fields ["status"] input) |> copyJson
  else if hasText input "status" "no_context" then
    let value ← fields (if (input.members.lookup "contextCoverage").isSome
      then ["status", "contextCoverage"] else ["status"]) input
    if (coverageAnalyzed (value.members.lookup "contextCoverage") group.endpointIds).any
        List.isEmpty
    then copyJson value
    else none
  else if hasText input "status" "suggestions" then
    let value ← fields (answerNames input ["suggestions"]) input
    let suggestions := (value.member "suggestions").items
    if decide (1 ≤ suggestions.length) && decide (suggestions.length ≤ 16) && common value group &&
        suggestions.all (validSuggestion group allowed (analyzedOf value group)) &&
        decide ((suggestions.map (Json.member "endpointId")).filter isPrimitive).Nodup
    then copyJson value
    else none
  else if hasText input "status" "ambiguous" then
    let value ← fields (answerNames input ["candidateEndpointIds", "reason"]) input
    let candidates ← texts? (value.member "candidateEndpointIds")
    if decide (2 ≤ candidates.length) && decide (candidates.length ≤ 16) &&
        candidates.all group.endpointIds.contains && decide candidates.Nodup &&
        isSafeText (value.member "reason") 300 && common value group &&
        candidates.all (analyzedOf value group).contains
    then copyJson value
    else none
  else if hasText input "status" "no_match" then
    let value ← fields (answerNames input ["reason"]) input
    if isSafeText (value.member "reason") 300 && common value group
    then copyJson value
    else none
  else none

/-- What the loop over the groups makes of the result of a discovery: a copy that is checked, or
nothing, and then the response is unavailable. -/
def groupResult (group : Group) (snapshot : ContractSnapshot) (raw : Json) : Option Json :=
  (copyJson raw).bind fun value =>
    validDiscoveryResult value group (allowedEvidence group snapshot)

end ApiTruth.Semantics
