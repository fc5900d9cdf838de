import ApiTruth.Ir.Shape

/-!
# Validation of contract snapshots

The semantic rules of a snapshot: identifiers are unique, references resolve, route identities are
those derived from the endpoints, evidence covers what cites it, eligible claims are free of
contradictions, and the schemas form a valid graph.  Every rule reports its violations as issues;
a snapshot is accepted when it has the shape of a snapshot and no issue.

## Main definitions

* `ValidationIssue`.
* `validateContractSnapshotSemantics` : the issues of a snapshot.
* `parseContractSnapshot` : a snapshot that the validator accepts.
-/

namespace ApiTruth.Ir

open Json List

structure ValidationIssue where
  path : String
  code : String
  message : String
deriving DecidableEq, Repr

/-- The issue is reported unless the condition holds. -/
def expect (condition : Bool) (path code message : String) : List ValidationIssue :=
  if condition then [] else [⟨path, code, message⟩]

@[simp] theorem expect_eq_nil_iff {condition : Bool} {path code message : String} :
    expect condition path code message = [] ↔ condition = true := by
  unfold expect
  split_ifs with h <;> simp [h]

/-! ### Identifiers and references -/

/-- `duplicateIssues` : one issue for every value that is repeated. -/
def duplicateIssues (values : List String) (path : String) : List ValidationIssue :=
  (values.dedup.filter fun value => decide (2 ≤ values.count value)).map fun _ =>
    ⟨path, "semantic.duplicate_id", "duplicate ID"⟩

theorem duplicateIssues_eq_nil_iff {values : List String} {path : String} :
    duplicateIssues values path = [] ↔ values.Nodup := by
  simp only [duplicateIssues, map_eq_nil_iff, filter_eq_nil_iff, mem_dedup,
    decide_eq_true_eq, Nat.not_le, nodup_iff_count_le_one]
  constructor
  · intro h value
    by_cases hmem : value ∈ values
    · exact Nat.le_of_lt_succ (h value hmem)
    · simp [count_eq_zero_of_not_mem hmem]
  · exact fun h value _ => Nat.lt_succ_of_le (h value)

/-- `evidenceReference` : the identifiers refer to evidence. -/
def evidenceReference (ids evidenceIds : List String) (path : String) : List ValidationIssue :=
  forEachIndexed ids fun id index =>
    expect (evidenceIds.contains id) (path ++ "/" ++ toString index)
      "semantic.dangling_reference" "unknown evidence reference"

namespace ContractSnapshot

variable (host : Host) (snapshot : ContractSnapshot)

def endpointIds : List String := snapshot.endpoints.map Endpoint.endpointId

def evidenceIds : List String := snapshot.evidence.map Evidence.evidenceId

def claimIds : List String := snapshot.claims.map Claim.claimId

def schemaIds : List String := snapshot.schemas.map Prod.fst

def securitySchemeIds : List String := (snapshot.securitySchemes.getD []).map Prod.fst

/-- Identifiers and route keys are unique, and the source is that of the service. -/
def identifierIssues : List ValidationIssue :=
  duplicateIssues snapshot.endpointIds "/endpoints" ++
  duplicateIssues snapshot.evidenceIds "/evidence" ++
  duplicateIssues snapshot.claimIds "/claims" ++
  duplicateIssues (snapshot.diagnostics.map Diagnostic.diagnosticId) "/diagnostics" ++
  duplicateIssues (snapshot.editorialReviews.map EditorialReview.reviewId) "/editorial_reviews" ++
  duplicateIssues (snapshot.exportEligibility.map ExportEligibility.eligibilityId)
    "/export_eligibility" ++
  expect (decide (snapshot.endpoints.map fun endpoint => endpoint.identity.routeKey).Nodup)
    "/endpoints" "semantic.route_identity_collision"
    "multiple endpoints have the same route identity" ++
  expect (snapshot.source.repositoryId == snapshot.service.repositoryId) "/source/repository_id"
    "semantic.cross_repository_reference" "source repository differs from service repository"

/-- Evidence belongs to the service, the snapshot and one of its endpoints. -/
def evidenceIssues : List ValidationIssue :=
  forEachIndexed snapshot.evidence fun evidence index =>
    expect (evidence.scope.serviceId == snapshot.service.serviceId)
      s!"/evidence/{index}/scope/service_id" "semantic.cross_service_reference"
      "evidence belongs to another service" ++
    expect (evidence.scope.snapshotId.all (· == snapshot.snapshotId))
      s!"/evidence/{index}/scope/snapshot_id" "semantic.dangling_reference"
      "evidence references another snapshot" ++
    expect (evidence.scope.endpointId.all snapshot.endpointIds.contains)
      s!"/evidence/{index}/scope/endpoint_id" "semantic.dangling_reference"
      "unknown endpoint reference"

end ContractSnapshot

/-! ### Endpoints -/

section Endpoints

variable (host : Host) (snapshot : ContractSnapshot)

/-- The identity of an endpoint is the one derived from its method, path and selectors. -/
def identityIssues (endpoint : Endpoint) (index : ℕ) : List ValidationIssue :=
  expect (endpoint.identity.serviceId == snapshot.service.serviceId)
    s!"/endpoints/{index}/identity/service_id" "semantic.cross_service_reference"
    "endpoint belongs to another service" ++
  match deriveEndpointIdentity host
      { identityVersion := endpoint.identity.identityVersion
        serviceId := endpoint.identity.serviceId
        method := endpoint.identity.method
        applicationPath := endpoint.applicationPath
        selectors := some endpoint.identity.selectors } with
  | none =>
    [⟨s!"/endpoints/{index}/application_path", "semantic.invalid_path_syntax",
      "application path contains malformed or unsupported placeholder syntax"⟩]
  | some expected =>
    expect (expected.routeKey == endpoint.identity.routeKey &&
        expected.normalizedPathShape == endpoint.identity.normalizedPathShape &&
        canonicalJson host.localeCompare expected.selectors.toJson ==
          canonicalJson host.localeCompare endpoint.identity.selectors.toJson)
      s!"/endpoints/{index}/identity" "semantic.identity_mismatch"
      "route identity does not match method, path, and selectors"

/-- The requirements of one declared alternative. -/
def requirementIssues (requirements : List SecurityRequirement) (index alternativeIndex : ℕ) :
    List ValidationIssue :=
  forEachIndexed requirements fun requirement requirementIndex =>
    let alternative := s!"/endpoints/{index}/security/alternatives/{alternativeIndex}"
    let path := s!"{alternative}/requirements/{requirementIndex}/scheme"
    (if snapshot.securitySchemeIds.contains requirement.scheme then
      expect requirement.scopes.isEmpty (path ++ "/scopes") "semantic.invalid_security_scopes"
        "apiKey and HTTP security requirements cannot declare scopes"
    else [⟨path, "semantic.dangling_reference", "security scheme definition is absent"⟩]) ++
    expect (!((requirements.take requirementIndex).map SecurityRequirement.scheme).contains
        requirement.scheme) path "semantic.duplicate_id" "security requirement repeats a scheme"

/-- The evidence of the security of an endpoint covers the endpoint. -/
def securityEvidenceIssues (endpoint : Endpoint) (index : ℕ) : List ValidationIssue :=
  forEachIndexed (endpoint.security.evidenceIds.getD []) fun id evidenceIndex =>
    let path := s!"/endpoints/{index}/security/evidence_ids/{evidenceIndex}"
    match snapshot.evidence.find? (·.evidenceId == id) with
    | none => [⟨path, "semantic.dangling_reference", "unknown security evidence"⟩]
    | some found =>
      expect (found.scope.serviceId == snapshot.service.serviceId &&
          found.scope.snapshotId == some snapshot.snapshotId &&
          found.scope.endpointId.all (· == endpoint.endpointId))
        path "semantic.scope_mismatch" "security evidence does not cover the endpoint"

/-- The explicit state of the security of an endpoint agrees with its alternatives. -/
def securityIssues (endpoint : Endpoint) (index : ℕ) : List ValidationIssue :=
  (match endpoint.security.state with
    | none => []
    | some state =>
      expect (decide (state = .declared) == !endpoint.security.alternatives.isEmpty)
        s!"/endpoints/{index}/security/state" "semantic.security_state_mismatch"
        "explicit security state and requirements disagree" ++
      expect (decide (state = .unknown) || !(endpoint.security.evidenceIds.getD []).isEmpty)
        s!"/endpoints/{index}/security/evidence_ids" "semantic.missing_evidence"
        "explicit security requires evidence" ++
      (if state = .declared then
        forEachIndexed endpoint.security.alternatives fun requirements alternativeIndex =>
          requirementIssues snapshot requirements index alternativeIndex
      else [])) ++
  securityEvidenceIssues snapshot endpoint index

/-- `schema[keyword]`. -/
def keyword? (schema : Json) (keyword : String) : Option Json :=
  match schema with
  | .obj ms => ms.lookup keyword
  | _ => none

/-- `String(value)` for the `type` of a schema: the names of a list are joined by commas. -/
def typeText : Option Json → String
  | some (.str name) => name
  | some (.arr names) => ",".intercalate <| names.map fun name =>
    match name with
    | .str name => name
    | _ => ""
  | _ => "undefined"

/-- `[A-Za-z0-9!#$&^_.+-]`. -/
def isMediaTypeChar (c : Char) : Bool := c.isAlphanum || "!#$&^_.+-".toList.contains c

/-- `/^[A-Za-z0-9!#$&^_.+-]+\/[A-Za-z0-9!#$&^_.+*-]+$/`. -/
def isPartContentType (s : String) : Bool :=
  match s.toList.span (· != '/') with
  | (type, _ :: subtype) =>
    !type.isEmpty && type.all isMediaTypeChar && !subtype.isEmpty &&
      subtype.all fun c => isMediaTypeChar c || c == '*'
  | _ => false

def encodingIssues (body : RequestBody) (name : String) (encoding : FormEncoding)
    (path : String) : List ValidationIssue :=
  let properties := match keyword? body.schema "properties" with
    | some (.obj properties) => properties
    | _ => []
  let property := (properties.lookup name).getD .null
  let propertyType := keyword? property "type"
  let styleMode := encoding.style.isSome || encoding.explode.isSome
  let invalid := "semantic.invalid_form_encoding"
  evidenceReference encoding.evidenceIds snapshot.evidenceIds (path ++ "/evidence_ids") ++
  expect (["application/x-www-form-urlencoded", "multipart/form-data"].contains body.mediaType &&
      decide (keyword? body.schema "type" = some (.str "object")) &&
      (properties.map Prod.fst).contains name) path invalid
    "encoding requires a direct form object property" ++
  expect (if styleMode
      then encoding.style.isSome && encoding.explode.isSome && encoding.contentType.isNone
      else encoding.contentType.isSome) path invalid
    "encoding requires either style/explode or content type" ++
  expect (!(encoding.style == some .spaceDelimited || encoding.style == some .pipeDelimited) ||
      (encoding.explode == some false && decide (propertyType = some (.str "array")))) path invalid
    "delimited form encoding requires a non-exploded array" ++
  expect (!styleMode || decide (propertyType = some (.str "array")) ||
      ["string", "integer", "number", "boolean"].contains (typeText propertyType)) path invalid
    "unsupported form property type" ++
  expect (encoding.contentType.all isPartContentType) path invalid "unsupported part content type"

/-- The encodings and the presence of one request body. -/
def requestBodyIssues (body : RequestBody) (index bodyIndex : ℕ) : List ValidationIssue :=
  let bodyPath := s!"/endpoints/{index}/request_bodies/{bodyIndex}"
  expect (!(snapshot.irVersion == "1.0.0" && body.encoding.isSome)) (bodyPath ++ "/encoding")
    "semantic.unsupported_version_field" "form encoding requires IR 1.1.0" ++
  ((body.encoding.getD []).flatMap fun (name, encoding) =>
    encodingIssues snapshot body name encoding
      (bodyPath ++ "/encoding/" ++ jsonPointerSegment name)) ++
  evidenceReference body.presence.evidenceIds snapshot.evidenceIds
    (bodyPath ++ "/presence/evidence_ids")

def endpointIssues (endpoint : Endpoint) (index : ℕ) : List ValidationIssue :=
  identityIssues host snapshot endpoint index ++
  securityIssues snapshot endpoint index ++
  evidenceReference endpoint.evidenceIds snapshot.evidenceIds
    s!"/endpoints/{index}/evidence_ids" ++
  (forEachIndexed endpoint.parameters fun parameter parameterIndex =>
    evidenceReference parameter.presence.evidenceIds snapshot.evidenceIds
      s!"/endpoints/{index}/parameters/{parameterIndex}/presence/evidence_ids") ++
  forEachIndexed endpoint.requestBodies fun body bodyIndex =>
    requestBodyIssues snapshot body index bodyIndex

end Endpoints

/-! ### Components, claims and eligibility -/

namespace ContractSnapshot

variable (host : Host) (snapshot : ContractSnapshot)

/-- `/^[A-Za-z0-9._-]+$/`. -/
def isComponentKey (s : String) : Bool :=
  !s.isEmpty && s.toList.all fun c => c.isAlphanum || c == '.' || c == '_' || c == '-'

/-- Security schemes have usable names and evidence that covers the service. -/
def securitySchemeIssues : List ValidationIssue :=
  (snapshot.securitySchemes.getD []).flatMap fun (name, fact) =>
    (match fact.definition with
      | .http scheme (some _) =>
        expect (host.toLowerCase scheme == "bearer")
          s!"/security_schemes/{name}/definition/bearerFormat" "semantic.invalid_bearer_format"
          "bearerFormat only applies to HTTP bearer schemes"
      | _ => []) ++
    expect (isComponentKey name) s!"/security_schemes/{name}" "semantic.invalid_component_key"
      "security scheme name cannot be used as an OpenAPI component key" ++
    forEachIndexed fact.evidenceIds fun id index =>
      let path := s!"/security_schemes/{name}/evidence_ids/{index}"
      match snapshot.evidence.find? (·.evidenceId == id) with
      | none => [⟨path, "semantic.dangling_reference", "unknown security scheme evidence"⟩]
      | some evidence =>
        expect (evidence.scope.serviceId == snapshot.service.serviceId &&
            evidence.scope.snapshotId == some snapshot.snapshotId &&
            evidence.scope.endpointId.isNone)
          path "semantic.scope_mismatch" "security scheme evidence must cover the service"

/-- Components are filed under their identifiers. -/
def componentIssues : List ValidationIssue :=
  snapshot.schemas.flatMap fun entry =>
    let (key, component) := entry
    expect (key == component.schemaId) s!"/schemas/{key}/schema_id" "semantic.identity_mismatch"
      "schema key and ID differ" ++
    evidenceReference component.evidenceIds snapshot.evidenceIds s!"/schemas/{key}/evidence_ids"

/-- Claims belong to the service and one of its endpoints, reviews to a claim. -/
def claimIssues : List ValidationIssue :=
  (forEachIndexed snapshot.claims fun claim index =>
    expect (claim.subject.serviceId == snapshot.service.serviceId)
      s!"/claims/{index}/subject/service_id" "semantic.cross_service_reference"
      "claim belongs to another service" ++
    expect (claim.subject.endpointId.all snapshot.endpointIds.contains)
      s!"/claims/{index}/subject/endpoint_id" "semantic.dangling_reference"
      "unknown endpoint reference" ++
    evidenceReference claim.evidenceIds snapshot.evidenceIds s!"/claims/{index}/evidence_ids") ++
  forEachIndexed snapshot.editorialReviews fun review index =>
    expect (snapshot.claimIds.contains review.claimId) s!"/editorial_reviews/{index}/claim_id"
      "semantic.dangling_reference" "unknown claim reference"

end ContractSnapshot

def ConditionOperator.name : ConditionOperator → String
  | .and => "and"
  | .or => "or"
  | .not => "not"
  | .equals => "equals"
  | .present => "present"

mutual

def Condition.toJson : Condition → Json
  | .predicate operator field value operands paths =>
    .obj ([("kind", .str "predicate"), ("operator", .str operator.name)] ++
      (field.map fun field => ("field", Json.str field)).toList ++
      (value.map fun value => ("value", value)).toList ++
      optionalOperandsToJson operands ++
      [("affected_schema_paths", stringArray paths)])
  | .businessExpression expression scope paths =>
    .obj [("kind", .str "business_expression"), ("expression", .str expression),
      ("scope", .str scope), ("affected_schema_paths", stringArray paths)]

def optionalOperandsToJson : Option (List Condition) → List (String × Json)
  | none => []
  | some operands => [("operands", .arr (operandsToJson operands))]

def operandsToJson : List Condition → List Json
  | [] => []
  | operand :: rest => operand.toJson :: operandsToJson rest

end

/-- `qualifyingMethodByBasis`. -/
def BasisKind.qualifyingMethod : BasisKind → EvidenceMethod
  | .supportedRuntimeValidator => .runtimeValidator
  | .deterministicAnalysis => .deterministicAnalysis
  | .behavioralVerification => .behavioralVerification

/-- `qualifyingMethods`. -/
def EvidenceMethod.isQualifying : EvidenceMethod → Bool
  | .runtimeValidator | .deterministicAnalysis | .behavioralVerification => true
  | _ => false

section Eligibility

variable (host : Host) (snapshot : ContractSnapshot)

def conditionKey : Option Condition → String
  | none => "<unconditional>"
  | some condition => canonicalJson host.localeCompare condition.toJson

/-- Another claim about the same subject under the same condition has another value. -/
def contradicts (claim candidate : Claim) : Bool :=
  candidate.claimId != claim.claimId && candidate.predicate == claim.predicate &&
    decide (candidate.subject = claim.subject) &&
    conditionKey host candidate.condition == conditionKey host claim.condition &&
    canonicalJson host.localeCompare candidate.value != canonicalJson host.localeCompare claim.value

/-- The evidence of a basis qualifies and covers the scope of the claim. -/
def basisIssues (eligibility : ExportEligibility) (claim : Option Claim) (kind : BasisKind)
    (ids : List String) (index : ℕ) : List ValidationIssue :=
  forEachIndexed ids fun id evidenceIndex =>
    let path := s!"/export_eligibility/{index}/basis/evidence_ids/{evidenceIndex}"
    match (OrderedMap.ofEntries (snapshot.evidence.map fun e => (e.evidenceId, e))).get? id with
    | none => [⟨path, "semantic.dangling_reference", "unknown evidence reference"⟩]
    | some evidence =>
      expect (claim.all fun claim => claim.evidenceIds.contains id) path
        "semantic.unrelated_evidence" "eligibility evidence is not attached to the claim" ++
      expect evidence.method.isQualifying path "semantic.ineligible_evidence"
        "evidence method cannot establish normative eligibility" ++
      expect (evidence.method == kind.qualifyingMethod) path "semantic.basis_mismatch"
        "eligibility basis does not match the evidence method" ++
      expect (evidence.scope.snapshotId == some snapshot.snapshotId &&
          evidence.scope.serviceId == eligibility.scope.serviceId &&
          (match claim.bind fun claim => claim.subject.endpointId with
            | some endpointId => evidence.scope.endpointId == some endpointId
            | none => evidence.scope.endpointId.isNone)) path
        "semantic.scope_mismatch" "eligibility evidence does not cover the claim scope"

def eligibilityIssues (eligibility : ExportEligibility) (index : ℕ) : List ValidationIssue :=
  let path := s!"/export_eligibility/{index}"
  let claim :=
    (OrderedMap.ofEntries (snapshot.claims.map fun c => (c.claimId, c))).get? eligibility.claimId
  expect (snapshot.claimIds.contains eligibility.claimId) (path ++ "/claim_id")
    "semantic.dangling_reference" "unknown claim reference" ++
  expect (eligibility.scope.serviceId == snapshot.service.serviceId) (path ++ "/scope/service_id")
    "semantic.cross_service_reference" "eligibility belongs to another service" ++
  expect (eligibility.scope.snapshotId == snapshot.snapshotId) (path ++ "/scope/snapshot_id")
    "semantic.dangling_reference" "eligibility references another snapshot" ++
  (forEachIndexed eligibility.scope.endpointIds fun id endpointIndex =>
    expect (snapshot.endpointIds.contains id) s!"{path}/scope/endpoint_ids/{endpointIndex}"
      "semantic.dangling_reference" "unknown endpoint reference") ++
  match eligibility.status with
  | .ineligible _ => []
  | .eligible kind ids =>
    expect ((claim.bind fun claim => claim.subject.endpointId).all
        eligibility.scope.endpointIds.contains) (path ++ "/scope/endpoint_ids")
      "semantic.scope_mismatch" "eligibility scope excludes the claim subject" ++
    expect (claim.all fun claim => !snapshot.claims.any (contradicts host claim))
      (path ++ "/claim_id") "semantic.conflicting_claims"
      "eligible claim has an unresolved contradiction" ++
    basisIssues snapshot eligibility claim kind ids index

end Eligibility

/-! ### Dependencies, coverage and schemas -/

namespace ContractSnapshot

variable (host : Host) (snapshot : ContractSnapshot)

/-- Dependencies join existing endpoints, schemas and evidence. -/
def dependencyIssues : List ValidationIssue :=
  forEachIndexed snapshot.dependencies fun dependency index =>
    expect (snapshot.endpointIds.contains dependency.fromEndpointId)
      s!"/dependencies/{index}/from_endpoint_id" "semantic.dangling_reference"
      "unknown endpoint reference" ++
    expect (match dependency.target with
        | .endpoint id => snapshot.endpointIds.contains id
        | .schema id => snapshot.schemaIds.contains id
        | .evidence id => snapshot.evidenceIds.contains id)
      s!"/dependencies/{index}/to/id" "semantic.dangling_reference"
      "unknown dependency target" ++
    evidenceReference dependency.evidenceIds snapshot.evidenceIds
      s!"/dependencies/{index}/evidence_ids"

/-- Diagnostics and coverage refer to what exists; incomplete coverage names a diagnostic. -/
def coverageIssues : List ValidationIssue :=
  (forEachIndexed snapshot.diagnostics fun diagnostic index =>
    (forEachIndexed diagnostic.affectedEndpointIds fun id endpointIndex =>
      expect (snapshot.endpointIds.contains id)
        s!"/diagnostics/{index}/affected_endpoint_ids/{endpointIndex}"
        "semantic.dangling_reference" "unknown endpoint reference") ++
    evidenceReference diagnostic.evidenceIds snapshot.evidenceIds
      s!"/diagnostics/{index}/evidence_ids") ++
  (forEachIndexed snapshot.coverage.diagnosticIds fun id index =>
    expect ((snapshot.diagnostics.map Diagnostic.diagnosticId).contains id)
      s!"/coverage/diagnostic_ids/{index}" "semantic.dangling_reference"
      "unknown diagnostic reference") ++
  expect (!(snapshot.coverage.isIncomplete && snapshot.coverage.diagnosticIds.isEmpty))
    "/coverage/diagnostic_ids" "semantic.incomplete_coverage_without_diagnostic"
    "incomplete coverage must identify affected diagnostics"

end ContractSnapshot

def isComponentRef (ref : String) : Bool := componentPrefix.toList.isPrefixOf ref.toList

/-- `ref.slice("#/schemas/".length)`. -/
def referencedComponent (ref : String) : String :=
  String.ofList (ref.toList.drop componentPrefix.length)

namespace ContractSnapshot

variable (host : Host) (snapshot : ContractSnapshot)

/-- The references at schema positions, with their pointers. -/
def schemaRefs : List (String × String) :=
  snapshot.schemaRoots.flatMap fun root => collectSchemaRefs root.2 root.1

/-- References at schema positions are local and refer to components. -/
def refIssues : List ValidationIssue :=
  snapshot.schemaRefs.flatMap fun item =>
    if isComponentRef item.1 then
      expect (snapshot.schemaIds.contains (referencedComponent item.1)) item.2
        "semantic.dangling_reference" "unknown schema reference"
    else [⟨item.2, "semantic.invalid_api_schema",
      "only local component references are supported"⟩]

/-- The graph of definitions that is handed to Ajv. -/
def schemaGraph : Json :=
  let definitions := snapshot.schemas.map fun (id, component) =>
    (id, translateComponentRefs component.schema)
  let candidates :=
    (snapshot.schemaIds.map fun id => Json.obj [("$ref", .str ("#/$defs/" ++
      jsonPointerSegment id))]) ++
    (snapshot.endpoints.flatMap Endpoint.schemas).map translateComponentRefs
  .obj ([("$schema", .str "https://json-schema.org/draft/2020-12/schema"),
    ("$defs", .obj definitions)] ++
    if candidates.isEmpty then [] else [("anyOf", .arr candidates)])

/-- `embeddedSchemaIssues` : `enum` members are distinct and Ajv compiles the graph. -/
def embeddedSchemaIssues : List ValidationIssue :=
  if snapshot.schemaRoots.any fun root => containsDuplicateEnum host.localeCompare root.2
  then [⟨"/schemas", "semantic.invalid_api_schema", "embedded schema enum values must be unique"⟩]
  else expect (host.ajvCompiles snapshot.schemaGraph) "/schemas" "semantic.invalid_api_schema"
    "embedded schema graph cannot be compiled"

/-- The issues found before the schema graph is compiled. -/
def referenceIssues : List ValidationIssue :=
  snapshot.identifierIssues ++ snapshot.evidenceIssues ++
  (forEachIndexed snapshot.endpoints fun endpoint index =>
    endpointIssues host snapshot endpoint index) ++
  snapshot.securitySchemeIssues host ++ snapshot.componentIssues ++ snapshot.claimIssues ++
  (forEachIndexed snapshot.exportEligibility fun eligibility index =>
    eligibilityIssues host snapshot eligibility index) ++
  snapshot.dependencyIssues ++ snapshot.coverageIssues ++ snapshot.refIssues

/-- `validateContractSnapshotSemantics`; the schema graph is compiled when every reference
resolves. -/
def validateContractSnapshotSemantics : List ValidationIssue :=
  let issues := snapshot.referenceIssues host
  if issues.any fun item => item.code == "semantic.invalid_api_schema" ||
      item.code == "semantic.dangling_reference"
  then issues
  else issues ++ snapshot.embeddedSchemaIssues host

/-- `parseContractSnapshot` accepts the snapshot. -/
def Accepted : Prop :=
  snapshot.hasShape host = true ∧ snapshot.validateContractSnapshotSemantics host = []

instance : Decidable (snapshot.Accepted host) := inferInstanceAs (Decidable (_ ∧ _))

variable {host snapshot}

theorem validateContractSnapshotSemantics_eq_nil_iff :
    snapshot.validateContractSnapshotSemantics host = [] ↔
      snapshot.referenceIssues host = [] ∧ snapshot.embeddedSchemaIssues host = [] := by
  simp only [validateContractSnapshotSemantics]
  split_ifs with h
  · have hne : snapshot.referenceIssues host ≠ [] := by
      intro hnil
      simp [hnil] at h
    simp [hne]
  · exact append_eq_nil_iff

theorem mem_schemaRefs {ref : String} : ref ∈ snapshot.schemaRefs.map Prod.fst ↔
    ∃ schema ∈ snapshot.schemas.map (fun entry => entry.2.schema) ++
        snapshot.endpoints.flatMap Endpoint.schemas,
      ∃ node, SchemaPosition schema node ∧ refOf node = some ref := by
  rw [schemaRefs, map_flatMap, mem_flatMap, ← map_snd_schemaRoots]
  constructor
  · rintro ⟨root, hroot, href⟩
    exact ⟨root.2, List.mem_map_of_mem hroot, mem_collectSchemaRefs.mp href⟩
  · rintro ⟨schema, hschema, hnode⟩
    obtain ⟨root, hroot, rfl⟩ := List.mem_map.mp hschema
    exact ⟨root, hroot, mem_collectSchemaRefs.mpr hnode⟩

variable (h : snapshot.Accepted host)

include h in
theorem Accepted.ref {ref : String} (href : ref ∈ snapshot.schemaRefs.map Prod.fst) :
    isComponentRef ref = true ∧ referencedComponent ref ∈ snapshot.schemaIds := by
  have hissues : snapshot.refIssues = [] := by
    have := (validateContractSnapshotSemantics_eq_nil_iff.mp h.2).1
    simp only [referenceIssues, append_eq_nil_iff] at this
    exact this.2
  obtain ⟨item, hitem, rfl⟩ := List.mem_map.mp href
  have hitem' := List.flatMap_eq_nil_iff.mp hissues item hitem
  split_ifs at hitem' with hlocal
  · exact ⟨hlocal, by simpa using hitem'⟩

include h in
/-- The endpoints and the evidence of an accepted snapshot have distinct identifiers. -/
theorem Accepted.nodup_ids :
    snapshot.endpointIds.Nodup ∧ snapshot.evidenceIds.Nodup := by
  have hissues : snapshot.identifierIssues = [] := by
    have := (validateContractSnapshotSemantics_eq_nil_iff.mp h.2).1
    simp only [referenceIssues, append_eq_nil_iff] at this
    tauto
  simp only [identifierIssues, append_eq_nil_iff, duplicateIssues_eq_nil_iff] at hissues
  tauto

include h in
/-- The components of an accepted snapshot are filed under their nonempty identifiers. -/
theorem Accepted.component {entry : String × SchemaComponent} (hentry : entry ∈ snapshot.schemas) :
    entry.1 = entry.2.schemaId ∧ entry.1 ≠ "" := by
  have hissues : snapshot.componentIssues = [] := by
    have := (validateContractSnapshotSemantics_eq_nil_iff.mp h.2).1
    simp only [referenceIssues, append_eq_nil_iff] at this
    tauto
  have hentry' := List.flatMap_eq_nil_iff.mp hissues entry hentry
  simp only [append_eq_nil_iff, expect_eq_nil_iff] at hentry'
  have hshape : (snapshot.schemas.all fun entry : String × SchemaComponent =>
      nonEmpty entry.2.schemaId && isApiSchema entry.2.schema &&
        someUniqueIds entry.2.evidenceIds) = true := by
    have := h.1
    simp only [hasShape, Bool.and_eq_true] at this
    tauto
  have hne := List.all_eq_true.mp hshape entry hentry
  simp only [nonEmpty, Bool.and_eq_true, bne_iff_ne] at hne
  have hkey := eq_of_beq hentry'.1
  exact ⟨hkey, hkey ▸ hne.1.1⟩

include h in
theorem Accepted.derived {endpoint : Endpoint} (hendpoint : endpoint ∈ snapshot.endpoints) :
    ∃ expected, deriveEndpointIdentity host
      { identityVersion := endpoint.identity.identityVersion
        serviceId := endpoint.identity.serviceId
        method := endpoint.identity.method
        applicationPath := endpoint.applicationPath
        selectors := some endpoint.identity.selectors } = some expected ∧
      expected.normalizedPathShape = endpoint.identity.normalizedPathShape := by
  have hissues := (validateContractSnapshotSemantics_eq_nil_iff.mp h.2).1
  simp only [referenceIssues, append_eq_nil_iff,
    forEachIndexed_eq_nil_iff, endpointIssues] at hissues
  obtain ⟨i, hi, rfl⟩ := List.mem_iff_getElem.mp hendpoint
  have hidentity := (hissues.1.1.1.1.1.1.1.2 i hi).1.1.1.1
  simp only [identityIssues, append_eq_nil_iff] at hidentity
  have hmatch := hidentity.2
  split at hmatch
  · simp at hmatch
  · rename_i expected hexpected
    simp only [expect_eq_nil_iff, Bool.and_eq_true] at hmatch
    exact ⟨expected, hexpected, eq_of_beq hmatch.1.2⟩

end ContractSnapshot

/-! ### A small snapshot -/

/-- An endpoint without parameters, selectors and bodies. -/
def sampleEndpoint : Endpoint where
  endpointId := "ep"
  identity :=
    { identityVersion := "1.0.0"
      routeKey := "1.0.0|svc|GET|/a|" ++ stableSelectors {}
      serviceId := "svc"
      method := "GET"
      normalizedPathShape := "/a"
      selectors := {} }
  applicationPath := "/a"
  parameters := []
  requestBodies := []
  responses := [{ status := .exact 200, content := [] }]
  security := { alternatives := [] }
  evidenceIds := ["ev"]

/-- A complete snapshot of one endpoint with one piece of evidence. -/
def sampleSnapshot : ContractSnapshot where
  irVersion := "1.1.0"
  identityVersion := "1.0.0"
  snapshotId := "snap"
  service := { serviceId := "svc", repositoryId := "repo", root := "." }
  source := { repositoryId := "repo", immutableRevision := "0123456789ab", sourceDigest := "d" }
  analyzer := { analyzerId := "an", analyzerVersion := "1" }
  config := { configVersion := "1.0.0", configFingerprint := "cfg" }
  createdAt := "2024-01-01T00:00:00Z"
  coverage := .complete ["."] []
  evidence := [
    { evidenceId := "ev"
      sourceKind := "code"
      sourceId := "src"
      sourceVersion := "1"
      location := { path := some "a.ts" }
      method := .deterministicAnalysis
      scope := { serviceId := "svc", snapshotId := some "snap" }
      limitations := []
      accessLabel := "internal" }]
  schemas := []
  endpoints := [sampleEndpoint]
  claims := []
  editorialReviews := []
  exportEligibility := []
  dependencies := []
  diagnostics := []

example : sampleSnapshot.Accepted .ascii := by decide +kernel

end ApiTruth.Ir
