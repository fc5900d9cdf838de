import ApiTruth.Foundation.Json.Size
import ApiTruth.Ir.Validation

/-!
# Contract snapshots as JSON values

The JSON value that a contract snapshot is handed over as.  Its members are those of the schemas of
the snapshot; an absent optional member is left out.

## Main definitions

* `ContractSnapshot.toJson`, `Endpoint.toJson`, `Claim.toJson`, `Evidence.toJson`.
-/

namespace ApiTruth.Ir

open Json

def optionalMember {α : Type*} (name : String) (encode : α → Json) (value : Option α) :
    List (String × Json) :=
  (value.map fun a => (name, encode a)).toList

/-- An object whose values are encoded one by one. -/
def recordOf {α : Type*} (encode : α → Json) (entries : List (String × α)) : Json :=
  .obj (entries.map fun entry => (entry.1, encode entry.2))

/-- An array whose items are encoded one by one. -/
def arrayOf {α : Type*} (encode : α → Json) (items : List α) : Json := .arr (items.map encode)

def numberOf (n : ℕ) : Json := .num (JsonNumber.ofNat n)

/-! ### Evidence and claims -/

def EvidenceMethod.name : EvidenceMethod → String
  | .typeDeclaration => "type_declaration"
  | .runtimeValidator => "runtime_validator"
  | .observation => "observation"
  | .behavioralVerification => "behavioral_verification"
  | .deterministicAnalysis => "deterministic_analysis"
  | .inference => "inference"
  | .ownerAssertion => "owner_assertion"

def Evidence.toJson (evidence : Evidence) : Json :=
  .obj [("evidence_id", .str evidence.evidenceId),
    ("source", .obj [("kind", .str evidence.sourceKind), ("source_id", .str evidence.sourceId)]),
    ("source_version", .str evidence.sourceVersion),
    ("location", .obj (optionalMember "path" .str evidence.location.path ++
      optionalMember "symbol" .str evidence.location.symbol ++
      optionalMember "pointer" .str evidence.location.pointer ++
      optionalMember "line" numberOf evidence.location.line)),
    ("method", .str evidence.method.name),
    ("scope", .obj ([("service_id", .str evidence.scope.serviceId)] ++
      optionalMember "snapshot_id" .str evidence.scope.snapshotId ++
      optionalMember "endpoint_id" .str evidence.scope.endpointId ++
      optionalMember "revision" .str evidence.scope.revision)),
    ("limitations", stringArray evidence.limitations),
    ("access_label", .str evidence.accessLabel)]

def PresenceState.name : PresenceState → String
  | .required => "required"
  | .optional => "optional"
  | .unknown => "unknown"

def Presence.toJson : Presence → Json
  | .conditional condition ids =>
    .obj [("state", .str "conditional"), ("condition", condition.toJson),
      ("evidence_ids", stringArray ids)]
  | .plain state ids => .obj [("state", .str state.name), ("evidence_ids", stringArray ids)]

def Verification.name : Verification → String
  | .declared => "declared"
  | .establishedByAnalysis => "established_by_analysis"
  | .observed => "observed"
  | .inferred => "inferred"
  | .ownerAsserted => "owner_asserted"

def Claim.toJson (claim : Claim) : Json :=
  .obj ([("claim_id", .str claim.claimId),
    ("subject", .obj ([("service_id", .str claim.subject.serviceId)] ++
      optionalMember "endpoint_id" .str claim.subject.endpointId ++
      optionalMember "schema_pointer" .str claim.subject.schemaPointer)),
    ("predicate", .str claim.predicate), ("value", claim.value),
    ("verification", .str claim.verification.name)] ++
    optionalMember "condition" Condition.toJson claim.condition ++
    [("evidence_ids", stringArray claim.evidenceIds)])

def ReviewState.name : ReviewState → String
  | .accepted => "accepted"
  | .rejected => "rejected"
  | .needsReview => "needs_review"

def EditorialReview.toJson (review : EditorialReview) : Json :=
  .obj [("review_id", .str review.reviewId), ("claim_id", .str review.claimId),
    ("state", .str review.state.name), ("reviewer_id", .str review.reviewerId),
    ("reviewed_at", .str review.reviewedAt), ("explanation", .str review.explanation)]

def BasisKind.name : BasisKind → String
  | .supportedRuntimeValidator => "supported_runtime_validator"
  | .deterministicAnalysis => "deterministic_analysis"
  | .behavioralVerification => "behavioral_verification"

def ExportEligibility.toJson (eligibility : ExportEligibility) : Json :=
  .obj ([("eligibility_id", .str eligibility.eligibilityId), ("claim_id", .str eligibility.claimId),
    ("status", .str (match eligibility.status with
      | .eligible .. => "eligible"
      | .ineligible _ => "ineligible")),
    ("scope", .obj [("service_id", .str eligibility.scope.serviceId),
      ("snapshot_id", .str eligibility.scope.snapshotId),
      ("endpoint_ids", stringArray eligibility.scope.endpointIds)]),
    ("policy_version", .str eligibility.policyVersion),
    ("evidence_fingerprint", .str eligibility.evidenceFingerprint)] ++
    match eligibility.status with
    | .eligible kind ids => [("basis", .obj [("kind", .str kind.name),
        ("evidence_ids", stringArray ids)])]
    | .ineligible reason => [("reason", .str reason)])

/-! ### Endpoints -/

def EndpointIdentity.toJson (identity : EndpointIdentity) : Json :=
  .obj [("identity_version", .str identity.identityVersion), ("route_key", .str identity.routeKey),
    ("service_id", .str identity.serviceId), ("method", .str identity.method),
    ("normalized_path_shape", .str identity.normalizedPathShape),
    ("selectors", identity.selectors.toJson)]

def Serialization.toJson (serialization : Serialization) : Json :=
  .obj (optionalMember "format" .str serialization.format ++
    optionalMember "style" .str serialization.style ++
    optionalMember "explode" .bool serialization.explode ++
    optionalMember "content_encoding" .str serialization.contentEncoding)

/-- The name of a parameter location. -/
def ParameterIn.name : ParameterIn → String
  | .path => "path"
  | .query => "query"
  | .header => "header"
  | .cookie => "cookie"

def Parameter.toJson (parameter : Parameter) : Json :=
  .obj [("name", .str parameter.name), ("in", .str parameter.location.name),
    ("presence", parameter.presence.toJson), ("schema", parameter.schema),
    ("serialization", parameter.serialization.toJson)]

def EncodingStyle.name : EncodingStyle → String
  | .form => "form"
  | .spaceDelimited => "spaceDelimited"
  | .pipeDelimited => "pipeDelimited"

def FormEncoding.toJson (encoding : FormEncoding) : Json :=
  .obj (optionalMember "style" (fun style => .str style.name) encoding.style ++
    optionalMember "explode" .bool encoding.explode ++
    optionalMember "content_type" .str encoding.contentType ++
    [("evidence_ids", stringArray encoding.evidenceIds)])

def RequestBody.toJson (body : RequestBody) : Json :=
  .obj ([("media_type", .str body.mediaType)] ++
    optionalMember "encoding" (recordOf FormEncoding.toJson) body.encoding ++
    [("schema", body.schema), ("serialization", body.serialization.toJson),
      ("presence", body.presence.toJson)])

def Content.toJson (content : Content) : Json :=
  .obj [("media_type", .str content.mediaType), ("schema", content.schema),
    ("serialization", content.serialization.toJson)]

def ResponseStatus.toJson : ResponseStatus → Json
  | .exact code => .obj [("kind", .str "exact"), ("code", numberOf code)]
  | .range value => .obj [("kind", .str "range"), ("range", .str value)]
  | .default => .obj [("kind", .str "default")]
  | .unknown reason => .obj [("kind", .str "unknown"), ("reason", .str reason)]

def Response.toJson (response : Response) : Json :=
  .obj ([("status", response.status.toJson), ("content", arrayOf Content.toJson response.content)] ++
    optionalMember "headers" (arrayOf fun header : ResponseHeader =>
      .obj [("name", .str header.name), ("schema", header.schema)]) response.headers)

def SecurityState.name : SecurityState → String
  | .unknown => "unknown"
  | .anonymous => "anonymous"
  | .declared => "declared"

/-- The security of an endpoint as a JSON value. -/
def EndpointSecurity.toJson (security : EndpointSecurity) : Json :=
  .obj (optionalMember "state" (fun state => .str state.name) security.state ++
    optionalMember "evidence_ids" stringArray security.evidenceIds ++
    [("alternatives", arrayOf (fun requirements : List SecurityRequirement =>
      .obj [("requirements", arrayOf (fun requirement : SecurityRequirement =>
        .obj [("scheme", .str requirement.scheme), ("scopes", stringArray requirement.scopes)])
        requirements)]) security.alternatives)])

def Endpoint.toJson (endpoint : Endpoint) : Json :=
  .obj [("endpoint_id", .str endpoint.endpointId), ("identity", endpoint.identity.toJson),
    ("application_path", .str endpoint.applicationPath),
    ("parameters", arrayOf Parameter.toJson endpoint.parameters),
    ("request_bodies", arrayOf RequestBody.toJson endpoint.requestBodies),
    ("responses", arrayOf Response.toJson endpoint.responses),
    ("security", endpoint.security.toJson), ("evidence_ids", stringArray endpoint.evidenceIds)]

/-! ### Snapshots -/

def SchemaComponent.toJson (component : SchemaComponent) : Json :=
  .obj [("schema_id", .str component.schemaId), ("schema", component.schema),
    ("evidence_ids", stringArray component.evidenceIds)]

/-- The name of the location of an API key. -/
def ApiKeyIn.name : ApiKeyIn → String
  | .header => "header"
  | .query => "query"
  | .cookie => "cookie"

def SecuritySchemeDefinition.toJson : SecuritySchemeDefinition → Json
  | .apiKey name location =>
    .obj [("type", .str "apiKey"), ("name", .str name), ("in", .str location.name)]
  | .http scheme bearerFormat =>
    .obj ([("type", .str "http"), ("scheme", .str scheme)] ++
      optionalMember "bearerFormat" .str bearerFormat)

def SecuritySchemeFact.toJson (fact : SecuritySchemeFact) : Json :=
  .obj [("definition", fact.definition.toJson), ("evidence_ids", stringArray fact.evidenceIds)]

def Severity.name : Severity → String
  | .info => "info"
  | .warning => "warning"
  | .error => "error"

def Diagnostic.toJson (diagnostic : Diagnostic) : Json :=
  .obj [("diagnostic_id", .str diagnostic.diagnosticId), ("code", .str diagnostic.code),
    ("severity", .str diagnostic.severity.name), ("message", .str diagnostic.message),
    ("affected_endpoint_ids", stringArray diagnostic.affectedEndpointIds),
    ("evidence_ids", stringArray diagnostic.evidenceIds)]

def Coverage.toJson : Coverage → Json
  | .complete roots ids =>
    .obj [("status", .str "complete"), ("analyzed_roots", stringArray roots),
      ("diagnostic_ids", stringArray ids)]
  | .incomplete roots unresolved reason ids =>
    .obj [("status", .str "incomplete"), ("analyzed_roots", stringArray roots),
      ("unresolved_roots", stringArray unresolved), ("reason", .str reason),
      ("diagnostic_ids", stringArray ids)]

def DependencyTarget.toJson : DependencyTarget → Json
  | .endpoint id => .obj [("kind", .str "endpoint"), ("id", .str id)]
  | .schema id => .obj [("kind", .str "schema"), ("id", .str id)]
  | .evidence id => .obj [("kind", .str "evidence"), ("id", .str id)]

def Dependency.toJson (dependency : Dependency) : Json :=
  .obj [("from_endpoint_id", .str dependency.fromEndpointId), ("to", dependency.target.toJson),
    ("evidence_ids", stringArray dependency.evidenceIds)]

def ContractSnapshot.toJson (snapshot : ContractSnapshot) : Json :=
  .obj ([("ir_version", .str snapshot.irVersion),
    ("identity_version", .str snapshot.identityVersion),
    ("snapshot_id", .str snapshot.snapshotId),
    ("service", .obj ([("service_id", .str snapshot.service.serviceId),
      ("repository_id", .str snapshot.service.repositoryId),
      ("root", .str snapshot.service.root)] ++
      optionalMember "label" .str snapshot.service.label)),
    ("source", .obj [("repository_id", .str snapshot.source.repositoryId),
      ("immutable_revision", .str snapshot.source.immutableRevision),
      ("source_digest", .str snapshot.source.sourceDigest)]),
    ("analyzer", .obj [("analyzer_id", .str snapshot.analyzer.analyzerId),
      ("analyzer_version", .str snapshot.analyzer.analyzerVersion)]),
    ("config", .obj [("config_version", .str snapshot.config.configVersion),
      ("config_fingerprint", .str snapshot.config.configFingerprint)]),
    ("created_at", .str snapshot.createdAt), ("coverage", snapshot.coverage.toJson),
    ("evidence", arrayOf Evidence.toJson snapshot.evidence),
    ("schemas", recordOf SchemaComponent.toJson snapshot.schemas)] ++
    optionalMember "security_schemes" (recordOf SecuritySchemeFact.toJson)
      snapshot.securitySchemes ++
    [("endpoints", arrayOf Endpoint.toJson snapshot.endpoints),
      ("claims", arrayOf Claim.toJson snapshot.claims),
      ("editorial_reviews", arrayOf EditorialReview.toJson snapshot.editorialReviews),
      ("export_eligibility", arrayOf ExportEligibility.toJson snapshot.exportEligibility),
      ("dependencies", arrayOf Dependency.toJson snapshot.dependencies),
      ("diagnostics", arrayOf Diagnostic.toJson snapshot.diagnostics)])

end ApiTruth.Ir
