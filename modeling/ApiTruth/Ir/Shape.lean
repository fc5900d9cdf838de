import ApiTruth.Ir.Identity

/-!
# The shape of a contract snapshot

What the JSON Schema of a snapshot demands of the values in its records: nonempty names, lists
without repetition, patterns, formats and ranges.

## Main definitions

* `Condition.hasShape`, `Endpoint.hasShape`, `Claim.hasShape`.
* `ContractSnapshot.hasShape`.
-/

namespace ApiTruth.Ir

open Json

/-- `minLength: 1`. -/
def nonEmpty (s : String) : Bool := s != ""

def optionalNonEmpty (s : Option String) : Bool := s.all nonEmpty

def uniqueIds (ids : List String) : Bool := ids.all nonEmpty && decide ids.Nodup

/-- At least one identifier, and `uniqueIds`. -/
def someUniqueIds (ids : List String) : Bool := !ids.isEmpty && uniqueIds ids

mutual

/-- The shape of `ConditionSchema`. -/
def Condition.hasShape : Condition → Bool
  | .predicate _ field _ operands paths =>
    optionalNonEmpty field && optionalOperandsHaveShape operands &&
      (!paths.isEmpty && paths.all nonEmpty)
  | .businessExpression expression scope paths =>
    nonEmpty expression && nonEmpty scope && (!paths.isEmpty && paths.all nonEmpty)

/-- Optional operands are not empty and have the shape of a condition. -/
def optionalOperandsHaveShape : Option (List Condition) → Bool
  | none => true
  | some operands => !operands.isEmpty && operandsHaveShape operands

def operandsHaveShape : List Condition → Bool
  | [] => true
  | operand :: rest => operand.hasShape && operandsHaveShape rest

end

/-- The shape of `PresenceFactSchema`. -/
def Presence.hasShape : Presence → Bool
  | .conditional condition ids => condition.hasShape && someUniqueIds ids
  | .plain _ ids => someUniqueIds ids

/-- The shape of `EvidenceSchema`. -/
def Evidence.hasShape (evidence : Evidence) : Bool :=
  nonEmpty evidence.evidenceId && nonEmpty evidence.sourceKind && nonEmpty evidence.sourceId &&
  nonEmpty evidence.sourceVersion &&
  (evidence.location != {}) &&
  optionalNonEmpty evidence.location.path && optionalNonEmpty evidence.location.symbol &&
  optionalNonEmpty evidence.location.pointer && evidence.location.line.all (1 ≤ ·) &&
  nonEmpty evidence.scope.serviceId && optionalNonEmpty evidence.scope.snapshotId &&
  optionalNonEmpty evidence.scope.endpointId && optionalNonEmpty evidence.scope.revision &&
  nonEmpty evidence.accessLabel

/-- The shape of `ClaimSchema`. -/
def Claim.hasShape (claim : Claim) : Bool :=
  nonEmpty claim.claimId && nonEmpty claim.subject.serviceId &&
  optionalNonEmpty claim.subject.endpointId && optionalNonEmpty claim.subject.schemaPointer &&
  nonEmpty claim.predicate && claim.condition.all Condition.hasShape &&
  someUniqueIds claim.evidenceIds

/-- The shape of `EditorialReviewSchema`. -/
def EditorialReview.hasShape (host : Host) (review : EditorialReview) : Bool :=
  nonEmpty review.reviewId && nonEmpty review.claimId && nonEmpty review.reviewerId &&
  host.isDateTime review.reviewedAt && nonEmpty review.explanation

/-- The shape of `ExportEligibilitySchema`. -/
def ExportEligibility.hasShape (eligibility : ExportEligibility) : Bool :=
  nonEmpty eligibility.eligibilityId && nonEmpty eligibility.claimId &&
  nonEmpty eligibility.scope.serviceId && nonEmpty eligibility.scope.snapshotId &&
  uniqueIds eligibility.scope.endpointIds && nonEmpty eligibility.policyVersion &&
  nonEmpty eligibility.evidenceFingerprint &&
  match eligibility.status with
  | .eligible _ ids => someUniqueIds ids
  | .ineligible reason => nonEmpty reason

/-- The shape of `SerializationSchema`. -/
def Serialization.hasShape (serialization : Serialization) : Bool :=
  (serialization != {}) && optionalNonEmpty serialization.format &&
  optionalNonEmpty serialization.style && optionalNonEmpty serialization.contentEncoding

/-- The shape of `EndpointIdentitySchema`. -/
def EndpointIdentity.hasShape (identity : EndpointIdentity) : Bool :=
  identity.identityVersion == Ir.identityVersion && nonEmpty identity.routeKey &&
  nonEmpty identity.serviceId &&
  (!identity.method.isEmpty && identity.method.toList.all Char.isUpper) &&
  identity.normalizedPathShape.toList.head? == some '/' && identity.selectors.hasShape

def Parameter.hasShape (parameter : Parameter) : Bool :=
  nonEmpty parameter.name && parameter.presence.hasShape && isApiSchema parameter.schema &&
  parameter.serialization.hasShape

def RequestBody.hasShape (body : RequestBody) : Bool :=
  nonEmpty body.mediaType &&
  (body.encoding.getD []).all (fun (_, encoding) =>
    optionalNonEmpty encoding.contentType && someUniqueIds encoding.evidenceIds) &&
  isApiSchema body.schema && body.serialization.hasShape && body.presence.hasShape

/-- The shape of `ContentSchema`. -/
def Content.hasShape (content : Content) : Bool :=
  nonEmpty content.mediaType && isApiSchema content.schema && content.serialization.hasShape

def ResponseStatus.hasShape : ResponseStatus → Bool
  | .exact code => 100 ≤ code && code ≤ 599
  | .range pattern => ["1XX", "2XX", "3XX", "4XX", "5XX"].contains pattern
  | .default => true
  | .unknown reason => nonEmpty reason

def Response.hasShape (response : Response) : Bool :=
  response.status.hasShape && response.content.all Content.hasShape &&
  (response.headers.getD []).all fun header => nonEmpty header.name && isApiSchema header.schema

def EndpointSecurity.hasShape (security : EndpointSecurity) : Bool :=
  security.evidenceIds.all someUniqueIds &&
  security.alternatives.all fun requirements =>
    !requirements.isEmpty && requirements.all fun requirement => nonEmpty requirement.scheme

/-- The shape of `EndpointSchema`. -/
def Endpoint.hasShape (endpoint : Endpoint) : Bool :=
  nonEmpty endpoint.endpointId && endpoint.identity.hasShape &&
  endpoint.applicationPath.toList.head? == some '/' &&
  endpoint.parameters.all Parameter.hasShape && endpoint.requestBodies.all RequestBody.hasShape &&
  !endpoint.responses.isEmpty && endpoint.responses.all Response.hasShape &&
  endpoint.security.hasShape && someUniqueIds endpoint.evidenceIds

/-- The shape of `CoverageSchema`. -/
def Coverage.hasShape : Coverage → Bool
  | .complete roots ids => someUniqueIds roots && uniqueIds ids
  | .incomplete roots unresolved reason ids =>
    someUniqueIds roots && someUniqueIds unresolved && nonEmpty reason && uniqueIds ids

/-- The identifier of the target of a dependency. -/
def DependencyTarget.id : DependencyTarget → String
  | .endpoint id => id
  | .schema id => id
  | .evidence id => id

def SecuritySchemeDefinition.hasShape : SecuritySchemeDefinition → Bool
  | .apiKey name _ => nonEmpty name
  | .http scheme bearerFormat => nonEmpty scheme && optionalNonEmpty bearerFormat

/-- The shape of `DiagnosticSchema`. -/
def Diagnostic.hasShape (diagnostic : Diagnostic) : Bool :=
  nonEmpty diagnostic.diagnosticId && nonEmpty diagnostic.code && nonEmpty diagnostic.message &&
  uniqueIds diagnostic.affectedEndpointIds && uniqueIds diagnostic.evidenceIds

namespace ContractSnapshot

/-- `IR_VERSION`. -/
def irVersions : List String := ["1.0.0", "1.1.0"]

/-- `LegacyEncodingExclusion` : the legacy version has no form encodings. -/
def excludesLegacyEncoding (snapshot : ContractSnapshot) : Bool :=
  snapshot.irVersion != "1.0.0" ||
    snapshot.endpoints.all fun endpoint =>
      endpoint.requestBodies.all fun body => body.encoding.isNone

/-- The shape of `ContractSnapshotSchema`. -/
def hasShape (host : Host) (snapshot : ContractSnapshot) : Bool :=
  irVersions.contains snapshot.irVersion && snapshot.identityVersion == Ir.identityVersion &&
  nonEmpty snapshot.snapshotId &&
  nonEmpty snapshot.service.serviceId && nonEmpty snapshot.service.repositoryId &&
  nonEmpty snapshot.service.root && optionalNonEmpty snapshot.service.label &&
  nonEmpty snapshot.source.repositoryId && nonEmpty snapshot.source.immutableRevision &&
  nonEmpty snapshot.source.sourceDigest &&
  nonEmpty snapshot.analyzer.analyzerId && nonEmpty snapshot.analyzer.analyzerVersion &&
  snapshot.config.configVersion == "1.0.0" && nonEmpty snapshot.config.configFingerprint &&
  host.isDateTime snapshot.createdAt && snapshot.coverage.hasShape &&
  snapshot.evidence.all Evidence.hasShape &&
  snapshot.schemas.all (fun entry =>
    nonEmpty entry.2.schemaId && isApiSchema entry.2.schema &&
      someUniqueIds entry.2.evidenceIds) &&
  (snapshot.securitySchemes.getD []).all (fun entry =>
    entry.2.definition.hasShape && someUniqueIds entry.2.evidenceIds) &&
  snapshot.endpoints.all Endpoint.hasShape && snapshot.claims.all Claim.hasShape &&
  snapshot.editorialReviews.all (EditorialReview.hasShape host) &&
  snapshot.exportEligibility.all ExportEligibility.hasShape &&
  snapshot.dependencies.all (fun dependency =>
    nonEmpty dependency.fromEndpointId && nonEmpty dependency.target.id &&
      someUniqueIds dependency.evidenceIds) &&
  snapshot.diagnostics.all Diagnostic.hasShape && snapshot.excludesLegacyEncoding

end ContractSnapshot

end ApiTruth.Ir
