import ApiTruth.Ir.ApiSchema

/-!
# Contract snapshots

The records of a contract snapshot.  An object of fixed shape is a structure; a record keyed by
names is the list of its members; schemas and claim values stay JSON values.  A selector of a
route keeps the order of its members, because the route key serializes it as it stands.

## Main definitions

* `Condition`, `Presence`, `Endpoint`, `Claim`, `Evidence`, `ExportEligibility`.
* `ContractSnapshot`.
* `ContractSnapshot.schemaRoots` : the schemas of a snapshot, with their pointers.
-/

namespace ApiTruth.Ir

open Json List

/-! ### Indexed lists -/

/-- The results for every item and its index, in order. -/
def forEachIndexed {α β : Type*} (xs : List α) (f : α → ℕ → List β) : List β :=
  xs.zipIdx.flatMap fun item => f item.1 item.2

theorem forEachIndexed_eq_nil_iff {α β : Type*} {xs : List α} {f : α → ℕ → List β} :
    forEachIndexed xs f = [] ↔ ∀ i (h : i < xs.length), f xs[i] i = [] := by
  simp only [forEachIndexed, flatMap_eq_nil_iff, Prod.forall]
  constructor
  · intro h i hi
    exact h _ i (List.mem_zipIdx_iff_getElem?.mpr (by simp [hi]))
  · intro h x i hx
    obtain ⟨hi, heq⟩ := List.getElem?_eq_some_iff.mp (List.mem_zipIdx_iff_getElem?.mp hx)
    have hitem : xs[i] = x := heq
    exact hitem ▸ h i hi

theorem map_forEachIndexed {α β γ : Type*} (g : β → γ) (xs : List α) (f : α → ℕ → List β) :
    (forEachIndexed xs f).map g = forEachIndexed xs fun x i => (f x i).map g := by
  simp [forEachIndexed, map_flatMap]

theorem forEachIndexed_eq_flatMap {α β : Type*} (xs : List α) (f : α → List β) :
    (forEachIndexed xs fun x _ => f x) = xs.flatMap f := by
  conv_rhs => rw [← zipIdx_map_fst 0 xs, flatMap_map]
  rfl

theorem map_mapIdx {α β γ : Type*} (g : β → γ) (f : ℕ → α → β) (xs : List α) :
    (xs.mapIdx f).map g = xs.mapIdx fun i x => g (f i x) := by
  apply ext_getElem <;> simp

theorem mapIdx_eq_map {α β : Type*} (xs : List α) (f : α → β) :
    (xs.mapIdx fun _ x => f x) = xs.map f := by
  apply ext_getElem <;> simp

/-! ### Evidence, conditions and claims -/

/-- `EvidenceMethodSchema`. -/
inductive EvidenceMethod
  | typeDeclaration
  | runtimeValidator
  | observation
  | behavioralVerification
  | deterministicAnalysis
  | inference
  | ownerAssertion
deriving DecidableEq, Repr

structure EvidenceLocation where
  path : Option String := none
  symbol : Option String := none
  pointer : Option String := none
  line : Option ℕ := none
deriving DecidableEq, Repr

structure EvidenceScope where
  serviceId : String
  snapshotId : Option String := none
  endpointId : Option String := none
  revision : Option String := none
deriving DecidableEq, Repr

/-- `EvidenceSchema`. -/
structure Evidence where
  evidenceId : String
  sourceKind : String
  sourceId : String
  sourceVersion : String
  location : EvidenceLocation
  method : EvidenceMethod
  scope : EvidenceScope
  limitations : List String
  accessLabel : String
deriving DecidableEq, Repr

inductive ConditionOperator
  | and
  | or
  | not
  | equals
  | present
deriving DecidableEq, Repr

/-- `ConditionSchema`. -/
inductive Condition
  | predicate (operator : ConditionOperator) (field : Option String) (value : Option Json)
      (operands : Option (List Condition)) (affectedSchemaPaths : List String)
  | businessExpression (expression scope : String) (affectedSchemaPaths : List String)

mutual

/-- Structural equality of conditions is decidable. -/
def Condition.decEq : (a b : Condition) → Decidable (a = b)
  | .predicate operator field value operands paths,
    .predicate operator' field' value' operands' paths' =>
    match decEqOptionalOperands operands operands' with
    | .isTrue h =>
      decidable_of_iff (operator = operator' ∧ field = field' ∧ value = value' ∧ paths = paths')
        (by simp [h])
    | .isFalse h => .isFalse (by simp [h])
  | .businessExpression expression scope paths, .businessExpression expression' scope' paths' =>
    decidable_of_iff (expression = expression' ∧ scope = scope' ∧ paths = paths') (by simp)
  | .predicate .., .businessExpression .. => .isFalse (by simp)
  | .businessExpression .., .predicate .. => .isFalse (by simp)

/-- Structural equality of an `operands` member is decidable. -/
def decEqOptionalOperands : (a b : Option (List Condition)) → Decidable (a = b)
  | none, none => .isTrue rfl
  | some operands, some operands' =>
    match decEqOperands operands operands' with
    | .isTrue h => .isTrue (by rw [h])
    | .isFalse h => .isFalse (by simp [h])
  | none, some _ => .isFalse (by simp)
  | some _, none => .isFalse (by simp)

/-- Structural equality of operands is decidable. -/
def decEqOperands : (a b : List Condition) → Decidable (a = b)
  | [], [] => .isTrue rfl
  | operand :: operands, operand' :: operands' =>
    match operand.decEq operand', decEqOperands operands operands' with
    | .isTrue h, .isTrue h' => .isTrue (by rw [h, h'])
    | .isFalse h, _ => .isFalse (by simp [h])
    | _, .isFalse h => .isFalse (by simp [h])
  | [], _ :: _ => .isFalse (by simp)
  | _ :: _, [] => .isFalse (by simp)

end

instance : DecidableEq Condition := Condition.decEq

/-- The states of a presence fact without a condition. -/
inductive PresenceState
  | required
  | optional
  | unknown
deriving DecidableEq, Repr

/-- `PresenceFactSchema`. -/
inductive Presence
  | conditional (condition : Condition) (evidenceIds : List String)
  | plain (state : PresenceState) (evidenceIds : List String)
deriving DecidableEq

/-- The `evidence_ids` of a presence fact. -/
def Presence.evidenceIds : Presence → List String
  | .conditional _ ids => ids
  | .plain _ ids => ids

/-- The `verification` of a claim. -/
inductive Verification
  | declared
  | establishedByAnalysis
  | observed
  | inferred
  | ownerAsserted
deriving DecidableEq, Repr

structure ClaimSubject where
  serviceId : String
  endpointId : Option String := none
  schemaPointer : Option String := none
deriving DecidableEq, Repr

/-- `ClaimSchema`. -/
structure Claim where
  claimId : String
  subject : ClaimSubject
  predicate : String
  value : Json
  verification : Verification
  condition : Option Condition := none
  evidenceIds : List String
deriving DecidableEq

inductive ReviewState
  | accepted
  | rejected
  | needsReview
deriving DecidableEq, Repr

/-- `EditorialReviewSchema`. -/
structure EditorialReview where
  reviewId : String
  claimId : String
  state : ReviewState
  reviewerId : String
  reviewedAt : String
  explanation : String
deriving DecidableEq, Repr

inductive BasisKind
  | supportedRuntimeValidator
  | deterministicAnalysis
  | behavioralVerification
deriving DecidableEq, Repr

/-- `status` of an eligibility, with the basis of an eligible claim or the reason of an ineligible
one. -/
inductive EligibilityStatus
  | eligible (kind : BasisKind) (evidenceIds : List String)
  | ineligible (reason : String)
deriving DecidableEq, Repr

/-- `EligibilityScopeSchema`. -/
structure EligibilityScope where
  serviceId : String
  snapshotId : String
  endpointIds : List String
deriving DecidableEq, Repr

/-- `ExportEligibilitySchema`. -/
structure ExportEligibility where
  eligibilityId : String
  claimId : String
  status : EligibilityStatus
  scope : EligibilityScope
  policyVersion : String
  evidenceFingerprint : String
deriving DecidableEq, Repr

/-! ### Endpoints -/

/-- `HeaderSelectorSchema`; the members, `name`, `operator` and for `equals` also `value`, keep the
order of the document. -/
structure HeaderSelector where
  members : List (String × String)
deriving DecidableEq, Repr

namespace HeaderSelector

def member (selector : HeaderSelector) (name : String) : String :=
  (selector.members.lookup name).getD ""

/-- A nonempty name, and `equals` with a value or one of `present` and `absent` without one. -/
def hasShape (selector : HeaderSelector) : Bool :=
  selector.member "name" != "" &&
    (match selector.members.lookup "operator", selector.members.lookup "value" with
      | some "equals", some _ => selector.members.length == 3
      | some "present", none => selector.members.length == 2
      | some "absent", none => selector.members.length == 2
      | _, _ => false)

def toJson (selector : HeaderSelector) : Json :=
  .obj (selector.members.map fun (key, value) => (key, .str value))

end HeaderSelector

/-- `RouteSelectorsSchema`. -/
structure RouteSelectors where
  headers : Option (List HeaderSelector) := none
  consumes : Option (List String) := none
  produces : Option (List String) := none
  query : Option (List HeaderSelector) := none
deriving DecidableEq, Repr

/-- `EndpointIdentitySchema`. -/
structure EndpointIdentity where
  identityVersion : String
  routeKey : String
  serviceId : String
  method : String
  normalizedPathShape : String
  selectors : RouteSelectors
deriving DecidableEq, Repr

/-- `SerializationSchema`. -/
structure Serialization where
  format : Option String := none
  style : Option String := none
  explode : Option Bool := none
  contentEncoding : Option String := none
deriving DecidableEq, Repr

inductive ParameterIn
  | path
  | query
  | header
  | cookie
deriving DecidableEq, Repr

structure Parameter where
  name : String
  location : ParameterIn
  presence : Presence
  schema : Json
  serialization : Serialization
deriving DecidableEq

inductive EncodingStyle
  | form
  | spaceDelimited
  | pipeDelimited
deriving DecidableEq, Repr

/-- A member of `FormEncodingSchema`. -/
structure FormEncoding where
  style : Option EncodingStyle := none
  explode : Option Bool := none
  contentType : Option String := none
  evidenceIds : List String
deriving DecidableEq, Repr

structure RequestBody where
  mediaType : String
  encoding : Option (List (String × FormEncoding)) := none
  schema : Json
  serialization : Serialization
  presence : Presence
deriving DecidableEq

/-- `ContentSchema`. -/
structure Content where
  mediaType : String
  schema : Json
  serialization : Serialization
deriving DecidableEq

structure ResponseHeader where
  name : String
  schema : Json
deriving DecidableEq

inductive ResponseStatus
  | exact (code : ℕ)
  | range (range : String)
  | default
  | unknown (reason : String)
deriving DecidableEq, Repr

structure Response where
  status : ResponseStatus
  content : List Content
  headers : Option (List ResponseHeader) := none
deriving DecidableEq

structure SecurityRequirement where
  scheme : String
  scopes : List String
deriving DecidableEq, Repr

/-- The explicit state of the security of an endpoint. -/
inductive SecurityState
  | unknown
  | anonymous
  | declared
deriving DecidableEq, Repr

/-- The security of an endpoint; an alternative is the list of its requirements. -/
structure EndpointSecurity where
  state : Option SecurityState := none
  evidenceIds : Option (List String) := none
  alternatives : List (List SecurityRequirement)
deriving DecidableEq, Repr

/-- `EndpointSchema`. -/
structure Endpoint where
  endpointId : String
  identity : EndpointIdentity
  applicationPath : String
  parameters : List Parameter
  requestBodies : List RequestBody
  responses : List Response
  security : EndpointSecurity
  evidenceIds : List String
deriving DecidableEq

/-! ### Snapshots -/

/-- `SchemaComponentSchema`. -/
structure SchemaComponent where
  schemaId : String
  schema : Json
  evidenceIds : List String
deriving DecidableEq

inductive ApiKeyIn
  | header
  | query
  | cookie
deriving DecidableEq, Repr

/-- `SecuritySchemeDefinitionSchema`. -/
inductive SecuritySchemeDefinition
  | apiKey (name : String) (location : ApiKeyIn)
  | http (scheme : String) (bearerFormat : Option String)
deriving DecidableEq, Repr

/-- `SecuritySchemeFactSchema`. -/
structure SecuritySchemeFact where
  definition : SecuritySchemeDefinition
  evidenceIds : List String
deriving DecidableEq, Repr

inductive Severity
  | info
  | warning
  | error
deriving DecidableEq, Repr

/-- `DiagnosticSchema`. -/
structure Diagnostic where
  diagnosticId : String
  code : String
  severity : Severity
  message : String
  affectedEndpointIds : List String
  evidenceIds : List String
deriving DecidableEq, Repr

/-- `CoverageSchema`. -/
inductive Coverage
  | complete (analyzedRoots diagnosticIds : List String)
  | incomplete (analyzedRoots unresolvedRoots : List String) (reason : String)
      (diagnosticIds : List String)
deriving DecidableEq, Repr

namespace Coverage

/-- `status` is `incomplete`. -/
def isIncomplete : Coverage → Bool
  | complete .. => false
  | incomplete .. => true

/-- `diagnostic_ids`. -/
def diagnosticIds : Coverage → List String
  | complete _ ids => ids
  | incomplete _ _ _ ids => ids

end Coverage

inductive DependencyTarget
  | endpoint (id : String)
  | schema (id : String)
  | evidence (id : String)
deriving DecidableEq, Repr

/-- `DependencySchema`. -/
structure Dependency where
  fromEndpointId : String
  target : DependencyTarget
  evidenceIds : List String
deriving DecidableEq, Repr

structure ServiceIdentity where
  serviceId : String
  repositoryId : String
  root : String
  label : Option String := none
deriving DecidableEq, Repr

/-- `SourceRevisionSchema`. -/
structure SourceRevision where
  repositoryId : String
  immutableRevision : String
  sourceDigest : String
deriving DecidableEq, Repr

/-- `AnalyzerIdentitySchema`. -/
structure AnalyzerIdentity where
  analyzerId : String
  analyzerVersion : String
deriving DecidableEq, Repr

structure SnapshotConfig where
  configVersion : String
  configFingerprint : String
deriving DecidableEq, Repr

/-- `ContractSnapshotSchema`. -/
structure ContractSnapshot where
  irVersion : String
  identityVersion : String
  snapshotId : String
  service : ServiceIdentity
  source : SourceRevision
  analyzer : AnalyzerIdentity
  config : SnapshotConfig
  createdAt : String
  coverage : Coverage
  evidence : List Evidence
  schemas : List (String × SchemaComponent)
  securitySchemes : Option (List (String × SecuritySchemeFact)) := none
  endpoints : List Endpoint
  claims : List Claim
  editorialReviews : List EditorialReview
  exportEligibility : List ExportEligibility
  dependencies : List Dependency
  diagnostics : List Diagnostic
deriving DecidableEq

/-- The schemas of an endpoint, in the order of the validator. -/
def Endpoint.schemas (endpoint : Endpoint) : List Json :=
  endpoint.parameters.map Parameter.schema ++ endpoint.requestBodies.map RequestBody.schema ++
    endpoint.responses.flatMap fun response =>
      response.content.map Content.schema ++ (response.headers.getD []).map ResponseHeader.schema

def Endpoint.schemaRoots (endpoint : Endpoint) (i : ℕ) : List (String × Json) :=
  let pointer := "/endpoints/" ++ toString i
  (endpoint.parameters.mapIdx fun j parameter =>
    (pointer ++ "/parameters/" ++ toString j ++ "/schema", parameter.schema)) ++
  (endpoint.requestBodies.mapIdx fun j body =>
    (pointer ++ "/request_bodies/" ++ toString j ++ "/schema", body.schema)) ++
  forEachIndexed endpoint.responses fun response j =>
    let pointer := pointer ++ "/responses/" ++ toString j
    (response.content.mapIdx fun k content =>
      (pointer ++ "/content/" ++ toString k ++ "/schema", content.schema)) ++
    ((response.headers.getD []).mapIdx fun k header =>
      (pointer ++ "/headers/" ++ toString k ++ "/schema", header.schema))

theorem Endpoint.map_snd_schemaRoots (endpoint : Endpoint) (i : ℕ) :
    (endpoint.schemaRoots i).map Prod.snd = endpoint.schemas := by
  simp only [Endpoint.schemaRoots, Endpoint.schemas, map_append, map_mapIdx,
    map_forEachIndexed, mapIdx_eq_map, ← forEachIndexed_eq_flatMap]

namespace ContractSnapshot

/-- `snapshotSchemaRoots` : the schemas of the components and of the endpoints. -/
def schemaRoots (snapshot : ContractSnapshot) : List (String × Json) :=
  (snapshot.schemas.map fun entry =>
    ("/schemas/" ++ jsonPointerSegment entry.1 ++ "/schema", entry.2.schema)) ++
  forEachIndexed snapshot.endpoints fun endpoint i => endpoint.schemaRoots i

theorem map_snd_schemaRoots (snapshot : ContractSnapshot) :
    snapshot.schemaRoots.map Prod.snd =
      snapshot.schemas.map (fun entry => entry.2.schema) ++
        snapshot.endpoints.flatMap Endpoint.schemas := by
  simp only [schemaRoots, map_append, List.map_map, map_forEachIndexed,
    Endpoint.map_snd_schemaRoots, forEachIndexed_eq_flatMap]
  rfl

end ContractSnapshot

end ApiTruth.Ir
