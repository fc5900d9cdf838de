import ApiTruth.Foundation.Checked
import ApiTruth.Query.Selector
import ApiTruth.Semantics.Egress

/-!
# The semantic kernel

The kernel projects the claims about the selected endpoints of a contract snapshot to short texts,
sends them to a model provider in one bounded request and accepts nothing but an answer of fixed
shape that cites the evidence of the request.

A value is handed over as plain JSON data.  The provider is a function of the request: it rejects,
it answers with a JSON value, or it answers with something that is not plain data.

## Main definitions

* `documentText`, `sourceDocuments` : the texts of claims.
* `sourceProjection`, `projection`, `mergeSourceAndDocumentContext`, `contextCoverage`.
* `validateOutput`, `prepareSemantic`, `semanticRequest`, `runSemantic`.
-/

namespace ApiTruth.Semantics

open Checked Ir

/-! ### Requests and results -/

inductive SemanticProviderId
  | openai
  | gemini
  | claude
deriving DecidableEq, Repr

def SemanticProviderId.text : SemanticProviderId → String
  | openai => "openai"
  | gemini => "gemini"
  | claude => "claude"

inductive SemanticDocumentKind
  | operationSummary
  | operationDescription
  | responseDescription
  | operationId
  | codeRoute
  | codeHandler
  | codeAction
deriving DecidableEq, Repr

/-- A text of a request, with the evidence it may be cited by. -/
structure SemanticDocument where
  kind : SemanticDocumentKind
  text : String
  evidenceIds : List String
deriving DecidableEq, Repr

structure SemanticEndpointContext where
  endpointId : String
  method : String
  applicationPath : String
  documents : List SemanticDocument
deriving DecidableEq, Repr

structure SemanticSource where
  repositoryId : String
  serviceId : String
  selector : Query.QuerySelector
  pin : Query.QueryPin
deriving DecidableEq, Repr

inductive SemanticPromptVersion
  | grounding
  | discovery
  | discoverySource
deriving DecidableEq, Repr

def SemanticPromptVersion.text : SemanticPromptVersion → String
  | grounding => "semantic-grounding-1"
  | discovery => "semantic-discovery-1"
  | discoverySource => "semantic-discovery-source-1"

structure SemanticProviderRequest where
  promptVersion : SemanticPromptVersion
  intentQuery : Option String
  provider : SemanticProviderId
  model : String
  source : SemanticSource
  endpoints : List SemanticEndpointContext
deriving DecidableEq, Repr

inductive SemanticInference
  | disabled
  | enabled (provider : SemanticProviderId) (model : String)
deriving DecidableEq, Repr

structure SemanticAnalysisInput where
  snapshot : ContractSnapshot
  pin : Query.QueryPin
  selection : Query.QuerySelection
  inference : SemanticInference
  endpointIds : List String

structure SemanticContextCoverage where
  isComplete : Bool
  requestedEndpointIds : List String
  analyzedEndpointIds : List String
  omittedEndpointIds : List String
deriving DecidableEq, Repr

structure SemanticSuggestion where
  endpointId : String
  intent : String
  summary : String
  evidenceIds : List String
deriving DecidableEq, Repr

structure SemanticProvenance where
  provider : SemanticProviderId
  model : String
  promptVersion : SemanticPromptVersion
  selector : Query.QuerySelector
  pin : Query.QueryPin
deriving DecidableEq, Repr

inductive SemanticOutput
  | suggestions (suggestions : List SemanticSuggestion)
  | ambiguous (candidateEndpointIds : List String) (reason : String)
  | noMatch (reason : String)
deriving DecidableEq, Repr

/-- `SemanticAnalysisResult`; an answer is inferred, unreviewed and not normative. -/
inductive SemanticAnalysisResult
  | disabled
  | noContext (contextCoverage : Option SemanticContextCoverage)
  | answered (output : SemanticOutput) (provenance : SemanticProvenance)
      (contextCoverage : Option SemanticContextCoverage)
deriving DecidableEq, Repr

/-- The codes of `SemanticAnalysisError`. -/
inductive SemanticAnalysisError
  | invalidContext
  | providerError
  | outputRejected
deriving DecidableEq, Repr

/-- What the provider port comes to: it rejects, or it resolves to plain JSON data or to something
else. -/
inductive ProviderOutcome
  | rejected
  | resolved (raw : Json)
  | foreign

/-! ### Checks of values -/

/-- `text`: not blank, at most `max` units and without control characters. -/
def isText (value : String) (max : ℕ) : Bool :=
  !isBlank value && decide (unitLength value ≤ max) && !value.toList.any isControl

/-- `outputText`. -/
def isOutputText (value : String) (max : ℕ) : Bool :=
  isText value max && isSemanticDocumentTextSafe value max

/-- `plain`, `exactObject`: an object with exactly these names. -/
def isPlain (names : List String) (value : Json) : Bool :=
  match value with
  | .obj members => members.length == names.length && members.all fun m => names.contains m.1
  | _ => false

def SemanticInference.toJson : SemanticInference → Json
  | disabled => .obj [("enabled", .bool false)]
  | enabled provider model =>
    .obj [("enabled", .bool true), ("provider", .str provider.text), ("model", .str model)]

/-- An input as a JSON value; a discovery also has an intent. -/
def SemanticAnalysisInput.toJson (input : SemanticAnalysisInput) (intentQuery : Option String) :
    Json :=
  .obj ([("snapshot", input.snapshot.toJson), ("pin", input.pin.toJson),
    ("selection", input.selection.toJson), ("inference", input.inference.toJson),
    ("endpointIds", stringArray input.endpointIds)] ++
    optionalMember "intentQuery" .str intentQuery)

/-- The limits of `detachedJson` on an input. -/
def inputLimits : Json.Limits := ⟨2097152, 20000, 64, 4097, some 65536⟩

/-- The limits of `detachedJson` on an answer. -/
def outputLimits : Json.Limits := ⟨16384, 1000, 8, 4097, some 65536⟩

/-- The checks of `validateSelection` on the kind of the selector. -/
def selectorMatches (pin : Query.QueryPin) : Query.QuerySelector → Bool
  | .environment name version =>
    pin.pointerVersion.isNone && isText name 512 && pin.checkpointVersion.any Query.isVersion &&
      version.isSome && version == pin.checkpointVersion
  | .branch name version =>
    pin.checkpointVersion.isNone && isText name 512 && pin.pointerVersion.any Query.isVersion &&
      version.isSome && version == pin.pointerVersion
  | .revision value =>
    pin.pointerVersion.isNone && pin.checkpointVersion.isNone && value == pin.revision

def validateSelection (input : SemanticAnalysisInput) : Bool :=
  Query.isQuerySelection input.selection && isIdentifier input.selection.tenantId &&
    isIdentifier input.selection.repositoryId && isIdentifier input.selection.serviceId &&
    input.pin.selectedRevision.isNone && isIdentifier input.pin.snapshotId &&
    isIdentifier input.pin.revision && isIdentifier input.pin.configFingerprint &&
    input.selection.repositoryId == input.snapshot.service.repositoryId &&
    input.selection.repositoryId == input.snapshot.source.repositoryId &&
    input.selection.serviceId == input.snapshot.service.serviceId &&
    input.pin.snapshotId == input.snapshot.snapshotId &&
    input.pin.revision == input.snapshot.source.immutableRevision &&
    input.pin.configFingerprint == input.snapshot.config.configFingerprint &&
    selectorMatches input.pin input.selection.selector

/-! ### Documents of claims -/

def safeDocument (kind : SemanticDocumentKind) (value : Json) (maximum : ℕ) :
    Option (SemanticDocumentKind × String) :=
  match value with
  | .str text => if isSemanticDocumentTextSafe text maximum then some (kind, text) else none
  | _ => none

def documentText (claim : Claim) : Option (SemanticDocumentKind × String) :=
  if claim.subject.schemaPointer.isSome || claim.verification != .declared then none
  else if claim.predicate = "operation.summary" then safeDocument .operationSummary claim.value 2048
  else if claim.predicate = "operation.description" then
    safeDocument .operationDescription claim.value 2048
  else if claim.predicate = "response.description" then
    safeDocument .responseDescription (claim.value.member "description") 2048
  else if claim.predicate = "route.declaration" then
    safeDocument .operationId (claim.value.member "operationId") 128
  else none

section Snapshot

variable (snapshot : ContractSnapshot)

/-- The evidence that the map of a projection has under an identifier. -/
def evidenceAt (id : String) : Option Evidence :=
  (OrderedMap.ofEntries (snapshot.evidence.map fun item => (item.evidenceId, item))).get? id

/-- The evidence belongs to the service, the snapshot and the revision. -/
def isLocalEvidence (evidence : Evidence) : Bool :=
  evidence.sourceId == snapshot.source.repositoryId &&
    evidence.sourceVersion == snapshot.source.immutableRevision &&
    evidence.scope.serviceId == snapshot.service.serviceId &&
    evidence.scope.snapshotId == some snapshot.snapshotId &&
    evidence.scope.revision == some snapshot.source.immutableRevision

def evidenceFor (evidence : Option Evidence) (endpointId : String) : Bool :=
  evidence.any fun item => isLocalEvidence snapshot item && item.sourceKind == "api_document" &&
    item.method == .typeDeclaration &&
    (item.scope.endpointId.isNone || item.scope.endpointId == some endpointId)

def sourceEvidenceFor (evidence : Option Evidence) (endpointId : String) : Bool :=
  evidence.any fun item => isLocalEvidence snapshot item && item.sourceKind == "source_code" &&
    (item.method == .deterministicAnalysis || item.method == .typeDeclaration) &&
    item.scope.endpointId == some endpointId

def sourceClaimEvidence (claim : Claim) (endpointId : String) : Bool :=
  decide (0 < claim.evidenceIds.length) && decide (claim.evidenceIds.length ≤ 8) &&
    decide claim.evidenceIds.Nodup &&
    claim.evidenceIds.all fun id => sourceEvidenceFor snapshot (evidenceAt snapshot id) endpointId

/-- `javaProfile`. -/
def isJavaProfile (analyzer : AnalyzerIdentity) : Bool :=
  analyzer.analyzerId == "java-spring-mvc" && analyzer.analyzerVersion == "0.1.0"

def hasText (value : Json) (name text : String) : Bool := value.member name == .str text

/-- The member is an identifier that may be sent. -/
def safeIdentifier (value : Json) (name : String) : Option String :=
  match value.member name with
  | .str text => if isSemanticSourceIdentifierSafe text then some text else none
  | _ => none

/-- `javaRouteValue`, with the handler. -/
def javaRouteHandler (value : Json) (endpoint : Endpoint) : Option String :=
  if isPlain ["method", "path", "selectors", "handler"] value &&
      hasText value "method" endpoint.identity.method &&
      hasText value "path" endpoint.applicationPath &&
      Json.canonicalJson (value.member "selectors") ==
        Json.canonicalJson endpoint.identity.selectors.toJson &&
      isSemanticSourceRouteSafe endpoint.identity.method endpoint.applicationPath
  then safeIdentifier value "handler"
  else none

def routeDocument (endpoint : Endpoint) (route : Claim) : SemanticDocument :=
  ⟨.codeRoute, endpoint.identity.method ++ " " ++ endpoint.applicationPath, route.evidenceIds⟩

/-- The document of the handler of a registered route: the one claim about it has to qualify. -/
def handlerDocuments (claims : List Claim) (endpoint : Endpoint) : List SemanticDocument :=
  match claims.filter fun claim => claim.predicate == "handler.symbol" with
  | [handler] =>
    if handler.verification == .establishedByAnalysis && isPlain ["symbol"] handler.value &&
        sourceClaimEvidence snapshot handler endpoint.endpointId
    then ((safeIdentifier handler.value "symbol").map fun symbol =>
      ⟨.codeHandler, symbol, handler.evidenceIds⟩).toList
    else []
  | _ => []

/-- The documents of the one route claim of an endpoint, in the profile of the analyzer. -/
def routeDocuments (claims : List Claim) (endpoint : Endpoint) (route : Claim) :
    List SemanticDocument :=
  let hasRoute := hasText route.value "method" endpoint.identity.method &&
    hasText route.value "path" endpoint.applicationPath &&
    isSemanticSourceRouteSafe endpoint.identity.method endpoint.applicationPath
  if isJavaProfile snapshot.analyzer then
    if route.predicate == "route.declaration" && route.verification == .declared &&
        route.evidenceIds.length == 1 &&
        (route.evidenceIds.head?.bind (evidenceAt snapshot)).any fun item =>
          item.method == .typeDeclaration
    then match javaRouteHandler route.value endpoint with
      | some handler =>
        [routeDocument endpoint route, ⟨.codeHandler, handler, route.evidenceIds⟩]
      | none => []
    else []
  else if route.predicate == "route.registration" && route.verification == .establishedByAnalysis &&
      isPlain ["method", "path"] route.value && hasRoute
  then routeDocument endpoint route :: handlerDocuments snapshot claims endpoint
  else if route.predicate == "route.declaration" && route.verification == .declared &&
      isPlain ["method", "path", "controller", "action"] route.value && hasRoute
  then match safeIdentifier route.value "controller", safeIdentifier route.value "action" with
    | some controller, some action =>
      [routeDocument endpoint route,
        ⟨.codeAction, controller ++ "." ++ action, route.evidenceIds⟩]
    | _, _ => []
  else []

/-- The claims that the projection of source code considers for an endpoint. -/
def endpointClaims (endpoint : Endpoint) : List Claim :=
  snapshot.claims.filter fun claim => claim.subject.endpointId == some endpoint.endpointId &&
    claim.subject.serviceId == snapshot.service.serviceId && claim.subject.schemaPointer.isNone

/-- The documents of the source code of an endpoint. -/
def sourceDocuments (endpoint : Endpoint) : List SemanticDocument :=
  let claims := endpointClaims snapshot endpoint
  if isSemanticSourceRouteSafe endpoint.identity.method endpoint.applicationPath then
    match claims.filter fun claim =>
        claim.predicate == "route.registration" || claim.predicate == "route.declaration" with
    | [route] =>
      if sourceClaimEvidence snapshot route endpoint.endpointId
      then routeDocuments snapshot claims endpoint route
      else []
    | _ => []
  else []

def claimDocument (endpoint : Endpoint) (claim : Claim) : Option SemanticDocument :=
  if claim.subject.endpointId == some endpoint.endpointId &&
      claim.subject.serviceId == snapshot.service.serviceId &&
      decide (1 ≤ claim.evidenceIds.length) && decide (claim.evidenceIds.length ≤ 8) &&
      claim.evidenceIds.all fun id =>
        evidenceFor snapshot (evidenceAt snapshot id) endpoint.endpointId
  then (documentText claim).map fun doc => ⟨doc.1, doc.2, claim.evidenceIds⟩
  else none

/-- The documents of the declarations about an endpoint. -/
def declarationDocuments (endpoint : Endpoint) : List SemanticDocument :=
  snapshot.claims.filterMap (claimDocument snapshot endpoint)

end Snapshot

/-! ### Projections -/

def documentBytes (documents : List SemanticDocument) : ℕ :=
  (documents.map fun document => byteLength document.text).sum

def contextBytes (endpoints : List SemanticEndpointContext) : ℕ :=
  (endpoints.map fun endpoint => documentBytes endpoint.documents).sum

def contextOf (endpoint : Endpoint) (documents : List SemanticDocument) :
    SemanticEndpointContext :=
  ⟨endpoint.endpointId, endpoint.identity.method, endpoint.applicationPath, documents⟩

/-- The selected endpoints, in the order of the snapshot. -/
def selectedEndpoints (input : SemanticAnalysisInput) : List Endpoint :=
  input.snapshot.endpoints.filter fun endpoint => input.endpointIds.contains endpoint.endpointId

/-- `sourceProjection`.  Texts only add up, so that their total is checked at the end. -/
def sourceProjection (input : SemanticAnalysisInput) :
    Except SemanticAnalysisError (List SemanticEndpointContext) := do
  let endpoints := ((selectedEndpoints input).map fun endpoint =>
    contextOf endpoint (sourceDocuments input.snapshot endpoint)).filter fun endpoint =>
      !endpoint.documents.isEmpty
  require ((∀ endpoint ∈ endpoints, endpoint.documents.length ≤ 3) ∧
    contextBytes endpoints ≤ 16384) .invalidContext
  return endpoints

/-- `projection`.  An endpoint that only has an operation identifier is left out, but counts. -/
def SemanticAnalysisInput.projection (input : SemanticAnalysisInput) :
    Except SemanticAnalysisError (List SemanticEndpointContext) := do
  let candidates := (selectedEndpoints input).map fun endpoint =>
    contextOf endpoint (declarationDocuments input.snapshot endpoint)
  require ((∀ endpoint ∈ candidates, endpoint.documents.length ≤ 16) ∧
    contextBytes candidates ≤ 16384) .invalidContext
  let endpoints := candidates.filter fun endpoint =>
    endpoint.documents.any fun document => document.kind != .operationId
  require (∀ endpoint ∈ endpoints, unitLength endpoint.applicationPath ≤ 512) .invalidContext
  return endpoints

/-- The identifiers, followed by those of the others that are not there yet. -/
def addMissing (ids others : List String) : List String :=
  others.foldl (fun ids id => if id ∈ ids then ids else ids ++ [id]) ids

def joinDocument (byContent : OrderedMap (SemanticDocumentKind × String) (List String))
    (document : SemanticDocument) :
    Except SemanticAnalysisError (OrderedMap (SemanticDocumentKind × String) (List String)) :=
  match byContent.get? (document.kind, document.text) with
  | some ids => do
    require ((addMissing ids document.evidenceIds).length ≤ 8) .invalidContext
    return byContent.set (document.kind, document.text) (addMissing ids document.evidenceIds)
  | none => .ok (byContent.set (document.kind, document.text) document.evidenceIds)

def joinDocuments (documents : List SemanticDocument) :
    Except SemanticAnalysisError (List SemanticDocument) := do
  let byContent ← documents.foldlM joinDocument .empty
  return byContent.entries.map fun entry => ⟨entry.1.1, entry.1.2, entry.2⟩

/-- The endpoints of the documents, by their identifiers. -/
def documentsByEndpoint (documentEndpoints : List SemanticEndpointContext) :
    OrderedMap String SemanticEndpointContext :=
  .ofEntries ((documentEndpoints.filter fun endpoint =>
    isSemanticSourceRouteSafe endpoint.method endpoint.applicationPath).map fun endpoint =>
      (endpoint.endpointId, endpoint))

/-- An endpoint with source context, joined with its declarations. -/
def mergeEndpoint (documentEndpoints : OrderedMap String SemanticEndpointContext)
    (endpoint : SemanticEndpointContext) : Except SemanticAnalysisError SemanticEndpointContext := do
  let declared := (documentEndpoints.get? endpoint.endpointId).elim [] (·.documents)
  let documents ← joinDocuments (declared ++ endpoint.documents)
  return { endpoint with documents }

/-- `mergeSourceAndDocumentContext`.  Endpoints without source context follow in their order. -/
def mergeSourceAndDocumentContext (sourceEndpoints documentEndpoints : List SemanticEndpointContext) :
    Except SemanticAnalysisError (List SemanticEndpointContext) := do
  let declared := documentsByEndpoint documentEndpoints
  let merged ← sourceEndpoints.mapM (mergeEndpoint declared)
  let remaining := (declared.entries.filter fun entry =>
    !(sourceEndpoints.map (·.endpointId)).contains entry.1).map Prod.snd
  let endpoints := merged ++ remaining
  require ((∀ endpoint ∈ endpoints, endpoint.documents.length ≤ 16) ∧
    contextBytes endpoints ≤ 16384) .invalidContext
  return endpoints

def contextCoverage (requested analyzed : List String) : SemanticContextCoverage :=
  let omitted := requested.filter fun id => !analyzed.contains id
  ⟨omitted.isEmpty, requested, analyzed, omitted⟩

def inRequestedOrder (endpointIds : List String) (endpoints : List SemanticEndpointContext) :
    List SemanticEndpointContext :=
  endpoints.insertionSort fun left right =>
    endpointIds.idxOf left.endpointId ≤ endpointIds.idxOf right.endpointId

/-! ### Answers -/

/-- The strings of an array of strings. -/
def texts? (value : Json) : Option (List String) :=
  match value with
  | .arr items => items.mapM fun item =>
    match item with
    | .str text => some text
    | _ => none
  | _ => none

def text? (value : Json) : Option String :=
  match value with
  | .str text => some text
  | _ => none

/-- The evidence that an endpoint of a request may be cited by. -/
def citable (request : SemanticProviderRequest) (endpointId : String) : Option (List String) :=
  (OrderedMap.ofEntries (request.endpoints.map fun endpoint =>
    (endpoint.endpointId, endpoint.documents.flatMap (·.evidenceIds)))).get? endpointId

def validateSuggestion (request : SemanticProviderRequest) (item : Json) :
    Option SemanticSuggestion := do
  let endpointId ← text? (item.member "endpointId")
  let intent ← text? (item.member "intent")
  let summary ← text? (item.member "summary")
  let evidenceIds ← texts? (item.member "evidenceIds")
  if isPlain ["endpointId", "intent", "summary", "evidenceIds"] item &&
      isIdentifier endpointId && isOutputText intent 120 && isOutputText summary 600 &&
      decide (1 ≤ evidenceIds.length) && decide (evidenceIds.length ≤ 8) &&
      decide evidenceIds.Nodup &&
      evidenceIds.all fun id => (citable request endpointId).any fun ids => ids.contains id
  then some ⟨endpointId, intent, summary, evidenceIds⟩
  else none

def validateSuggestions (request : SemanticProviderRequest) (output : Json) :
    Option SemanticOutput := do
  let suggestions ← output.member "suggestions" |>.items.mapM (validateSuggestion request)
  if isPlain ["status", "suggestions"] output && decide (1 ≤ suggestions.length) &&
      decide (suggestions.length ≤ request.endpoints.length) &&
      decide (suggestions.map SemanticSuggestion.endpointId).Nodup
  then some (.suggestions suggestions)
  else none

def validateAmbiguous (request : SemanticProviderRequest) (output : Json) :
    Option SemanticOutput := do
  let candidates ← texts? (output.member "candidateEndpointIds")
  let reason ← text? (output.member "reason")
  if isPlain ["status", "candidateEndpointIds", "reason"] output &&
      decide (2 ≤ candidates.length) && decide (candidates.length ≤ request.endpoints.length) &&
      decide candidates.Nodup && (candidates.all fun id => (citable request id).isSome) &&
      isOutputText reason 300
  then some (.ambiguous candidates reason)
  else none

def validateNoMatch (output : Json) : Option SemanticOutput := do
  let reason ← text? (output.member "reason")
  if isPlain ["status", "reason"] output && isOutputText reason 300
  then some (.noMatch reason)
  else none

def validateOutput (outcome : ProviderOutcome) (request : SemanticProviderRequest) :
    Except SemanticAnalysisError SemanticOutput :=
  match outcome with
  | .rejected => .error .providerError
  | .foreign => .error .outputRejected
  | .resolved raw => do
    let output ← orRaise (Json.copyWithin outputLimits raw) .outputRejected
    orRaise (if hasText output "status" "suggestions" then validateSuggestions request output
      else if hasText output "status" "ambiguous" then validateAmbiguous request output
      else if hasText output "status" "no_match" then validateNoMatch output
      else none) .outputRejected

/-! ### Runs -/

section Run

variable (host : Host) (input : SemanticAnalysisInput) (intentQuery : Option String)

/-- The input is accepted when inference is enabled. -/
def IsValidInput (model : String) : Prop :=
  isText model 128 = true ∧ input.snapshot.Accepted host ∧ validateSelection input = true ∧
    1 ≤ input.endpointIds.length ∧ input.endpointIds.length ≤ 16 ∧ input.endpointIds.Nodup ∧
    ∀ id ∈ input.endpointIds, isIdentifier id = true ∧ id ∈ input.snapshot.endpointIds

instance (model : String) : Decidable (IsValidInput host input model) :=
  inferInstanceAs (Decidable (_ ∧ _))

/-- The endpoints that `prepareSemantic` sends, with the profile. -/
def preparedEndpoints :
    Except SemanticAnalysisError (Bool × List SemanticEndpointContext) := do
  match intentQuery with
  | none => return (false, ← input.projection)
  | some _ =>
    let sourceEndpoints ← sourceProjection input
    let documentEndpoints ← input.projection
    if sourceEndpoints.isEmpty then
      return (false, inRequestedOrder input.endpointIds documentEndpoints)
    let merged ← mergeSourceAndDocumentContext sourceEndpoints documentEndpoints
    return (true, inRequestedOrder input.endpointIds merged)

/-- What `prepareSemantic` returns when inference is enabled. -/
structure PreparedSemantic where
  provider : SemanticProviderId
  model : String
  endpoints : List SemanticEndpointContext
  sourceProfile : Bool
  coverage : Option SemanticContextCoverage

/-- `prepareSemantic`; nothing is prepared when inference is disabled. -/
def prepareSemantic : Except SemanticAnalysisError (Option PreparedSemantic) := do
  require ((Json.copyWithin inputLimits (input.toJson intentQuery)).isSome ∧
    intentQuery.all isSemanticIntentQuerySafe) .invalidContext
  match input.inference with
  | .disabled => return none
  | .enabled provider model =>
    require (IsValidInput host input model) .invalidContext
    let (sourceProfile, endpoints) ← preparedEndpoints input intentQuery
    return some ⟨provider, model, endpoints, sourceProfile, intentQuery.map fun _ =>
      contextCoverage input.endpointIds (endpoints.map (·.endpointId))⟩

/-- The request for prepared endpoints. -/
def PreparedSemantic.request (prepared : PreparedSemantic) : SemanticProviderRequest where
  promptVersion := if prepared.sourceProfile then .discoverySource
    else if intentQuery.isSome then .discovery else .grounding
  intentQuery := intentQuery
  provider := prepared.provider
  model := prepared.model
  source := ⟨input.selection.repositoryId, input.selection.serviceId, input.selection.selector,
    input.pin⟩
  endpoints := prepared.endpoints

/-- The request that is sent, none when inference is disabled or there is no context. -/
def semanticRequest : Except SemanticAnalysisError (Option SemanticProviderRequest) := do
  let prepared ← prepareSemantic host input intentQuery
  return (prepared.filter fun prepared => !prepared.endpoints.isEmpty).map
    (PreparedSemantic.request input intentQuery)

def runSemantic (providerPort : SemanticProviderRequest → ProviderOutcome) :
    Except SemanticAnalysisError SemanticAnalysisResult := do
  match ← prepareSemantic host input intentQuery with
  | none => return .disabled
  | some prepared =>
    if prepared.endpoints.isEmpty then return .noContext prepared.coverage
    let request := prepared.request input intentQuery
    let output ← validateOutput (providerPort request) request
    return .answered output
      ⟨prepared.provider, prepared.model, request.promptVersion, input.selection.selector,
        input.pin⟩ prepared.coverage

end Run

def runGroundedSemanticAnalysis (host : Host) (input : SemanticAnalysisInput)
    (providerPort : SemanticProviderRequest → ProviderOutcome) :
    Except SemanticAnalysisError SemanticAnalysisResult :=
  runSemantic host input none providerPort

def runGroundedSemanticDiscovery (host : Host) (input : SemanticAnalysisInput)
    (intentQuery : String) (providerPort : SemanticProviderRequest → ProviderOutcome) :
    Except SemanticAnalysisError SemanticAnalysisResult :=
  runSemantic host input (some intentQuery) providerPort

end ApiTruth.Semantics
