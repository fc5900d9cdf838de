import ApiTruth.Foundation.Marking
import ApiTruth.OpenApi.Operation

/-!
# The OpenAPI compiler

The compiler works through the groups of the projection plan.  A group of one endpoint gives the
operation of that endpoint; several endpoints with one method and path are merged when they differ
in the media types they consume and agree in everything else.  The components and the security
schemes that the emitted operations use are collected at the end.  In strict mode any diagnostic
withholds the document.

## Main definitions

* `schemaUsers` : the endpoints that use a component.
* `compileEndpoint`, `compileGroup` : the operation of an endpoint and of a group.
* `compileSnapshot`, `compileOpenApiSnapshot`.
-/

namespace ApiTruth.OpenApi

open Json ApiTruth.Ir Reported

/-! ### Components and their users -/

section Users

variable (snapshot : ContractSnapshot)

/-- `snapshot.endpoints.find((item) => item.endpoint_id === id)`. -/
def endpointById (id : String) : Option Endpoint :=
  snapshot.endpoints.find? (·.endpointId == id)

def componentEdges : List (String × String) :=
  (referenceGraph snapshot).flatMap fun node => node.2.map (node.1, ·)

/-- `schemaUsers`, a map of sets, as the list of its pairs. -/
def schemaUsers : List (String × String) :=
  Marking.saturate (componentEdges snapshot)
    (snapshot.endpoints.flatMap fun endpoint =>
      (endpointRefs endpoint).map (·, endpoint.endpointId))

/-- `[...(schemaUsers.get(name) ?? [])].sort(ascii)`. -/
def usersOf (name : String) : List String :=
  sorted id (Marking.valuesAt (schemaUsers snapshot) name).dedup

def componentPath (name : String) : String := "/schemas/" ++ pointer name

/-- A component lacks qualifying evidence; that of a single user may be about this endpoint. -/
def isUnverifiedSchema (name : String) (component : SchemaComponent) : Bool :=
  let users := usersOf snapshot name
  !hasQualifyingEvidence snapshot component.evidenceIds
    (match users with | [user] => some user | _ => none) false

/-- `UNVERIFIED_SCHEMA` if the component lacks qualifying evidence. -/
def checkComponent (name : String) : Reported CompileDiagnostic Unit :=
  match snapshot.schemas.lookup name with
  | none => pure ()
  | some component => reportIf (isUnverifiedSchema snapshot name component)
      (diagnostic "UNVERIFIED_SCHEMA" (componentPath name) (usersOf snapshot name))

def exportComponent (name : String) (component : SchemaComponent) :
    Reported CompileDiagnostic Json :=
  exportSchema snapshot (usersOf snapshot name) (componentPath name ++ "/schema")
    (componentPath name ++ "/schema") component.schema

/-- `groupSchemasReady` : the components are exported for what the export reports. -/
def groupSchemasReady (names : List String) : Reported CompileDiagnostic Unit := do
  let _ ← each (sorted id names.dedup) fun name => do
    checkComponent snapshot name
    match snapshot.schemas.lookup name with
    | none => pure ()
    | some component => do
      let _ ← exportComponent snapshot name component
      pure ()
  pure ()

end Users

/-! ### Endpoints -/

structure Compiled where
  endpoint : Endpoint
  operation : Operation
  renderedPath : String
  schemas : List String
  security : List String
deriving DecidableEq

section Endpoints

variable (host : Host) (snapshot : ContractSnapshot)

/-- The endpoints of a group whose paths `shapePaths` collects. -/
def shapeEndpoints (group : ProjectionGroup) : List Endpoint :=
  (if group.kind = .variantSet then group.endpointIds else group.endpointIds.take 1).filterMap
    (endpointById snapshot)

/-- `shapePaths` : the rendered paths of a shape. -/
def shapePaths (shape : String) : List String :=
  let entries := (planOpenApiProjection snapshot).groups.flatMap fun group =>
    (shapeEndpoints snapshot group).map fun endpoint =>
      (group.pathShape, (openApiPath endpoint.applicationPath).path)
  (Marking.valuesAt entries shape).dedup

/-- The rendered names without a required path parameter, or the other way round. -/
def hasPathMismatch (endpoint : Endpoint) : Bool :=
  let names := (openApiPath endpoint.applicationPath).names
  let pathParameters := endpoint.parameters.filter (·.location = .path)
  (names.any fun name => !pathParameters.any fun item =>
    item.name == name && presenceState item.presence == "required") ||
  pathParameters.any fun item =>
    !names.contains item.name || presenceState item.presence != "required"

def compileParts (endpoint : Endpoint) : Reported CompileDiagnostic (Option Operation) := do
  let parameters ← exportParameters host snapshot endpoint []
    (sorted parameterKey endpoint.parameters)
  let requestBody ← exportRequestBody snapshot endpoint
  let responses ← exportResponses host snapshot endpoint [] endpoint.responses
  if responses.isEmpty then
    report (endpointDiagnostic endpoint "NO_KNOWN_RESPONSE" (endpointPath endpoint ++ "/responses"))
    pure none
  else
    let unverified := !isEstablished snapshot endpoint endpoint.evidenceIds
    reportIf unverified
      (endpointDiagnostic endpoint "UNVERIFIED_RESPONSE" (endpointPath endpoint ++ "/responses"))
    let security ← exportSecurity snapshot endpoint
    if parameters.skip || requestBody.skip || unverified || security.skip then pure none
    else pure (some
      { parameters := parameters.value
        requestBody := requestBody.value
        responses := sorted Prod.fst responses
        security := security.value })

def securityNames (endpoint : Endpoint) : List String :=
  if endpoint.security.state = some .declared then schemeNames endpoint else []

def compileEndpoint (endpoint : Endpoint) : Reported CompileDiagnostic (Option Compiled) := do
  let rendered := openApiPath endpoint.applicationPath
  let schemas := reachableSchemas snapshot endpoint
  let invalid := schemas.filter (!ContractSnapshot.isComponentKey ·)
  if 1 < (shapePaths snapshot endpoint.identity.normalizedPathShape).length then
    report (endpointDiagnostic endpoint "CONFLICTING_PATH_PARAMETER_NAMES"
      (endpointPath endpoint ++ "/application_path"))
    pure none
  else if !invalid.isEmpty then
    let _ ← each (sorted id invalid) fun name => report
      (endpointDiagnostic endpoint "INVALID_SCHEMA_COMPONENT_KEY" (componentPath name))
    pure none
  else if hasPathMismatch endpoint then
    report (endpointDiagnostic endpoint "UNREPRESENTABLE_PATH_PARAMETER"
      (endpointPath endpoint ++ "/parameters"))
    pure none
  else
    let operation ← compileParts host snapshot endpoint
    pure (operation.map fun operation =>
      { endpoint := endpoint
        operation := operation
        renderedPath := rendered.path
        schemas := schemas
        security := securityNames endpoint })

end Endpoints

/-! ### Variants -/

/-- `[a-z0-9]`. -/
def isMediaStart (c : Char) : Bool := c.isLower || c.isDigit

/-- `[a-z0-9][a-z0-9!#$&^_.+-]*`. -/
def isMediaPart : List Char → Bool
  | [] => false
  | c :: cs => isMediaStart c && cs.all fun d => isMediaStart d || "!#$&^_.+-".toList.contains d

/-- `concreteMediaType`. -/
def isConcreteMediaType (mediaType : String) : Bool :=
  match mediaType.toList.splitOn '/' with
  | [type, subtype] => isMediaPart type && isMediaPart subtype
  | _ => false

def exactConsumes (endpoint : Endpoint) : Option (List String) :=
  let selectors := endpoint.identity.selectors
  let consumes := selectors.consumes.getD []
  let body := endpoint.requestBodies.map RequestBody.mediaType
  if !(selectors.headers.getD []).isEmpty || !(selectors.query.getD []).isEmpty ||
      !(selectors.produces.getD []).isEmpty then none
  else if consumes.isEmpty || body.isEmpty || decide (¬ consumes.Nodup) ||
      body.any (!isConcreteMediaType ·) || consumes.any (!isConcreteMediaType ·) ||
      sorted id consumes != sorted id body ||
      endpoint.requestBodies.any (presenceState ·.presence != "required") then none
  else some (sorted id consumes)

/-- The endpoint has a `consumes` selector and no list of other selectors. -/
def hasConsumesOnly (endpoint : Endpoint) : Bool :=
  let selectors := endpoint.identity.selectors
  !(selectors.consumes.getD []).isEmpty && selectors.headers.isNone && selectors.query.isNone &&
    selectors.produces.isNone

def codeNumber (code : ℕ) : Json :=
  if h : Numeral.isNumeral (toString code).toList then .num ⟨(toString code).toList, h⟩ else .null

def statusJson : ResponseStatus → Json
  | .exact code => .obj [("kind", .str "exact"), ("code", codeNumber code)]
  | .range range => .obj [("kind", .str "range"), ("range", .str range)]
  | .default => .obj [("kind", .str "default")]
  | .unknown reason => .obj [("kind", .str "unknown"), ("reason", .str reason)]

def serializationJson (serialization : Serialization) : Json :=
  .obj (
    (serialization.format.map fun format => ("format", Json.str format)).toList ++
    (serialization.style.map fun style => ("style", Json.str style)).toList ++
    (serialization.explode.map fun explode => ("explode", Json.bool explode)).toList ++
    (serialization.contentEncoding.map fun text => ("content_encoding", Json.str text)).toList)

def contentJson (content : Content) : Json :=
  .obj [("media_type", .str content.mediaType), ("schema", content.schema),
    ("serialization", serializationJson content.serialization)]

def headerJson (header : ResponseHeader) : Json :=
  .obj [("name", .str header.name), ("schema", header.schema)]

def canonical (value : Json) : String := stringify (rearrange (sorted Prod.fst) value)

/-- The text of a response with its media types and headers in order. -/
def responseFact (host : Host) (response : Response) : String :=
  canonical (.obj (
    [("status", statusJson response.status),
      ("content", .arr ((sorted Content.mediaType response.content).map contentJson))] ++
    (response.headers.map fun headers => ("headers", Json.arr
      ((sorted (fun header => host.toLowerCase header.name) headers).map headerJson))).toList))

/-- `contract` : what variants have to agree in, which the compiler compares as JSON texts. -/
structure VariantContract where
  path : String
  parameters : List EmittedParameter
  responses : List (String × EmittedResponse)
  security : EmittedSecurity
  responseFacts : List String
deriving DecidableEq

/-- `contract(item)`. -/
def variantContract (host : Host) (item : Compiled) : VariantContract where
  path := item.renderedPath
  parameters := item.operation.parameters
  responses := item.operation.responses
  security := item.operation.security
  responseFacts := sorted id (item.endpoint.responses.map (responseFact host))

/-- The media types of the request body of a compiled endpoint. -/
def Compiled.content (item : Compiled) : List (String × EmittedMedia) :=
  (item.operation.requestBody.map EmittedRequestBody.content).getD []

/-- The operation of the first variant with the media types of all. -/
def mergedOperation (first : Compiled) (items : List Compiled) : Operation :=
  { first.operation with
    requestBody := some
      { content := sorted Prod.fst (OrderedMap.ofEntries (items.flatMap Compiled.content)).entries
        required := true } }

/-! ### Groups -/

/-- What a group adds to the document: an operation, and the components and security schemes of
the compiled endpoints behind it. -/
structure Emission where
  path : String
  method : String
  operation : Operation
  members : List Compiled
deriving DecidableEq

/-- `emit`; a method has only the letters A to Z. -/
def emission (first : Compiled) (operation : Operation) (members : List Compiled) : Emission where
  path := first.renderedPath
  method := first.endpoint.identity.method.toLower
  operation := operation
  members := members

section Groups

variable (host : Host) (snapshot : ContractSnapshot)

/-- The group emits nothing for this reason. -/
def withhold (code : String) (group : ProjectionGroup) :
    Reported CompileDiagnostic (Option Emission) := do
  report (diagnostic code "/endpoints" group.endpointIds)
  pure none

/-- The compiled endpoints of a group, which the compiler compiles before anything else. -/
def compileEndpoints (endpoints : List Endpoint) :
    Reported CompileDiagnostic (List (Option Compiled)) :=
  each endpoints (compileEndpoint host snapshot)

def compileSelected (group : ProjectionGroup) (endpoint : Endpoint) :
    Reported CompileDiagnostic (Option Emission) := do
  let result := compileEndpoint host snapshot endpoint
  let compiled ← result
  if (exactConsumes endpoint).isNone then
    withhold (if hasConsumesOnly endpoint then "SELECTOR_CONSUMES_MISMATCH"
      else "SELECTOR_REQUIRES_REPRESENTATION") group
  else match compiled with
    | none => withhold "SELECTOR_REQUIRES_REPRESENTATION" group
    | some item =>
      if !result.diagnostics.isEmpty then withhold "SELECTOR_REQUIRES_REPRESENTATION" group
      else
        let ready := groupSchemasReady snapshot item.schemas
        let _ ← ready
        if !ready.diagnostics.isEmpty then withhold "SELECTOR_REQUIRES_REPRESENTATION" group
        else pure (some (emission item item.operation [item]))

def compileVariants (group : ProjectionGroup) (endpoints : List Endpoint) :
    Reported CompileDiagnostic (Option Emission) := do
  let result := compileEndpoints host snapshot endpoints
  let compiled ← result
  let items := compiled.reduceOption
  let ready := groupSchemasReady snapshot (items.flatMap Compiled.schemas)
  if endpoints.any fun endpoint => (exactConsumes endpoint).isNone then
    withhold "SELECTOR_REQUIRES_REPRESENTATION" group
  else if compiled.any (·.isNone) || !result.diagnostics.isEmpty then
    withhold "UNVERIFIED_VARIANT_CONTRACT" group
  else if ¬ (endpoints.flatMap fun endpoint => (exactConsumes endpoint).getD []).Nodup then
    withhold "OVERLAPPING_VARIANT_MEDIA_TYPE" group
  else do
    let _ ← ready
    if !ready.diagnostics.isEmpty then withhold "UNVERIFIED_VARIANT_CONTRACT" group
    else match items with
      | [] => pure none
      | first :: rest =>
        if rest.any fun item => variantContract host item ≠ variantContract host first then
          withhold "INCOMPATIBLE_VARIANT_CONTRACT" group
        else pure (some (emission first (mergedOperation first items) items))

def groupEndpoints (group : ProjectionGroup) : List Endpoint :=
  group.endpointIds.filterMap (endpointById snapshot)

def compileGroup (group : ProjectionGroup) : Reported CompileDiagnostic (Option Emission) :=
  match group.kind, groupEndpoints snapshot group with
  | .single, endpoint :: _ => do
    let compiled ← compileEndpoint host snapshot endpoint
    pure (compiled.map fun item => emission item item.operation [item])
  | .selectedSingle, endpoint :: _ => compileSelected host snapshot group endpoint
  | .variantSet, endpoints => compileVariants host snapshot group endpoints
  | _, [] => pure none

end Groups

/-! ### Documents -/

abbrev PathItem := OrderedMap String Operation

/-- `paths[path] ??= {}`, and the operation under its method. -/
def emitInto (paths : OrderedMap String PathItem) (emission : Emission) :
    OrderedMap String PathItem :=
  paths.set emission.path
    (((paths.get? emission.path).getD .empty).set emission.method emission.operation)

/-- A document; its version is `3.1.0`. -/
structure Document where
  title : String
  version : String
  paths : List (String × PathItem)
  schemas : List (String × Json)
  securitySchemes : List (String × SecuritySchemeDefinition)

inductive CompileMode
  | draft
  | strict
deriving DecidableEq, Repr

/-- `OpenApiCompileResult`. -/
structure CompileResult where
  ok : Bool
  document : Option Document
  diagnostics : List CompileDiagnostic

section Documents

variable (host : Host) (snapshot : ContractSnapshot)

/-- The diagnostics before the groups: of the coverage and of the plan. -/
def planDiagnostics : List CompileDiagnostic :=
  (if snapshot.coverage.isIncomplete then [diagnostic "INCOMPLETE_COVERAGE" "/coverage" []]
    else []) ++
  ((planOpenApiProjection snapshot).diagnostics.filter
      (·.code ≠ "VARIANT_REQUIRES_REPRESENTATION")).map fun item =>
    diagnostic item.code "/endpoints" item.endpointIds

def compileGroups : Reported CompileDiagnostic (List Emission) := do
  let emissions ← each (planOpenApiProjection snapshot).groups (compileGroup host snapshot)
  pure emissions.reduceOption

def usedSchemas (emissions : List Emission) : List String :=
  (emissions.flatMap fun emission => emission.members.flatMap Compiled.schemas).dedup

def usedSecurity (emissions : List Emission) : List String :=
  (emissions.flatMap fun emission => emission.members.flatMap Compiled.security).dedup

def exportComponents (emissions : List Emission) :
    Reported CompileDiagnostic (List (String × Json)) := do
  let used := usedSchemas emissions
  let schemas ← each (sorted Prod.fst (snapshot.schemas.filter fun entry => used.contains entry.1))
    fun entry => do
      let schema ← exportComponent snapshot entry.1 entry.2
      pure (entry.1, schema)
  let _ ← each (sorted id used) (checkComponent snapshot)
  pure schemas

/-- The document of the emissions with these components. -/
def assemble (emissions : List Emission) (schemas : List (String × Json)) : Document where
  title := snapshot.service.label.getD snapshot.service.serviceId
  version := snapshot.source.immutableRevision
  paths := sorted Prod.fst (emissions.foldl emitInto .empty).entries
  schemas := schemas
  securitySchemes := (sorted id (usedSecurity emissions)).filterMap fun name =>
    (securityScheme snapshot name).map fun fact => (name, fact.definition)

def compileDocument : Reported CompileDiagnostic Document := do
  let _ ← (⟨(), planDiagnostics snapshot⟩ : Reported CompileDiagnostic Unit)
  let emissions ← compileGroups host snapshot
  let schemas ← exportComponents snapshot emissions
  pure (assemble snapshot emissions schemas)

def compileSnapshot (mode : CompileMode) : CompileResult :=
  let result := compileDocument host snapshot
  let ok := mode == .draft || result.diagnostics.isEmpty
  { ok := ok
    document := if ok then some result.value else none
    diagnostics := sortedBy (fun item =>
      [item.path, item.code, "\u0000".intercalate item.endpointIds]) result.diagnostics }

/-- `compileOpenApiSnapshot`; nothing where the source throws. -/
def compileOpenApiSnapshot (mode : CompileMode) : Option CompileResult :=
  if snapshot.Accepted host then some (compileSnapshot host snapshot mode) else none

end Documents

/-! ### A snapshot that can be exported -/

def exportedEvidence (endpointId : String) : Evidence where
  evidenceId := "ev-" ++ endpointId
  sourceKind := "code"
  sourceId := "src"
  sourceVersion := "1"
  location := { path := some "a.ts" }
  method := .deterministicAnalysis
  scope := { serviceId := "svc", snapshotId := some "snap", endpointId := some endpointId }
  limitations := []
  accessLabel := "internal"

/-- An anonymous endpoint that returns one JSON value. -/
def exportedEndpoint (endpointId path shape : String) (schema : Json) : Endpoint where
  endpointId := endpointId
  identity :=
    { identityVersion := "1.0.0"
      routeKey := "1.0.0|svc|GET|" ++ shape ++ "|" ++ stableSelectors {}
      serviceId := "svc"
      method := "GET"
      normalizedPathShape := shape
      selectors := {} }
  applicationPath := path
  parameters := []
  requestBodies := []
  responses :=
    [{ status := .exact 200
       content := [{ mediaType := "application/json", schema := schema,
                     serialization := { format := some "json" } }] }]
  security := { state := some .anonymous, evidenceIds := some ["ev-" ++ endpointId],
                alternatives := [] }
  evidenceIds := ["ev-" ++ endpointId]

def sampleExport (schema : Json) : ContractSnapshot :=
  { sampleSnapshot with
    evidence := [exportedEvidence "a"]
    endpoints := [exportedEndpoint "a" "/a" "/a" schema] }

end ApiTruth.OpenApi
