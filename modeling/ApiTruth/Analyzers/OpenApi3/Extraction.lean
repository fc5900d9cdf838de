import ApiTruth.Analyzers.OpenApi3.Projection
import ApiTruth.Foundation.Patterns

/-!
# Extraction of OpenAPI documents

The analyzer stores the schemas of the components and extracts one endpoint for each operation
whose path it can normalize: its parameters, request bodies and responses with their schemas.
Claims, evidence, dependencies, servers, security and form encodings are not part of this model.

## Main definitions

* `extractParameter`, `extractRequestBodies`, `extractResponse`, `extractHeaders`.
* `extractEndpoint`, `extractComponents` : the steps of the extraction.
* `extractOpenApiDocument` : the extraction of a parsed document.
-/

namespace ApiTruth.Analyzers.OpenApi3

open Json ApiTruth.Ir Extract

/-! ### Texts -/

/-- `[A-Za-z0-9!#$&^_.+-]`. -/
def mediaChar : Regex := .one fun c => c.isAlphanum || "!#$&^_.+-".toList.contains c

/-- `[A-Za-z0-9!#$&^_.+*-]`. -/
def mediaSubtypeChar : Regex := .one fun c => c.isAlphanum || "!#$&^_.+*-".toList.contains c

def mediaParameter : Regex :=
  .inOrder [.many (.one isSpace), .exactly ";", .many (.one isSpace), .atLeast 1 mediaChar,
    .exactly "=", .oneOf [.atLeast 1 mediaChar,
      .inOrder [.exactly "\"", .many (.one fun c => c != '"' && c != '\r' && c != '\n'),
        .exactly "\""]]]

def isMediaType (value : String) : Bool :=
  (Regex.inOrder [.oneOf [.exactly "*", .atLeast 1 mediaChar], .exactly "/",
    .oneOf [.exactly "*", .atLeast 1 mediaSubtypeChar], .many mediaParameter]).isFull value

/-- ``/^[!#$%&'*+.^_`|~A-Za-z0-9-]+$/`` matches the name of a header. -/
def isHeaderName (name : String) : Bool :=
  !name.isEmpty && name.toList.all fun c => c.isAlphanum || "!#$%&'*+.^_`|~-".toList.contains c

/-- The names between braces: `/\{([^{}]+)\}/g`; inside braces the text read so far is given. -/
def placeholdersFrom : Option (List Char) → List Char → List String
  | _, [] => []
  | none, c :: cs => placeholdersFrom (if c = '{' then some [] else none) cs
  | some name, c :: cs =>
    if c = '{' then placeholdersFrom (some []) cs
    else if c = '}' then
      (if name.isEmpty then [] else [String.ofList name]) ++ placeholdersFrom none cs
    else placeholdersFrom (some (name ++ [c])) cs

def placeholders (path : String) : List String := placeholdersFrom none path.toList

example : placeholders "/a/{id}/{x{y}z}" = ["id", "y"] := by decide

/-- The status that a selector of a response stands for. -/
def responseStatus (selector : String) : Option ResponseStatus :=
  let isClass := fun c : Char => '1' ≤ c && c ≤ '5'
  if selector = "default" then some .default
  else
    match selector.toList with
    | [c, d, e] =>
      if isClass c && d.isDigit && e.isDigit then selector.toNat?.map .exact
      else if isClass c && d == 'X' && e == 'X' then some (.range selector)
      else none
    | _ => none

/-! ### Extracted endpoints -/

section Structures

variable (host : Host) (profile : Profile) (document : Json)

structure Parameter where
  name : String
  location : ParameterIn
  presence : PresenceState
  schema : Stored host profile document
  serialization : Serialization

structure Media where
  mediaType : String
  schema : Stored host profile document

structure RequestBody extends Media host profile document where
  presence : PresenceState

structure ResponseHeader where
  name : String
  schema : Stored host profile document

structure Response where
  status : ResponseStatus
  content : List (Media host profile document) := []
  headers : List (ResponseHeader host profile document) := []

structure Endpoint where
  endpointId : String
  identity : EndpointIdentity
  applicationPath : String
  parameters : List (Parameter host profile document)
  requestBodies : List (RequestBody host profile document)
  responses : List (Response host profile document)

end Structures

variable {document : Json}

def field (place : Located document) (key : String) : Option Json := place.value.members.lookup key

def textField (place : Located document) (key : String) : Option String :=
  match field place key with
  | some (.str s) => some s
  | _ => none

/-- The members that a parameter or a header may have. -/
def allowedParameter : List String :=
  ["name", "in", "description", "required", "deprecated", "allowEmptyValue", "style", "explode",
    "allowReserved", "schema", "example", "examples", "content", "$ref"]

def allowedMedia : List String := ["schema", "example", "examples", "encoding"]

/-! ### Parameters -/

/-- The parameters of an operation by their keys, and the keys seen in the current list. -/
structure ParameterTable (document : Json) where
  entries : List (String × Located document) := []
  seen : List String := []
  collided : List String := []

section Parameters

variable (host : Host) (profile : Profile) (endpointId : String)

/-- Header names are compared without regard to case. -/
def parameterKey (location name : String) : String :=
  location ++ "\x00" ++ if location = "header" then host.toLowerCase name else name

def addParameter (table : ParameterTable document) (raw : Located document) :
    Extract document (ParameterTable document) := do
  let some parameter ← localObject profile "parameters" raw | return table
  match (textField parameter "name").filter (· != ""), textField parameter "in" with
  | some name, some location =>
    let key := parameterKey host location name
    if table.seen.contains key then
      noteAbout endpointId "duplicate_parameter" (pointer raw)
      return { table with
        collided := key :: table.collided
        entries := table.entries.filter (·.1 != key) }
    else if table.collided.contains key then
      return { table with seen := key :: table.seen }
    else
      return { table with
        seen := key :: table.seen
        entries := OrderedMap.setEntries key parameter table.entries }
  | _, _ =>
    noteAbout endpointId "parameter_unsupported" (pointer raw)
    return table

/-- `addParameters` : a list of parameters. -/
def addParameters (table : ParameterTable document) (owner : Located document) :
    Extract document (ParameterTable document) :=
  match owner.member? "parameters" with
  | none => pure table
  | some list =>
    if isArray list.value then
      list.items.foldlM (addParameter host profile endpointId) { table with seen := [], collided := [] }
    else do
      noteAbout endpointId "parameters_unsupported" (pointer list)
      pure table

def parameterIn : String → Option ParameterIn
  | "path" => some .path
  | "query" => some .query
  | "header" => some .header
  | "cookie" => some .cookie
  | _ => none

def parameterPresence (names : List String) (place : Located document) (location : ParameterIn)
    (name : String) : Extract document PresenceState := do
  let required := field place "required"
  if location = .path then
    if required != some (.bool true) then
      noteAbout endpointId "optional_path_parameter_unsupported" (pointer place ++ "/required")
    if !names.contains name then
      noteAbout endpointId "path_parameter_not_in_template" (pointer place)
    return if required = some (.bool true) then .required else .unknown
  if required = some (.bool true) then return .required
  if required = some (.bool false) ∨ required = none then return .optional
  noteAbout endpointId "parameter_required_unsupported" (pointer place ++ "/required")
  return .unknown

/-- The style of a location without `style`. -/
def defaultStyle : ParameterIn → String
  | .path => "simple"
  | .query => "form"
  | .header => "simple"
  | .cookie => "form"

def supportedStyles : ParameterIn → List String
  | .path => ["simple", "label", "matrix"]
  | .query => ["form", "spaceDelimited", "pipeDelimited", "deepObject"]
  | .header => ["simple"]
  | .cookie => ["form"]

/-- The style and `explode` of a parameter that can be serialized. -/
def parameterStyle (place : Located document) (location : ParameterIn) (type : Option Json) :
    Option (String × Bool) :=
  let style := (field place "style").getD (.str (defaultStyle location))
  let explode := (field place "explode").getD (.bool (style == .str "form"))
  match style, explode with
  | .str style, .bool explode =>
    if (supportedStyles location).contains style &&
        !(location == .cookie && (style != "form" || !explode)) &&
        !(style == "deepObject" && (type != some (.str "object") || !explode)) &&
        !(["spaceDelimited", "pipeDelimited"].contains style &&
          (type != some (.str "array") || explode)) &&
        field place "allowReserved" != some (.bool true) &&
        field place "allowEmptyValue" != some (.bool true)
    then some (style, explode) else none
  | _, _ => none

/-- The schema of a parameter under `content`, and its media type. -/
def parameterContent (place content : Located document) :
    Extract document (Option (Stored host profile document × Serialization)) := do
  let unsupported : Extract document (Option (Stored host profile document × Serialization)) := do
    noteAbout endpointId "parameter_content_unsupported" (pointer place ++ "/content")
    return none
  match content.members with
  | [(mediaType, media)] =>
    if !isObject media.value || !isMediaType mediaType then unsupported
    else
      if ["style", "explode", "allowReserved"].any fun key => (field place key).isSome then
        noteAbout endpointId "parameter_content_serialization_conflict" (pointer place)
      match media.member? "schema" with
      | none => return some (.empty host profile, { contentEncoding := some mediaType })
      | some schema =>
        if isObject schema.value then
          let projected ← projectSchema host profile schema
          return some (projected.getD (.empty host profile), { contentEncoding := some mediaType })
        else
          noteAbout endpointId "parameter_content_schema_unsupported" (pointer schema)
          return none
  | _ => unsupported

/-- The schema of a parameter under `schema`, and its serialization. -/
def parameterSchema (place schema : Located document) (location : ParameterIn) :
    Extract document (Option (Stored host profile document × Serialization)) := do
  if !isObject schema.value then
    noteAbout endpointId "parameter_schema_unsupported" (pointer schema)
    return none
  let stored := (← projectSchema host profile schema).getD (.empty host profile)
  match parameterStyle place location (stored.schema.members.lookup "type") with
  | some (style, explode) =>
    return some (stored, { style := some style, explode := some explode })
  | none =>
    noteAbout endpointId "parameter_serialization_unsupported" (pointer place)
    return some (stored, { format := some "openapi3-unresolved" })

def parameterValue (place : Located document) (location : ParameterIn) :
    Extract document (Option (Stored host profile document × Serialization)) :=
  match place.member? "schema", place.member? "content" with
  | some _, some _ => do
    noteAbout endpointId "parameter_schema_content_conflict" (pointer place)
    return none
  | none, some content => parameterContent host profile endpointId place content
  | some schema, none => parameterSchema host profile endpointId place schema location
  | none, none => do
    noteAbout endpointId "parameter_schema_unknown" (pointer place)
    return none

def extractParameter (names : List String) (place : Located document) :
    Extract document (Option (Parameter host profile document)) := do
  noteUnknown allowedParameter place
  let name := (textField place "name").getD ""
  match parameterIn ((textField place "in").getD "") with
  | none =>
    noteAbout endpointId "parameter_location_unsupported" (pointer place ++ "/in")
    return none
  | some location =>
    if location = .header ∧
        ["accept", "content-type", "authorization"].contains (host.toLowerCase name) then
      noteAbout endpointId "reserved_header_parameter_unsupported" (pointer place)
      return none
    let presence ← parameterPresence endpointId names place location name
    let some (schema, serialization) ← parameterValue host profile endpointId place location
      | return none
    return some { name, location, presence, schema, serialization }

def extractParameters (path : String) (pathItem operation : Located document) :
    Extract document (List (Parameter host profile document)) := do
  let table ← addParameters host profile endpointId {} pathItem
  let table ← addParameters host profile endpointId table operation
  let parameters ← table.entries.filterMapM fun entry =>
    extractParameter host profile endpointId (placeholders path) entry.2
  for name in placeholders path do
    if !parameters.any fun p => p.location == .path && p.name == name then
      noteAbout endpointId "path_parameter_missing" (pointer operation ++ "/parameters")
  return parameters

end Parameters

/-! ### Request bodies -/

section Bodies

variable (host : Host) (profile : Profile) (endpointId : String)

/-- The stored schema of a media type; without one its absence is reported under the code. -/
def mediaSchema (code : String) (media : Located document) :
    Extract document (Stored host profile document) :=
  match media.member? "schema" with
  | some schema => do
    return (← projectSchema host profile schema).getD (.empty host profile)
  | none => do
    noteAbout endpointId code (pointer media)
    return .empty host profile

def bodyPresence (body : Located document) : Extract document PresenceState := do
  match field body "required" with
  | some (.bool true) => return .required
  | some (.bool false) => return .optional
  | none => return .optional
  | some _ =>
    noteAbout endpointId "request_body_required_unsupported" (pointer body ++ "/required")
    return .unknown

/-- The request bodies of an operation, one for each media type. -/
def extractRequestBodies (method : String) (operation : Located document) :
    Extract document (List (RequestBody host profile document)) := do
  let some raw := operation.member? "requestBody" | return []
  if !(["post", "put", "patch"].contains method) then
    noteAbout endpointId "request_body_method_unsupported" (pointer raw)
    return []
  let some body ← localObject profile "requestBodies" raw | return []
  noteUnknown ["description", "content", "required"] body
  let presence ← bodyPresence endpointId body
  match (body.member? "content").filter fun content => isObject content.value with
  | none =>
    noteAbout endpointId "request_body_content_unsupported" (pointer body ++ "/content")
    return []
  | some content =>
    (sortedEntries host content).filterMapM fun (mediaType, media) => do
      if !isMediaType mediaType || !isObject media.value then
        noteAbout endpointId "request_body_media_unsupported" (pointer media)
        return none
      noteUnknown allowedMedia media
      let schema ← mediaSchema host profile endpointId "request_body_schema_unknown" media
      return some { mediaType, schema, presence }

/-! ### Responses -/

def extractContent (response : Located document) :
    Extract document (List (Media host profile document)) := do
  let some content := response.member? "content" | return []
  if !isObject content.value then
    noteAbout endpointId "response_content_unsupported" (pointer content)
    return []
  (sortedEntries host content).filterMapM fun (mediaType, media) => do
    if !isMediaType mediaType || !isObject media.value then
      noteAbout endpointId "response_media_unsupported" (pointer media)
      return none
    noteUnknown allowedMedia media
    if (field media "encoding").isSome then
      noteAbout endpointId "response_encoding_unsupported" (pointer media ++ "/encoding")
    let schema ← mediaSchema host profile endpointId "response_schema_unknown" media
    return some { mediaType, schema }

/-- The header is one that is stored: a plain name that does not occur before, without `content`
and with the default serialization. -/
def isStorableHeader (seen : List String) (name : String) (header : Located document) : Bool :=
  isHeaderName name && host.toLowerCase name != "content-type" &&
    !seen.contains (host.toLowerCase name) && (field header "content").isNone &&
    (field header "style").all (· == .str "simple") &&
    (field header "explode").all (· == .bool false)

/-- The stored schema of a header, unless something in it is reported. -/
def headerSchema (at_ : String) (header : Located document) :
    Extract document (Option (Stored host profile document)) :=
  match header.member? "schema" with
  | none => do
    noteAbout endpointId "response_header_schema_unknown" at_
    return none
  | some schema => do
    let before := (← get).diagnostics.length
    let converted ← projectSchema host profile schema
    return if (← get).diagnostics.length = before then converted else none

/-- One header of a response, after the headers whose names were seen. -/
def extractHeader
    (headers : List String × List (ResponseHeader host profile document))
    (entry : String × Located document) :
    Extract document (List String × List (ResponseHeader host profile document)) := do
  let (name, raw) := entry
  let some header ← localObject profile "headers" raw | return headers
  noteUnknown allowedParameter header
  if !isStorableHeader host headers.1 name header then
    noteAbout endpointId "response_header_unsupported" (pointer raw)
    return headers
  let seen := host.toLowerCase name :: headers.1
  match ← headerSchema host profile endpointId (pointer raw) header with
  | none => return (seen, headers.2)
  | some schema => return (seen, headers.2 ++ [{ name, schema }])

def extractHeaders (response : Located document) :
    Extract document (List (ResponseHeader host profile document)) := do
  let some map := response.member? "headers" | return []
  if !isObject map.value then
    noteAbout endpointId "response_headers_unsupported" (pointer map)
    return []
  let (_, headers) ← (sortedEntries host map).foldlM (extractHeader host profile endpointId) ([], [])
  return headers

def extractResponse (entry : String × Located document) :
    Extract document (Option (Response host profile document)) := do
  let (selector, raw) := entry
  let some status := responseStatus selector
    | noteAbout endpointId "response_selector_unsupported" (pointer raw)
      return none
  let some response ← localObject profile "responses" raw | return some { status }
  noteUnknown ["description", "headers", "content", "links"] response
  if (textField response "description").isNone then
    noteAbout endpointId "response_description_missing" (pointer response ++ "/description")
  if (field response "links").isSome then
    noteAbout endpointId "response_links_unsupported" (pointer response ++ "/links")
  let content ← extractContent host profile endpointId response
  let headers ← extractHeaders host profile endpointId response
  return some { status, content, headers }

def extractResponses (operation : Located document) :
    Extract document (List (Response host profile document)) := do
  let responses ←
    match (operation.member? "responses").filter fun responses => isObject responses.value with
    | none => do
      noteAbout endpointId "responses_unsupported" (pointer operation ++ "/responses")
      pure []
    | some responses => do
      if responses.members.isEmpty then
        noteAbout endpointId "responses_empty" (pointer responses)
      (sortedEntries host responses).filterMapM (extractResponse host profile endpointId)
  return if responses.isEmpty then [{ status := .unknown "document response unresolved" }]
    else responses

end Bodies

/-! ### Operations -/

/-- The methods of operations. -/
def methods : List String := ["get", "put", "post", "delete", "options", "head", "patch", "trace"]

section Documents

variable (host : Host) (profile : Profile) (serviceId : String)

def extractEndpoint (path : String) (pathItem : Located document)
    (endpoints : List (Endpoint host profile document)) (entry : String × Located document) :
    Extract document (List (Endpoint host profile document)) := do
  let (method, operation) := entry
  if !methods.contains method then return endpoints
  if !isObject operation.value then
    note "operation_unsupported" (pointer operation)
    return endpoints
  noteUnknown ["tags", "summary", "description", "externalDocs", "operationId", "parameters",
    "requestBody", "responses", "callbacks", "deprecated", "security", "servers"] operation
  if (field operation "callbacks").isSome then
    note "callbacks_unsupported" (pointer operation ++ "/callbacks")
  let some identity := deriveEndpointIdentity host
      { identityVersion, serviceId, method, applicationPath := path, selectors := none }
    | note "route_path_unsupported" (pointer operation)
      return endpoints
  let endpointId := "endpoint-" ++ String.ofList ((host.sha256Hex identity.routeKey).toList.take 24)
  if endpoints.any (·.endpointId == endpointId) then
    note "conflicting_route_declarations" (pointer operation)
    return endpoints
  let parameters ← extractParameters host profile endpointId path pathItem operation
  let requestBodies ← extractRequestBodies host profile endpointId method operation
  let responses ← extractResponses host profile endpointId operation
  return endpoints ++
    [{ endpointId, identity, applicationPath := path, parameters, requestBodies, responses }]

def extractPath (endpoints : List (Endpoint host profile document))
    (entry : String × Located document) :
    Extract document (List (Endpoint host profile document)) := do
  let (path, pathItem) := entry
  if path.toList.head? != some '/' || !isObject pathItem.value then
    note "path_unsupported" (pointer pathItem)
    return endpoints
  noteUnknown (["summary", "description", "servers", "parameters", "$ref"] ++ methods) pathItem
  if (field pathItem "$ref").isSome then
    note "path_item_ref_unsupported" (pointer pathItem ++ "/$ref")
    return endpoints
  pathItem.members.foldlM (extractEndpoint host profile serviceId path pathItem) endpoints

def extractComponent (schemas : OrderedMap String (Stored host profile document))
    (entry : String × Located document) :
    Extract document (OrderedMap String (Stored host profile document)) := do
  match ← projectSchema host profile entry.2 with
  | some projected => return schemas.set (schemaId host entry.1) projected
  | none => return schemas

def extractComponents : Extract document (OrderedMap String (Stored host profile document)) :=
  match componentMap document "schemas" with
  | none => pure .empty
  | some map => (sortedEntries host map).foldlM (extractComponent host profile) .empty

def noteDocument : Extract document Unit := do
  let root := Located.root document
  noteUnknown (["openapi", "info", "servers", "paths", "components", "security", "tags",
    "externalDocs"] ++ if profile = .v31 then ["jsonSchemaDialect"] else []) root
  if customDialect profile document then
    note "custom_json_schema_dialect_unsupported" "/jsonSchemaDialect"
  let some components := root.member? "components" | return
  if !isObject components.value then
    note "components_unsupported" (pointer components)
    return
  noteUnknown ["schemas", "responses", "parameters", "requestBodies", "headers", "securitySchemes",
    "examples", "links", "callbacks"] components
  for category in ["schemas", "responses", "parameters", "requestBodies", "headers",
      "securitySchemes"] do
    let some map := components.member? category | continue
    if !isObject map.value then note "components_map_unsupported" (pointer map)

/-- The schemas of the components and the endpoints of a document that passed the inspection. -/
def extractBody : Extract document (OrderedMap String (Stored host profile document) ×
    List (Endpoint host profile document)) := do
  noteDocument profile
  let schemas ← extractComponents host profile
  note "application_runtime_binding_unverified" ""
  let endpoints ←
    match (Located.root document).member? "paths" with
    | none => pure []
    | some paths => (sortedEntries host paths).foldlM (extractPath host profile serviceId) []
  return (schemas, endpoints)

/-- The result of an extraction, with the objects that were read. -/
structure Result (host : Host) (profile : Profile) (document : Json) where
  failed : Bool := false
  diagnostics : List Diagnostic
  reads : List (Located document) := []
  schemas : OrderedMap String (Stored host profile document) := .empty
  endpoints : List (Endpoint host profile document) := []

/-- `extractOpenApiDocumentFromParser` of a document that was parsed. -/
def extractOpenApiDocument (document : Json) : Result host profile document :=
  if isDocument profile document then
    match inspection profile document with
    | .error diagnostics => { failed := true, diagnostics }
    | .ok diagnostics =>
      let (result, s) := (extractBody host profile serviceId).run { diagnostics }
      { diagnostics := s.diagnostics, reads := s.reads, schemas := result.1, endpoints := result.2 }
  else { failed := true, diagnostics := [outlineDiagnostic profile document] }

def extractOpenApi3Document (document : Json) : Result host .v30 document :=
  extractOpenApiDocument host .v30 serviceId document

def extractOpenApi31Document (document : Json) : Result host .v31 document :=
  extractOpenApiDocument host .v31 serviceId document

end Documents

end ApiTruth.Analyzers.OpenApi3
