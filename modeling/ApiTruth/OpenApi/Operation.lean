import ApiTruth.OpenApi.Export

/-!
# The operation of an endpoint

The compiler renders the parameters, the request bodies, the responses and the security of an
endpoint.  Each part reports what it cannot represent; some of the problems skip the operation, but
the remaining parts are still rendered, so that they are reported as well.

## Main definitions

* `Operation` : an operation of a document.
* `exportParameters`, `exportRequestBody`, `exportResponses`, `exportSecurity` : the parts.
-/

namespace ApiTruth.OpenApi

open Json ApiTruth.Ir Reported List

/-! ### Operations -/

structure EmittedParameter where
  name : String
  location : ParameterIn
  required : Bool
  schema : Json
  style : Option String
  explode : Option Bool
deriving DecidableEq

structure EmittedEncoding where
  style : Option EncodingStyle
  explode : Option Bool
  contentType : Option String
deriving DecidableEq

structure EmittedMedia where
  schema : Json
  encoding : Option (List (String × EmittedEncoding))
deriving DecidableEq

/-- The request body of an operation; `required` is written when it is true. -/
structure EmittedRequestBody where
  content : List (String × EmittedMedia)
  required : Bool
deriving DecidableEq

/-- A response of an operation: the schemas of its media types and of its headers. -/
structure EmittedResponse where
  content : Option (List (String × Json))
  headers : Option (List (String × Json))
deriving DecidableEq

/-- The alternatives of a security requirement: the scopes by scheme. -/
abbrev EmittedSecurity := List (List (String × List String))

structure Operation where
  parameters : List EmittedParameter
  requestBody : Option EmittedRequestBody
  responses : List (String × EmittedResponse)
  security : EmittedSecurity
deriving DecidableEq

/-- A rendered part of an operation, and whether a problem skips the operation. -/
structure Part (α : Type) where
  value : α
  skip : Bool

/-- `${endpointPath}`. -/
def endpointPath (endpoint : Endpoint) : String := "/endpoints/" ++ pointer endpoint.endpointId

/-- The names of the members of `Object.prototype`, which `in` finds in every object. -/
def objectPrototypeNames : List String :=
  ["constructor", "__defineGetter__", "__defineSetter__", "hasOwnProperty", "__lookupGetter__",
    "__lookupSetter__", "isPrototypeOf", "propertyIsEnumerable", "toString", "valueOf",
    "__proto__", "toLocaleString"]

/-- `name in object` for an object with these members. -/
def isIn (name : String) (members : List String) : Bool :=
  objectPrototypeNames.contains name || members.contains name

/-- `s.endsWith(suffix)`. -/
def endsWith (s suffix : String) : Bool := suffix.toList.isSuffixOf s.toList

def isJsonMedia (mediaType : String) : Bool :=
  mediaType == "application/json" || endsWith mediaType "+json"

/-- `presence.state`. -/
def presenceState : Presence → String
  | .conditional _ _ => "conditional"
  | .plain .required _ => "required"
  | .plain .optional _ => "optional"
  | .plain .unknown _ => "unknown"

/-- `parameter.in`. -/
def locationName : ParameterIn → String
  | .path => "path"
  | .query => "query"
  | .header => "header"
  | .cookie => "cookie"

section Parts

variable (host : Host) (snapshot : ContractSnapshot) (endpoint : Endpoint)

def endpointDiagnostic (code path : String) : CompileDiagnostic :=
  diagnostic code path [endpoint.endpointId]

/-- The evidence is about this endpoint and no other. -/
def isEstablished (ids : List String) : Bool :=
  hasQualifyingEvidence snapshot ids (some endpoint.endpointId) true

/-! ### Parameters -/

/-- `${parameter.in}\0${parameter.name}`. -/
def parameterKey (parameter : Parameter) : String :=
  locationName parameter.location ++ "\u0000" ++ parameter.name

def ignoredHeaderParameters : List String := ["authorization", "accept", "content-type"]

def parameterStyles : ParameterIn → List String
  | .path => ["matrix", "label", "simple"]
  | .query => ["form", "spaceDelimited", "pipeDelimited", "deepObject"]
  | .header => ["simple"]
  | .cookie => ["form"]

/-- The style is not one of the location, or it does not fit the schema. -/
def hasUnsupportedStyle (parameter : Parameter) : Bool :=
  match parameter.serialization.style with
  | none => false
  | some style =>
    !(parameterStyles parameter.location).contains style ||
      style == "deepObject" && (parameter.serialization.explode == some false ||
        decide (keyword? parameter.schema "type" ≠ some (.str "object")))

/-- Why a parameter is left out, after those with the keys that were seen. -/
def parameterObstacle (seen : List String) (parameter : Parameter) : Option String :=
  let state := presenceState parameter.presence
  if seen.contains (parameterKey parameter) then some "DUPLICATE_PARAMETER"
  else if parameter.location = .header ∧
      ignoredHeaderParameters.contains (host.toLowerCase parameter.name) then
    some "IGNORED_OPENAPI_HEADER_PARAMETER"
  else if state ≠ "required" ∧ state ≠ "optional" then some "UNKNOWN_PARAMETER_PRESENCE"
  else none

def renderParameter (parameter : Parameter) (path : String) :
    Reported CompileDiagnostic (Part EmittedParameter) := do
  let serialization := parameter.serialization
  let unverified := !isEstablished snapshot endpoint parameter.presence.evidenceIds
  let unknown := serialization.style.isNone || serialization.explode.isNone
  let unsupported := hasUnsupportedStyle parameter
  reportIf unverified
    (endpointDiagnostic endpoint "UNVERIFIED_PARAMETER_PRESENCE" (path ++ "/presence"))
  let schema ← exportSchema snapshot [endpoint.endpointId] (path ++ "/schema") (path ++ "/schema")
    parameter.schema
  reportIf unknown
    (endpointDiagnostic endpoint "UNKNOWN_PARAMETER_SERIALIZATION" (path ++ "/serialization"))
  reportIf unsupported
    (endpointDiagnostic endpoint "UNSUPPORTED_PARAMETER_STYLE" (path ++ "/serialization"))
  reportIf (serialization.contentEncoding.isSome || serialization.format.isSome)
    (endpointDiagnostic endpoint "UNREPRESENTABLE_SERIALIZATION" (path ++ "/serialization"))
  pure
    { value :=
        { name := parameter.name
          location := parameter.location
          required := parameter.location = .path ∨ presenceState parameter.presence = "required"
          schema := schema
          style := serialization.style
          explode := serialization.explode }
      skip := unverified || unknown || unsupported }

def parameterPath (parameter : Parameter) : String :=
  endpointPath endpoint ++ "/parameters/" ++ pointer parameter.name

/-- The parameter of an operation, after those with the keys that were seen. -/
def exportParameter (seen : List String) (parameter : Parameter) :
    Reported CompileDiagnostic (Part (Option EmittedParameter)) :=
  match parameterObstacle host seen parameter with
  | some code => do
    report (endpointDiagnostic endpoint code (parameterPath endpoint parameter))
    pure ⟨none, true⟩
  | none => do
    let rendered ←
      renderParameter snapshot endpoint parameter (parameterPath endpoint parameter)
    pure ⟨some rendered.value, rendered.skip⟩

/-- The parameters of an operation, after those with the keys that were seen. -/
def exportParameters (seen : List String) :
    List Parameter → Reported CompileDiagnostic (Part (List EmittedParameter))
  | [] => pure ⟨[], false⟩
  | parameter :: rest => do
    let first ← exportParameter host snapshot endpoint seen parameter
    let others ← exportParameters (parameterKey parameter :: seen) rest
    pure ⟨first.value.toList ++ others.value, first.skip || others.skip⟩

/-! ### Request bodies -/

/-- `multipart/form-data` and `application/x-www-form-urlencoded`. -/
def formMediaTypes : List String := ["multipart/form-data", "application/x-www-form-urlencoded"]

/-- `supportedFormat` of a request body. -/
def hasSupportedFormat (body : RequestBody) : Bool :=
  match body.serialization.format with
  | none => true
  | some format =>
    format == "json" && isJsonMedia body.mediaType ||
    format == "multipart" && body.mediaType == "multipart/form-data" ||
    format == "urlencoded" && body.mediaType == "application/x-www-form-urlencoded"

/-- The path under which the fields of a body are claimed: forms have their position in the
snapshot, other bodies the path of their diagnostics. -/
def bodyFactPath (body : RequestBody) (bodyIndex : ℕ) (path : String) : String :=
  if formMediaTypes.contains body.mediaType then
    let endpointIndex := snapshot.endpoints.findIdx (·.endpointId == endpoint.endpointId)
    "/endpoints/" ++ toString endpointIndex ++ "/request_bodies/" ++ toString bodyIndex ++ "/schema"
  else path ++ "/schema"

/-- The form fields without an encoding are reported; the result says whether there are any. -/
def checkFormFields (body : RequestBody) (path : String) : Reported CompileDiagnostic Bool :=
  if formMediaTypes.contains body.mediaType then
    match keyword? body.schema "type", keyword? body.schema "properties" with
    | some (.str "object"), some (.obj properties) => do
      let missing := (properties.map Prod.fst).filter fun name =>
        !((body.encoding.getD []).map Prod.fst).contains name
      let _ ← each missing fun name => report (endpointDiagnostic endpoint "UNKNOWN_FORM_ENCODING"
        (path ++ "/encoding/" ++ pointer name))
      pure !missing.isEmpty
    | _, _ => do
      report (endpointDiagnostic endpoint "UNKNOWN_FORM_ENCODING" (path ++ "/encoding"))
      pure true
  else pure false

def exportEncoding (path : String) (encoding : List (String × FormEncoding)) :
    Reported CompileDiagnostic (Part (List (String × EmittedEncoding))) := do
  let fields ← each (sorted Prod.fst encoding) fun (name, fact) => do
    let unverified := !isEstablished snapshot endpoint fact.evidenceIds
    reportIf unverified (endpointDiagnostic endpoint "UNVERIFIED_FORM_ENCODING"
      (path ++ "/encoding/" ++ pointer name))
    pure ((name, EmittedEncoding.mk fact.style fact.explode fact.contentType), unverified)
  pure ⟨fields.map Prod.fst, fields.any Prod.snd⟩

/-- `exportRequestMedia`; the body stands at this position among the bodies of the endpoint. -/
def exportRequestMedia (body : RequestBody) (bodyIndex : ℕ) (path : String) :
    Reported CompileDiagnostic (Part EmittedMedia) := do
  let serialization := body.serialization
  let schema ← exportSchema snapshot [endpoint.endpointId] (path ++ "/schema")
    (bodyFactPath snapshot endpoint body bodyIndex path) body.schema
  reportIf (serialization.contentEncoding.isSome || serialization.style.isSome ||
      serialization.explode.isSome || !hasSupportedFormat body)
    (endpointDiagnostic endpoint "UNREPRESENTABLE_SERIALIZATION" (path ++ "/serialization"))
  let incomplete ← checkFormFields endpoint body path
  match body.encoding with
  | none => pure ⟨⟨schema, none⟩, incomplete⟩
  | some encoding => do
    let fields ← exportEncoding snapshot endpoint path encoding
    pure ⟨⟨schema, some fields.value⟩, incomplete || fields.skip⟩

/-- One of the bodies of an operation, after those with the media types that were seen. -/
def exportBody (body : RequestBody) (bodyIndex : ℕ) :
    Reported CompileDiagnostic (Part EmittedMedia) := do
  let path := endpointPath endpoint ++ "/request_bodies/" ++ pointer body.mediaType
  let state := presenceState body.presence
  let unverified := (state == "required" || state == "optional") &&
    !isEstablished snapshot endpoint body.presence.evidenceIds
  reportIf unverified
    (endpointDiagnostic endpoint "UNVERIFIED_REQUEST_BODY_PRESENCE" (path ++ "/presence"))
  let media ← exportRequestMedia snapshot endpoint body bodyIndex path
  pure ⟨media.value, unverified || media.skip⟩

/-- The bodies of an operation with their media, after those with the media types that were
seen. -/
def exportBodies (seen : List String) :
    List (RequestBody × ℕ) → Reported CompileDiagnostic (Part (List (RequestBody × EmittedMedia)))
  | [] => pure ⟨[], false⟩
  | (body, bodyIndex) :: rest =>
    if isIn body.mediaType seen then do
      report (endpointDiagnostic endpoint "DUPLICATE_REQUEST_MEDIA_TYPE"
        (endpointPath endpoint ++ "/request_bodies/" ++ pointer body.mediaType))
      exportBodies seen rest
    else do
      let media ← exportBody snapshot endpoint body bodyIndex
      let others ← exportBodies (body.mediaType :: seen) rest
      pure ⟨(body, media.value) :: others.value, media.skip || others.skip⟩

def exportRequestBody : Reported CompileDiagnostic (Part (Option EmittedRequestBody)) := do
  let bodies ← exportBodies snapshot endpoint []
    (sorted (·.1.mediaType) endpoint.requestBodies.zipIdx)
  if bodies.value.isEmpty then pure ⟨none, bodies.skip⟩
  else
    let states := (bodies.value.map (presenceState ·.1.presence)).dedup
    let required := states == ["required"]
    let unknown := !required && (states.contains "unknown" || states.contains "conditional" ||
      decide (1 < states.length))
    reportIf unknown (endpointDiagnostic endpoint "UNKNOWN_REQUEST_BODY_PRESENCE"
      (endpointPath endpoint ++ "/request_bodies"))
    pure ⟨some ⟨bodies.value.map fun item => (item.1.mediaType, item.2), required⟩,
      bodies.skip || unknown⟩

/-! ### Responses -/

def statusKey : ResponseStatus → Option String
  | .exact code => some (toString code)
  | .range range => some range
  | .default => some "default"
  | .unknown _ => none

def exportContents (path : String) (seen : List String) :
    List Content → Reported CompileDiagnostic (List (String × Json))
  | [] => pure []
  | item :: rest =>
    let itemPath := path ++ "/content/" ++ pointer item.mediaType
    if isIn item.mediaType seen then do
      report (endpointDiagnostic endpoint "DUPLICATE_RESPONSE_MEDIA_TYPE" itemPath)
      exportContents path seen rest
    else do
      let serialization := item.serialization
      let schema ← exportSchema snapshot [endpoint.endpointId] (itemPath ++ "/schema")
        (itemPath ++ "/schema") item.schema
      reportIf (serialization.contentEncoding.isSome || serialization.style.isSome ||
          serialization.explode.isSome ||
          serialization.format.any fun format => !(format == "json" && isJsonMedia item.mediaType))
        (endpointDiagnostic endpoint "UNREPRESENTABLE_SERIALIZATION" (itemPath ++ "/serialization"))
      let others ← exportContents path (item.mediaType :: seen) rest
      pure ((item.mediaType, schema) :: others)

/-- The headers of a response behind those that were kept.  An assignment to `__proto__` sets the
prototype of the object and adds no member. -/
def exportHeaders (path : String) (kept : List (String × Json)) :
    List ResponseHeader → Reported CompileDiagnostic (List (String × Json))
  | [] => pure kept
  | item :: rest =>
    let itemPath := path ++ "/headers/" ++ pointer item.name
    if kept.any fun header => host.toLowerCase header.1 == host.toLowerCase item.name then do
      report (endpointDiagnostic endpoint "DUPLICATE_RESPONSE_HEADER" itemPath)
      exportHeaders path kept rest
    else do
      let schema ← exportSchema snapshot [endpoint.endpointId] (itemPath ++ "/schema")
        (itemPath ++ "/schema") item.schema
      exportHeaders path (if item.name = "__proto__" then kept else kept ++ [(item.name, schema)])
        rest

/-- The response of an operation under a status. -/
def exportResponse (status : String) (response : Response) :
    Reported CompileDiagnostic EmittedResponse := do
  let path := endpointPath endpoint ++ "/responses/" ++ status
  let content ← exportContents snapshot endpoint path []
    (sorted Content.mediaType response.content)
  let headers ← exportHeaders host snapshot endpoint path []
    (sorted (fun header => host.toLowerCase header.name) (response.headers.getD []))
  pure
    { content := if response.content.isEmpty then none else some content
      headers := if (response.headers.getD []).isEmpty then none else some headers }

/-- The responses of an operation, after those with the statuses that were seen. -/
def exportResponses (seen : List String) :
    List Response → Reported CompileDiagnostic (List (String × EmittedResponse))
  | [] => pure []
  | response :: rest =>
    match statusKey response.status with
    | none => do
      report (endpointDiagnostic endpoint "UNKNOWN_RESPONSE_STATUS"
        (endpointPath endpoint ++ "/responses"))
      exportResponses seen rest
    | some status =>
      if seen.contains status then do
        report (endpointDiagnostic endpoint "DUPLICATE_RESPONSE_STATUS"
          (endpointPath endpoint ++ "/responses/" ++ status))
        exportResponses seen rest
      else do
        let exported ← exportResponse host snapshot endpoint status response
        let others ← exportResponses (status :: seen) rest
        pure ((status, exported) :: others)

/-! ### Security -/

def schemeNames : List String :=
  endpoint.security.alternatives.flatMap fun alternative =>
    alternative.map SecurityRequirement.scheme

def securityScheme (name : String) : Option SecuritySchemeFact :=
  (snapshot.securitySchemes.getD []).lookup name

/-- `securityEvidenceGood`. -/
def hasSecurityEvidence : Bool :=
  hasQualifyingEvidence snapshot (endpoint.security.evidenceIds.getD [])
    (some endpoint.endpointId) false &&
  (schemeNames endpoint).all fun name =>
    hasQualifyingEvidence snapshot
      (((securityScheme snapshot name).map SecuritySchemeFact.evidenceIds).getD []) none false

/-- An alternative with its schemes and scopes in order. -/
def exportAlternative (requirements : List SecurityRequirement) : List (String × List String) :=
  (sorted SecurityRequirement.scheme requirements).map fun item =>
    (item.scheme, sorted id item.scopes)

def alternativeText (alternative : List (String × List String)) : String :=
  stringify (.obj (alternative.map fun item => (item.1, stringArray item.2)))

def exportSecurity : Reported CompileDiagnostic (Part EmittedSecurity) := do
  let path := endpointPath endpoint ++ "/security"
  match endpoint.security.state with
  | some .anonymous =>
    let unverified := !hasSecurityEvidence snapshot endpoint
    reportIf unverified (endpointDiagnostic endpoint "UNVERIFIED_SECURITY" path)
    pure ⟨[], unverified⟩
  | some .declared =>
    let unverified := !hasSecurityEvidence snapshot endpoint
    reportIf unverified (endpointDiagnostic endpoint "UNVERIFIED_SECURITY" path)
    pure ⟨sorted alternativeText (endpoint.security.alternatives.map exportAlternative),
      unverified⟩
  | _ =>
    report (endpointDiagnostic endpoint "UNKNOWN_SECURITY" path)
    pure ⟨[], true⟩

/-! ### The media types of a body -/

theorem exportBodies_mediaTypes (seen : List String) (bodies : List (RequestBody × ℕ)) :
    ((exportBodies snapshot endpoint seen bodies).value.value.map (·.1.mediaType)).Nodup ∧
      ∀ item ∈ (exportBodies snapshot endpoint seen bodies).value.value,
        item.1.mediaType ∉ seen ∧ item.1 ∈ bodies.map Prod.fst := by
  induction bodies generalizing seen with
  | nil => simp [exportBodies]
  | cons first rest ih =>
    obtain ⟨body, bodyIndex⟩ := first
    rw [exportBodies]
    split_ifs with hseen
    · obtain ⟨hnodup, hmem⟩ := ih seen
      refine ⟨by simpa using hnodup, fun item hitem => ?_⟩
      obtain ⟨hnot, hbody⟩ := hmem item (by simpa using hitem)
      exact ⟨hnot, mem_cons_of_mem _ hbody⟩
    · obtain ⟨hnodup, hmem⟩ := ih (body.mediaType :: seen)
      simp only [isIn, Bool.or_eq_true, not_or, contains_iff_mem] at hseen
      simp only [value_bind, value_pure, map_cons, nodup_cons, mem_cons,
        forall_eq_or_imp, true_or, and_true]
      refine ⟨⟨fun hbody => ?_, hnodup⟩, hseen.2, fun item hitem => ?_⟩
      · obtain ⟨item, hitem, heq⟩ := List.mem_map.mp hbody
        exact (hmem item hitem).1 (heq ▸ mem_cons_self)
      · obtain ⟨hnot, hbody⟩ := hmem item hitem
        exact ⟨fun hin => hnot (mem_cons_of_mem _ hin), .inr hbody⟩

/-! ### Skipped operations are reported -/

variable {host snapshot endpoint} {path : String} {seen : List String} {body : RequestBody}

variable {parameter : Parameter} {bodyIndex : ℕ}

theorem renderParameter_silent
    (h : (renderParameter snapshot endpoint parameter path).diagnostics = []) :
    (renderParameter snapshot endpoint parameter path).value.skip = false := by
  simp only [renderParameter, diagnostics_bind, append_eq_nil_iff,
    diagnostics_reportIf_eq_nil_iff, Bool.not_eq_true] at h
  simp only [renderParameter, value_bind, value_pure, h.1, h.2.2.1, h.2.2.2.1, Bool.or_false]

theorem exportParameter_silent
    (h : (exportParameter host snapshot endpoint seen parameter).diagnostics = []) :
    (exportParameter host snapshot endpoint seen parameter).value.skip = false := by
  unfold exportParameter at h ⊢
  split at h
  · simp at h
  · rw [diagnostics_bind, append_eq_nil_iff] at h
    exact renderParameter_silent h.1

theorem exportParameters_silent {parameters : List Parameter}
    (h : (exportParameters host snapshot endpoint seen parameters).diagnostics = []) :
    (exportParameters host snapshot endpoint seen parameters).value.skip = false := by
  induction parameters generalizing seen with
  | nil => rfl
  | cons parameter rest ih =>
    simp only [exportParameters, diagnostics_bind, append_eq_nil_iff] at h
    simp only [exportParameters, value_bind, value_pure, exportParameter_silent h.1, ih h.2.1,
      Bool.or_false]

theorem checkFormFields_silent (h : (checkFormFields endpoint body path).diagnostics = []) :
    (checkFormFields endpoint body path).value = false := by
  unfold checkFormFields at h ⊢
  split_ifs at h ⊢ with hform
  · split at h
    · simp only [diagnostics_bind, append_eq_nil_iff, diagnostics_each_eq_nil_iff,
        diagnostics_report, cons_ne_nil, imp_false] at h
      simp only [value_bind, value_pure, List.eq_nil_iff_forall_not_mem.mpr h.1,
        isEmpty_nil, Bool.not_true]
    · simp at h
  · rfl

theorem exportEncoding_silent {encoding : List (String × FormEncoding)}
    (h : (exportEncoding snapshot endpoint path encoding).diagnostics = []) :
    (exportEncoding snapshot endpoint path encoding).value.skip = false := by
  simp only [exportEncoding, diagnostics_bind, append_eq_nil_iff, diagnostics_each_eq_nil_iff,
    diagnostics_reportIf_eq_nil_iff] at h
  simp only [exportEncoding, value_bind, value_pure, value_each, List.any_map, List.any_eq_false]
  intro field hfield
  simpa using (h.1 field hfield).1

theorem exportRequestMedia_silent
    (h : (exportRequestMedia snapshot endpoint body bodyIndex path).diagnostics = []) :
    (exportRequestMedia snapshot endpoint body bodyIndex path).value.skip = false := by
  simp only [exportRequestMedia, diagnostics_bind, append_eq_nil_iff] at h
  simp only [exportRequestMedia, value_bind]
  have hfields := checkFormFields_silent h.2.2.1
  cases hencoding : body.encoding with
  | none => simpa using hfields
  | some encoding =>
    rw [hencoding] at h
    simp only [diagnostics_bind, append_eq_nil_iff] at h
    simp only [value_bind, value_pure, hfields, exportEncoding_silent h.2.2.2.1, Bool.or_false]

theorem exportBody_silent (h : (exportBody snapshot endpoint body bodyIndex).diagnostics = []) :
    (exportBody snapshot endpoint body bodyIndex).value.skip = false := by
  simp only [exportBody, diagnostics_bind, append_eq_nil_iff,
    diagnostics_reportIf_eq_nil_iff, Bool.not_eq_true] at h
  simp only [exportBody, value_bind, value_pure, h.1, exportRequestMedia_silent h.2.1,
    Bool.or_false]

/-- Bodies that are rendered without a report are all kept, each rendered without a report. -/
theorem exportBodies_silent {bodies : List (RequestBody × ℕ)}
    (h : (exportBodies snapshot endpoint seen bodies).diagnostics = []) :
    (exportBodies snapshot endpoint seen bodies).value.skip = false ∧
      (exportBodies snapshot endpoint seen bodies).value.value = bodies.map (fun item =>
        (item.1, (exportBody snapshot endpoint item.1 item.2).value.value)) ∧
      ∀ item ∈ bodies, (exportBody snapshot endpoint item.1 item.2).diagnostics = [] := by
  induction bodies generalizing seen with
  | nil => exact ⟨rfl, rfl, nofun⟩
  | cons item rest ih =>
    rw [exportBodies] at h ⊢
    split_ifs at h ⊢
    · simp at h
    · simp only [diagnostics_bind, append_eq_nil_iff] at h
      obtain ⟨hskip, hvalue, hrest⟩ := ih h.2.1
      refine ⟨?_, ?_, List.forall_mem_cons.mpr ⟨h.1, hrest⟩⟩
      · simp only [value_bind, value_pure, exportBody_silent h.1, hskip, Bool.or_false]
      · simp only [value_bind, value_pure, map_cons, hvalue]

theorem exportRequestBody_silent (h : (exportRequestBody snapshot endpoint).diagnostics = []) :
    (exportRequestBody snapshot endpoint).value.skip = false := by
  rw [exportRequestBody] at h ⊢
  rw [diagnostics_bind, append_eq_nil_iff] at h
  rw [value_bind]
  have hbodies := (exportBodies_silent h.1).1
  have hrest := h.2
  split_ifs at hrest ⊢
  · simpa using hbodies
  · simp only [diagnostics_bind, append_eq_nil_iff, diagnostics_reportIf_eq_nil_iff,
      Bool.not_eq_true] at hrest
    simp only [value_bind, value_pure, hbodies, hrest.1, Bool.or_false]

theorem exportSecurity_silent (h : (exportSecurity snapshot endpoint).diagnostics = []) :
    (exportSecurity snapshot endpoint).value.skip = false := by
  unfold exportSecurity at h ⊢
  split at h
  · simpa using h
  · simpa using h
  · simp at h

end Parts

end ApiTruth.OpenApi
