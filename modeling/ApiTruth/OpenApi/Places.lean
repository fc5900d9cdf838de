import ApiTruth.OpenApi.ExportedSchema
import ApiTruth.OpenApi.Lossless

/-!
# Where the schemas of a document come from

A schema of a document stands in a parameter, a request body, a response or among the components.
It is the export of the schema that stands in the same part of an endpoint of the snapshot, or of
the component of the same name.

## Main definitions

* `DocumentKey`, `Document.HasSchema` : the schemas of a document.
* `Place`, `Located` : the schemas of a snapshot, with what their export depends on.

## Main results

* `sourced_of_hasSchema` : every schema of a document is the export of a located schema.
-/

namespace ApiTruth.OpenApi

open Json ApiTruth.Ir Reported List Option OrderedMap Bool

/-! ### The schemas of a document -/

inductive DocumentKey
  | parameter (path method : String) (location : ParameterIn) (name : String)
  | requestBody (path method mediaType : String)
  | content (path method status mediaType : String)
  | header (path method status name : String)
  | component (name : String)

def Document.HasSchema (document : Document) (key : DocumentKey) (schema : Json) : Prop :=
  match key with
  | .parameter path method location name => ∃ operation,
    document.operation? path method = some operation ∧ ∃ item ∈ operation.parameters,
      item.location = location ∧ item.name = name ∧ item.schema = schema
  | .requestBody path method mediaType => ∃ operation,
    document.operation? path method = some operation ∧ ∃ media,
      (mediaType, media) ∈ operation.content ∧ media.schema = schema
  | .content path method status mediaType => ∃ operation,
    document.operation? path method = some operation ∧ ∃ response,
      (status, response) ∈ operation.responses ∧
        (mediaType, schema) ∈ response.content.getD []
  | .header path method status name => ∃ operation,
    document.operation? path method = some operation ∧ ∃ response,
      (status, response) ∈ operation.responses ∧ (name, schema) ∈ response.headers.getD []
  | .component name => document.schemas.lookup name = some schema

/-! ### The schemas of a snapshot -/

/-- Where a schema stands in a snapshot, by the positions in the lists of the snapshot. -/
inductive Place
  | parameter (endpoint index : ℕ)
  | requestBody (endpoint index : ℕ)
  | content (endpoint response index : ℕ)
  | header (endpoint response index : ℕ)
  | component (name : String)
deriving DecidableEq

section Sites

variable (snapshot : ContractSnapshot) (endpoint : Endpoint)

/-- The schema of a part of an endpoint whose fields are claimed under the path of its
diagnostics. -/
def partSite (path : String) (schema : Json) : Site :=
  ⟨[endpoint.endpointId], path ++ "/schema", path ++ "/schema", schema⟩

/-- The path of the diagnostics of a request body. -/
def bodyPath (body : RequestBody) : String :=
  endpointPath endpoint ++ "/request_bodies/" ++ pointer body.mediaType

def responsePath (status : String) : String := endpointPath endpoint ++ "/responses/" ++ status

def parameterSite (parameter : Parameter) : Site :=
  partSite endpoint (parameterPath endpoint parameter) parameter.schema

def bodySite (body : RequestBody) (index : ℕ) : Site :=
  ⟨[endpoint.endpointId], bodyPath endpoint body ++ "/schema",
    bodyFactPath snapshot endpoint body index (bodyPath endpoint body), body.schema⟩

def contentSite (status : String) (item : Content) : Site :=
  partSite endpoint (responsePath endpoint status ++ "/content/" ++ pointer item.mediaType)
    item.schema

def headerSite (status : String) (item : ResponseHeader) : Site :=
  partSite endpoint (responsePath endpoint status ++ "/headers/" ++ pointer item.name) item.schema

def componentSite (name : String) (component : SchemaComponent) : Site :=
  ⟨usersOf snapshot name, componentPath name ++ "/schema", componentPath name ++ "/schema",
    component.schema⟩

end Sites

/-- The schema at a place of the snapshot, with its key in a document. -/
inductive Located (snapshot : ContractSnapshot) : Place → DocumentKey → Site → Prop
  | parameter {i j : ℕ} {endpoint : Endpoint} {item : Parameter}
      (endpoint_eq : snapshot.endpoints[i]? = some endpoint)
      (item_eq : endpoint.parameters[j]? = some item) :
      Located snapshot (.parameter i j)
        (.parameter (operationKey endpoint).1 (operationKey endpoint).2 item.location item.name)
        (parameterSite endpoint item)
  | requestBody {i j : ℕ} {endpoint : Endpoint} {item : RequestBody}
      (endpoint_eq : snapshot.endpoints[i]? = some endpoint)
      (item_eq : endpoint.requestBodies[j]? = some item) :
      Located snapshot (.requestBody i j)
        (.requestBody (operationKey endpoint).1 (operationKey endpoint).2 item.mediaType)
        (bodySite snapshot endpoint item j)
  | content {i j k : ℕ} {endpoint : Endpoint} {response : Response} {item : Content}
      {status : String} (endpoint_eq : snapshot.endpoints[i]? = some endpoint)
      (response_eq : endpoint.responses[j]? = some response)
      (status_eq : statusKey response.status = some status)
      (item_eq : response.content[k]? = some item) :
      Located snapshot (.content i j k)
        (.content (operationKey endpoint).1 (operationKey endpoint).2 status item.mediaType)
        (contentSite endpoint status item)
  | header {i j k : ℕ} {endpoint : Endpoint} {response : Response} {item : ResponseHeader}
      {status : String} (endpoint_eq : snapshot.endpoints[i]? = some endpoint)
      (response_eq : endpoint.responses[j]? = some response)
      (status_eq : statusKey response.status = some status)
      (item_eq : (response.headers.getD [])[k]? = some item) :
      Located snapshot (.header i j k)
        (.header (operationKey endpoint).1 (operationKey endpoint).2 status item.name)
        (headerSite endpoint status item)
  | component {name : String} {component : SchemaComponent}
      (component_eq : snapshot.schemas.lookup name = some component) :
      Located snapshot (.component name) (.component name) (componentSite snapshot name component)

variable {endpoint : Endpoint} {snapshot : ContractSnapshot} {site : Site}

theorem isApiSchema_of_mem_schemas (h : endpoint.hasShape = true) {s : Json}
    (hs : s ∈ endpoint.schemas) : isApiSchema s = true := by
  simp only [Endpoint.hasShape, and_eq_true, List.all_eq_true] at h
  obtain ⟨⟨⟨⟨⟨⟨-, hparameters⟩, hbodies⟩, -⟩, hresponses⟩, -⟩, -⟩ := h
  simp only [Endpoint.schemas, mem_append, List.mem_map, mem_flatMap] at hs
  rcases hs with (⟨item, hitem, rfl⟩ | ⟨item, hitem, rfl⟩) | ⟨response, hresponse, hs⟩
  · have hshape := hparameters item hitem
    simp only [Parameter.hasShape, and_eq_true] at hshape
    exact hshape.1.2
  · have hshape := hbodies item hitem
    simp only [RequestBody.hasShape, and_eq_true] at hshape
    exact hshape.1.1.2
  · have hshape := hresponses response hresponse
    simp only [Response.hasShape, and_eq_true, List.all_eq_true] at hshape
    rcases hs with ⟨item, hitem, rfl⟩ | ⟨item, hitem, rfl⟩
    · have hcontent := hshape.1.2 item hitem
      simp only [Content.hasShape, and_eq_true] at hcontent
      exact hcontent.1.2
    · exact (hshape.2 item hitem).2

variable {key : DocumentKey} {schema : Json}

theorem Located.endpoint_or_component {place : Place} (h : Located snapshot place key site) :
    (∃ endpoint ∈ snapshot.endpoints, site.schema ∈ endpoint.schemas) ∨
      ∃ name component, snapshot.schemas.lookup name = some component ∧
        site.schema = component.schema := by
  cases h with
  | parameter hendpoint hitem =>
    exact .inl ⟨_, mem_of_getElem? hendpoint, mem_append_left _
      (mem_append_left _ (List.mem_map_of_mem (mem_of_getElem? hitem)))⟩
  | requestBody hendpoint hitem =>
    exact .inl ⟨_, mem_of_getElem? hendpoint, mem_append_left _
      (mem_append_right _ (List.mem_map_of_mem (mem_of_getElem? hitem)))⟩
  | content hendpoint hresponse _ hitem =>
    exact .inl ⟨_, mem_of_getElem? hendpoint, mem_append_right _
      (List.mem_flatMap.mpr ⟨_, mem_of_getElem? hresponse,
        mem_append_left _ (List.mem_map_of_mem (mem_of_getElem? hitem))⟩)⟩
  | header hendpoint hresponse _ hitem =>
    exact .inl ⟨_, mem_of_getElem? hendpoint, mem_append_right _
      (List.mem_flatMap.mpr ⟨_, mem_of_getElem? hresponse,
        mem_append_right _ (List.mem_map_of_mem (mem_of_getElem? hitem))⟩)⟩
  | component hcomponent => exact .inr ⟨_, _, hcomponent, rfl⟩

theorem Located.isApiSchema {host : Host} (hsnapshot : snapshot.Accepted host) {place : Place}
    (h : Located snapshot place key site) : isApiSchema site.schema = true := by
  have hshape := hsnapshot.1
  simp only [ContractSnapshot.hasShape, and_eq_true] at hshape
  obtain ⟨endpoint, hendpoint, hs⟩ | ⟨name, component, hcomponent, hs⟩ := h.endpoint_or_component
  · have hendpoints : snapshot.endpoints.all Endpoint.hasShape = true := by tauto
    exact isApiSchema_of_mem_schemas (List.all_eq_true.mp hendpoints endpoint hendpoint) hs
  · have hcomponents : (snapshot.schemas.all fun entry => nonEmpty entry.2.schemaId &&
        Ir.isApiSchema entry.2.schema && someUniqueIds entry.2.evidenceIds) = true := by tauto
    have hentry := List.all_eq_true.mp hcomponents _ (mem_of_lookup hcomponent)
    simp only [and_eq_true] at hentry
    rw [hs]
    exact hentry.1.2

/-! ### The parts of an operation -/

/-- The schema is the export of the site, which is silent if the whole is. -/
def Site.Yields (snapshot : ContractSnapshot) (site : Site) (schema : Json)
    (reported : List CompileDiagnostic) : Prop :=
  schema = (site.export snapshot).value ∧
    (reported = [] → (site.export snapshot).diagnostics = [])

theorem Site.Yields.mono
    {reported whole : List CompileDiagnostic} (h : site.Yields snapshot schema reported)
    (hsilent : whole = [] → reported = []) : site.Yields snapshot schema whole :=
  ⟨h.1, fun hwhole => h.2 (hsilent hwhole)⟩

section Parts

variable {host : Host} {snapshot : ContractSnapshot} {endpoint : Endpoint}

theorem yields_renderParameter (parameter : Parameter) :
    (parameterSite endpoint parameter).Yields snapshot
      (renderParameter snapshot endpoint parameter (parameterPath endpoint parameter)).value.value.schema
      (renderParameter snapshot endpoint parameter
        (parameterPath endpoint parameter)).diagnostics := by
  refine ⟨rfl, fun h => ?_⟩
  simp only [renderParameter, diagnostics_bind, append_eq_nil_iff] at h
  exact h.2.1

variable {seen : List String} {entry : String × Json} {response : Response} {status : String}

theorem mem_exportParameters {parameters : List Parameter} {emitted : EmittedParameter}
    (h : emitted ∈ (exportParameters host snapshot endpoint seen parameters).value.value) :
    ∃ parameter ∈ parameters, emitted.location = parameter.location ∧
      emitted.name = parameter.name ∧
        (parameterSite endpoint parameter).Yields snapshot emitted.schema
          (exportParameters host snapshot endpoint seen parameters).diagnostics := by
  induction parameters generalizing seen with
  | nil => simp [exportParameters] at h
  | cons parameter rest ih =>
    simp only [exportParameters, value_bind, value_pure, mem_append] at h
    rcases h with h | h
    · refine ⟨parameter, mem_cons_self, ?_⟩
      unfold exportParameter at h
      split at h
      · simp at h
      · rename_i hobstacle
        simp only [value_bind, value_pure, toList_some, mem_singleton] at h
        subst h
        refine ⟨rfl, rfl, (yields_renderParameter parameter).mono fun hsilent => ?_⟩
        simp only [exportParameters, exportParameter, hobstacle, diagnostics_bind,
          append_eq_nil_iff] at hsilent
        exact hsilent.1.1
    · obtain ⟨other, hother, hlocation, hname, hyields⟩ := ih h
      refine ⟨other, mem_cons_of_mem _ hother, hlocation, hname, hyields.mono fun hsilent => ?_⟩
      simp only [exportParameters, diagnostics_bind, append_eq_nil_iff] at hsilent
      exact hsilent.2.1

theorem yields_exportBody (body : RequestBody) (bodyIndex : ℕ) :
    (bodySite snapshot endpoint body bodyIndex).Yields snapshot
      (exportBody snapshot endpoint body bodyIndex).value.value.schema
      (exportBody snapshot endpoint body bodyIndex).diagnostics := by
  constructor
  · simp only [exportBody, exportRequestMedia, value_bind, value_pure]
    cases body.encoding <;> rfl
  · intro h
    simp only [exportBody, exportRequestMedia, diagnostics_bind, append_eq_nil_iff] at h
    exact h.2.1.1

theorem mem_exportBodies {bodies : List (RequestBody × ℕ)} {item : RequestBody × EmittedMedia}
    (h : item ∈ (exportBodies snapshot endpoint seen bodies).value.value) :
    ∃ bodyIndex, (item.1, bodyIndex) ∈ bodies ∧
      (bodySite snapshot endpoint item.1 bodyIndex).Yields snapshot item.2.schema
        (exportBodies snapshot endpoint seen bodies).diagnostics := by
  induction bodies generalizing seen with
  | nil => simp [exportBodies] at h
  | cons first rest ih =>
    obtain ⟨body, bodyIndex⟩ := first
    rw [exportBodies] at h ⊢
    split_ifs at h ⊢ with hseen
    · obtain ⟨index, hmem, hyields⟩ := ih h
      refine ⟨index, mem_cons_of_mem _ hmem, hyields.mono fun hsilent => ?_⟩
      simp at hsilent
    · simp only [value_bind, value_pure, mem_cons] at h
      rcases h with rfl | h
      · refine ⟨bodyIndex, mem_cons_self, (yields_exportBody body bodyIndex).mono fun hsilent => ?_⟩
        simp only [diagnostics_bind, append_eq_nil_iff] at hsilent
        exact hsilent.1
      · obtain ⟨index, hmem, hyields⟩ := ih h
        refine ⟨index, mem_cons_of_mem _ hmem, hyields.mono fun hsilent => ?_⟩
        simp only [diagnostics_bind, append_eq_nil_iff] at hsilent
        exact hsilent.2.1

theorem mem_exportContents {status : String} {seen : List String} {items : List Content}
    {entry : String × Json}
    (h : entry ∈ (exportContents snapshot endpoint (responsePath endpoint status) seen items).value) :
    ∃ item ∈ items, entry.1 = item.mediaType ∧
      (contentSite endpoint status item).Yields snapshot entry.2
        (exportContents snapshot endpoint (responsePath endpoint status) seen items).diagnostics := by
  induction items generalizing seen with
  | nil => simp [exportContents] at h
  | cons first rest ih =>
    rw [exportContents] at h ⊢
    split_ifs at h ⊢ with hseen
    · obtain ⟨item, hmem, hname, hyields⟩ := ih h
      refine ⟨item, mem_cons_of_mem _ hmem, hname, hyields.mono fun hsilent => ?_⟩
      simp at hsilent
    · simp only [value_bind, value_pure, mem_cons] at h
      rcases h with rfl | h
      · refine ⟨first, mem_cons_self, rfl, rfl, fun hsilent => ?_⟩
        simp only [diagnostics_bind, append_eq_nil_iff] at hsilent
        exact hsilent.1
      · obtain ⟨item, hmem, hname, hyields⟩ := ih h
        refine ⟨item, mem_cons_of_mem _ hmem, hname, hyields.mono fun hsilent => ?_⟩
        simp only [diagnostics_bind, append_eq_nil_iff] at hsilent
        exact hsilent.2.2.1

theorem mem_exportHeaders {status : String} {kept : List (String × Json)}
    {items : List ResponseHeader} {entry : String × Json}
    (h : entry ∈ (exportHeaders host snapshot endpoint (responsePath endpoint status) kept
      items).value) :
    entry ∈ kept ∨ ∃ item ∈ items, entry.1 = item.name ∧
      (headerSite endpoint status item).Yields snapshot entry.2
        (exportHeaders host snapshot endpoint (responsePath endpoint status) kept
          items).diagnostics := by
  induction items generalizing kept with
  | nil => exact .inl h
  | cons first rest ih =>
    rw [exportHeaders] at h ⊢
    by_cases hkept : (kept.any fun header =>
        host.toLowerCase header.1 == host.toLowerCase first.name) = true
    · rw [if_pos hkept] at h ⊢
      rcases ih h with h | ⟨item, hmem, hname, hyields⟩
      · exact .inl h
      · refine .inr ⟨item, mem_cons_of_mem _ hmem, hname, hyields.mono fun hsilent => ?_⟩
        simp at hsilent
    · rw [if_neg hkept] at h ⊢
      rcases ih h with h | ⟨item, hmem, hname, hyields⟩
      · by_cases hproto : first.name = "__proto__"
        · rw [if_pos hproto] at h
          exact .inl h
        · rw [if_neg hproto, mem_append, mem_singleton] at h
          rcases h with h | rfl
          · exact .inl h
          · refine .inr ⟨first, mem_cons_self, rfl, rfl, fun hsilent => ?_⟩
            simp only [diagnostics_bind, append_eq_nil_iff] at hsilent
            exact hsilent.1
      · refine .inr ⟨item, mem_cons_of_mem _ hmem, hname, hyields.mono fun hsilent => ?_⟩
        simp only [diagnostics_bind, append_eq_nil_iff] at hsilent
        exact hsilent.2

theorem mem_exportResponses {responses : List Response} {entry : String × EmittedResponse}
    (h : entry ∈ (exportResponses host snapshot endpoint seen responses).value) :
    ∃ response ∈ responses, statusKey response.status = some entry.1 ∧
      entry.2 = (exportResponse host snapshot endpoint entry.1 response).value ∧
      ((exportResponses host snapshot endpoint seen responses).diagnostics = [] →
        (exportResponse host snapshot endpoint entry.1 response).diagnostics = []) := by
  induction responses generalizing seen with
  | nil => simp [exportResponses] at h
  | cons first rest ih =>
    rw [exportResponses] at h ⊢
    cases hstatus : statusKey first.status with
    | none =>
      rw [hstatus] at h
      obtain ⟨response, hmem, hkey, hvalue, hsilent⟩ := ih h
      refine ⟨response, mem_cons_of_mem _ hmem, hkey, hvalue, fun hnil => ?_⟩
      simp at hnil
    | some status =>
      rw [hstatus] at h
      by_cases hseen : seen.contains status = true
      · simp only [hseen, if_true] at h ⊢
        obtain ⟨response, hmem, hkey, hvalue, hsilent⟩ := ih h
        refine ⟨response, mem_cons_of_mem _ hmem, hkey, hvalue, fun hnil => ?_⟩
        simp at hnil
      · simp only [hseen, false_eq_true, if_false, value_bind, value_pure, mem_cons] at h ⊢
        rcases h with rfl | h
        · refine ⟨first, .inl rfl, hstatus, rfl, fun hnil => ?_⟩
          simp only [diagnostics_bind, append_eq_nil_iff] at hnil
          exact hnil.1
        · obtain ⟨response, hmem, hkey, hvalue, hsilent⟩ := ih h
          refine ⟨response, .inr hmem, hkey, hvalue, fun hnil => ?_⟩
          simp only [diagnostics_bind, append_eq_nil_iff] at hnil
          exact hsilent hnil.2.1

theorem mem_content_exportResponse
    (h : entry ∈ (exportResponse host snapshot endpoint status response).value.content.getD []) :
    ∃ item ∈ response.content, entry.1 = item.mediaType ∧
      (contentSite endpoint status item).Yields snapshot entry.2
        (exportResponse host snapshot endpoint status response).diagnostics := by
  simp only [exportResponse, value_bind, value_pure] at h
  split_ifs at h with hempty
  · simp at h
  · obtain ⟨item, hmem, hname, hyields⟩ := @mem_exportContents _ _ status _ _ _ h
    refine ⟨item, (mem_sorted _ _).mp hmem, hname, hyields.mono fun hsilent => ?_⟩
    simp only [exportResponse, diagnostics_bind, append_eq_nil_iff] at hsilent
    exact hsilent.1

theorem mem_headers_exportResponse
    (h : entry ∈ (exportResponse host snapshot endpoint status response).value.headers.getD []) :
    ∃ item ∈ response.headers.getD [], entry.1 = item.name ∧
      (headerSite endpoint status item).Yields snapshot entry.2
        (exportResponse host snapshot endpoint status response).diagnostics := by
  simp only [exportResponse, value_bind, value_pure] at h
  split_ifs at h with hempty
  · simp at h
  · obtain hkept | ⟨item, hmem, hname, hyields⟩ := @mem_exportHeaders _ _ _ status _ _ _ h
    · simp at hkept
    · refine ⟨item, (mem_sorted _ _).mp hmem, hname, hyields.mono fun hsilent => ?_⟩
      simp only [exportResponse, diagnostics_bind, append_eq_nil_iff] at hsilent
      exact hsilent.2.1

end Parts

/-! ### The document -/

section Documents

variable {host : Host} {snapshot : ContractSnapshot}

/-- An emitted operation has the parts of the endpoint. -/
structure Behind (host : Host) (snapshot : ContractSnapshot) (emitted : Emission) (item : Compiled)
    (i : ℕ) (endpoint : Endpoint) : Prop where
  endpoint_eq : snapshot.endpoints[i]? = some endpoint
  key_eq : operationKey endpoint = (emitted.path, emitted.method)
  operation_eq : item.operation = renderedOperation host snapshot endpoint
  from_eq : CompiledFrom host snapshot endpoint item
  silent : (compileDocument host snapshot).diagnostics = [] →
    (compileParts host snapshot endpoint).diagnostics = []

variable {emitted : Emission} {item : Compiled}

theorem exists_behind (hsnapshot : snapshot.Accepted host) {group : ProjectionGroup}
    (hgroup : group ∈ (planOpenApiProjection snapshot).groups)
    (hemits : Emits host snapshot group emitted)
    (hitem : item ∈ emitted.members) : ∃ i endpoint, Behind host snapshot emitted item i endpoint := by
  obtain ⟨endpoint, hendpoint, hcompiled⟩ := hemits.compiled item hitem
  have hfrom := compiledFrom_of_compileEndpoint hcompiled
  obtain ⟨i, hi⟩ := List.mem_iff_getElem?.mp
    ((mem_groupEndpoints_iff hsnapshot hgroup).mp hendpoint).1
  exact ⟨i, endpoint,
    { endpoint_eq := hi
      key_eq := hemits.operationKey_eq hsnapshot hgroup hendpoint
      operation_eq := (compileParts_eq_some hfrom.compiled_eq).1
      from_eq := hfrom
      silent := fun hnil => by
        simp only [compileDocument, compileGroups, diagnostics_bind, append_eq_nil_iff,
          diagnostics_each_eq_nil_iff] at hnil
        have hsilent := (compileGroup_silent hsnapshot hgroup (hnil.2.1.1 group hgroup)).1
        exact (compileEndpoint_silent (hsilent endpoint hendpoint)).2 }⟩

theorem compileParts_parts_silent (h : (compileParts host snapshot endpoint).diagnostics = []) :
    (exportParameters host snapshot endpoint []
        (sorted parameterKey endpoint.parameters)).diagnostics = [] ∧
      (exportRequestBody snapshot endpoint).diagnostics = [] ∧
        (exportResponses host snapshot endpoint [] endpoint.responses).diagnostics = [] := by
  rw [compileParts] at h
  simp only [diagnostics_bind, append_eq_nil_iff] at h
  exact ⟨h.1, h.2.1, h.2.2.1⟩

theorem mem_content_renderedOperation {entry : String × EmittedMedia}
    (h : entry ∈ (renderedOperation host snapshot endpoint).content) :
    ∃ j item, endpoint.requestBodies[j]? = some item ∧ entry.1 = item.mediaType ∧
      (bodySite snapshot endpoint item j).Yields snapshot entry.2.schema
        (exportRequestBody snapshot endpoint).diagnostics := by
  simp only [Operation.content, renderedOperation, exportRequestBody, value_bind] at h
  split_ifs at h with hempty
  · simp at h
  · simp only [value_bind, value_pure, map_some, getD_some, List.mem_map] at h
    obtain ⟨pair, hpair, rfl⟩ := h
    obtain ⟨j, hmem, hyields⟩ := mem_exportBodies hpair
    rw [mem_sorted, mem_zipIdx_iff_getElem?] at hmem
    refine ⟨j, pair.1, hmem, rfl, hyields.mono fun hsilent => ?_⟩
    rw [exportRequestBody, diagnostics_bind, append_eq_nil_iff] at hsilent
    exact hsilent.1

theorem lookup_schemas_compileDocument (name : String) :
    (compileDocument host snapshot).value.schemas.lookup name =
      if name ∈ usedSchemas (compileGroups host snapshot).value then
        (snapshot.schemas.lookup name).map fun component =>
          (exportComponent snapshot name component).value
      else none := by
  simp only [compileDocument, value_bind, value_pure, assemble, exportComponents, value_each]
  have hmap (entries : List (String × SchemaComponent)) :
      (entries.map fun entry => (entry.1, (exportComponent snapshot entry.1 entry.2).value)) =
        entries.filterMap fun entry =>
          (some (exportComponent snapshot entry.1 entry.2).value).map (entry.1, ·) := by
    rw [← filterMap_eq_map]
    rfl
  rw [hmap, lookup_filterMap (fun name component => some (exportComponent snapshot name
    component).value) (fun _ _ => rfl), lookup_sorted, lookup_filter (usedSchemas (compileGroups
    host snapshot).value).contains]
  by_cases hused : name ∈ usedSchemas (compileGroups host snapshot).value
  · rw [if_pos hused, if_pos (List.contains_iff_mem.mpr hused)]
    cases snapshot.schemas.lookup name <;> rfl
  · rw [if_neg hused, if_neg fun h => hused (List.contains_iff_mem.mp h)]
    rfl

/-- The references of the schema refer to components of the document. -/
def Site.Closed (document : Document) (site : Site) : Prop :=
  ∀ node ref, SchemaPosition site.schema node → refOf node = some ref →
    (document.schemas.lookup (referencedComponent ref)).isSome = true

variable {name : String} {i : ℕ}

theorem Behind.used (hemitted : emitted ∈ (compileGroups host snapshot).value)
    (hitem : item ∈ emitted.members) (h : Behind host snapshot emitted item i endpoint)
    (hname : name ∈ reachableSchemas snapshot endpoint) :
    name ∈ usedSchemas (compileGroups host snapshot).value := by
  rw [usedSchemas, mem_dedup, mem_flatMap]
  exact ⟨emitted, hemitted, List.mem_flatMap.mpr ⟨item, hitem, h.from_eq.schemas_eq ▸ hname⟩⟩

section

variable (hsnapshot : snapshot.Accepted host)
  (hemitted : emitted ∈ (compileGroups host snapshot).value) (hitem : item ∈ emitted.members)
include hsnapshot hemitted hitem

theorem Behind.lookup_isSome (h : Behind host snapshot emitted item i endpoint) {ref : String}
    (href : Rendered snapshot [endpoint] ref) :
    ((compileDocument host snapshot).value.schemas.lookup (referencedComponent ref)).isSome =
      true := by
  have hemittable : [endpoint] ⊆ emittable snapshot := by
    intro other hother
    rw [List.mem_singleton.mp hother]
    exact List.mem_filter.mpr ⟨mem_of_getElem? h.endpoint_eq, List.all_eq_true.mpr h.from_eq.keys⟩
  obtain ⟨hid, hreach⟩ := List.mem_filter.mp (linked_of_accepted hsnapshot hemittable href).2
  simp only [any_cons, any_nil, Bool.or_false, contains_iff_mem] at hreach
  obtain ⟨component, hcomponent⟩ := exists_lookup_of_mem_keys hid
  rw [lookup_schemas_compileDocument, if_pos (h.used hemitted hitem hreach), hcomponent]
  rfl

theorem Behind.closed (h : Behind host snapshot emitted item i endpoint)
    (hsite : site.schema ∈ endpoint.schemas) : site.Closed (compileDocument host snapshot).value :=
  fun _ _ hnode href => h.lookup_isSome hsnapshot hemitted hitem
    (.endpoint (mem_singleton_self endpoint) hsite hnode href)

end

theorem closed_componentSite (hsnapshot : snapshot.Accepted host)
    {component : SchemaComponent} (hcomponent : snapshot.schemas.lookup name = some component)
    (hused : name ∈ usedSchemas (compileGroups host snapshot).value) :
    (componentSite snapshot name component).Closed (compileDocument host snapshot).value := by
  intro node ref hnode href
  rw [usedSchemas, mem_dedup, mem_flatMap] at hused
  obtain ⟨emitted, hemitted, hused⟩ := hused
  obtain ⟨item, hitem, hname⟩ := List.mem_flatMap.mp hused
  obtain ⟨group, hgroup, hvalue⟩ := mem_compileGroups.mp hemitted
  obtain ⟨i, endpoint, hbehind⟩ :=
    exists_behind hsnapshot hgroup (emits_of_compileGroup hsnapshot hgroup hvalue) hitem
  refine hbehind.lookup_isSome hsnapshot hemitted hitem
    (.component (List.mem_filter.mpr ⟨?_, ?_⟩) hcomponent hnode href)
  · exact List.mem_map.mpr ⟨_, mem_of_lookup hcomponent, rfl⟩
  · simpa using hbehind.from_eq.schemas_eq ▸ hname

/-- The schema under the key is the export of a located schema, whose references refer to
components of the document. -/
def Sourced (host : Host) (snapshot : ContractSnapshot) (key : DocumentKey) (schema : Json) : Prop :=
  ∃ place site, Located snapshot place key site ∧
    site.Yields snapshot schema (compileDocument host snapshot).diagnostics ∧
      site.Closed (compileDocument host snapshot).value

section Sources

variable {emitted : Emission} {item : Compiled} {i : ℕ} {endpoint : Endpoint}
  (hsnapshot : snapshot.Accepted host) (hemitted : emitted ∈ (compileGroups host snapshot).value)
  (hitem : item ∈ emitted.members) (h : Behind host snapshot emitted item i endpoint)
include hsnapshot hemitted hitem h

theorem Behind.sourced_parameter {parameter : EmittedParameter}
    (hparameter : parameter ∈ item.operation.parameters) :
    Sourced host snapshot
      (.parameter emitted.path emitted.method parameter.location parameter.name)
      parameter.schema := by
  rw [h.operation_eq] at hparameter
  obtain ⟨source, hsource, hlocation, hname, hyields⟩ := mem_exportParameters hparameter
  rw [mem_sorted] at hsource
  obtain ⟨j, hj⟩ := List.mem_iff_getElem?.mp hsource
  have hlocated := Located.parameter h.endpoint_eq hj
  rw [h.key_eq] at hlocated
  refine ⟨_, _, hlocation ▸ hname ▸ hlocated, hyields.mono fun hsilent => ?_,
    h.closed hsnapshot hemitted hitem ?_⟩
  · exact (compileParts_parts_silent (h.silent hsilent)).1
  · exact mem_append_left _ (mem_append_left _ (List.mem_map_of_mem hsource))

theorem Behind.sourced_requestBody {entry : String × EmittedMedia}
    (hentry : entry ∈ item.content) :
    Sourced host snapshot (.requestBody emitted.path emitted.method entry.1) entry.2.schema := by
  have hmem : entry ∈ (renderedOperation host snapshot endpoint).content := h.operation_eq ▸ hentry
  obtain ⟨j, source, hj, hname, hyields⟩ := mem_content_renderedOperation hmem
  have hlocated := Located.requestBody h.endpoint_eq hj
  rw [h.key_eq, ← hname] at hlocated
  refine ⟨_, _, hlocated, hyields.mono fun hsilent => ?_, h.closed hsnapshot hemitted hitem ?_⟩
  · exact (compileParts_parts_silent (h.silent hsilent)).2.1
  · exact mem_append_left _ (mem_append_right _ (List.mem_map_of_mem (mem_of_getElem? hj)))

variable {entry : String × EmittedResponse}

variable (hentry : entry ∈ item.operation.responses)

include hentry in
omit hsnapshot hemitted hitem in
theorem Behind.exists_response :
    ∃ (j : ℕ) (response : Response), endpoint.responses[j]? = some response ∧
      statusKey response.status = some entry.1 ∧
      entry.2 = (exportResponse host snapshot endpoint entry.1 response).value ∧
      ((compileDocument host snapshot).diagnostics = [] →
        (exportResponse host snapshot endpoint entry.1 response).diagnostics = []) := by
  rw [h.operation_eq] at hentry
  simp only [renderedOperation, mem_sorted] at hentry
  obtain ⟨response, hresponse, hstatus, hvalue, hsilent⟩ := mem_exportResponses hentry
  obtain ⟨j, hj⟩ := List.mem_iff_getElem?.mp hresponse
  exact ⟨j, response, hj, hstatus, hvalue, fun hnil =>
    hsilent (compileParts_parts_silent (h.silent hnil)).2.2⟩

include hentry in
theorem Behind.sourced_content {media : String × Json} (hmedia : media ∈ entry.2.content.getD []) :
    Sourced host snapshot (.content emitted.path emitted.method entry.1 media.1) media.2 := by
  obtain ⟨j, response, hj, hstatus, hvalue, hsilent⟩ :=
    h.exists_response hentry
  rw [hvalue] at hmedia
  obtain ⟨source, hsource, hname, hyields⟩ := mem_content_exportResponse hmedia
  obtain ⟨k, hk⟩ := List.mem_iff_getElem?.mp hsource
  have hlocated := Located.content h.endpoint_eq hj hstatus hk
  rw [h.key_eq, ← hname] at hlocated
  refine ⟨_, _, hlocated, hyields.mono hsilent, h.closed hsnapshot hemitted hitem ?_⟩
  exact mem_append_right _ (List.mem_flatMap.mpr ⟨response, mem_of_getElem? hj,
    mem_append_left _ (List.mem_map_of_mem hsource)⟩)

include hentry in
theorem Behind.sourced_header {header : String × Json}
    (hheader : header ∈ entry.2.headers.getD []) :
    Sourced host snapshot (.header emitted.path emitted.method entry.1 header.1) header.2 := by
  obtain ⟨j, response, hj, hstatus, hvalue, hsilent⟩ :=
    h.exists_response hentry
  rw [hvalue] at hheader
  obtain ⟨source, hsource, hname, hyields⟩ := mem_headers_exportResponse hheader
  obtain ⟨k, hk⟩ := List.mem_iff_getElem?.mp hsource
  have hlocated := Located.header h.endpoint_eq hj hstatus hk
  rw [h.key_eq, ← hname] at hlocated
  refine ⟨_, _, hlocated, hyields.mono hsilent, h.closed hsnapshot hemitted hitem ?_⟩
  exact mem_append_right _ (List.mem_flatMap.mpr ⟨response, mem_of_getElem? hj,
    mem_append_right _ (List.mem_map_of_mem hsource)⟩)

end Sources

theorem sourced_component (hsnapshot : snapshot.Accepted host)
    (h : (compileDocument host snapshot).value.schemas.lookup name = some schema) :
    Sourced host snapshot (.component name) schema := by
  rw [lookup_schemas_compileDocument] at h
  split_ifs at h with hused
  obtain ⟨component, hcomponent, rfl⟩ := map_eq_some_iff.mp h
  refine ⟨_, _, .component hcomponent, ⟨rfl, fun hsilent => ?_⟩,
    closed_componentSite hsnapshot hcomponent hused⟩
  simp only [compileDocument, exportComponents, diagnostics_bind, append_eq_nil_iff,
    diagnostics_each_eq_nil_iff] at hsilent
  refine (hsilent.2.2.1.1 (name, component) ?_).1
  rw [mem_sorted, mem_filter]
  exact ⟨mem_of_lookup hcomponent, List.contains_iff_mem.mpr hused⟩

/-- **Where the schemas of a document come from.**  Every schema of a document is the export of a
schema of the snapshot with the same key, whose references refer to components of the document. -/
theorem sourced_of_hasSchema (hsnapshot : snapshot.Accepted host)
    (h : (compileDocument host snapshot).value.HasSchema key schema) :
    Sourced host snapshot key schema := by
  -- the operations of the document are those of its emissions, with an endpoint behind each member
  have hoperation {path method : String} {operation : Operation}
      (hfound : (compileDocument host snapshot).value.operation? path method = some operation) :
      ∃ emitted ∈ (compileGroups host snapshot).value, emitted.path = path ∧
        emitted.method = method ∧ emitted.operation = operation ∧
          ∃ group ∈ (planOpenApiProjection snapshot).groups, Emits host snapshot group emitted := by
    obtain ⟨emitted, hemitted, hkey⟩ := (operation?_eq_some_iff hsnapshot).mp hfound
    obtain ⟨group, hgroup, hvalue⟩ := mem_compileGroups.mp hemitted
    exact ⟨emitted, hemitted, hkey.1, hkey.2.1, hkey.2.2, group, hgroup,
      emits_of_compileGroup hsnapshot hgroup hvalue⟩
  cases key with
  | component name => exact sourced_component hsnapshot h
  | parameter path method location name =>
    obtain ⟨operation, hfound, parameter, hparameter, rfl, rfl, rfl⟩ := h
    obtain ⟨emitted, hemitted, rfl, rfl, rfl, group, hgroup, hemits⟩ := hoperation hfound
    obtain ⟨item, hitem, -⟩ := hemits.method_eq
    obtain ⟨i, endpoint, hbehind⟩ := exists_behind hsnapshot hgroup hemits hitem
    rw [← hemits.parameters_eq item hitem] at hparameter
    exact hbehind.sourced_parameter hsnapshot hemitted hitem hparameter
  | requestBody path method mediaType =>
    obtain ⟨operation, hfound, media, hmedia, rfl⟩ := h
    obtain ⟨emitted, hemitted, rfl, rfl, rfl, group, hgroup, hemits⟩ := hoperation hfound
    obtain ⟨item, hitem, hmedia⟩ := (hemits.content_iff _).mp hmedia
    obtain ⟨i, endpoint, hbehind⟩ := exists_behind hsnapshot hgroup hemits hitem
    exact hbehind.sourced_requestBody hsnapshot hemitted hitem hmedia
  | content path method status mediaType =>
    obtain ⟨operation, hfound, response, hresponse, hschema⟩ := h
    obtain ⟨emitted, hemitted, rfl, rfl, rfl, group, hgroup, hemits⟩ := hoperation hfound
    obtain ⟨item, hitem, -⟩ := hemits.method_eq
    obtain ⟨i, endpoint, hbehind⟩ := exists_behind hsnapshot hgroup hemits hitem
    rw [← hemits.responses_eq item hitem] at hresponse
    exact hbehind.sourced_content hsnapshot hemitted hitem hresponse hschema
  | header path method status name =>
    obtain ⟨operation, hfound, response, hresponse, hschema⟩ := h
    obtain ⟨emitted, hemitted, rfl, rfl, rfl, group, hgroup, hemits⟩ := hoperation hfound
    obtain ⟨item, hitem, -⟩ := hemits.method_eq
    obtain ⟨i, endpoint, hbehind⟩ := exists_behind hsnapshot hgroup hemits hitem
    rw [← hemits.responses_eq item hitem] at hresponse
    exact hbehind.sourced_header hsnapshot hemitted hitem hresponse hschema

end Documents

end ApiTruth.OpenApi
