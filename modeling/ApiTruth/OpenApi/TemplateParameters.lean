import ApiTruth.OpenApi.Lossless

/-!
# Path templates and their parameters

The paths of a document differ after the names of their placeholders are erased: the compiler
leaves out every endpoint whose shape is rendered in two ways.  The names of a path are those of
the path parameters of each of its operations, but the compiler only compares the two as sets, so
that a path may name one placeholder twice.

## Main definitions

* `TemplatesWellFormed` : the paths of a document are templates with parameters.

## Main results

* `templates_wellFormed_iff` : they are, unless an application path repeats a name.
* `projections_agree` : the shape in an identity is that of the group, and the names are those of
  the placeholders.
-/

namespace ApiTruth.OpenApi

open Json ApiTruth.Ir Reported List Option

def Operation.pathParameters (operation : Operation) : List EmittedParameter :=
  operation.parameters.filter fun item => item.location = .path ∧ item.required

/-- No two paths are equal up to the names of their placeholders, no path repeats a name, and the
names are in bijection with the required path parameters of every operation. -/
structure TemplatesWellFormed (document : Document) : Prop where
  shapes : (document.paths.map fun entry => erasedKey entry.1).Nodup
  names : ∀ entry ∈ document.paths, (keyNames entry.1).Nodup
  parameters : ∀ path method operation, document.operation? path method = some operation →
    (operation.pathParameters.map EmittedParameter.name).Perm (keyNames path)

/-- The application path names no placeholder twice. -/
def RepeatsNoName (path : String) : Prop := (openApiPath path).names.Nodup

instance (path : String) : Decidable (RepeatsNoName path) :=
  inferInstanceAs (Decidable (List.Nodup _))

variable {host : Host} {snapshot : ContractSnapshot}

/-! ### The parameters of an operation -/

/-- What the document says about a parameter, apart from its schema. -/
def EmittedParameter.Renders (emitted : EmittedParameter) (parameter : Parameter) : Prop :=
  emitted.name = parameter.name ∧ emitted.location = parameter.location ∧
    (parameter.location = .path → emitted.required = true)

theorem renders_renderParameter (endpoint : Endpoint) (parameter : Parameter) (path : String) :
    (renderParameter snapshot endpoint parameter path).value.value.Renders parameter := by
  simp only [renderParameter, value_bind, value_pure, EmittedParameter.Renders, true_and]
  intro hpath
  simp [hpath]

variable {endpoint : Endpoint} {parameters : List Parameter} {group : ProjectionGroup}

theorem exportParameter_renders {seen : List String} {parameter : Parameter}
    (h : (exportParameter host snapshot endpoint seen parameter).value.skip = false) :
    parameterKey parameter ∉ seen ∧ ∃ emitted,
      (exportParameter host snapshot endpoint seen parameter).value.value = some emitted ∧
        emitted.Renders parameter := by
  unfold exportParameter at h ⊢
  split at h
  · simp at h
  · rename_i hobstacle
    refine ⟨fun hmem => ?_, _, rfl, renders_renderParameter endpoint parameter _⟩
    rw [parameterObstacle, if_pos (List.contains_iff_mem.mpr hmem)] at hobstacle
    cases hobstacle

theorem exportParameters_renders {seen : List String}
    (h : (exportParameters host snapshot endpoint seen parameters).value.skip = false) :
    List.Forall₂ EmittedParameter.Renders
        (exportParameters host snapshot endpoint seen parameters).value.value parameters ∧
      (parameters.map parameterKey).Nodup ∧ ∀ item ∈ parameters, parameterKey item ∉ seen := by
  induction parameters generalizing seen with
  | nil => exact ⟨.nil, nodup_nil, by simp⟩
  | cons parameter rest ih =>
    simp only [exportParameters, value_bind, value_pure, Bool.or_eq_false_iff] at h ⊢
    obtain ⟨hseen, emitted, hemitted, hrenders⟩ := exportParameter_renders h.1
    obtain ⟨hall, hnodup, hnew⟩ := ih h.2
    rw [hemitted, toList_some, singleton_append]
    refine ⟨.cons hrenders hall, List.nodup_cons.mpr ⟨fun hmem => ?_, hnodup⟩, ?_⟩
    · obtain ⟨item, hitem, hkey⟩ := List.mem_map.mp hmem
      exact hnew item hitem (hkey ▸ mem_cons_self)
    · intro item hitem
      rcases List.mem_cons.mp hitem with rfl | hitem
      · exact hseen
      · exact fun hmem => hnew item hitem (mem_cons_of_mem _ hmem)

theorem names_of_renders {emitted : List EmittedParameter}
    (h : List.Forall₂ EmittedParameter.Renders emitted parameters) :
    (emitted.filter fun item => item.location = .path ∧ item.required).map EmittedParameter.name =
      (parameters.filter (·.location = .path)).map Parameter.name := by
  induction h with
  | nil => rfl
  | @cons first parameter _ _ hrenders _ ih =>
    obtain ⟨hname, hlocation, hrequired⟩ := hrenders
    rw [filter_cons, filter_cons, hlocation]
    by_cases hpath : parameter.location = .path
    · rw [if_pos (by simp [hpath, hrequired hpath]), if_pos (by simp [hpath]), map_cons,
        map_cons, hname, ih]
    · rw [if_neg (by simp [hpath]), if_neg (by simp [hpath]), ih]

theorem nodup_names_of_keys (h : (parameters.map parameterKey).Nodup) :
    ((parameters.filter (·.location = .path)).map Parameter.name).Nodup := by
  rw [Nodup, pairwise_map] at h ⊢
  refine (h.filter _).imp_of_mem fun {a b} ha hb hne hname => hne ?_
  have hpath {item : Parameter} (hitem : item ∈ parameters.filter (·.location = .path)) :
      item.location = .path := by simpa using (List.mem_filter.mp hitem).2
  rw [parameterKey, parameterKey, hpath ha, hpath hb, hname]

theorem mem_names_iff_of_hasPathMismatch (h : hasPathMismatch endpoint = false) {name : String} :
    name ∈ (openApiPath endpoint.applicationPath).names ↔
      name ∈ (endpoint.parameters.filter (·.location = .path)).map Parameter.name := by
  simp only [hasPathMismatch, Bool.or_eq_false_iff, List.any_eq_false, Bool.not_eq_true,
    Bool.not_eq_false', Bool.not_eq_true'] at h
  rw [List.mem_map]
  constructor
  · intro hname
    by_contra hnone
    refine h.1 name hname fun parameter hparameter => ?_
    have hne : parameter.name ≠ name := fun heq => hnone ⟨parameter, hparameter, heq⟩
    simp [hne]
  · rintro ⟨parameter, hparameter, rfl⟩
    exact List.contains_iff_mem.mp (h.2 parameter hparameter).1

theorem CompiledFrom.pathParameters {item : Compiled}
    (h : CompiledFrom host snapshot endpoint item) :
    (item.operation.pathParameters.map EmittedParameter.name).Nodup ∧
      ∀ name, name ∈ item.operation.pathParameters.map EmittedParameter.name ↔
        name ∈ (openApiPath endpoint.applicationPath).names := by
  obtain ⟨hoperation, hskip, -⟩ := compileParts_eq_some h.compiled_eq
  obtain ⟨hrenders, hnodup, -⟩ := exportParameters_renders hskip
  have hnames : item.operation.pathParameters.map EmittedParameter.name =
      ((sorted parameterKey endpoint.parameters).filter (·.location = .path)).map
        Parameter.name := by
    rw [hoperation]
    exact names_of_renders hrenders
  have hperm := ((sorted_perm parameterKey endpoint.parameters).filter
    (·.location = .path)).map Parameter.name
  refine ⟨hnames ▸ nodup_names_of_keys hnodup, fun name => ?_⟩
  rw [hnames, hperm.mem_iff, mem_names_iff_of_hasPathMismatch h.names]

/-! ### The paths of the groups -/

theorem shapeEndpoints_eq (hgroup : group ∈ (planOpenApiProjection snapshot).groups) :
    shapeEndpoints snapshot group = groupEndpoints snapshot group := by
  rw [shapeEndpoints, groupEndpoints]
  by_cases hkind : group.kind = .variantSet
  · rw [if_pos hkind]
  · obtain ⟨routed, -, hof, -⟩ := exists_routed_of_mem_groups hgroup
    have hlength : group.endpointIds.length = 1 := by
      rw [hof.ids.length_eq, length_map, hof.single hkind]
    rw [if_neg hkind, take_of_length_le (by omega)]

theorem mem_shapePaths (hgroup : group ∈ (planOpenApiProjection snapshot).groups)
    (hendpoint : endpoint ∈ groupEndpoints snapshot group) :
    (openApiPath endpoint.applicationPath).path ∈ shapePaths snapshot group.pathShape := by
  simp only [shapePaths, mem_dedup, Marking.mem_valuesAt, mem_flatMap, List.mem_map]
  exact ⟨group, hgroup, endpoint, shapeEndpoints_eq hgroup ▸ hendpoint, rfl⟩

theorem Emits.path_eq_of_shape (h : snapshot.Accepted host) {group group' : ProjectionGroup}
    (hgroup : group ∈ (planOpenApiProjection snapshot).groups)
    (hgroup' : group' ∈ (planOpenApiProjection snapshot).groups) {emitted emitted' : Emission}
    (hemits : Emits host snapshot group emitted) (hemits' : Emits host snapshot group' emitted')
    (hshape : group.pathShape = group'.pathShape) : emitted.path = emitted'.path := by
  have hmem {group : ProjectionGroup} (hgroup : group ∈ (planOpenApiProjection snapshot).groups)
      {emitted : Emission} (hemits : Emits host snapshot group emitted) :
      emitted.path ∈ shapePaths snapshot group.pathShape ∧
        (shapePaths snapshot group.pathShape).length ≤ 1 := by
    obtain ⟨item, hitem, -⟩ := hemits.method_eq
    obtain ⟨endpoint, hendpoint, hcompiled⟩ := hemits.compiled item hitem
    have hfrom := compiledFrom_of_compileEndpoint hcompiled
    obtain ⟨hmem, -, -, hpath⟩ := (mem_groupEndpoints_iff h hgroup).mp hendpoint
    obtain ⟨hprojectable, heq⟩ := projectedShape_eq_some_iff.mp hpath
    rw [← hemits.path_eq item hitem, hfrom.path_eq]
    refine ⟨mem_shapePaths hgroup hendpoint, ?_⟩
    rw [heq, ← normalizedShape_of_accepted h hmem hprojectable]
    exact hfrom.path_unique
  obtain ⟨hpath, hlength⟩ := hmem hgroup hemits
  have hpath' := (hmem hgroup' hemits').1
  rw [← hshape] at hpath'
  cases hpaths : shapePaths snapshot group.pathShape with
  | nil => simp [hpaths] at hpath
  | cons path paths =>
    obtain rfl : paths = [] := by simpa [hpaths] using hlength
    rw [hpaths, mem_singleton] at hpath hpath'
    rw [hpath, hpath']

/-! ### The shape of the plan and the shape of the identity -/

/-- The endpoint is in a group, and its path is found under the shape in its identity. -/
def FindsGroup (snapshot : ContractSnapshot) (endpoint : Endpoint) : Prop :=
  ∃ group ∈ (planOpenApiProjection snapshot).groups, group.method = endpoint.identity.method ∧
    group.pathShape = endpoint.identity.normalizedPathShape ∧
    endpoint ∈ groupEndpoints snapshot group ∧
    (openApiPath endpoint.applicationPath).path ∈
      shapePaths snapshot endpoint.identity.normalizedPathShape

theorem findsGroup_of_accepted (h : snapshot.Accepted host)
    (hendpoint : endpoint ∈ snapshot.endpoints) (hmethod : endpoint.identity.method ∈ methods)
    {shape : String} (hshape : projectedShape endpoint.applicationPath = some shape) :
    endpoint.identity.normalizedPathShape = shape ∧ FindsGroup snapshot endpoint := by
  obtain ⟨hprojectable, hpath⟩ := projectedShape_eq_some_iff.mp hshape
  have hidentity : endpoint.identity.normalizedPathShape = shape :=
    (normalizedShape_of_accepted h hendpoint hprojectable).trans hpath.symm
  have hrouted : (⟨endpoint, shape⟩ : RoutedEndpoint) ∈ routedEndpoints snapshot :=
    mem_routedEndpoints.mpr ⟨hendpoint, hmethod, hshape⟩
  obtain ⟨group, hgroup, hmethod', hshape'⟩ := exists_group_of_mem_routedEndpoints hrouted
  have hmem : endpoint ∈ groupEndpoints snapshot group :=
    (mem_groupEndpoints_iff h hgroup).mpr
      ⟨hendpoint, hmethod'.symm, hmethod' ▸ hmethod, hshape' ▸ hshape⟩
  refine ⟨hidentity, group, hgroup, hmethod', hshape'.trans hidentity.symm, hmem, ?_⟩
  have hpaths := mem_shapePaths hgroup hmem
  rwa [hshape', ← hidentity] at hpaths

/-- **The two projections of a path.**  A path with a shape in the IR that OpenAPI can represent has
that shape in the plan too, and its template names the placeholders that the IR reads.  Therefore
the group of every endpoint is found under the shape in its identity. -/
theorem projections_agree (host : Host) :
    (∀ (path : String) (normalized : List Char) (projected : String),
      normalizeApplicationPathShape host path.toList = some normalized →
      projectedShape path = some projected → projected.toList = normalized ∧
        keyNames (openApiPath path).path = (openApiPath path).names ∧
        ∃ pieces, readPath host path.toList = some pieces ∧
          (openApiPath path).names = (pieces.filterMap PathPiece.name).map String.ofList) ∧
    ∀ (snapshot : ContractSnapshot), snapshot.Accepted host → ∀ endpoint ∈ snapshot.endpoints,
      endpoint.identity.method ∈ methods → ∀ projected,
      projectedShape endpoint.applicationPath = some projected →
        endpoint.identity.normalizedPathShape = projected ∧ FindsGroup snapshot endpoint := by
  refine ⟨fun path normalized projected hnormalized hprojected => ?_,
    fun snapshot haccepted endpoint hendpoint hmethod projected hprojected =>
      findsGroup_of_accepted haccepted hendpoint hmethod hprojected⟩
  obtain ⟨hprojectable, rfl⟩ := projectedShape_eq_some_iff.mp hprojected
  rw [normalizeApplicationPathShape_of_projectable host hprojectable] at hnormalized
  exact ⟨Option.some.inj hnormalized, templateNames_openApiPath hprojectable, _,
    readPath_of_projectable host hprojectable, names_openApiPath path⟩

theorem projections_agree_sample :
    ("/a/{}".toList = "/a/{}".toList ∧ keyNames (openApiPath "/a/:id").path = ["id"]) ∧
      ∀ endpoint ∈ (sampleExport (.obj [])).endpoints,
        FindsGroup (sampleExport (.obj [])) endpoint := by
  have haccepted : (sampleExport (.obj [])).Accepted .ascii := by decide +kernel
  have hmethods : ∀ endpoint ∈ (sampleExport (.obj [])).endpoints,
      endpoint.identity.method ∈ methods ∧
        (projectedShape endpoint.applicationPath).isSome := by decide +kernel
  obtain ⟨hpath, hgroup⟩ := projections_agree .ascii
  obtain ⟨hshape, hnames, -⟩ := hpath "/a/:id" "/a/{}".toList "/a/{}" (by decide +kernel)
    (by decide +kernel)
  refine ⟨⟨hshape, hnames.trans (by decide +kernel)⟩, fun endpoint hendpoint => ?_⟩
  obtain ⟨hmethod, hsome⟩ := hmethods endpoint hendpoint
  obtain ⟨projected, hprojected⟩ := isSome_iff_exists.mp hsome
  exact (hgroup _ haccepted endpoint hendpoint hmethod projected hprojected).2

/-! ### Documents -/

theorem mem_paths_compileDocument {path : String} :
    path ∈ (compileDocument host snapshot).value.paths.map Prod.fst ↔
      ∃ emitted ∈ (compileGroups host snapshot).value, emitted.path = path := by
  simp only [compileDocument, value_bind, value_pure, assemble, List.mem_map, mem_sorted]
  rw [← mem_keys_foldl_emitInto]
  exact List.mem_map.symm

theorem keyNames_operationKey {routed : RoutedEndpoint} (h : routed ∈ routedEndpoints snapshot) :
    keyNames (operationKey routed.endpoint).1 =
      (openApiPath routed.endpoint.applicationPath).names := by
  obtain ⟨-, -, hshape⟩ := mem_routedEndpoints.mp h
  exact templateNames_openApiPath (projectedShape_eq_some_iff.mp hshape).1

theorem Emits.exists_routed (h : snapshot.Accepted host)
    (hgroup : group ∈ (planOpenApiProjection snapshot).groups) {emitted : Emission}
    (hemits : Emits host snapshot group emitted) : ∃ routed ∈ routedEndpoints snapshot,
      operationKey routed.endpoint = (emitted.path, emitted.method) ∧
      ∃ item, CompiledFrom host snapshot routed.endpoint item ∧
        item.operation.parameters = emitted.operation.parameters := by
  obtain ⟨item, hitem, -⟩ := hemits.method_eq
  obtain ⟨endpoint, hendpoint, hcompiled⟩ := hemits.compiled item hitem
  obtain ⟨hmem, hmethod, hmethods, hshape⟩ := (mem_groupEndpoints_iff h hgroup).mp hendpoint
  exact ⟨⟨endpoint, group.pathShape⟩, mem_routedEndpoints.mpr ⟨hmem, hmethod ▸ hmethods, hshape⟩,
    hemits.operationKey_eq h hgroup hendpoint, item, compiledFrom_of_compileEndpoint hcompiled,
    hemits.parameters_eq item hitem⟩

/-- **Path templates of emitted documents.**  They are well formed exactly when no candidate that
the document has an operation for repeats the name of a placeholder. -/
theorem templates_wellFormed_iff {mode : CompileMode} {result : CompileResult}
    (h : compileOpenApiSnapshot host snapshot mode = some result) {document : Document}
    (hdocument : result.document = some document) : TemplatesWellFormed document ↔
      ∀ routed ∈ routedEndpoints snapshot, ∀ operation,
        document.operation? (operationKey routed.endpoint).1 (operationKey routed.endpoint).2 =
          some operation → RepeatsNoName routed.endpoint.applicationPath := by
  obtain ⟨hsnapshot, rfl⟩ := document_of_compileOpenApiSnapshot h hdocument
  have hemission {emitted : Emission} (hemitted : emitted ∈ (compileGroups host snapshot).value) :
      ∃ group ∈ (planOpenApiProjection snapshot).groups, Emits host snapshot group emitted := by
    obtain ⟨group, hgroup, hvalue⟩ := mem_compileGroups.mp hemitted
    exact ⟨group, hgroup, emits_of_compileGroup hsnapshot hgroup hvalue⟩
  constructor
  · intro hwell routed hrouted operation hoperation
    obtain ⟨emitted, hemitted, hpath, -⟩ := (operation?_eq_some_iff hsnapshot).mp hoperation
    obtain ⟨entry, hentry, heq⟩ :=
      List.mem_map.mp (mem_paths_compileDocument.mpr ⟨emitted, hemitted, rfl⟩)
    have hnames := hwell.names entry hentry
    rw [heq, hpath, keyNames_operationKey hrouted] at hnames
    exact hnames
  · intro hrepeats
    have hnames {emitted : Emission} (hemitted : emitted ∈ (compileGroups host snapshot).value) :
        (keyNames emitted.path).Nodup ∧
          (emitted.operation.pathParameters.map EmittedParameter.name).Perm
            (keyNames emitted.path) := by
      obtain ⟨group, hgroup, hemits⟩ := hemission hemitted
      obtain ⟨routed, hrouted, hkey, item, hfrom, hparameters⟩ :=
        hemits.exists_routed hsnapshot hgroup
      have hnodup : (openApiPath routed.endpoint.applicationPath).names.Nodup :=
        hrepeats routed hrouted emitted.operation ((operation?_eq_some_iff hsnapshot).mpr
          ⟨emitted, hemitted, by rw [hkey], by rw [hkey], rfl⟩)
      rw [show emitted.path = (operationKey routed.endpoint).1 by rw [hkey],
        keyNames_operationKey hrouted, Operation.pathParameters, ← hparameters]
      exact ⟨hnodup, (perm_ext_iff_of_nodup hfrom.pathParameters.1 hnodup).mpr
        hfrom.pathParameters.2⟩
    constructor
    case shapes =>
      have hpaths : ((compileDocument host snapshot).value.paths.map Prod.fst).Nodup :=
        (nodup_map_sorted Prod.fst _).mpr (OrderedMap.nodup _)
      rw [Nodup, pairwise_map] at hpaths ⊢
      refine hpaths.imp_of_mem fun {a b} ha hb hne hshape => hne ?_
      obtain ⟨first, hfirst, hfirstPath⟩ :=
        mem_paths_compileDocument.mp (List.mem_map_of_mem ha)
      obtain ⟨second, hsecond, hsecondPath⟩ :=
        mem_paths_compileDocument.mp (List.mem_map_of_mem hb)
      obtain ⟨group, hgroup, hemits⟩ := hemission hfirst
      obtain ⟨group', hgroup', hemits'⟩ := hemission hsecond
      rw [← hfirstPath, ← hsecondPath] at hshape ⊢
      rw [(hemits.erasedKey_path hsnapshot hgroup).1,
        (hemits'.erasedKey_path hsnapshot hgroup').1] at hshape
      exact hemits.path_eq_of_shape hsnapshot hgroup hgroup' hemits' (String.toList_inj.mp hshape)
    case names =>
      intro entry hentry
      obtain ⟨emitted, hemitted, hpath⟩ :=
        mem_paths_compileDocument.mp (List.mem_map_of_mem hentry)
      exact hpath ▸ (hnames hemitted).1
    case parameters =>
      intro path method operation hoperation
      obtain ⟨emitted, hemitted, rfl, -, rfl⟩ := (operation?_eq_some_iff hsnapshot).mp hoperation
      exact (hnames hemitted).2

theorem templates_wellFormed_sample :
    TemplatesWellFormed (compileDocument .ascii (sampleExport (.obj []))).value := by
  have haccepted : (sampleExport (.obj [])).Accepted .ascii := by decide +kernel
  have hnames : ∀ routed ∈ routedEndpoints (sampleExport (.obj [])),
      RepeatsNoName routed.endpoint.applicationPath := by decide +kernel
  have hcompiled : compileOpenApiSnapshot .ascii (sampleExport (.obj [])) .draft =
      some (compileSnapshot .ascii (sampleExport (.obj [])) .draft) :=
    compileOpenApiSnapshot_eq_some_iff.mpr ⟨haccepted, rfl⟩
  exact (templates_wellFormed_iff hcompiled rfl).mpr fun routed hrouted _ _ => hnames routed hrouted

/-! ### A path that repeats a name -/

/-- The endpoint `GET /a/{id}/b/{id}` with its path parameter. -/
def repeatedTemplate : ContractSnapshot :=
  { sampleSnapshot with
    evidence := [exportedEvidence "a"]
    endpoints := [
      { exportedEndpoint "a" "/a/{id}/b/{id}" "/a/{}/b/{}" (.obj []) with
        parameters := [
          { name := "id"
            location := .path
            presence := .plain .required ["ev-a"]
            schema := .obj []
            serialization := { style := some "simple", explode := some false } }] }] }

/-- The strict document of such an endpoint has a path that repeats the name. -/
theorem not_templates_wellFormed : ∃ result document,
    compileOpenApiSnapshot .ascii repeatedTemplate .strict = some result ∧
      result.document = some document ∧ ¬ TemplatesWellFormed document := by
  have haccepted : repeatedTemplate.Accepted .ascii := by decide +kernel
  have hpaths : (compileSnapshot .ascii repeatedTemplate .strict).document.map
      (·.paths.map Prod.fst) = some ["/a/{id}/b/{id}"] := by
    delta compileSnapshot compileDocument compileGroups compileGroup compileSelected
      compileVariants compileEndpoints compileEndpoint reachableSchemas
    simp only [AdjacencyList.queueClosure_eq_queueWithin]
    decide +kernel
  obtain ⟨document, hdocument, hkeys⟩ := map_eq_some_iff.mp hpaths
  refine ⟨_, document, compileOpenApiSnapshot_eq_some_iff.mpr ⟨haccepted, rfl⟩, hdocument,
    fun hwell => ?_⟩
  have hmem : "/a/{id}/b/{id}" ∈ document.paths.map Prod.fst := by simp [hkeys]
  obtain ⟨entry, hentry, hkey⟩ := List.mem_map.mp hmem
  have hnodup := hwell.names entry hentry
  rw [hkey] at hnodup
  revert hnodup
  decide +kernel

end ApiTruth.OpenApi
