import ApiTruth.OpenApi.Emission

/-!
# Strict documents lose no endpoint

The operations of a document are those of the groups, each under a path and a method of its own.
When nothing was reported, every endpoint has a group, every group was emitted, and the operation
under the path and the method of an endpoint has what was compiled from the endpoint.

## Main definitions

* `Document.operation?`, `operationKey` : the operation under a path and a method.
* `Contributes` : the operation has what was compiled from an endpoint.
* `Lossless` : the document has an operation for every class of endpoints.

## Main results

* `operation?_eq_some_iff` : the operations of a document are those of the groups.
* `compile_lossless`.
-/

namespace ApiTruth.OpenApi

open Json ApiTruth.Ir Reported List Option OrderedMap

def Document.operation? (document : Document) (path method : String) : Option Operation :=
  (document.paths.lookup path).bind (·.get? method)

def operationKey (endpoint : Endpoint) : String × String :=
  ((openApiPath endpoint.applicationPath).path, endpoint.identity.method.toLower)

variable {host : Host} {snapshot : ContractSnapshot}

/-! ### Operations by path and method -/

theorem get?_foldl_emitInto (emissions : List Emission) (path method : String) :
    ((emissions.foldl emitInto .empty).get? path).bind (·.get? method) =
      (emissions.reverse.find? fun item => item.path = path ∧ item.method = method).map
        Emission.operation := by
  induction emissions using List.reverseRecOn with
  | nil => rfl
  | append_singleton emissions last ih =>
    rw [foldl_append, foldl_cons, foldl_nil, reverse_append,
      reverse_singleton, singleton_append, emitInto, get?_set]
    by_cases hpath : path = last.path
    · subst hpath
      rw [if_pos rfl, bind_some, get?_set]
      by_cases hmethod : method = last.method
      · simp [hmethod]
      · rw [if_neg hmethod, find?_cons_of_neg (by simp [Ne.symm hmethod]), ← ih]
        cases (emissions.foldl emitInto .empty).get? last.path <;> rfl
    · rw [if_neg hpath, find?_cons_of_neg (by simp [Ne.symm hpath]), ih]

theorem mem_keys_foldl_emitInto (emissions : List Emission) (path : String) :
    path ∈ (emissions.foldl emitInto .empty).keys ↔ ∃ item ∈ emissions, item.path = path := by
  induction emissions using List.reverseRecOn with
  | nil => simp [OrderedMap.keys, empty]
  | append_singleton emissions last ih =>
    rw [foldl_append, foldl_cons, foldl_nil, emitInto, mem_keys_set, ih]
    simp [or_comm, eq_comm]

/-! ### Emissions have paths and methods of their own -/

variable {emitted : Emission} {group : ProjectionGroup} {endpoint : Endpoint} {mode : CompileMode}

theorem mem_compileGroups :
    emitted ∈ (compileGroups host snapshot).value ↔
      ∃ group ∈ (planOpenApiProjection snapshot).groups,
        (compileGroup host snapshot group).value = some emitted := by
  simp [compileGroups, reduceOption_mem_iff]

theorem toLower_injective : ∀ a ∈ methods, ∀ b ∈ methods, a.toLower = b.toLower → a = b := by
  decide +kernel

theorem Emits.erasedKey_path (h : snapshot.Accepted host)
    (hgroup : group ∈ (planOpenApiProjection snapshot).groups)
    (hemits : Emits host snapshot group emitted) :
    erasedKey emitted.path = group.pathShape.toList ∧ emitted.method = group.method.toLower ∧
      group.method ∈ methods := by
  obtain ⟨item, hitem, hmethod⟩ := hemits.method_eq
  obtain ⟨endpoint, hendpoint, hcompiled⟩ := hemits.compiled item hitem
  have hfrom := compiledFrom_of_compileEndpoint hcompiled
  obtain ⟨-, hmethod', hmethods, hshape⟩ := (mem_groupEndpoints_iff h hgroup).mp hendpoint
  obtain ⟨hprojectable, hshape⟩ := projectedShape_eq_some_iff.mp hshape
  rw [← hemits.path_eq item hitem, hfrom.path_eq, eraseNames_openApiPath hprojectable, hshape,
    hmethod, hfrom.endpoint_eq, hmethod']
  exact ⟨rfl, rfl, hmethods⟩

theorem nodup_emissions (h : snapshot.Accepted host) :
    ((compileGroups host snapshot).value.map fun item => (item.path, item.method)).Nodup := by
  have hgroups := @nodup_groups snapshot
  rw [Nodup, pairwise_map] at hgroups ⊢
  have hvalue : (compileGroups host snapshot).value =
      (planOpenApiProjection snapshot).groups.filterMap fun group =>
        (compileGroup host snapshot group).value := by
    simp [compileGroups, List.reduceOption, filterMap_map]
  rw [hvalue, pairwise_filterMap]
  refine Pairwise.imp_of_mem ?_ hgroups
  intro group group' hgroup hgroup' hne item hitem item' hitem' heq
  obtain ⟨hpath, hmethod⟩ := Prod.mk.inj heq
  obtain ⟨hshape, hlower, hmem⟩ :=
    (emits_of_compileGroup h hgroup hitem).erasedKey_path h hgroup
  obtain ⟨hshape', hlower', hmem'⟩ :=
    (emits_of_compileGroup h hgroup' hitem').erasedKey_path h hgroup'
  refine hne (Prod.ext ?_ ?_)
  · exact toLower_injective _ hmem _ hmem' (by rw [← hlower, ← hlower', hmethod])
  · exact String.toList_inj.mp (by rw [← hshape, ← hshape', hpath])

/-- The operations of a document are those of its emissions. -/
theorem operation?_eq_some_iff (h : snapshot.Accepted host) {path method : String}
    {operation : Operation} :
    (compileDocument host snapshot).value.operation? path method = some operation ↔
      ∃ emitted ∈ (compileGroups host snapshot).value,
        emitted.path = path ∧ emitted.method = method ∧ emitted.operation = operation := by
  simp only [Document.operation?, compileDocument, value_bind, value_pure, assemble, lookup_sorted]
  rw [← get?, get?_foldl_emitInto, map_eq_some_iff]
  constructor
  · rintro ⟨emitted, hfind, rfl⟩
    have hkey := find?_some hfind
    simp only [decide_eq_true_eq] at hkey
    exact ⟨emitted, List.mem_reverse.mp (mem_of_find?_eq_some hfind), hkey.1, hkey.2, rfl⟩
  · rintro ⟨emitted, hmem, rfl, rfl, rfl⟩
    have hsome : ((compileGroups host snapshot).value.reverse.find? fun item =>
        item.path = emitted.path ∧ item.method = emitted.method).isSome := by
      rw [find?_isSome]
      exact ⟨emitted, List.mem_reverse.mpr hmem, by simp⟩
    obtain ⟨found, hfind⟩ := isSome_iff_exists.mp hsome
    have hkey := find?_some hfind
    simp only [decide_eq_true_eq] at hkey
    have heq := inj_on_of_nodup_map (nodup_emissions h)
      (List.mem_reverse.mp (mem_of_find?_eq_some hfind)) hmem (Prod.ext hkey.1 hkey.2)
    exact ⟨found, hfind, by rw [heq]⟩

/-! ### Endpoints and their operations -/

/-- The operation has what was compiled from the endpoint, and every request body. -/
structure Contributes (endpoint : Endpoint) (item : Compiled) (operation : Operation) : Prop where
  endpoint_eq : item.endpoint = endpoint
  parameters_eq : item.operation.parameters = operation.parameters
  responses_eq : item.operation.responses = operation.responses
  security_eq : item.operation.security = operation.security
  content : ∀ media ∈ item.content, media ∈ operation.content
  bodies : ∀ body ∈ endpoint.requestBodies, body.mediaType ∈ operation.content.map Prod.fst

/-- The document has one operation for every class of endpoints with one path and method, and every
endpoint contributes to its operation. -/
structure Lossless (host : Host) (snapshot : ContractSnapshot) (document : Document) : Prop where
  paths_nodup : (document.paths.map Prod.fst).Nodup
  /-- Every group of the plan has its operation, which stands for the endpoints with its key. -/
  groups : ∀ group ∈ (planOpenApiProjection snapshot).groups, ∃ emitted,
    (compileGroup host snapshot group).value = some emitted ∧
      document.operation? emitted.path emitted.method = some emitted.operation ∧
        ∀ endpoint ∈ snapshot.endpoints, endpoint ∈ groupEndpoints snapshot group ↔
          operationKey endpoint = (emitted.path, emitted.method)
  contributes : ∀ endpoint ∈ snapshot.endpoints, ∃ item operation,
    (compileEndpoint host snapshot endpoint).value = some item ∧
      document.operation? (operationKey endpoint).1 (operationKey endpoint).2 = some operation ∧
        Contributes endpoint item operation
  /-- There are no other operations. -/
  sound : ∀ path method operation, document.operation? path method = some operation →
    ∃ endpoint ∈ snapshot.endpoints, operationKey endpoint = (path, method)

section

variable (h : snapshot.Accepted host) (hgroup : group ∈ (planOpenApiProjection snapshot).groups)
  (hemits : Emits host snapshot group emitted)
include h hgroup hemits

/-- The endpoints of a group are rendered under the path and the method of its emission. -/
theorem Emits.operationKey_eq (hendpoint : endpoint ∈ groupEndpoints snapshot group) :
    operationKey endpoint = (emitted.path, emitted.method) := by
  obtain ⟨item, hitem, hcompiled⟩ := hemits.complete endpoint hendpoint
  have hfrom := compiledFrom_of_compileEndpoint hcompiled
  rw [operationKey, ← hfrom.path_eq, hemits.path_eq item hitem, (hemits.erasedKey_path h hgroup).2.1,
    ((mem_groupEndpoints_iff h hgroup).mp hendpoint).2.1]

/-- A routed endpoint under the path and the method of an emission belongs to its group. -/
theorem Emits.mem_groupEndpoints {routed : RoutedEndpoint}
    (hrouted : routed ∈ routedEndpoints snapshot)
    (hkey : operationKey routed.endpoint = (emitted.path, emitted.method)) :
    routed.endpoint ∈ groupEndpoints snapshot group := by
  obtain ⟨hmem, hmethods, hshape⟩ := mem_routedEndpoints.mp hrouted
  obtain ⟨hprojectable, heq⟩ := projectedShape_eq_some_iff.mp hshape
  obtain ⟨hpath, hmethod⟩ := Prod.mk.inj hkey
  obtain ⟨herased, hlower, hgroupMethod⟩ := hemits.erasedKey_path h hgroup
  have hmethodEq : routed.endpoint.identity.method = group.method :=
    toLower_injective _ hmethods _ hgroupMethod (hmethod.trans hlower)
  have hshapeEq : routed.pathShape = group.pathShape := by
    refine String.toList_inj.mp ?_
    rw [heq, ← eraseNames_openApiPath hprojectable, ← herased, hpath]
  exact (mem_groupEndpoints_iff h hgroup).mpr ⟨hmem, hmethodEq, hgroupMethod, hshapeEq ▸ hshape⟩

end

theorem mediaType_mem_content {item : Compiled}
    (hcompiled : (compileEndpoint host snapshot endpoint).value = some item)
    (hsilent : (compileEndpoint host snapshot endpoint).diagnostics = []) {body : RequestBody}
    (hbody : body ∈ endpoint.requestBodies) : body.mediaType ∈ item.content.map Prod.fst := by
  have hparts := (compileEndpoint_silent hsilent).2
  rw [compileParts, diagnostics_bind, diagnostics_bind, append_eq_nil_iff,
    append_eq_nil_iff, exportRequestBody, diagnostics_bind, append_eq_nil_iff] at hparts
  obtain ⟨-, hall, -⟩ := exportBodies_silent hparts.2.1.1
  have hoperation :=
    (compileParts_eq_some (compiledFrom_of_compileEndpoint hcompiled).compiled_eq).1
  have hmem : body ∈ (exportBodies snapshot endpoint []
      (sorted (·.1.mediaType) endpoint.requestBodies.zipIdx)).value.value.map Prod.fst := by
    rw [hall, List.map_map]
    refine ((sorted_perm _ _).map Prod.fst).mem_iff.mpr ?_
    rwa [zipIdx_map_fst]
  rw [Compiled.content, hoperation]
  simp only [renderedOperation, exportRequestBody, value_bind]
  split_ifs with hempty
  · simp [List.isEmpty_iff.mp hempty] at hmem
  · obtain ⟨pair, hpair, rfl⟩ := List.mem_map.mp hmem
    simp only [value_bind, value_pure, map_some, getD_some, List.map_map]
    exact List.mem_map.mpr ⟨pair, hpair, rfl⟩

/-- An endpoint of a group that reports nothing contributes to the operation of the group. -/
theorem Emits.contributes (hemits : Emits host snapshot group emitted)
    (hendpoint : endpoint ∈ groupEndpoints snapshot group)
    (hsilent : (compileEndpoint host snapshot endpoint).diagnostics = []) :
    ∃ item, (compileEndpoint host snapshot endpoint).value = some item ∧
      Contributes endpoint item emitted.operation := by
  obtain ⟨item, hitem, hcompiled⟩ := hemits.complete endpoint hendpoint
  have hcontent : ∀ media ∈ item.content, media ∈ emitted.operation.content :=
    fun media hmedia => (hemits.content_iff media).mpr ⟨item, hitem, hmedia⟩
  refine ⟨item, hcompiled,
    { endpoint_eq := (compiledFrom_of_compileEndpoint hcompiled).endpoint_eq
      parameters_eq := hemits.parameters_eq item hitem
      responses_eq := hemits.responses_eq item hitem
      security_eq := hemits.security_eq item hitem
      content := hcontent
      bodies := fun body hbody => ?_ }⟩
  obtain ⟨media, hmedia, hname⟩ :=
    List.mem_map.mp (mediaType_mem_content hcompiled hsilent hbody)
  exact List.mem_map.mpr ⟨media, hcontent media hmedia, hname⟩

/-! ### Documents without diagnostics -/

theorem compileOpenApiSnapshot_eq_some_iff {result : CompileResult} :
    compileOpenApiSnapshot host snapshot mode = some result ↔
      snapshot.Accepted host ∧ compileSnapshot host snapshot mode = result := by
  unfold compileOpenApiSnapshot
  split_ifs with h <;> simp [h]

theorem document_of_compileOpenApiSnapshot {result : CompileResult}
    (h : compileOpenApiSnapshot host snapshot mode = some result) {document : Document}
    (hdocument : result.document = some document) :
    snapshot.Accepted host ∧ document = (compileDocument host snapshot).value := by
  obtain ⟨hsnapshot, rfl⟩ := compileOpenApiSnapshot_eq_some_iff.mp h
  simp only [compileSnapshot] at hdocument
  split_ifs at hdocument with hok
  exact ⟨hsnapshot, (Option.some.inj hdocument).symm⟩

theorem routed_of_routeDiagnostics_eq_nil
    (hmem : endpoint ∈ snapshot.endpoints) (h : routeDiagnostics endpoint = []) :
    ∃ routed ∈ routedEndpoints snapshot, routed.endpoint = endpoint := by
  rw [routeDiagnostics] at h
  cases hroute : routeEndpoint endpoint with
  | error code => simp [hroute] at h
  | ok routed =>
    refine ⟨routed, List.mem_filterMap.mpr ⟨endpoint, hmem, by rw [hroute]; rfl⟩, ?_⟩
    rw [routeEndpoint] at hroute
    by_cases hmethod : methods.contains endpoint.identity.method = true
    · rw [if_pos hmethod] at hroute
      cases hshape : projectedShape endpoint.applicationPath with
      | none => simp [hshape] at hroute
      | some shape =>
        rw [hshape] at hroute
        rw [← Except.ok.inj hroute]
    · rw [if_neg hmethod] at hroute
      exact absurd hroute (by simp)

theorem routed_of_planDiagnostics_eq_nil (h : planDiagnostics snapshot = [])
    (hmem : endpoint ∈ snapshot.endpoints) :
    ∃ routed ∈ routedEndpoints snapshot, routed.endpoint = endpoint := by
  refine routed_of_routeDiagnostics_eq_nil hmem (List.eq_nil_iff_forall_not_mem.mpr fun item hitem => ?_)
  have hcode : item.code ≠ "VARIANT_REQUIRES_REPRESENTATION" := by
    rw [routeDiagnostics, routeEndpoint] at hitem
    split_ifs at hitem
    · cases hshape : projectedShape endpoint.applicationPath with
      | none =>
        simp only [hshape, mem_singleton] at hitem
        simp [hitem]
      | some shape => simp [hshape] at hitem
    · simp only [mem_singleton] at hitem
      simp [hitem]
  have hnone := List.map_eq_nil_iff.mp (List.append_eq_nil_iff.mp h).2
  refine List.filter_eq_nil_iff.mp hnone item ?_ (decide_eq_true hcode)
  rw [planOpenApiProjection, mem_sortedBy]
  exact mem_append_left _ (List.mem_flatMap.mpr ⟨endpoint, hmem, hitem⟩)

theorem silent_of_diagnostics_eq_nil (h : (compileSnapshot host snapshot mode).diagnostics = []) :
    planDiagnostics snapshot = [] ∧ (∀ group ∈ (planOpenApiProjection snapshot).groups,
        (compileGroup host snapshot group).diagnostics = []) ∧
      (exportComponents snapshot (compileGroups host snapshot).value).diagnostics = [] := by
  have hdocument : (compileDocument host snapshot).diagnostics = [] :=
    Perm.eq_nil (h ▸ (sortedBy_perm _ _).symm)
  simp only [compileDocument, compileGroups, diagnostics_bind, append_eq_nil_iff,
    diagnostics_each_eq_nil_iff, diagnostics_pure] at hdocument
  exact ⟨hdocument.1, hdocument.2.1.1, hdocument.2.2.1⟩

theorem lossless_of_diagnostics_eq_nil (hsnapshot : snapshot.Accepted host)
    (h : (compileSnapshot host snapshot mode).diagnostics = []) :
    Lossless host snapshot (compileDocument host snapshot).value := by
  obtain ⟨hplan, hgroups, -⟩ := silent_of_diagnostics_eq_nil h
  have hoperation {group : ProjectionGroup}
      (hgroup : group ∈ (planOpenApiProjection snapshot).groups) {emitted : Emission}
      (hemitted : (compileGroup host snapshot group).value = some emitted) :
      (compileDocument host snapshot).value.operation? emitted.path emitted.method =
        some emitted.operation :=
    (operation?_eq_some_iff hsnapshot).mpr
      ⟨emitted, mem_compileGroups.mpr ⟨group, hgroup, hemitted⟩, rfl, rfl, rfl⟩
  constructor
  case paths_nodup =>
    exact (nodup_map_sorted Prod.fst _).mpr (nodup _)
  case groups =>
    intro group hgroup
    obtain ⟨-, emitted, hemitted⟩ := compileGroup_silent hsnapshot hgroup (hgroups group hgroup)
    have hemits := emits_of_compileGroup hsnapshot hgroup hemitted
    refine ⟨emitted, hemitted, hoperation hgroup hemitted, fun endpoint hendpoint =>
      ⟨hemits.operationKey_eq hsnapshot hgroup, fun hkey => ?_⟩⟩
    obtain ⟨routed, hrouted, rfl⟩ := routed_of_planDiagnostics_eq_nil hplan hendpoint
    exact hemits.mem_groupEndpoints hsnapshot hgroup hrouted hkey
  case contributes =>
    intro endpoint hendpoint
    obtain ⟨routed, hrouted, rfl⟩ := routed_of_planDiagnostics_eq_nil hplan hendpoint
    obtain ⟨group, hgroup, hmethod, hshape⟩ := exists_group_of_mem_routedEndpoints hrouted
    obtain ⟨hmem, hmethods, hpath⟩ := mem_routedEndpoints.mp hrouted
    have hmember : routed.endpoint ∈ groupEndpoints snapshot group :=
      (mem_groupEndpoints_iff hsnapshot hgroup).mpr
        ⟨hmem, hmethod.symm, hmethod ▸ hmethods, hshape ▸ hpath⟩
    obtain ⟨hsilent, emitted, hemitted⟩ :=
      compileGroup_silent hsnapshot hgroup (hgroups group hgroup)
    have hemits := emits_of_compileGroup hsnapshot hgroup hemitted
    obtain ⟨item, hitem, hcontributes⟩ :=
      hemits.contributes hmember (hsilent routed.endpoint hmember)
    refine ⟨item, emitted.operation, hitem, ?_, hcontributes⟩
    rw [hemits.operationKey_eq hsnapshot hgroup hmember]
    exact hoperation hgroup hemitted
  case sound =>
    intro path method operation hfound
    obtain ⟨emitted, hmem, rfl, rfl, -⟩ := (operation?_eq_some_iff hsnapshot).mp hfound
    obtain ⟨group, hgroup, hemitted⟩ := mem_compileGroups.mp hmem
    obtain ⟨endpoint, hendpoint⟩ :=
      exists_mem_of_ne_nil _ (groupEndpoints_ne_nil hsnapshot hgroup)
    exact ⟨endpoint, ((mem_groupEndpoints_iff hsnapshot hgroup).mp hendpoint).1,
      (emits_of_compileGroup hsnapshot hgroup hemitted).operationKey_eq hsnapshot hgroup hendpoint⟩

/-- **Strict documents lose no endpoint.**  A strict compilation succeeds exactly when nothing was
reported, and then every endpoint contributes to the one operation of its class.  In either mode a
compilation that reports nothing is lossless, and the operation of no group overwrites another. -/
theorem compile_lossless {mode : CompileMode} {result : CompileResult}
    (h : compileOpenApiSnapshot host snapshot mode = some result) :
    (mode = .strict → (result.ok = true ↔ result.diagnostics = [])) ∧
    (result.diagnostics = [] →
      ∃ document, result.document = some document ∧ Lossless host snapshot document) ∧
    ∀ document, result.document = some document →
      ∀ group ∈ (planOpenApiProjection snapshot).groups, ∀ emitted,
        (compileGroup host snapshot group).value = some emitted →
          document.operation? emitted.path emitted.method = some emitted.operation := by
  obtain ⟨hsnapshot, rfl⟩ := compileOpenApiSnapshot_eq_some_iff.mp h
  have hperm : (compileSnapshot host snapshot mode).diagnostics.Perm
      (compileDocument host snapshot).diagnostics := sortedBy_perm _ _
  refine ⟨?_, fun hsilent => ?_, fun document hdocument group hgroup emitted hemitted => ?_⟩
  · rintro rfl
    have hnil : (compileSnapshot host snapshot .strict).diagnostics = [] ↔
        (compileDocument host snapshot).diagnostics = [] :=
      ⟨fun h => (h ▸ hperm.symm).eq_nil, fun h => (h ▸ hperm).eq_nil⟩
    rw [hnil, ← List.isEmpty_iff]
    rfl
  · refine ⟨_, ?_, lossless_of_diagnostics_eq_nil hsnapshot hsilent⟩
    have hempty : (compileDocument host snapshot).diagnostics = [] := (hsilent ▸ hperm.symm).eq_nil
    simp [compileSnapshot, hempty]
  · obtain ⟨-, rfl⟩ := document_of_compileOpenApiSnapshot h hdocument
    exact (operation?_eq_some_iff hsnapshot).mpr
      ⟨emitted, mem_compileGroups.mpr ⟨group, hgroup, hemitted⟩, rfl, rfl, rfl⟩

theorem compile_lossless_sample : ∃ document,
    (compileSnapshot .ascii (sampleExport (.obj [])) .strict).document = some document ∧
      Lossless .ascii (sampleExport (.obj [])) document := by
  have haccepted : (sampleExport (.obj [])).Accepted .ascii := by decide +kernel
  have hsilent : (compileSnapshot .ascii (sampleExport (.obj [])) .strict).diagnostics = [] := by
    delta compileSnapshot compileDocument compileGroups compileGroup compileSelected
      compileVariants compileEndpoints compileEndpoint reachableSchemas
    simp only [AdjacencyList.queueClosure_eq_queueWithin]
    decide +kernel
  exact (compile_lossless (compileOpenApiSnapshot_eq_some_iff.mpr ⟨haccepted, rfl⟩)).2.1 hsilent

end ApiTruth.OpenApi
