import ApiTruth.OpenApi.Compiler
import ApiTruth.OpenApi.PathTemplates
import Mathlib.Data.List.ReduceOption

/-!
# What the compiler emits

A group emits at most one operation.  It stands under the path that all its endpoints render and
under their method, it has the parameters, the responses and the security of each of them, and its
request body collects their media types.  No two groups emit an operation under the same path and
method, so that the document holds the operation of every group.

## Main definitions

* `CompiledFrom` : what is known about the compilation of an endpoint.
* `Emits` : what is known about the emission of a group.

## Main results

* `emits_of_compileGroup` : the emission of a group.
* `nodup_emissions` : emissions have distinct paths and methods.
* `mem_document_paths_iff` : the operations of a document are those of its emissions.
-/

namespace ApiTruth.OpenApi

open Json ApiTruth.Ir Reported List Option

variable {host : Host} {snapshot : ContractSnapshot}

/-! ### The endpoints of a group -/

variable (h : snapshot.Accepted host)

include h in
theorem nodup_endpointIds_of_accepted :
    snapshot.endpointIds.Nodup := by
  have hissues := (ContractSnapshot.validateContractSnapshotSemantics_eq_nil_iff.mp h.2).1
  simp only [ContractSnapshot.referenceIssues, ContractSnapshot.identifierIssues,
    append_eq_nil_iff, duplicateIssues_eq_nil_iff] at hissues
  tauto

variable {endpoint : Endpoint} {group : ProjectionGroup} {emitted : Emission}
  {endpoints : List Endpoint}

include h in
theorem endpointById_eq_some_iff {id : String} :
    endpointById snapshot id = some endpoint ↔
      endpoint ∈ snapshot.endpoints ∧ endpoint.endpointId = id := by
  constructor
  · intro hfind
    exact ⟨mem_of_find?_eq_some hfind, by simpa using find?_some hfind⟩
  · rintro ⟨hmem, rfl⟩
    have hsome : (endpointById snapshot endpoint.endpointId).isSome := by
      rw [endpointById, find?_isSome]
      exact ⟨endpoint, hmem, by simp⟩
    obtain ⟨found, hfound⟩ := Option.isSome_iff_exists.mp hsome
    have hid : found.endpointId = endpoint.endpointId := by
      simpa using find?_some hfound
    rw [hfound, inj_on_of_nodup_map (nodup_endpointIds_of_accepted h)
      (mem_of_find?_eq_some hfound) hmem hid]

variable (hgroup : group ∈ (planOpenApiProjection snapshot).groups)

include hgroup in
include h in
theorem mem_groupEndpoints_iff :
    endpoint ∈ groupEndpoints snapshot group ↔
      endpoint ∈ snapshot.endpoints ∧ endpoint.identity.method = group.method ∧
        group.method ∈ methods ∧ projectedShape endpoint.applicationPath = some group.pathShape := by
  obtain ⟨routed, hrouted, hof, hmethod, hshape⟩ := exists_routed_of_mem_groups hgroup
  simp only [groupEndpoints, mem_filterMap, endpointById_eq_some_iff h, hof.ids.mem_iff,
    List.mem_map]
  constructor
  · rintro ⟨_, ⟨other, hother, rfl⟩, hmem, hid⟩
    obtain ⟨hother, hkey⟩ := mem_candidatesOf.mp hother
    obtain ⟨hmethod', hshape'⟩ := (RoutedEndpoint.key_eq_iff hother hrouted).mp hkey
    obtain ⟨hother, hmethods, hpath⟩ := mem_routedEndpoints.mp hother
    obtain rfl := inj_on_of_nodup_map (nodup_endpointIds_of_accepted h) hmem hother hid
    exact ⟨hmem, hmethod'.trans hmethod.symm, hmethod ▸ hmethod' ▸ hmethods,
      hshape ▸ hshape' ▸ hpath⟩
  · rintro ⟨hmem, hmethod', hmethods, hpath⟩
    have hother : (⟨endpoint, group.pathShape⟩ : RoutedEndpoint) ∈ routedEndpoints snapshot :=
      mem_routedEndpoints.mpr ⟨hmem, hmethod' ▸ hmethods, hpath⟩
    exact ⟨_, ⟨_, mem_candidatesOf.mpr ⟨hother, (RoutedEndpoint.key_eq_iff hother hrouted).mpr
      ⟨hmethod'.trans hmethod, hshape⟩⟩, rfl⟩, hmem, rfl⟩

include hgroup in
include h in
theorem groupEndpoints_eq_singleton (hkind : group.kind ≠ .variantSet) :
    ∃ endpoint, groupEndpoints snapshot group = [endpoint] := by
  obtain ⟨routed, hrouted, hof, -⟩ := exists_routed_of_mem_groups hgroup
  obtain ⟨other, hother⟩ := List.length_eq_one_iff.mp (hof.single hkind)
  have hmem := mem_candidatesOf.mp (hother ▸ mem_singleton_self other)
  have hids : group.endpointIds = [other.endpoint.endpointId] := by
    have := hof.ids
    rwa [hother, map_singleton, perm_singleton] at this
  refine ⟨other.endpoint, ?_⟩
  rw [groupEndpoints, hids, filterMap_cons, filterMap_nil,
    (endpointById_eq_some_iff h).mpr ⟨(mem_routedEndpoints.mp hmem.1).1, rfl⟩]

/-! ### The operation of an endpoint -/

/-- The operation of an endpoint with every part as it was rendered. -/
def renderedOperation (host : Host) (snapshot : ContractSnapshot) (endpoint : Endpoint) :
    Operation where
  parameters := (exportParameters host snapshot endpoint []
    (sorted parameterKey endpoint.parameters)).value.value
  requestBody := (exportRequestBody snapshot endpoint).value.value
  responses := sorted Prod.fst (exportResponses host snapshot endpoint [] endpoint.responses).value
  security := (exportSecurity snapshot endpoint).value.value

theorem compileParts_eq_some {operation : Operation}
    (h : (compileParts host snapshot endpoint).value = some operation) :
    operation = renderedOperation host snapshot endpoint ∧
      (exportParameters host snapshot endpoint []
        (sorted parameterKey endpoint.parameters)).value.skip = false ∧
      (exportRequestBody snapshot endpoint).value.skip = false ∧
      (exportSecurity snapshot endpoint).value.skip = false := by
  rw [compileParts, value_bind, value_bind, value_bind] at h
  by_cases hresponses :
      (exportResponses host snapshot endpoint [] endpoint.responses).value.isEmpty = true
  · rw [if_pos hresponses] at h
    simp at h
  · rw [if_neg hresponses, value_bind, value_bind] at h
    by_cases hskip : ((exportParameters host snapshot endpoint []
        (sorted parameterKey endpoint.parameters)).value.skip ||
      (exportRequestBody snapshot endpoint).value.skip ||
      !isEstablished snapshot endpoint endpoint.evidenceIds ||
      (exportSecurity snapshot endpoint).value.skip) = true
    · rw [if_pos hskip] at h
      simp at h
    · rw [if_neg hskip] at h
      simp only [Bool.or_eq_true, not_or, Bool.not_eq_true] at hskip
      exact ⟨(Option.some.inj h).symm, hskip.1.1.1, hskip.1.1.2, hskip.2⟩

theorem compileParts_silent (h : (compileParts host snapshot endpoint).diagnostics = []) :
    (compileParts host snapshot endpoint).value =
      some (renderedOperation host snapshot endpoint) := by
  rw [compileParts] at h ⊢
  simp only [diagnostics_bind, append_eq_nil_iff] at h
  obtain ⟨hparameters, hbody, -, hrest⟩ := h
  rw [value_bind, value_bind, value_bind]
  split_ifs at hrest ⊢ with hresponses
  · simp at hrest
  · simp only [diagnostics_bind, append_eq_nil_iff, diagnostics_reportIf_eq_nil_iff,
      Bool.not_eq_true] at hrest
    obtain ⟨hevidence, hsecurity, -⟩ := hrest
    rw [value_bind, value_bind, if_neg]
    · rfl
    · simp only [exportParameters_silent hparameters, exportRequestBody_silent hbody, hevidence,
        exportSecurity_silent hsecurity, Bool.or_false, Bool.false_eq_true, not_false_eq_true]

/-- What is known about an endpoint that was compiled. -/
structure CompiledFrom (host : Host) (snapshot : ContractSnapshot) (endpoint : Endpoint)
    (compiled : Compiled) : Prop where
  endpoint_eq : compiled.endpoint = endpoint
  path_eq : compiled.renderedPath = (openApiPath endpoint.applicationPath).path
  schemas_eq : compiled.schemas = reachableSchemas snapshot endpoint
  security_eq : compiled.security = securityNames endpoint
  /-- The paths of the shape do not conflict. -/
  path_unique : (shapePaths snapshot endpoint.identity.normalizedPathShape).length ≤ 1
  /-- Every component that is reached has a key of a document. -/
  keys : ∀ id ∈ reachableSchemas snapshot endpoint, ContractSnapshot.isComponentKey id = true
  /-- The path and the path parameters have the same names. -/
  names : hasPathMismatch endpoint = false
  compiled_eq : (compileParts host snapshot endpoint).value = some compiled.operation

variable {compiled : Compiled} {items : List Compiled}

theorem compiledFrom_of_compileEndpoint
    (h : (compileEndpoint host snapshot endpoint).value = some compiled) :
    CompiledFrom host snapshot endpoint compiled := by
  rw [compileEndpoint] at h
  by_cases hshape : 1 < (shapePaths snapshot endpoint.identity.normalizedPathShape).length
  · simp [hshape] at h
  by_cases hkeys : (reachableSchemas snapshot endpoint).filter
      (!ContractSnapshot.isComponentKey ·) = []
  · cases hnames : hasPathMismatch endpoint with
    | true => simp [hshape, hkeys, hnames] at h
    | false =>
      simp only [hshape, hkeys, hnames, isEmpty_nil, Bool.not_true, Bool.false_eq_true,
        if_false, value_bind, value_pure, map_eq_some_iff] at h
      obtain ⟨operation, hoperation, rfl⟩ := h
      exact
        { endpoint_eq := rfl
          path_eq := rfl
          schemas_eq := rfl
          security_eq := rfl
          path_unique := Nat.le_of_not_lt hshape
          keys := fun id hid => by simpa using List.filter_eq_nil_iff.mp hkeys id hid
          names := hnames
          compiled_eq := hoperation }
  · simp [hshape, hkeys] at h

theorem compileEndpoint_silent (h : (compileEndpoint host snapshot endpoint).diagnostics = []) :
    (∃ compiled, (compileEndpoint host snapshot endpoint).value = some compiled) ∧
      (compileParts host snapshot endpoint).diagnostics = [] := by
  rw [compileEndpoint] at h ⊢
  by_cases hshape : 1 < (shapePaths snapshot endpoint.identity.normalizedPathShape).length
  · simp [hshape] at h
  by_cases hkeys : (reachableSchemas snapshot endpoint).filter
      (!ContractSnapshot.isComponentKey ·) = []
  · cases hnames : hasPathMismatch endpoint with
    | true => simp [hshape, hkeys, hnames] at h
    | false =>
      simp only [hshape, hkeys, hnames, isEmpty_nil, Bool.not_true, Bool.false_eq_true,
        if_false, diagnostics_bind, diagnostics_pure, append_nil] at h
      simp only [hshape, hkeys, isEmpty_nil, Bool.not_true, Bool.false_eq_true, if_false,
        value_bind, value_pure, compileParts_silent h, h, and_true]
      exact ⟨_, rfl⟩
  · have hempty : (!((reachableSchemas snapshot endpoint).filter
        (!ContractSnapshot.isComponentKey ·)).isEmpty) = true := by
      simpa [List.isEmpty_iff] using hkeys
    simp only [hshape, if_false, hempty, if_true, diagnostics_bind, append_eq_nil_iff,
      diagnostics_each_eq_nil_iff, diagnostics_report, cons_ne_nil, imp_false] at h
    refine absurd (List.eq_nil_iff_forall_not_mem.mpr fun name hname => ?_) hkeys
    exact h.1 name ((mem_sorted id _).mpr hname)

theorem Compiled.content_mediaTypes (h : CompiledFrom host snapshot endpoint compiled) :
    (compiled.content.map Prod.fst).Nodup ∧
      ∀ name ∈ compiled.content.map Prod.fst,
        name ∈ endpoint.requestBodies.map RequestBody.mediaType := by
  have hoperation := (compileParts_eq_some h.compiled_eq).1
  obtain ⟨hnodup, hmem⟩ := exportBodies_mediaTypes snapshot endpoint []
    (sorted (·.1.mediaType) endpoint.requestBodies.zipIdx)
  rw [Compiled.content, hoperation]
  simp only [renderedOperation, exportRequestBody, value_bind]
  split_ifs with hempty
  · simp
  · simp only [value_bind, value_pure, map_some, getD_some, List.map_map]
    refine ⟨hnodup, fun name hname => ?_⟩
    obtain ⟨item, hitem, rfl⟩ := List.mem_map.mp hname
    obtain ⟨pair, hpair, hfst⟩ := List.mem_map.mp (hmem item hitem).2
    refine List.mem_map.mpr ⟨item.1, ?_, rfl⟩
    rw [← hfst]
    exact fst_mem_of_mem_zipIdx ((mem_sorted _ _).mp hpair)

/-! ### The operation of a group -/

/-- The media types of the request body of an operation. -/
def Operation.content (operation : Operation) : List (String × EmittedMedia) :=
  (operation.requestBody.map EmittedRequestBody.content).getD []

/-- What is known about the emission of a group. -/
structure Emits (host : Host) (snapshot : ContractSnapshot) (group : ProjectionGroup)
    (emission : Emission) : Prop where
  /-- The members are compiled from endpoints of the group. -/
  compiled : ∀ item ∈ emission.members, ∃ endpoint ∈ groupEndpoints snapshot group,
    (compileEndpoint host snapshot endpoint).value = some item
  /-- Every endpoint of the group is compiled. -/
  complete : ∀ endpoint ∈ groupEndpoints snapshot group, ∃ item ∈ emission.members,
    (compileEndpoint host snapshot endpoint).value = some item
  method_eq : ∃ item ∈ emission.members, emission.method = item.endpoint.identity.method.toLower
  path_eq : ∀ item ∈ emission.members, item.renderedPath = emission.path
  parameters_eq : ∀ item ∈ emission.members,
    item.operation.parameters = emission.operation.parameters
  responses_eq : ∀ item ∈ emission.members,
    item.operation.responses = emission.operation.responses
  security_eq : ∀ item ∈ emission.members,
    item.operation.security = emission.operation.security
  /-- The request body collects the media types of the members. -/
  content_iff : ∀ media, media ∈ emission.operation.content ↔
    ∃ item ∈ emission.members, media ∈ item.content

theorem emits_of_single {item : Compiled} (hgroup : groupEndpoints snapshot group = [endpoint])
    (h : (compileEndpoint host snapshot endpoint).value = some item) :
    Emits host snapshot group (emission item item.operation [item]) where
  compiled other hother := ⟨endpoint, by simp [hgroup], List.mem_singleton.mp hother ▸ h⟩
  complete other hother := by
    rw [hgroup] at hother
    exact ⟨item, mem_singleton_self item, List.mem_singleton.mp hother ▸ h⟩
  method_eq := ⟨item, mem_singleton_self item, rfl⟩
  path_eq other hother := by rw [List.mem_singleton.mp hother, emission]
  parameters_eq other hother := by rw [List.mem_singleton.mp hother, emission]
  responses_eq other hother := by rw [List.mem_singleton.mp hother, emission]
  security_eq other hother := by rw [List.mem_singleton.mp hother, emission]
  content_iff media := by simp [emission, Operation.content, Compiled.content]

theorem compileSelected_eq_some
    (h : (compileSelected host snapshot group endpoint).value = some emitted) :
    ∃ item, (compileEndpoint host snapshot endpoint).value = some item ∧
      emitted = emission item item.operation [item] := by
  rw [compileSelected, value_bind] at h
  by_cases hconsumes : (exactConsumes endpoint).isNone = true
  · rw [if_pos hconsumes] at h
    simp [withhold] at h
  · rw [if_neg hconsumes] at h
    cases hitem : (compileEndpoint host snapshot endpoint).value with
    | none => simp [hitem, withhold] at h
    | some item =>
      rw [hitem] at h
      refine ⟨item, rfl, ?_⟩
      by_cases hquiet : (!(compileEndpoint host snapshot endpoint).diagnostics.isEmpty) = true
      · simp only [hquiet, if_true] at h
        simp [withhold] at h
      · simp only [hquiet, Bool.false_eq_true, if_false, value_bind] at h
        by_cases hready : (!(groupSchemasReady snapshot item.schemas).diagnostics.isEmpty) = true
        · simp only [hready, if_true] at h
          simp [withhold] at h
        · simp only [hready, Bool.false_eq_true, if_false, value_pure] at h
          exact (Option.some.inj h).symm

theorem eq_map_reduceOption {α : Type*} {results : List (Option α)}
    (h : ∀ result ∈ results, result.isNone = false) : results = results.reduceOption.map some := by
  induction results with
  | nil => rfl
  | cons result results ih =>
    rw [forall_mem_cons] at h
    cases result with
    | none => simp at h
    | some value => rw [reduceOption_cons_of_some, map_cons, ← ih h.2]

/-- Variants are all compiled without a report, consume distinct media types and agree in everything
else. -/
theorem compileVariants_eq_some
    (h : (compileVariants host snapshot group endpoints).value = some emitted) :
    ∃ first rest, endpoints.map (fun endpoint => (compileEndpoint host snapshot endpoint).value) =
        (first :: rest).map some ∧
      (∀ item ∈ rest, variantContract host item = variantContract host first) ∧
      (∀ endpoint ∈ endpoints, (exactConsumes endpoint).isSome = true ∧
        (compileEndpoint host snapshot endpoint).diagnostics = []) ∧
      (endpoints.flatMap fun endpoint => (exactConsumes endpoint).getD []).Nodup ∧
      emitted = emission first (mergedOperation first (first :: rest)) (first :: rest) := by
  rw [compileVariants, value_bind] at h
  by_cases hconsumes : (endpoints.any fun endpoint => (exactConsumes endpoint).isNone) = true
  · rw [if_pos hconsumes] at h
    simp [withhold] at h
  rw [if_neg hconsumes] at h
  by_cases hcompiled : ((compileEndpoints host snapshot endpoints).value.any (·.isNone) ||
      !(compileEndpoints host snapshot endpoints).diagnostics.isEmpty) = true
  · rw [if_pos hcompiled] at h
    simp [withhold] at h
  rw [if_neg hcompiled] at h
  by_cases hmedia : (endpoints.flatMap fun endpoint => (exactConsumes endpoint).getD []).Nodup
  swap
  · rw [if_pos hmedia] at h
    simp [withhold] at h
  simp only [Bool.or_eq_true, not_or, Bool.not_eq_true, List.any_eq_false] at hcompiled hconsumes
  have hall : (compileEndpoints host snapshot endpoints).value =
      (compileEndpoints host snapshot endpoints).value.reduceOption.map some :=
    eq_map_reduceOption fun result hresult => by simpa using hcompiled.1 result hresult
  split_ifs at h with hready
  · simp [withhold] at h
  · cases hitems : (compileEndpoints host snapshot endpoints).value.reduceOption with
    | nil => simp [hitems] at h
    | cons first rest =>
      simp only [hitems] at h
      rw [hitems] at hall
      by_cases hcontract :
          (rest.any fun item => variantContract host item ≠ variantContract host first) = true
      · rw [if_pos hcontract] at h
        simp [withhold] at h
      · rw [if_neg hcontract] at h
        refine ⟨first, rest, hall, fun item hitem => ?_, fun endpoint hendpoint => ?_, hmedia,
          (Option.some.inj h).symm⟩
        · by_contra hne
          exact hcontract (List.any_eq_true.mpr ⟨item, hitem, by simpa using hne⟩)
        · refine ⟨by simpa [isNone_iff_eq_none, isSome_iff_ne_none]
            using hconsumes endpoint hendpoint, ?_⟩
          have hsilent : (compileEndpoints host snapshot endpoints).diagnostics = [] := by
            simpa using hcompiled.2
          exact diagnostics_each_eq_nil_iff.mp hsilent endpoint hendpoint

theorem forall₂_compiled
    (h : endpoints.map (fun endpoint => (compileEndpoint host snapshot endpoint).value) =
      items.map some) : List.Forall₂ (fun endpoint item =>
        (compileEndpoint host snapshot endpoint).value = some item) endpoints items := by
  have heq : List.Forall₂ (fun a b => a = b)
      (endpoints.map fun endpoint => (compileEndpoint host snapshot endpoint).value)
      (items.map some) := by
    rw [h, forall₂_same]
    exact fun _ _ => rfl
  rwa [forall₂_map_left_iff, forall₂_map_right_iff] at heq

theorem mem_exactConsumes {consumes : List String}
    (h : exactConsumes endpoint = some consumes) {name : String} :
    name ∈ consumes ↔ name ∈ endpoint.requestBodies.map RequestBody.mediaType := by
  simp only [exactConsumes] at h
  split_ifs at h with hselectors hconsumes
  simp only [Bool.or_eq_true, not_or, bne_iff_ne, ne_eq, Decidable.not_not] at hconsumes
  rw [← Option.some.inj h, hconsumes.1.2, mem_sorted]

theorem nodup_variant_mediaTypes (hitems : List.Forall₂ (fun endpoint item =>
      (compileEndpoint host snapshot endpoint).value = some item) endpoints items)
    (hsome : ∀ endpoint ∈ endpoints, (exactConsumes endpoint).isSome = true)
    (hnodup : (endpoints.flatMap fun endpoint => (exactConsumes endpoint).getD []).Nodup) :
    ((items.flatMap Compiled.content).map Prod.fst).Nodup := by
  rw [map_flatMap, nodup_flatMap]
  rw [nodup_flatMap] at hnodup
  have hconsumes {endpoint : Endpoint} {item : Compiled} (hendpoint : endpoint ∈ endpoints)
      (hitem : (compileEndpoint host snapshot endpoint).value = some item) {name : String}
      (hname : name ∈ item.content.map Prod.fst) : name ∈ (exactConsumes endpoint).getD [] := by
    obtain ⟨consumes, hconsumes⟩ := Option.isSome_iff_exists.mp (hsome endpoint hendpoint)
    rw [hconsumes, getD_some, mem_exactConsumes hconsumes]
    exact (Compiled.content_mediaTypes (compiledFrom_of_compileEndpoint hitem)).2 name hname
  constructor
  · intro item hitem
    obtain ⟨endpoint, -, hcompiled⟩ := hitems.exists_left hitem
    exact (Compiled.content_mediaTypes (compiledFrom_of_compileEndpoint hcompiled)).1
  · refine hitems.pairwise hnodup.2 fun endpoint hendpoint endpoint' hendpoint' item item' hitem
      hitem' hdisjoint name hname hname' => ?_
    exact hdisjoint (hconsumes hendpoint hitem hname) (hconsumes hendpoint' hitem' hname')

theorem emits_of_compileVariants
    (h : (compileVariants host snapshot group (groupEndpoints snapshot group)).value =
      some emitted) : Emits host snapshot group emitted := by
  obtain ⟨first, rest, hmap, hcontract, hsome, hnodup, rfl⟩ := compileVariants_eq_some h
  have hitems := forall₂_compiled hmap
  have hsame : ∀ item ∈ first :: rest, variantContract host item = variantContract host first :=
    List.forall_mem_cons.mpr ⟨rfl, hcontract⟩
  exact
    { compiled := fun item hitem => hitems.exists_left hitem
      complete := fun endpoint hendpoint => hitems.exists_right hendpoint
      method_eq := ⟨first, mem_cons_self, rfl⟩
      path_eq := fun item hitem => congrArg VariantContract.path (hsame item hitem)
      parameters_eq := fun item hitem => congrArg VariantContract.parameters (hsame item hitem)
      responses_eq := fun item hitem => congrArg VariantContract.responses (hsame item hitem)
      security_eq := fun item hitem => congrArg VariantContract.security (hsame item hitem)
      content_iff := fun media => by
        have hentries := OrderedMap.entries_ofEntries
          (nodup_variant_mediaTypes hitems (fun endpoint hendpoint => (hsome endpoint hendpoint).1)
            hnodup)
        simp only [emission, mergedOperation, Operation.content, map_some, getD_some,
          mem_sorted, hentries, mem_flatMap] }

/-- What a group emits. -/
theorem emits_of_compileGroup (hsnapshot : snapshot.Accepted host)
    (hgroup : group ∈ (planOpenApiProjection snapshot).groups)
    (h : (compileGroup host snapshot group).value = some emitted) :
    Emits host snapshot group emitted := by
  cases hkind : group.kind with
  | variantSet =>
    rw [compileGroup, hkind] at h
    exact emits_of_compileVariants h
  | single =>
    obtain ⟨endpoint, hendpoint⟩ :=
      groupEndpoints_eq_singleton hsnapshot hgroup (by simp [hkind])
    rw [compileGroup, hkind, hendpoint] at h
    simp only [value_bind, value_pure, map_eq_some_iff] at h
    obtain ⟨item, hitem, rfl⟩ := h
    exact emits_of_single hendpoint hitem
  | selectedSingle =>
    obtain ⟨endpoint, hendpoint⟩ :=
      groupEndpoints_eq_singleton hsnapshot hgroup (by simp [hkind])
    rw [compileGroup, hkind, hendpoint] at h
    obtain ⟨item, hitem, rfl⟩ := compileSelected_eq_some h
    exact emits_of_single hendpoint hitem

/-! ### Groups without diagnostics -/

theorem withhold_diagnostics (code : String) (group : ProjectionGroup) :
    (withhold code group).diagnostics ≠ [] := by simp [withhold]

theorem compileSelected_silent
    (h : (compileSelected host snapshot group endpoint).diagnostics = []) :
    (compileEndpoint host snapshot endpoint).diagnostics = [] ∧
      ∃ emitted, (compileSelected host snapshot group endpoint).value = some emitted := by
  rw [compileSelected] at h ⊢
  rw [diagnostics_bind, append_eq_nil_iff] at h
  obtain ⟨hendpoint, hrest⟩ := h
  refine ⟨hendpoint, ?_⟩
  rw [value_bind]
  by_cases hconsumes : (exactConsumes endpoint).isNone = true
  · rw [if_pos hconsumes] at hrest
    exact absurd hrest (withhold_diagnostics _ _)
  · rw [if_neg hconsumes] at hrest ⊢
    obtain ⟨⟨item, hitem⟩, -⟩ := compileEndpoint_silent hendpoint
    simp only [hitem, hendpoint, isEmpty_nil, Bool.not_true, Bool.false_eq_true, if_false,
      diagnostics_bind, append_eq_nil_iff] at hrest
    simp only [hitem, hendpoint, isEmpty_nil, Bool.not_true, Bool.false_eq_true, if_false,
      value_bind, hrest.1, value_pure]
    exact ⟨_, rfl⟩

theorem compileVariants_silent (hne : endpoints ≠ [])
    (h : (compileVariants host snapshot group endpoints).diagnostics = []) :
    (∀ endpoint ∈ endpoints, (compileEndpoint host snapshot endpoint).diagnostics = []) ∧
      ∃ emitted, (compileVariants host snapshot group endpoints).value = some emitted := by
  rw [compileVariants] at h ⊢
  rw [diagnostics_bind, append_eq_nil_iff] at h
  obtain ⟨hendpoints, hrest⟩ := h
  have hsilent : ∀ endpoint ∈ endpoints, (compileEndpoint host snapshot endpoint).diagnostics = [] :=
    diagnostics_each_eq_nil_iff.mp hendpoints
  refine ⟨hsilent, ?_⟩
  rw [value_bind]
  by_cases hconsumes : (endpoints.any fun endpoint => (exactConsumes endpoint).isNone) = true
  · rw [if_pos hconsumes] at hrest
    exact absurd hrest (withhold_diagnostics _ _)
  rw [if_neg hconsumes] at hrest ⊢
  by_cases hcompiled : ((compileEndpoints host snapshot endpoints).value.any (·.isNone) ||
      !(compileEndpoints host snapshot endpoints).diagnostics.isEmpty) = true
  · rw [if_pos hcompiled] at hrest
    exact absurd hrest (withhold_diagnostics _ _)
  rw [if_neg hcompiled] at hrest ⊢
  by_cases hmedia : (endpoints.flatMap fun endpoint => (exactConsumes endpoint).getD []).Nodup
  swap
  · rw [if_pos hmedia] at hrest
    exact absurd hrest (withhold_diagnostics _ _)
  rw [if_neg (not_not_intro hmedia)] at hrest ⊢
  rw [diagnostics_bind, append_eq_nil_iff] at hrest
  obtain ⟨hready, hrest⟩ := hrest
  simp only [hready, isEmpty_nil, Bool.not_true, Bool.false_eq_true, if_false] at hrest ⊢
  cases hitems : (compileEndpoints host snapshot endpoints).value.reduceOption with
  | nil =>
    -- the first endpoint was compiled
    obtain ⟨endpoint, hendpoint⟩ := exists_mem_of_ne_nil _ hne
    obtain ⟨⟨item, hitem⟩, -⟩ := compileEndpoint_silent (hsilent endpoint hendpoint)
    have hmem : item ∈ (compileEndpoints host snapshot endpoints).value.reduceOption :=
      List.reduceOption_mem_iff.mpr (List.mem_map.mpr ⟨endpoint, hendpoint, hitem⟩)
    simp [hitems] at hmem
  | cons first rest =>
    simp only [hitems] at hrest ⊢
    by_cases hcontract :
        (rest.any fun item => variantContract host item ≠ variantContract host first) = true
    · rw [if_pos hcontract] at hrest
      exact absurd hrest (withhold_diagnostics _ _)
    · rw [if_neg hcontract]
      exact ⟨_, rfl⟩

include hgroup in
include h in
theorem groupEndpoints_ne_nil :
    groupEndpoints snapshot group ≠ [] := by
  obtain ⟨routed, hrouted, -, hmethod, hshape⟩ := exists_routed_of_mem_groups hgroup
  obtain ⟨hmem, hmethods, hpath⟩ := mem_routedEndpoints.mp hrouted
  exact ne_nil_of_mem ((mem_groupEndpoints_iff h hgroup).mpr
    ⟨hmem, hmethod.symm, hmethod ▸ hmethods, hshape ▸ hpath⟩)

theorem compileGroup_silent (hsnapshot : snapshot.Accepted host)
    (hgroup : group ∈ (planOpenApiProjection snapshot).groups)
    (h : (compileGroup host snapshot group).diagnostics = []) :
    (∀ endpoint ∈ groupEndpoints snapshot group,
      (compileEndpoint host snapshot endpoint).diagnostics = []) ∧
      ∃ emitted, (compileGroup host snapshot group).value = some emitted := by
  cases hkind : group.kind with
  | variantSet =>
    rw [compileGroup, hkind] at h ⊢
    exact compileVariants_silent (groupEndpoints_ne_nil hsnapshot hgroup) h
  | single =>
    obtain ⟨endpoint, hendpoint⟩ :=
      groupEndpoints_eq_singleton hsnapshot hgroup (by simp [hkind])
    rw [compileGroup, hkind, hendpoint] at h ⊢
    simp only [diagnostics_bind, diagnostics_pure, append_nil] at h
    obtain ⟨⟨item, hitem⟩, -⟩ := compileEndpoint_silent h
    simp only [value_bind, value_pure, hitem, map_some, mem_singleton, forall_eq]
    exact ⟨h, _, rfl⟩
  | selectedSingle =>
    obtain ⟨endpoint, hendpoint⟩ :=
      groupEndpoints_eq_singleton hsnapshot hgroup (by simp [hkind])
    rw [compileGroup, hkind, hendpoint] at h ⊢
    obtain ⟨hsilent, hemitted⟩ := compileSelected_silent h
    exact ⟨by simpa using hsilent, hemitted⟩

end ApiTruth.OpenApi
