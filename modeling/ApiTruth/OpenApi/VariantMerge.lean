import ApiTruth.OpenApi.Lossless

/-!
# Variants that consume different media types

Endpoints with one method and one path shape become one operation, or none.  The operation has the
path, the parameters, the responses and the security of every variant, and its request body is the
disjoint union of the media types of their bodies.  Variants that do not fit together are reported,
and then the document has no operation for any of them.

## Main definitions

* `ownMedia`, `ownContent` : the media types of the request bodies of an endpoint.
* `Merges` : the operation merges these variants.

## Main results

* `compileVariants_merges`, `compileVariants_withheld` : variants are merged or reported.
* `variants_merged_or_withheld` : the same in a document.
-/

namespace ApiTruth.OpenApi

open Json ApiTruth.Ir Reported List Option

variable {host : Host} {snapshot : ContractSnapshot}

/-! ### The media types of an endpoint -/

/-- The path of the diagnostics of a request body. -/
def ownBodyPath (endpoint : Endpoint) (body : RequestBody) : String :=
  endpointPath endpoint ++ "/request_bodies/" ++ pointer body.mediaType

def bodySchema (snapshot : ContractSnapshot) (endpoint : Endpoint) (item : RequestBody × ℕ) :
    Reported CompileDiagnostic Json :=
  exportSchema snapshot [endpoint.endpointId] (ownBodyPath endpoint item.1 ++ "/schema")
    (bodyFactPath snapshot endpoint item.1 item.2 (ownBodyPath endpoint item.1)) item.1.schema

/-- The media type of a request body, with the exported schema and the encoding of each field. -/
def ownMedia (snapshot : ContractSnapshot) (endpoint : Endpoint) (item : RequestBody × ℕ) :
    String × EmittedMedia :=
  (item.1.mediaType,
    { schema := (bodySchema snapshot endpoint item).value
      encoding := item.1.encoding.map fun encoding => (sorted Prod.fst encoding).map fun field =>
        (field.1, ⟨field.2.style, field.2.explode, field.2.contentType⟩) })

/-- The media types of the request bodies of an endpoint. -/
def ownContent (snapshot : ContractSnapshot) (endpoint : Endpoint) : List (String × EmittedMedia) :=
  endpoint.requestBodies.zipIdx.map (ownMedia snapshot endpoint)

theorem exportEncoding_value (endpoint : Endpoint) (path : String)
    (encoding : List (String × FormEncoding)) :
    (exportEncoding snapshot endpoint path encoding).value.value =
      (sorted Prod.fst encoding).map fun field =>
        (field.1, ⟨field.2.style, field.2.explode, field.2.contentType⟩) := by
  simp [exportEncoding, Function.comp_def]

theorem exportBody_value (endpoint : Endpoint) (item : RequestBody × ℕ) :
    (exportBody snapshot endpoint item.1 item.2).value.value =
      (ownMedia snapshot endpoint item).2 := by
  simp only [exportBody, exportRequestMedia, value_bind, value_pure]
  cases hencoding : item.1.encoding with
  | none => simp [ownMedia, hencoding, bodySchema, ownBodyPath]
  | some encoding =>
    simp [ownMedia, hencoding, bodySchema, ownBodyPath, exportEncoding_value]

variable {endpoint : Endpoint} {group : ProjectionGroup}

theorem bodySchema_silent {item : RequestBody × ℕ}
    (h : (exportBody snapshot endpoint item.1 item.2).diagnostics = []) :
    (bodySchema snapshot endpoint item).diagnostics = [] := by
  simp only [exportBody, exportRequestMedia, diagnostics_bind, append_eq_nil_iff] at h
  exact h.2.1.1

/-- The media types of a compiled endpoint that reports nothing are those of its bodies. -/
theorem content_of_silent {item : Compiled}
    (hcompiled : (compileEndpoint host snapshot endpoint).value = some item)
    (hsilent : (compileEndpoint host snapshot endpoint).diagnostics = []) :
    item.content.Perm (ownContent snapshot endpoint) ∧
      ∀ body ∈ endpoint.requestBodies.zipIdx,
        (bodySchema snapshot endpoint body).diagnostics = [] := by
  have hparts := (compileEndpoint_silent hsilent).2
  rw [compileParts, diagnostics_bind, diagnostics_bind, append_eq_nil_iff,
    append_eq_nil_iff, exportRequestBody, diagnostics_bind, append_eq_nil_iff] at hparts
  obtain ⟨-, hvalue, hbodies⟩ := exportBodies_silent hparts.2.1.1
  simp only [exportBody_value] at hvalue
  have hoperation :=
    (compileParts_eq_some (compiledFrom_of_compileEndpoint hcompiled).compiled_eq).1
  have hcontent : item.content =
      (sorted (·.1.mediaType) endpoint.requestBodies.zipIdx).map (ownMedia snapshot endpoint) := by
    rw [Compiled.content, hoperation]
    simp only [renderedOperation, exportRequestBody, value_bind, hvalue]
    split_ifs with hempty
    · rw [List.isEmpty_iff, map_eq_nil_iff] at hempty
      simp [hempty]
    · simp [Function.comp_def, ownMedia]
  refine ⟨?_, fun body hbody => bodySchema_silent (hbodies body ((mem_sorted _ _).mpr hbody))⟩
  rw [hcontent, ownContent]
  exact (sorted_perm _ _).map _

/-! ### Merged variants -/

/-- The operation merges the variants: they agree in everything but their request bodies, and the
content of its request body is the disjoint union of the media types of their bodies, with every
schema exported without a report. -/
structure Merges (host : Host) (snapshot : ContractSnapshot) (variants : List Endpoint)
    (path : String) (operation : Operation) : Prop where
  path_eq : ∀ endpoint ∈ variants, (openApiPath endpoint.applicationPath).path = path
  parameters_eq : ∀ endpoint ∈ variants,
    (renderedOperation host snapshot endpoint).parameters = operation.parameters
  responses_eq : ∀ endpoint ∈ variants,
    (renderedOperation host snapshot endpoint).responses = operation.responses
  security_eq : ∀ endpoint ∈ variants,
    (renderedOperation host snapshot endpoint).security = operation.security
  required : operation.requestBody.map EmittedRequestBody.required = some true
  content : operation.content.Perm (variants.flatMap (ownContent snapshot))
  disjoint : (operation.content.map Prod.fst).Nodup
  silent : ∀ endpoint ∈ variants, ∀ body ∈ endpoint.requestBodies.zipIdx,
    (bodySchema snapshot endpoint body).diagnostics = []

def withheldVariantCodes : List String :=
  ["SELECTOR_REQUIRES_REPRESENTATION", "UNVERIFIED_VARIANT_CONTRACT",
    "OVERLAPPING_VARIANT_MEDIA_TYPE", "INCOMPATIBLE_VARIANT_CONTRACT"]

/-- The emission of variants merges them. -/
theorem compileVariants_merges {emitted : Emission}
    (h : (compileVariants host snapshot group (groupEndpoints snapshot group)).value =
      some emitted) :
    Merges host snapshot (groupEndpoints snapshot group) emitted.path emitted.operation := by
  have hemits := emits_of_compileVariants h
  obtain ⟨first, rest, hmap, -, hquiet, hnodup, rfl⟩ := compileVariants_eq_some h
  have hitems := forall₂_compiled hmap
  have hdistinct := nodup_variant_mediaTypes hitems
    (fun endpoint hendpoint => (hquiet endpoint hendpoint).1) hnodup
  have hcontent : (mergedOperation first (first :: rest)).content.Perm
      ((first :: rest).flatMap Compiled.content) := by
    simp only [mergedOperation, Operation.content, map_some, getD_some,
      OrderedMap.entries_ofEntries hdistinct]
    exact sorted_perm _ _
  have hown : ((first :: rest).flatMap Compiled.content).Perm
      ((groupEndpoints snapshot group).flatMap (ownContent snapshot)) := by
    refine (hitems.flatMap_perm fun endpoint hendpoint item hcompiled => ?_).symm
    exact (content_of_silent hcompiled (hquiet endpoint hendpoint).2).1.symm
  have hrendered : ∀ endpoint ∈ groupEndpoints snapshot group, ∃ item ∈ first :: rest,
      item.operation = renderedOperation host snapshot endpoint ∧
        item.renderedPath = (openApiPath endpoint.applicationPath).path := by
    intro endpoint hendpoint
    obtain ⟨item, hitem, hcompiled⟩ := hemits.complete endpoint hendpoint
    have hfrom := compiledFrom_of_compileEndpoint hcompiled
    exact ⟨item, hitem, (compileParts_eq_some hfrom.compiled_eq).1, hfrom.path_eq⟩
  constructor
  case path_eq =>
    intro endpoint hendpoint
    obtain ⟨item, hitem, -, hpath⟩ := hrendered endpoint hendpoint
    rw [← hpath, hemits.path_eq item hitem]
  case parameters_eq =>
    intro endpoint hendpoint
    obtain ⟨item, hitem, hoperation, -⟩ := hrendered endpoint hendpoint
    rw [← hoperation, hemits.parameters_eq item hitem]
  case responses_eq =>
    intro endpoint hendpoint
    obtain ⟨item, hitem, hoperation, -⟩ := hrendered endpoint hendpoint
    rw [← hoperation, hemits.responses_eq item hitem]
  case security_eq =>
    intro endpoint hendpoint
    obtain ⟨item, hitem, hoperation, -⟩ := hrendered endpoint hendpoint
    rw [← hoperation, hemits.security_eq item hitem]
  case required => rfl
  case content => exact hcontent.trans hown
  case disjoint => exact (hcontent.map Prod.fst).nodup_iff.mpr hdistinct
  case silent =>
    intro endpoint hendpoint
    obtain ⟨item, -, hcompiled⟩ := hemits.complete endpoint hendpoint
    exact (content_of_silent hcompiled (hquiet endpoint hendpoint).2).2

theorem mem_diagnostics_withhold (code : String) (group : ProjectionGroup) :
    diagnostic code "/endpoints" group.endpointIds ∈ (withhold code group).diagnostics :=
  mem_cons_self

/-- Variants that are not emitted are reported. -/
theorem compileVariants_withheld {endpoints : List Endpoint}
    (hne : endpoints ≠ []) (h : (compileVariants host snapshot group endpoints).value = none) :
    ∃ code ∈ withheldVariantCodes, diagnostic code "/endpoints" group.endpointIds ∈
      (compileVariants host snapshot group endpoints).diagnostics := by
  rw [compileVariants, value_bind] at h
  rw [compileVariants, diagnostics_bind]
  by_cases hconsumes : (endpoints.any fun endpoint => (exactConsumes endpoint).isNone) = true
  · refine ⟨"SELECTOR_REQUIRES_REPRESENTATION", by decide, mem_append_right _ ?_⟩
    rw [if_pos hconsumes]
    exact mem_diagnostics_withhold _ _
  rw [if_neg hconsumes] at h ⊢
  by_cases hcompiled : ((compileEndpoints host snapshot endpoints).value.any (·.isNone) ||
      !(compileEndpoints host snapshot endpoints).diagnostics.isEmpty) = true
  · refine ⟨"UNVERIFIED_VARIANT_CONTRACT", by decide, mem_append_right _ ?_⟩
    rw [if_pos hcompiled]
    exact mem_diagnostics_withhold _ _
  rw [if_neg hcompiled] at h ⊢
  by_cases hmedia : (endpoints.flatMap fun endpoint => (exactConsumes endpoint).getD []).Nodup
  swap
  · refine ⟨"OVERLAPPING_VARIANT_MEDIA_TYPE", by decide, mem_append_right _ ?_⟩
    rw [if_pos hmedia]
    exact mem_diagnostics_withhold _ _
  split_ifs at h ⊢ with hready
  · exact ⟨"UNVERIFIED_VARIANT_CONTRACT", by decide,
      mem_append_right _ (mem_append_right _ (mem_diagnostics_withhold _ _))⟩
  simp only [Bool.or_eq_true, not_or, Bool.not_eq_true, List.any_eq_false] at hcompiled
  have hall : (compileEndpoints host snapshot endpoints).value =
      (compileEndpoints host snapshot endpoints).value.reduceOption.map some :=
    eq_map_reduceOption fun result hresult => by simpa using hcompiled.1 result hresult
  cases hitems : (compileEndpoints host snapshot endpoints).value.reduceOption with
  | nil =>
    -- every endpoint was compiled, and there are some
    rw [hitems, map_nil, compileEndpoints, value_each, map_eq_nil_iff] at hall
    exact absurd hall hne
  | cons first rest =>
    simp only [hitems] at h ⊢
    by_cases hcontract :
        (rest.any fun item => variantContract host item ≠ variantContract host first) = true
    · rw [if_pos hcontract]
      exact ⟨"INCOMPATIBLE_VARIANT_CONTRACT", by decide,
        mem_append_right _ (mem_append_right _ (mem_diagnostics_withhold _ _))⟩
    · rw [if_neg hcontract] at h
      cases h

/-! ### Documents -/

theorem mem_diagnostics_of_group
    (hgroup : group ∈ (planOpenApiProjection snapshot).groups) {item : CompileDiagnostic}
    (h : item ∈ (compileGroup host snapshot group).diagnostics) :
    item ∈ (compileDocument host snapshot).diagnostics := by
  refine mem_append_right _ (mem_append_left _ (mem_append_left _ ?_))
  exact List.mem_flatMap.mpr ⟨group, hgroup, h⟩

theorem group_unique (hsnapshot : snapshot.Accepted host) {group group' : ProjectionGroup}
    (hgroup : group ∈ (planOpenApiProjection snapshot).groups)
    (hgroup' : group' ∈ (planOpenApiProjection snapshot).groups)
    (hendpoint : endpoint ∈ groupEndpoints snapshot group)
    (hendpoint' : endpoint ∈ groupEndpoints snapshot group') : group = group' := by
  obtain ⟨-, hmethod, -, hshape⟩ := (mem_groupEndpoints_iff hsnapshot hgroup).mp hendpoint
  obtain ⟨-, hmethod', -, hshape'⟩ := (mem_groupEndpoints_iff hsnapshot hgroup').mp hendpoint'
  exact inj_on_of_nodup_map nodup_groups hgroup hgroup'
    (Prod.ext (hmethod.symm.trans hmethod') (Option.some.inj (hshape.symm.trans hshape')))

theorem operation?_eq_none_of_withheld (hsnapshot : snapshot.Accepted host)
    (hgroup : group ∈ (planOpenApiProjection snapshot).groups)
    (hnone : (compileGroup host snapshot group).value = none)
    (hendpoint : endpoint ∈ groupEndpoints snapshot group) :
    (compileDocument host snapshot).value.operation? (operationKey endpoint).1
      (operationKey endpoint).2 = none := by
  by_contra hsome
  obtain ⟨operation, hoperation⟩ := ne_none_iff_exists'.mp hsome
  obtain ⟨emitted, hemitted, hpath, hmethod, -⟩ := (operation?_eq_some_iff hsnapshot).mp hoperation
  obtain ⟨group', hgroup', hvalue⟩ := mem_compileGroups.mp hemitted
  obtain ⟨hmem, hmethod', hmethods, hshape⟩ :=
    (mem_groupEndpoints_iff hsnapshot hgroup).mp hendpoint
  have hrouted : (⟨endpoint, group.pathShape⟩ : RoutedEndpoint) ∈ routedEndpoints snapshot :=
    mem_routedEndpoints.mpr ⟨hmem, hmethod' ▸ hmethods, hshape⟩
  have hendpoint' := (emits_of_compileGroup hsnapshot hgroup' hvalue).mem_groupEndpoints hsnapshot
    hgroup' hrouted (Prod.ext hpath.symm hmethod.symm)
  rw [group_unique hsnapshot hgroup hgroup' hendpoint hendpoint', hvalue] at hnone
  cases hnone

/-- **Variants are merged or withheld.**  A set of variants either has one operation, which merges
all of them, or it is reported, and then no variant has an operation in the document. -/
theorem variants_merged_or_withheld {mode : CompileMode} {result : CompileResult}
    (h : compileOpenApiSnapshot host snapshot mode = some result) {group : ProjectionGroup}
    (hgroup : group ∈ (planOpenApiProjection snapshot).groups)
    (hkind : group.kind = .variantSet) :
    (∃ path operation, Merges host snapshot (groupEndpoints snapshot group) path operation ∧
      ∀ document, result.document = some document →
        document.operation? path group.method.toLower = some operation) ∨
    ((∃ code ∈ withheldVariantCodes,
        diagnostic code "/endpoints" group.endpointIds ∈ result.diagnostics) ∧
      ∀ document, result.document = some document →
        ∀ endpoint ∈ groupEndpoints snapshot group,
          document.operation? (operationKey endpoint).1 (operationKey endpoint).2 = none) := by
  obtain ⟨hsnapshot, hresult⟩ := compileOpenApiSnapshot_eq_some_iff.mp h
  cases hvalue : (compileGroup host snapshot group).value with
  | some emitted =>
    left
    have hemits := emits_of_compileGroup hsnapshot hgroup hvalue
    have hmerges : Merges host snapshot (groupEndpoints snapshot group) emitted.path
        emitted.operation := by
      rw [compileGroup, hkind] at hvalue
      exact compileVariants_merges hvalue
    refine ⟨emitted.path, emitted.operation, hmerges, fun document hdocument => ?_⟩
    obtain ⟨-, rfl⟩ := document_of_compileOpenApiSnapshot h hdocument
    exact (operation?_eq_some_iff hsnapshot).mpr
      ⟨emitted, mem_compileGroups.mpr ⟨group, hgroup, hvalue⟩, rfl,
        (hemits.erasedKey_path hsnapshot hgroup).2.1, rfl⟩
  | none =>
    right
    refine ⟨?_, fun document hdocument endpoint hendpoint => ?_⟩
    · have hwithheld := hvalue
      rw [compileGroup, hkind] at hwithheld
      obtain ⟨code, hcode, hmem⟩ :=
        compileVariants_withheld (groupEndpoints_ne_nil hsnapshot hgroup) hwithheld
      refine ⟨code, hcode, ?_⟩
      rw [← hresult, compileSnapshot, mem_sortedBy]
      exact mem_diagnostics_of_group hgroup (by rwa [compileGroup, hkind])
    · obtain ⟨-, rfl⟩ := document_of_compileOpenApiSnapshot h hdocument
      exact operation?_eq_none_of_withheld hsnapshot hgroup hvalue hendpoint

def consumingEndpoint (endpointId mediaType : String) : Endpoint :=
  { exportedEndpoint endpointId "/a" "/a" (.obj []) with
    identity :=
      { (exportedEndpoint endpointId "/a" "/a" (.obj [])).identity with
        routeKey := "1.0.0|svc|GET|/a|" ++ stableSelectors { consumes := some [mediaType] }
        selectors := { consumes := some [mediaType] } }
    requestBodies :=
      [{ mediaType := mediaType
         schema := .obj [("type", .str "string")]
         serialization := { format := some "json" }
         presence := .plain .required ["ev-" ++ endpointId] }] }

def variantSnapshot : ContractSnapshot :=
  { sampleSnapshot with
    evidence := [exportedEvidence "a", exportedEvidence "b"]
    endpoints := [consumingEndpoint "a" "application/json",
      consumingEndpoint "b" "application/merge-patch+json"] }

theorem variants_merged_sample : ∃ result group,
    compileOpenApiSnapshot .ascii variantSnapshot .strict = some result ∧
    group ∈ (planOpenApiProjection variantSnapshot).groups ∧ group.kind = .variantSet ∧
    ((∃ path operation,
        Merges .ascii variantSnapshot (groupEndpoints variantSnapshot group) path operation ∧
        ∀ document, result.document = some document →
          document.operation? path group.method.toLower = some operation) ∨
      ((∃ code ∈ withheldVariantCodes,
          diagnostic code "/endpoints" group.endpointIds ∈ result.diagnostics) ∧
        ∀ document, result.document = some document →
          ∀ endpoint ∈ groupEndpoints variantSnapshot group,
            document.operation? (operationKey endpoint).1 (operationKey endpoint).2 = none)) := by
  have haccepted : variantSnapshot.Accepted .ascii := by decide +kernel
  have hgroup : ∃ group ∈ (planOpenApiProjection variantSnapshot).groups,
      group.kind = .variantSet := by
    decide +kernel
  obtain ⟨group, hmem, hkind⟩ := hgroup
  have hresult : compileOpenApiSnapshot .ascii variantSnapshot .strict =
      some (compileSnapshot .ascii variantSnapshot .strict) :=
    compileOpenApiSnapshot_eq_some_iff.mpr ⟨haccepted, rfl⟩
  exact ⟨_, group, hresult, hmem, hkind, variants_merged_or_withheld hresult hmem hkind⟩

end ApiTruth.OpenApi
