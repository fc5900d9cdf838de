import ApiTruth.OpenApi.Places

/-!
# Documents are closed under references

Every link in a document is rendered from a reference of the snapshot, whose component the compiler
collects, and every scheme that an operation requires is collected as well.

## Main definitions

* `HasLink` : a JSON value has a link somewhere inside.

## Main results

* `exists_ref_of_hasLink` : the links of an exported schema are rendered from its references.
* `compile_closed` : links resolve to components and requirements to security schemes.
-/

namespace ApiTruth.OpenApi

open Json ApiTruth.Ir Reported List Option

/-- The JSON value has the link under `$ref` somewhere inside. -/
inductive HasLink (link : String) : Json → Prop
  | here {ms : List (String × Json)} (lookup : ms.lookup "$ref" = some (.str link)) :
      HasLink link (.obj ms)
  | member {ms : List (String × Json)} {name : String} {v : Json}
      (lookup : ms.lookup name = some v) (inner : HasLink link v) : HasLink link (.obj ms)
  | item {xs : List Json} {x : Json} (mem : x ∈ xs) (inner : HasLink link x) :
      HasLink link (.arr xs)

/-! ### Links of exported schemas -/

section Links

variable {snapshot : ContractSnapshot} {endpointIds : List String}
  {schema : List (String × Json)} {path factPath link : String}

theorem not_hasLink_stringArray (names : List String) : ¬ HasLink link (stringArray names) := by
  rintro (_ | _ | ⟨hmem, hinner⟩)
  obtain ⟨name, -, rfl⟩ := List.mem_map.mp hmem
  cases hinner

theorem not_hasLink_of_notMem (h : areKeywords schema = true) {key : String} {value exported : Json}
    (hmem : (key, value) ∈ schema) (hkey : key ∉ keptKeywords)
    (hexported : (exportKeyword snapshot endpointIds schema path factPath key value).value =
      some exported) : ¬ HasLink link exported := by
  have hshape := keywordShape_of_mem h hmem
  cases exportedLeaf_of_exportKeyword hkey hexported with
  | ref text => exact fun hlink => by cases hlink
  | required accepted _ => exact not_hasLink_stringArray accepted
  | format => exact fun hlink => by cases hlink
  | same hkept =>
    cases hshape with
    | properties _ | sequence _ => simp [keptKeywords] at hkey
    | schema hkeys _ =>
      simp only [mem_cons, not_mem_nil, or_false] at hkeys
      rcases hkeys with rfl | rfl | rfl <;> simp [keptKeywords, constraintKeys] at hkey hkept
    | alternatives hkeys _ =>
      simp only [mem_cons, not_mem_nil, or_false] at hkeys
      rcases hkeys with rfl | rfl | rfl <;> simp [keptKeywords] at hkey
    | names _ hstrings _ =>
      rintro (_ | _ | ⟨hitem, hinner⟩)
      obtain ⟨text, rfl⟩ := hstrings _ hitem
      cases hinner
    | values | literal => simp [constraintKeys] at hkept
    | text _ | number _ => exact fun hlink => by cases hlink

/-- The links of an exported schema are rendered from the references of the schema. -/
theorem exists_ref_of_hasLink {s : Json} (hs : isApiSchema s = true)
    (h : HasLink link (exportSchema snapshot endpointIds path factPath s).value) :
    ∃ node ref, SchemaPosition s node ∧ refOf node = some ref ∧ link = exportedRef ref := by
  induction s using sizeInduction generalizing path factPath with
  | step s ih =>
    cases s with
    | null | bool _ | num _ | str _ | arr _ => cases hs
    | obj schema =>
      have hschema : areKeywords schema = true := hs
      -- the references of a schema below are references of the schema
      have hchild {c : Json} (hisChild : IsSchemaChild schema c) (hc : isApiSchema c = true)
          {path factPath : String}
          (hlink : HasLink link (exportSchema snapshot endpointIds path factPath c).value) :
          ∃ node ref, SchemaPosition (.obj schema) node ∧ refOf node = some ref ∧
            link = exportedRef ref := by
        obtain ⟨node, ref, hposition, href⟩ := ih c hisChild.sizeOf_lt hc hlink
        exact ⟨node, ref, .child hisChild hposition, href⟩
      rw [value_exportSchema_obj] at h
      cases h with
      | here hlookup =>
        rw [lookup_exportedMembers hschema (by simp [keptKeywords])] at hlookup
        obtain ⟨value, hvalue, hexported⟩ := bind_eq_some_iff.mp hlookup
        obtain ⟨text, rfl⟩ := (keptShape_of_mem hschema (mem_of_lookup hvalue)
          (by simp [keptKeywords])).exists_ref rfl
        exact ⟨schema, text, .root schema, by rw [refOf, hvalue],
          (Json.str.inj (Option.some.inj hexported)).symm⟩
      | @member _ name exported hlookup hinner =>
        by_cases hkey : name ∈ keptKeywords
        · rw [lookup_exportedMembers hschema hkey] at hlookup
          obtain ⟨value, hvalue, hexported⟩ := bind_eq_some_iff.mp hlookup
          cases keptShape_of_mem hschema (mem_of_lookup hvalue) hkey with
          | ref text =>
            cases Option.some.inj hexported
            cases hinner
          | @properties ps hschemas =>
            rw [exportKeyword_properties, value_map, value_exportProperties] at hexported
            cases Option.some.inj hexported
            -- a property that is named `$ref` is a schema and no link
            have hproperty {key : String} {v : Json} (hv : (sorted Prod.fst (ps.map fun p =>
                (p.1, (exportSchema snapshot endpointIds (path ++ "/properties" ++ "/" ++ pointer p.1)
                  (factPath ++ "/properties" ++ "/" ++ pointer p.1) p.2).value))).lookup key =
                some v) : ∃ p ∈ ps, ∃ path factPath, v =
                  (exportSchema snapshot endpointIds path factPath p.2).value := by
              obtain ⟨p, hp, heq⟩ := List.mem_map.mp ((mem_sorted _ _).mp (mem_of_lookup hv))
              exact ⟨p, hp, _, _, (Prod.mk.inj heq).2.symm⟩
            cases hinner with
            | here hlink =>
              obtain ⟨p, -, _, _, hv⟩ := hproperty hlink
              obtain ⟨members, hobj⟩ := exists_obj_exportSchema snapshot endpointIds _ _ p.2
              rw [hobj] at hv
              cases hv
            | member hlink hinner =>
              obtain ⟨p, hp, _, _, rfl⟩ := hproperty hlink
              exact hchild (@IsSchemaChild.property _ p.1 _ (by simpa [propertySchemas, hvalue] using hp))
                (hschemas p hp) hinner
          | @single _ s hmem hs =>
            rw [exportKeyword_schema _ _ _ _ _ hmem, value_map] at hexported
            cases Option.some.inj hexported
            obtain ⟨below, rfl, -⟩ := exists_obj_of_isApiSchema hs
            refine hchild (@IsSchemaChild.schema _ name _ ?_ hvalue) hs hinner
            simp only [mem_cons, not_mem_nil, or_false] at hmem ⊢
            tauto
          | @several _ ss hmem hschemas =>
            rw [exportKeyword_schemas _ _ _ _ _ hmem, value_map, Function.comp_apply,
              value_exportItems] at hexported
            cases Option.some.inj hexported
            cases hinner with
            | item hitem hinner =>
              obtain ⟨p, hp, rfl⟩ := List.mem_map.mp hitem
              have hs := fst_mem_of_mem_zipIdx hp
              exact hchild (.item hmem (by simpa [schemasUnder, hvalue] using hs))
                (hschemas _ hs) hinner
        · obtain ⟨value, hvalue, hexported⟩ := mem_exportedMembers.mp (mem_of_lookup hlookup)
          exact absurd hinner (not_hasLink_of_notMem hschema hvalue hkey hexported)

end Links

/-! ### Security schemes -/

section Security

variable {host : Host} {snapshot : ContractSnapshot}

variable {endpoint : Endpoint} {alternative : List (String × List String)}
  {scheme : String × List String}

theorem securityScheme_of_accepted (h : snapshot.Accepted host)
    (hendpoint : endpoint ∈ snapshot.endpoints) (hstate : endpoint.security.state = some .declared)
    {name : String} (hname : name ∈ schemeNames endpoint) :
    ∃ fact, securityScheme snapshot name = some fact := by
  have hissues := (ContractSnapshot.validateContractSnapshotSemantics_eq_nil_iff.mp h.2).1
  simp only [ContractSnapshot.referenceIssues, append_eq_nil_iff,
    forEachIndexed_eq_nil_iff, endpointIssues] at hissues
  obtain ⟨i, hi, rfl⟩ := List.mem_iff_getElem.mp hendpoint
  have hsecurity : securityIssues snapshot snapshot.endpoints[i] i = [] := by
    have := hissues.1.1.1.1.1.1.1.2 i hi
    tauto
  obtain ⟨alternative, halternative, hname⟩ := List.mem_flatMap.mp hname
  obtain ⟨requirement, hrequirement, rfl⟩ := List.mem_map.mp hname
  obtain ⟨j, hj, rfl⟩ := List.mem_iff_getElem.mp halternative
  obtain ⟨k, hk, rfl⟩ := List.mem_iff_getElem.mp hrequirement
  simp only [securityIssues, hstate, if_true, append_eq_nil_iff, forEachIndexed_eq_nil_iff,
    requirementIssues] at hsecurity
  have hknown := (hsecurity.1.2 j hj k hk).1
  split_ifs at hknown with hmem
  exact OrderedMap.exists_lookup_of_mem_keys (List.contains_iff_mem.mp hmem)

theorem declared_of_mem_exportSecurity
    (halternative : alternative ∈ (exportSecurity snapshot endpoint).value.value)
    (hscheme : scheme ∈ alternative) :
    endpoint.security.state = some .declared ∧ scheme.1 ∈ schemeNames endpoint := by
  unfold exportSecurity at halternative
  split at halternative
  · simp at halternative
  · rename_i hstate
    refine ⟨hstate, ?_⟩
    simp only [value_bind, value_pure, mem_sorted, List.mem_map] at halternative
    obtain ⟨requirements, hrequirements, rfl⟩ := halternative
    obtain ⟨requirement, hrequirement, rfl⟩ := List.mem_map.mp hscheme
    exact List.mem_flatMap.mpr ⟨requirements, hrequirements,
      List.mem_map_of_mem ((mem_sorted _ _).mp hrequirement)⟩
  · simp at halternative

theorem mem_securitySchemes (hsnapshot : snapshot.Accepted host) {path method : String}
    {operation : Operation}
    (hfound : (compileDocument host snapshot).value.operation? path method = some operation)
    (halternative : alternative ∈ operation.security) (hscheme : scheme ∈ alternative) :
    scheme.1 ∈ (compileDocument host snapshot).value.securitySchemes.map Prod.fst := by
  obtain ⟨emitted, hemitted, -, -, rfl⟩ := (operation?_eq_some_iff hsnapshot).mp hfound
  obtain ⟨group, hgroup, hvalue⟩ := mem_compileGroups.mp hemitted
  have hemits := emits_of_compileGroup hsnapshot hgroup hvalue
  obtain ⟨item, hitem, -⟩ := hemits.method_eq
  obtain ⟨i, endpoint, hbehind⟩ := exists_behind hsnapshot hgroup hemits hitem
  rw [← hemits.security_eq item hitem, hbehind.operation_eq] at halternative
  obtain ⟨hstate, hname⟩ := declared_of_mem_exportSecurity halternative hscheme
  obtain ⟨fact, hfact⟩ := securityScheme_of_accepted hsnapshot
    (mem_of_getElem? hbehind.endpoint_eq) hstate hname
  have hused : scheme.1 ∈ usedSecurity (compileGroups host snapshot).value := by
    rw [usedSecurity, mem_dedup, mem_flatMap]
    refine ⟨emitted, hemitted, List.mem_flatMap.mpr ⟨item, hitem, ?_⟩⟩
    rw [hbehind.from_eq.security_eq, securityNames, if_pos hstate]
    exact hname
  simp only [compileDocument, value_bind, value_pure, assemble, List.mem_map, mem_filterMap,
    mem_sorted]
  exact ⟨(scheme.1, fact.definition), ⟨scheme.1, hused, by rw [hfact]; rfl⟩, rfl⟩

end Security

/-! ### Closed documents -/

/-- **Documents are closed under references.**  In both modes every link inside a schema of the
document resolves to one of its components, and every scheme that an operation requires is one of
its security schemes. -/
theorem compile_closed {host : Host} {snapshot : ContractSnapshot} {mode : CompileMode}
    {result : CompileResult} (h : compileOpenApiSnapshot host snapshot mode = some result)
    {document : Document} (hdocument : result.document = some document) :
    (∀ key schema, document.HasSchema key schema → ∀ link, HasLink link schema →
      ∃ name, resolveLink link = some name ∧ ∃ component,
        document.schemas.lookup name = some component) ∧
    ∀ path method operation, document.operation? path method = some operation →
      ∀ alternative ∈ operation.security, ∀ scheme ∈ alternative,
        scheme.1 ∈ document.securitySchemes.map Prod.fst := by
  obtain ⟨hsnapshot, rfl⟩ := document_of_compileOpenApiSnapshot h hdocument
  constructor
  · intro key schema hschema link hlink
    obtain ⟨place, site, hlocated, ⟨rfl, -⟩, hclosed⟩ := sourced_of_hasSchema hsnapshot hschema
    obtain ⟨node, ref, hnode, href, rfl⟩ :=
      exists_ref_of_hasLink (hlocated.isApiSchema hsnapshot) hlink
    exact ⟨referencedComponent ref, resolveLink_exportedRef ref,
      isSome_iff_exists.mp (hclosed node ref hnode href)⟩
  · exact fun path method operation hfound alternative halternative scheme hscheme =>
      mem_securitySchemes hsnapshot hfound halternative hscheme

/-- A snapshot whose only endpoint returns a recursive component. -/
def recursiveComponent : ContractSnapshot :=
  { sampleExport (.obj [("$ref", .str "#/schemas/Node")]) with
    schemas := [("Node",
      { schemaId := "Node"
        schema := .obj [("type", .str "object"),
          ("properties", .obj [("next", .obj [("$ref", .str "#/schemas/Node")])])]
        evidenceIds := ["ev-a"] })] }

/-- The link of the only response of that snapshot resolves. -/
theorem recursiveComponent_closed : ∃ name, resolveLink "#/components/schemas/Node" = some name ∧
    ∃ component, (compileDocument .ascii recursiveComponent).value.schemas.lookup name =
      some component := by
  have haccepted : recursiveComponent.Accepted .ascii := by decide +kernel
  have hoperation : (compileDocument .ascii recursiveComponent).value.operation? "/a" "get" =
      some ⟨[], none, [("200", ⟨some [("application/json",
        .obj [("$ref", .str "#/components/schemas/Node")])], none⟩)], []⟩ := by
    delta compileDocument compileGroups compileGroup compileSelected compileVariants
      compileEndpoints compileEndpoint reachableSchemas
    simp only [AdjacencyList.queueClosure_eq_queueWithin]
    decide +kernel
  have hschema : (compileDocument .ascii recursiveComponent).value.HasSchema
      (.content "/a" "get" "200" "application/json")
      (.obj [("$ref", .str "#/components/schemas/Node")]) :=
    ⟨_, hoperation, _, mem_singleton_self _, mem_singleton_self _⟩
  have hcompiled : compileOpenApiSnapshot .ascii recursiveComponent .draft =
      some (compileSnapshot .ascii recursiveComponent .draft) :=
    compileOpenApiSnapshot_eq_some_iff.mpr ⟨haccepted, rfl⟩
  exact (compile_closed hcompiled rfl).1 _ _ hschema _ (.here rfl)

end ApiTruth.OpenApi
