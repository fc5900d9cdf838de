import ApiTruth.Updates.Ownership

/-!
# Component references in the OpenAPI compiler

The compiler follows component references from the schemas of an endpoint, drops an endpoint that
reaches a component whose name cannot be a component key, and renders a reference as a link into
the components of the document.  Three subsystems read the component of a reference: the snapshot
validator and the compiler take the raw suffix, the update planner decodes it as a segment of a
JSON pointer.

## Main definitions

* `refs`, `endpointRefs`, `reachableSchemas` : the components an endpoint reaches.
* `exportedRef`, `resolveLink` : the rendered link and the component it resolves to.
* `emittedComponents` : the components of the document.
* `ReferencesAgree` : the three subsystems read every reference alike.

## Main results

* `resolveLink_exportedRef` : a link resolves to the component it was rendered for.
* `referencesAgree_iff` : the subsystems agree exactly when no referenced name contains `~`.
-/

namespace ApiTruth.OpenApi

open Json ApiTruth.Ir ApiTruth.Updates List Option

/-! ### Reachable components -/

/-- The schemas below a schema in the order in which the compiler pushes them. -/
def pushedChildren (value : List (String × Json)) : List Json :=
  (propertySchemas value).map Prod.snd ++
  (value.lookup "items").toList ++ (value.lookup "not").toList ++
  (value.lookup "additionalProperties").toList ++
  schemasUnder value "prefixItems" ++ schemasUnder value "oneOf" ++
  schemasUnder value "anyOf" ++ schemasUnder value "allOf"

theorem mem_pushedChildren {value : List (String × Json)} {c : Json} :
    c ∈ pushedChildren value ↔ c ∈ ownedChildren value := by
  simp only [pushedChildren, ownedChildren, mem_append]
  tauto

/-- The traversal of the compiler, which pops the schema it pushed last. -/
def compilerTraversal : Traversal where
  children value := (pushedChildren value).reverse
  obj_mem_children := by
    intro value node
    rw [List.mem_reverse, mem_pushedChildren, obj_mem_ownedChildren]
  sizeOf_lt h := sizeOf_lt_of_mem_ownedChildren (mem_pushedChildren.mp (List.mem_reverse.mp h))

/-- The component that the compiler reads from a schema object. -/
def compiledRef (schema : List (String × Json)) : Option String :=
  (refOf schema).bind fun ref =>
    if isComponentRef ref then some (referencedComponent ref) else none

/-- `refs` : the components referenced at the schema positions of a schema. -/
def refs (schema : Json) : List String := compilerTraversal.collect compiledRef schema

def endpointRefs (endpoint : Endpoint) : List String := (endpoint.schemas.flatMap refs).dedup

/-- The components with the components they refer to. -/
def referenceGraph (snapshot : ContractSnapshot) : AdjacencyList String :=
  snapshot.schemas.map fun entry => (entry.1, refs entry.2.schema)

def reachableSchemas (snapshot : ContractSnapshot) (endpoint : Endpoint) : List String :=
  (referenceGraph snapshot).queueClosure (endpointRefs endpoint)

/-- The endpoints that the compiler does not drop for a component whose name is no component
key. -/
def emittable (snapshot : ContractSnapshot) : List Endpoint :=
  snapshot.endpoints.filter fun endpoint =>
    (reachableSchemas snapshot endpoint).all ContractSnapshot.isComponentKey

/-! ### Links -/

def pointer (value : String) : String := jsonPointerSegment value

/-- The namespace of the components of a document. -/
def componentsPrefix : String := "#/components/schemas/"

/-- The link that `exportSchema` renders for a reference. -/
def exportedRef (ref : String) : String := componentsPrefix ++ pointer (referencedComponent ref)

/-- The component key that a link of a document resolves to, by the rules of JSON pointers. -/
def resolveLink (link : String) : Option String :=
  if componentsPrefix.toList.isPrefixOf link.toList then
    some (String.ofList (decodeSegment (link.toList.drop componentsPrefix.length)))
  else none

/-- The components of a document whose operations belong to these endpoints. -/
def emittedComponents (snapshot : ContractSnapshot) (emitted : List Endpoint) : List String :=
  snapshot.schemaIds.filter fun id =>
    emitted.any fun endpoint => (reachableSchemas snapshot endpoint).contains id

/-! ### Links resolve -/

theorem replaceAll_eq_flatMap (c : Char) (replacement : String) (s : String) :
    (replaceAll c replacement s).toList =
      s.toList.flatMap fun d => if d = c then replacement.toList else [d] := by
  rw [replaceAll, String.toList_ofList]

def pointerEscape (c : Char) : List Char :=
  if c = '~' then ['~', '0'] else if c = '/' then ['~', '1'] else [c]

theorem toList_pointer (s : String) : (pointer s).toList = s.toList.flatMap pointerEscape := by
  rw [pointer, jsonPointerSegment, replaceAll_eq_flatMap, replaceAll_eq_flatMap, flatMap_assoc]
  refine flatMap_congr fun c _ => ?_
  unfold pointerEscape
  split_ifs with htilde hslash
  · subst htilde
    rfl
  · subst hslash
    rfl
  · simp [hslash]

theorem replaceAllPair_slash (cs : List Char) :
    replaceAllPair '~' '1' '/' (cs.flatMap pointerEscape) =
      cs.flatMap fun c => if c = '~' then ['~', '0'] else [c] := by
  induction cs with
  | nil => rfl
  | cons c cs ih =>
    rw [flatMap_cons, flatMap_cons, ← ih, pointerEscape]
    split_ifs with htilde hslash
    · simp only [cons_append, nil_append]
      rw [replaceAllPair, if_neg (by decide), replaceAllPair_cons_of_ne (by decide)]
    · subst hslash
      simp only [cons_append, nil_append]
      rw [replaceAllPair, if_pos (by decide)]
    · exact replaceAllPair_cons_of_ne htilde _

theorem replaceAllPair_tilde (cs : List Char) :
    replaceAllPair '~' '0' '~' (cs.flatMap fun c => if c = '~' then ['~', '0'] else [c]) = cs := by
  induction cs with
  | nil => rfl
  | cons c cs ih =>
    rw [flatMap_cons]
    split_ifs with htilde
    · subst htilde
      simp only [cons_append, nil_append]
      rw [replaceAllPair, if_pos (by decide), ih]
    · rw [singleton_append, replaceAllPair_cons_of_ne htilde, ih]

/-- A link resolves to the component it was rendered for. -/
theorem resolveLink_exportedRef (ref : String) :
    resolveLink (exportedRef ref) = some (referencedComponent ref) := by
  have hlist : (exportedRef ref).toList =
      componentsPrefix.toList ++ (referencedComponent ref).toList.flatMap pointerEscape := by
    rw [exportedRef, String.toList_append, toList_pointer]
  have hprefix : componentsPrefix.toList.isPrefixOf (exportedRef ref).toList = true := by
    rw [hlist, isPrefixOf_iff_prefix]
    exact prefix_append _ _
  have hdrop : (exportedRef ref).toList.drop componentsPrefix.length =
      (referencedComponent ref).toList.flatMap pointerEscape := by
    rw [hlist, ← String.length_toList, drop_left]
  rw [resolveLink, if_pos hprefix, hdrop, decodeSegment, replaceAllPair_slash,
    replaceAllPair_tilde, String.ofList_toList]

/-! ### Agreement -/

/-- The references at the schema positions of a snapshot. -/
def references (snapshot : ContractSnapshot) : List String := snapshot.schemaRefs.map Prod.fst

/-- A reference that a document renders: it stands in a schema of an emitted endpoint or of an
emitted component. -/
inductive Rendered (snapshot : ContractSnapshot) (emitted : List Endpoint) (ref : String) : Prop
  | endpoint {endpoint : Endpoint} {schema : Json} {node : List (String × Json)}
      (mem : endpoint ∈ emitted) (schema_mem : schema ∈ endpoint.schemas)
      (position : SchemaPosition schema node) (ref_eq : refOf node = some ref)
  | component {id : String} {component : SchemaComponent} {node : List (String × Json)}
      (mem : id ∈ emittedComponents snapshot emitted)
      (lookup : snapshot.schemas.lookup id = some component)
      (position : SchemaPosition component.schema node) (ref_eq : refOf node = some ref)

/-- The validator, the planner and the compiler read every reference as the same component. -/
structure ReferencesAgree (snapshot : ContractSnapshot) : Prop where
  /-- The component that the validator checks for existence exists. -/
  checked : ∀ ref ∈ references snapshot, referencedComponent ref ∈ snapshot.schemaIds
  /-- The planner collects that component. -/
  followed : ∀ ref ∈ references snapshot, localComponentId ref = some (referencedComponent ref)
  /-- The planner and the compiler attribute the same components to every endpoint. -/
  closure : ∀ endpoint ∈ snapshot.endpoints, ∀ id,
    id ∈ componentClosure (endpointSchemaReferences endpoint) snapshot.schemas ↔
      id ∈ reachableSchemas snapshot endpoint
  /-- Whatever endpoints are emitted, a rendered link resolves to that component, which is among
  the components of the document. -/
  linked : ∀ emitted ⊆ emittable snapshot, ∀ ref, Rendered snapshot emitted ref →
    resolveLink (exportedRef ref) = some (referencedComponent ref) ∧
      referencedComponent ref ∈ emittedComponents snapshot emitted

section Accepted

variable {host : Host} {snapshot : ContractSnapshot} {node : List (String × Json)} {ref : String}

variable {endpoint : Endpoint} {id : String}

theorem mem_references_of_endpoint {schema : Json} (hendpoint : endpoint ∈ snapshot.endpoints)
    (hschema : schema ∈ endpoint.schemas) (hnode : SchemaPosition schema node)
    (href : refOf node = some ref) : ref ∈ references snapshot :=
  ContractSnapshot.mem_schemaRefs.mpr ⟨schema, mem_append_right _
    (List.mem_flatMap.mpr ⟨endpoint, hendpoint, hschema⟩), node, hnode, href⟩

theorem mem_references_of_component {component : SchemaComponent}
    (hlookup : snapshot.schemas.lookup id = some component)
    (hnode : SchemaPosition component.schema node) (href : refOf node = some ref) :
    ref ∈ references snapshot :=
  ContractSnapshot.mem_schemaRefs.mpr ⟨component.schema, mem_append_left _
    (List.mem_map.mpr ⟨_, mem_of_lookup hlookup, rfl⟩), node, hnode, href⟩

variable (h : snapshot.Accepted host)

include h in
/-- The references of an accepted snapshot are local and refer to components with a name. -/
theorem reference_of_accepted (href : ref ∈ references snapshot) : isComponentRef ref = true ∧
      referencedComponent ref ∈ snapshot.schemaIds ∧ referencedComponent ref ≠ "" := by
  obtain ⟨hlocal, hmem⟩ := h.ref href
  obtain ⟨entry, hentry, heq⟩ := List.mem_map.mp hmem
  exact ⟨hlocal, hmem, heq ▸ (h.component hentry).2⟩

include h in
theorem compiledRef_of_accepted (href : ref ∈ references snapshot) (hnode : refOf node = some ref) :
    compiledRef node = some (referencedComponent ref) := by
  simp [compiledRef, hnode, (reference_of_accepted h href).1]

theorem refOf_of_compiledRef (h : compiledRef node = some id) : ∃ ref, refOf node = some ref ∧
      referencedComponent ref = id := by
  obtain ⟨ref, href, hid⟩ := Option.bind_eq_some_iff.mp h
  split_ifs at hid
  exact ⟨ref, href, Option.some.inj hid⟩

include h in
theorem exists_of_mem_reachableSchemas (hendpoint : endpoint ∈ snapshot.endpoints)
    (hid : id ∈ reachableSchemas snapshot endpoint) : id ∈ snapshot.schemaIds := by
  rw [reachableSchemas, AdjacencyList.mem_queueClosure] at hid
  cases hid with
  | root hmem =>
    obtain ⟨schema, hschema, hmem⟩ := List.mem_flatMap.mp (List.mem_dedup.mp hmem)
    obtain ⟨node, hnode, hcompiled⟩ := (Traversal.mem_collect _ _).mp hmem
    obtain ⟨ref, href, rfl⟩ := refOf_of_compiledRef hcompiled
    exact (reference_of_accepted h (mem_references_of_endpoint hendpoint hschema hnode href)).2.1
  | step _ hlookup hmem =>
    rw [referenceGraph, lookup_map_snd fun component : SchemaComponent => refs component.schema,
      map_eq_some_iff] at hlookup
    obtain ⟨component, hcomponent, rfl⟩ := hlookup
    obtain ⟨node, hnode, hcompiled⟩ := (Traversal.mem_collect _ _).mp hmem
    obtain ⟨ref, href, rfl⟩ := refOf_of_compiledRef hcompiled
    exact (reference_of_accepted h (mem_references_of_component hcomponent hnode href)).2.1

include h in
theorem linked_of_accepted {emitted : List Endpoint} (hemitted : emitted ⊆ emittable snapshot)
    (hrendered : Rendered snapshot emitted ref) :
    resolveLink (exportedRef ref) = some (referencedComponent ref) ∧
      referencedComponent ref ∈ emittedComponents snapshot emitted := by
  refine ⟨resolveLink_exportedRef ref, List.mem_filter.mpr ?_⟩
  simp only [List.any_eq_true, contains_iff_mem]
  cases hrendered with
  | @endpoint endpoint schema node hmem hschema hnode href =>
    have hendpoint := (List.mem_filter.mp (hemitted hmem)).1
    have href' := mem_references_of_endpoint hendpoint hschema hnode href
    refine ⟨(reference_of_accepted h href').2.1, endpoint, hmem, ?_⟩
    rw [reachableSchemas, AdjacencyList.mem_queueClosure]
    refine .root (List.mem_dedup.mpr (List.mem_flatMap.mpr ⟨schema, hschema, ?_⟩))
    exact (Traversal.mem_collect _ _).mpr ⟨node, hnode, compiledRef_of_accepted h href' href⟩
  | @component id component node hmem hlookup hnode href =>
    obtain ⟨-, huser⟩ := List.mem_filter.mp hmem
    simp only [List.any_eq_true, contains_iff_mem] at huser
    obtain ⟨endpoint, hendpoint, hreach⟩ := huser
    have href' := mem_references_of_component hlookup hnode href
    refine ⟨(reference_of_accepted h href').2.1, endpoint, hendpoint, ?_⟩
    rw [reachableSchemas, AdjacencyList.mem_queueClosure] at hreach ⊢
    have hnext : (referenceGraph snapshot).lookup id = some (refs component.schema) := by
      rw [referenceGraph, lookup_map_snd fun component : SchemaComponent => refs component.schema,
        hlookup, map_some]
    exact .step hreach hnext
      ((Traversal.mem_collect _ _).mpr ⟨node, hnode, compiledRef_of_accepted h href' href⟩)

section

variable (h : snapshot.Accepted host)
  (hraw : ∀ ref ∈ references snapshot, localComponentId ref = some (referencedComponent ref))
include h hraw

/-- Where the planner decodes references to their raw suffix, it collects what the compiler
collects. -/
theorem mem_collectSchemaReferences_iff
    {schema : Json} (hschema : ∀ node, SchemaPosition schema node → ∀ ref, refOf node = some ref →
      ref ∈ references snapshot) {id : String} :
    id ∈ collectSchemaReferences schema ↔ id ∈ refs schema := by
  rw [collectSchemaReferences, refs, Traversal.mem_collect, Traversal.mem_collect]
  refine exists_congr fun node => and_congr_right fun hnode => ?_
  cases href : refOf node with
  | none => simp [compiledRef, href]
  | some ref =>
    have hmem := hschema node hnode ref href
    rw [compiledRef_of_accepted h hmem href, bind_some, hraw ref hmem]

theorem mem_componentClosure_iff
    {endpoint : Endpoint} (hendpoint : endpoint ∈ snapshot.endpoints) {id : String} :
    id ∈ componentClosure (endpointSchemaReferences endpoint) snapshot.schemas ↔
      id ∈ reachableSchemas snapshot endpoint := by
  have hroots (x : String) :
      x ∈ endpointSchemaReferences endpoint ↔ x ∈ endpointRefs endpoint := by
    rw [endpointRefs, mem_dedup, endpointSchemaReferences, mem_flatMap, mem_flatMap]
    refine exists_congr fun schema => and_congr_right fun hschema => ?_
    exact mem_collectSchemaReferences_iff h hraw fun node hnode ref href =>
      mem_references_of_endpoint hendpoint hschema hnode href
  have hnext {component : SchemaComponent} {x : String}
      (hlookup : snapshot.schemas.lookup x = some component) (y : String) :
      y ∈ (collectSchemaReferences component.schema).dedup ↔ y ∈ refs component.schema := by
    rw [mem_dedup]
    exact mem_collectSchemaReferences_iff h hraw fun node hnode ref href =>
      mem_references_of_component hlookup hnode href
  have hreaches : (componentGraph snapshot.schemas).Reaches (endpointSchemaReferences endpoint) id ↔
      (referenceGraph snapshot).Reaches (endpointRefs endpoint) id := by
    constructor
    · refine AdjacencyList.Reaches.mono (fun x hx => (hroots x).mp hx) fun x next hx => ?_
      rw [componentGraph, lookup_map_snd fun component : SchemaComponent =>
        (collectSchemaReferences component.schema).dedup, map_eq_some_iff] at hx
      obtain ⟨component, hlookup, rfl⟩ := hx
      refine ⟨refs component.schema, ?_, fun y hy => (hnext hlookup y).mp hy⟩
      rw [referenceGraph, lookup_map_snd fun component : SchemaComponent => refs component.schema,
        hlookup, map_some]
    · refine AdjacencyList.Reaches.mono (fun x hx => (hroots x).mpr hx) fun x next hx => ?_
      rw [referenceGraph, lookup_map_snd fun component : SchemaComponent => refs component.schema,
        map_eq_some_iff] at hx
      obtain ⟨component, hlookup, rfl⟩ := hx
      refine ⟨_, ?_, fun y hy => (hnext hlookup y).mpr hy⟩
      rw [componentGraph, lookup_map_snd fun component : SchemaComponent =>
        (collectSchemaReferences component.schema).dedup, hlookup, map_some]
  rw [mem_componentClosure, hreaches]
  constructor
  · rintro ⟨hreach, -⟩
    exact AdjacencyList.mem_queueClosure.mpr hreach
  · intro hid
    exact ⟨AdjacencyList.mem_queueClosure.mp hid, exists_of_mem_reachableSchemas h hendpoint hid⟩

end

/-- The three subsystems agree on an accepted snapshot exactly when no referenced component has a
`~` in its name. -/
theorem referencesAgree_iff (h : snapshot.Accepted host) : ReferencesAgree snapshot ↔
    ∀ ref ∈ references snapshot, '~' ∉ (referencedComponent ref).toList := by
  have hraw (ref : String) (href : ref ∈ references snapshot) :
      localComponentId ref = some (referencedComponent ref) ↔
        '~' ∉ (referencedComponent ref).toList := by
    obtain ⟨hlocal, -, hne⟩ := reference_of_accepted h href
    exact localComponentId_eq_some_iff hlocal hne
  constructor
  · intro hagree ref href
    exact (hraw ref href).mp (hagree.followed ref href)
  · intro htilde
    have hfollowed : ∀ ref ∈ references snapshot,
        localComponentId ref = some (referencedComponent ref) :=
      fun ref href => (hraw ref href).mpr (htilde ref href)
    exact
      { checked := fun ref href => (reference_of_accepted h href).2.1
        followed := hfollowed
        closure := fun endpoint hendpoint id => mem_componentClosure_iff h hfollowed hendpoint
        linked := fun emitted hemitted ref hrendered => linked_of_accepted h hemitted hrendered }

end Accepted

/-- A snapshot whose only endpoint returns the component with this name. -/
def componentSnapshot (id : String) : ContractSnapshot :=
  { sampleSnapshot with
    schemas := [(id, { schemaId := id, schema := .obj [], evidenceIds := ["ev"] })]
    endpoints := [
      { sampleEndpoint with
        responses := [
          { status := .exact 200
            content := [
              { mediaType := "application/json"
                schema := .obj [("$ref", .str (componentPrefix ++ id))]
                serialization := { format := some "json" } }] }] }] }

theorem componentSnapshot_accepted : (componentSnapshot "Pet").Accepted .ascii := by
  decide +kernel

theorem referencesAgree_pet : ReferencesAgree (componentSnapshot "Pet") :=
  (referencesAgree_iff componentSnapshot_accepted).mpr (by decide +kernel)

/-- The planner takes the component `a~1b` for the component `a/b`, which does not exist. -/
theorem not_referencesAgree_tilde : (componentSnapshot "a~1b").Accepted .ascii ∧
    localComponentId "#/schemas/a~1b" = some "a/b" ∧
      ¬ ReferencesAgree (componentSnapshot "a~1b") := by
  refine ⟨by decide +kernel, by decide +kernel, fun h => ?_⟩
  have hfollowed := h.followed "#/schemas/a~1b" (by decide +kernel)
  revert hfollowed
  decide +kernel

end ApiTruth.OpenApi
