import ApiTruth.Foundation.Worklist
import ApiTruth.Ir.Validation

/-!
# Schema ownership in the update planner

The planner attributes schema components to the endpoints whose schemas reach them.  It reads the
component of a local reference as an encoded segment of a JSON pointer.

## Main definitions

* `localComponentId` : the component of a reference.
* `collectSchemaReferences`, `endpointSchemaReferences`, `componentClosure`.

## Main results

* `localComponentId_eq_some_iff` : the component is the raw suffix exactly when it has no `~`.
* `mem_componentClosure` : the closure follows references through existing components.
-/

namespace ApiTruth.Updates

open Json ApiTruth.Ir List

/-! ### References -/

/-- `/~(?![01])/` matches. -/
def hasInvalidEscape : List Char → Bool
  | [] => false
  | '~' :: cs => !(cs.head? == some '0' || cs.head? == some '1') || hasInvalidEscape cs
  | _ :: cs => hasInvalidEscape cs

/-- `replaceAll` of a pattern of two characters. -/
def replaceAllPair (first second replacement : Char) : List Char → List Char
  | [] => []
  | [c] => [c]
  | c :: d :: cs =>
    if c = first ∧ d = second then replacement :: replaceAllPair first second replacement cs
    else c :: replaceAllPair first second replacement (d :: cs)

def decodeSegment (encoded : List Char) : List Char :=
  replaceAllPair '~' '0' '~' (replaceAllPair '~' '1' '/' encoded)

def localComponentId (reference : String) : Option String :=
  if isComponentRef reference then
    let encoded := (referencedComponent reference).toList
    if encoded.isEmpty || hasInvalidEscape encoded then none
    else some (String.ofList (decodeSegment encoded))
  else none

attribute [local simp] replaceAllPair

theorem length_replaceAllPair_le (first second replacement : Char) (cs : List Char) :
    (replaceAllPair first second replacement cs).length ≤ cs.length := by
  induction cs using replaceAllPair.induct first second with
  | case1 => simp
  | case2 c => simp
  | case3 c d cs h ih =>
    simp only [replaceAllPair, if_pos h, length_cons]
    omega
  | case4 c d cs h ih =>
    simp only [replaceAllPair, if_neg h, length_cons] at *
    omega

variable {cs : List Char} {first second replacement : Char}

theorem replaceAllPair_eq_of_length_eq
    (h : (replaceAllPair first second replacement cs).length = cs.length) :
    replaceAllPair first second replacement cs = cs := by
  induction cs using replaceAllPair.induct first second with
  | case1 => rfl
  | case2 c => rfl
  | case3 c d cs hpair =>
    have hle := length_replaceAllPair_le first second replacement cs
    simp only [replaceAllPair, if_pos hpair, length_cons] at h
    omega
  | case4 c d cs hpair ih =>
    simp only [replaceAllPair, if_neg hpair, length_cons] at h ⊢
    rw [ih (by simpa using h)]

theorem replaceAllPair_cons_of_ne {first second replacement c : Char} (h : c ≠ first)
    (cs : List Char) : replaceAllPair first second replacement (c :: cs) =
      c :: replaceAllPair first second replacement cs := by
  cases cs with
  | nil => rfl
  | cons d cs => rw [replaceAllPair, if_neg fun hpair => h hpair.1]

theorem replaceAllPair_of_notMem
    (h : first ∉ cs) : replaceAllPair first second replacement cs = cs := by
  induction cs using replaceAllPair.induct first second with
  | case1 => rfl
  | case2 c => rfl
  | case3 c d cs hpair => simp [hpair.1] at h
  | case4 c d cs hpair ih =>
    rw [replaceAllPair, if_neg hpair, ih fun hmem => h (mem_cons_of_mem _ hmem)]

theorem hasInvalidEscape_of_notMem (h : '~' ∉ cs) :
    hasInvalidEscape cs = false := by
  induction cs with
  | nil => rfl
  | cons c cs ih =>
    unfold hasInvalidEscape
    split
    · rfl
    · simp_all
    · simp_all

theorem length_replaceAllPair_lt (hvalid : hasInvalidEscape cs = false)
    (hmem : '~' ∈ cs) (hfirst : replaceAllPair '~' '1' '/' cs = cs) :
    (replaceAllPair '~' '0' '~' cs).length < cs.length := by
  induction cs using replaceAllPair.induct '~' '0' with
  | case1 => simp at hmem
  | case2 c =>
    obtain rfl := List.mem_singleton.mp hmem
    simp [hasInvalidEscape] at hvalid
  | case3 c d cs h ih =>
    have hle := length_replaceAllPair_le '~' '0' '~' cs
    rw [replaceAllPair, if_pos h, length_cons, length_cons, length_cons]
    omega
  | case4 c d cs h ih =>
    rw [replaceAllPair, if_neg h, length_cons, length_cons]
    by_cases hone : c = '~' ∧ d = '1'
    · -- the first pass would have shortened the text
      have hlen := congrArg List.length hfirst
      have hle := length_replaceAllPair_le '~' '1' '/' cs
      rw [replaceAllPair, if_pos hone] at hlen
      simp only [length_cons] at hlen
      omega
    · rw [replaceAllPair, if_neg hone] at hfirst
      by_cases hc : c = '~'
      · subst hc
        rw [hasInvalidEscape] at hvalid
        simp_all
      · have hrest : hasInvalidEscape (d :: cs) = false := by
          unfold hasInvalidEscape at hvalid
          split at hvalid <;> simp_all
        have hmem' : '~' ∈ d :: cs := (List.mem_cons.mp hmem).resolve_left (Ne.symm hc)
        have := ih hrest hmem' (List.cons.inj hfirst).2
        omega

theorem decodeSegment_eq_self_iff (hvalid : hasInvalidEscape cs = false) :
    decodeSegment cs = cs ↔ '~' ∉ cs := by
  constructor
  · intro h hmem
    have hlen := congrArg List.length h
    by_cases hfirst : replaceAllPair '~' '1' '/' cs = cs
    · have := length_replaceAllPair_lt hvalid hmem hfirst
      rw [decodeSegment, hfirst] at hlen
      omega
    · have hle := length_replaceAllPair_le '~' '0' '~' (replaceAllPair '~' '1' '/' cs)
      rw [← decodeSegment, hlen] at hle
      have heq := length_replaceAllPair_le '~' '1' '/' cs
      exact hfirst (replaceAllPair_eq_of_length_eq (le_antisymm heq hle))
  · intro h
    rw [decodeSegment, replaceAllPair_of_notMem h, replaceAllPair_of_notMem h]

/-- The planner reads the raw suffix of a reference exactly when it has no `~`. -/
theorem localComponentId_eq_some_iff {reference : String} (hlocal : isComponentRef reference = true)
    (hne : referencedComponent reference ≠ "") :
    localComponentId reference = some (referencedComponent reference) ↔
      '~' ∉ (referencedComponent reference).toList := by
  have hempty : (referencedComponent reference).toList.isEmpty = false := by
    simpa [List.isEmpty_iff] using hne
  simp only [localComponentId, hlocal, if_true, hempty, Bool.false_or]
  cases hvalid : hasInvalidEscape (referencedComponent reference).toList with
  | true =>
    have hmem : '~' ∈ (referencedComponent reference).toList := by
      by_contra hmem
      rw [hasInvalidEscape_of_notMem hmem] at hvalid
      cases hvalid
    simp [hmem]
  | false =>
    rw [← decodeSegment_eq_self_iff hvalid]
    simp [← String.toList_inj]

/-! ### Schemas of an endpoint -/

/-- The schemas below a schema in the order of the planner. -/
def ownedChildren (value : List (String × Json)) : List Json :=
  (propertySchemas value).map Prod.snd ++
  (value.lookup "items").toList ++
  schemasUnder value "prefixItems" ++
  (value.lookup "additionalProperties").toList ++
  schemasUnder value "oneOf" ++ schemasUnder value "anyOf" ++ schemasUnder value "allOf" ++
  (value.lookup "not").toList

theorem obj_mem_ownedChildren {value node : List (String × Json)} :
    Json.obj node ∈ ownedChildren value ↔ IsSchemaChild value (.obj node) := by
  simp only [ownedChildren, mem_append, List.mem_map, Option.mem_toList]
  constructor
  · rintro (((((((⟨p, hp, hnode⟩ | h) | h) | h) | h) | h) | h) | h)
    · exact IsSchemaChild.property (hnode ▸ hp : (p.1, Json.obj node) ∈ propertySchemas value)
    all_goals first
      | exact .schema (by simp) h
      | exact .item (by simp) h
  · rintro (⟨hmem⟩ | ⟨hkey, hlookup⟩ | ⟨hkey, hitem⟩)
    · exact Or.inl (Or.inl (Or.inl (Or.inl (Or.inl (Or.inl (Or.inl ⟨_, hmem, rfl⟩))))))
    · simp only [mem_cons, not_mem_nil, or_false] at hkey
      rcases hkey with rfl | rfl | rfl <;> simp [hlookup]
    · simp only [mem_cons, not_mem_nil, or_false] at hkey
      rcases hkey with rfl | rfl | rfl | rfl <;> simp [hitem]

theorem sizeOf_lt_of_mem_ownedChildren {value : List (String × Json)} {child : Json}
    (h : child ∈ ownedChildren value) : sizeOf child < sizeOf (Json.obj value) := by
  rw [Json.obj.sizeOf_spec]
  suffices sizeOf child < sizeOf value by omega
  simp only [ownedChildren, mem_append, List.mem_map, Option.mem_toList] at h
  rcases h with ((((((⟨p, hp, rfl⟩ | h) | h) | h) | h) | h) | h) | h
  · exact sizeOf_lt_of_mem_propertySchemas hp
  all_goals first
    | exact sizeOf_lt_of_lookup h
    | exact sizeOf_lt_of_mem_schemasUnder h

def ownershipTraversal : Traversal where
  children := ownedChildren
  obj_mem_children := obj_mem_ownedChildren
  sizeOf_lt := sizeOf_lt_of_mem_ownedChildren

/-- `collectSchemaReferences` : the components referenced at the schema positions of a schema. -/
def collectSchemaReferences (value : Json) : List String :=
  ownershipTraversal.collect (fun schema => (refOf schema).bind localComponentId) value

def endpointSchemaReferences (endpoint : Endpoint) : List String :=
  endpoint.schemas.flatMap collectSchemaReferences

def componentGraph (schemas : List (String × SchemaComponent)) : AdjacencyList String :=
  schemas.map fun entry => (entry.1, (collectSchemaReferences entry.2.schema).dedup)

def componentClosure (initialIds : List String) (schemas : List (String × SchemaComponent)) :
    List String :=
  (componentGraph schemas).stackClosure initialIds

/-- The closure follows references through existing components. -/
theorem mem_componentClosure {initialIds : List String} {schemas : List (String × SchemaComponent)}
    {id : String} : id ∈ componentClosure initialIds schemas ↔
      (componentGraph schemas).Reaches initialIds id ∧ id ∈ schemas.map Prod.fst := by
  rw [componentClosure, AdjacencyList.mem_stackClosure, componentGraph, List.map_map]
  rfl

end ApiTruth.Updates
