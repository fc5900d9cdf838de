import ApiTruth.Foundation.Json.Members

/-!
# Places in a JSON document

A place in a document is a path of member names and item indices together with the value that
stands at its end.

## Main definitions

* `Json.Token`, `Json.child?`, `Json.at?` : steps into a value, and the value at the end of a path.
* `Json.Located` : a path of a document and the value at its end.
* `Json.Located.members`, `Json.Located.items` : the parts of a value with their places.

## Main results

* `Json.at?_append` : paths are followed one after the other.
* `Json.Located.values_members`, `Json.Located.values_items` : the parts are those of the value.
-/

namespace Json

open List Option

inductive Token
  | name (key : String)
  | index (i : ℕ)
deriving DecidableEq, Repr

/-- The part of a value that a step leads to. -/
def child? : Json → Token → Option Json
  | .obj ms, .name key => ms.lookup key
  | .arr xs, .index i => xs[i]?
  | _, _ => none

/-- The value at the end of a path. -/
def at? (j : Json) : List Token → Option Json
  | [] => some j
  | token :: path =>
    match j.child? token with
    | none => none
    | some child => child.at? path

@[simp] theorem at?_nil (j : Json) : j.at? [] = some j := rfl

theorem at?_cons (j : Json) (token : Token) (path : List Token) :
    j.at? (token :: path) = (j.child? token).bind (·.at? path) := by
  rw [at?]
  cases j.child? token <;> rfl

/-- Paths are followed one after the other. -/
theorem at?_append (j : Json) (path rest : List Token) :
    j.at? (path ++ rest) = (j.at? path).bind (·.at? rest) := by
  induction path generalizing j with
  | nil => rfl
  | cons token path ih =>
    rw [cons_append, at?_cons, at?_cons, bind_assoc]
    exact Option.bind_congr fun child _ => ih child

theorem WellFormed.child? {j child : Json} (h : WellFormed j) {token : Token}
    (hchild : j.child? token = some child) : WellFormed child := by
  cases h with
  | arr items =>
    cases token with
    | name key => cases hchild
    | index i => exact items child (mem_of_getElem? hchild)
  | obj names values =>
    cases token with
    | name key => exact values (key, child) ((OrderedMap.lookup_eq_some_iff names).mp hchild)
    | index i => cases hchild
  | _ => cases hchild

theorem WellFormed.at? {j v : Json} (h : WellFormed j) {path : List Token}
    (hat : j.at? path = some v) : WellFormed v := by
  induction path generalizing j with
  | nil => exact Option.some.inj hat ▸ h
  | cons token path ih =>
    rw [at?_cons, bind_eq_some_iff] at hat
    obtain ⟨child, hchild, hat⟩ := hat
    exact ih (h.child? hchild) hat

theorem WellFormed.nodup_members {j : Json} (h : WellFormed j) :
    (j.members.map Prod.fst).Nodup := by
  cases h with
  | obj names _ => exact names
  | _ => exact nodup_nil

/-- A path of a document and the value at its end. -/
structure Located (document : Json) where
  path : List Token
  value : Json
  at_eq : document.at? path = some value

namespace Located

variable {document : Json}

variable (place : Located document)

theorem at_eq_child {token : Token} {child : Json} (h : place.value.child? token = some child) :
    document.at? (place.path ++ [token]) = some child := by
  rw [at?_append, place.at_eq, bind_some, at?_cons, h]
  rfl

/-- The document itself. -/
def root (document : Json) : Located document := ⟨[], document, rfl⟩

/-- The place that a step leads to. -/
def child? (place : Located document) (token : Token) : Option (Located document) :=
  match h : place.value.child? token with
  | none => none
  | some child => some ⟨place.path ++ [token], child, place.at_eq_child h⟩

def member? (place : Located document) (key : String) : Option (Located document) :=
  place.child? (.name key)

/-- The members of an object. -/
def members (place : Located document) : List (String × Located document) :=
  place.value.members.filterMap fun m => (place.member? m.1).map (Prod.mk m.1)

/-- The items of an array. -/
def items (place : Located document) : List (Located document) :=
  place.value.items.zipIdx.filterMap fun item => place.child? (.index item.2)

theorem value_child? (token : Token) :
    (place.child? token).map value = place.value.child? token := by
  unfold child?
  split
  · rename_i h
    exact h.symm
  · rename_i h
    exact h.symm

theorem value_member? (key : String) :
    (place.member? key).map value = place.value.members.lookup key := by
  rw [member?, value_child?]
  cases place.value <;> rfl

/-- The members of an object of a well-formed document, each with its value. -/
theorem values_members (hdocument : WellFormed document) :
    place.members.map (fun m => (m.1, m.2.value)) = place.value.members := by
  have hnodup := (hdocument.at? place.at_eq).nodup_members
  rw [members, map_filterMap]
  refine (filterMap_congr fun m hm => ?_).trans filterMap_some
  have hvalue := place.value_member? m.1
  rw [(OrderedMap.lookup_eq_some_iff hnodup).mpr hm, map_eq_some_iff] at hvalue
  obtain ⟨child, hchild, hv⟩ := hvalue
  simp [hchild, hv]

theorem mem_members_iff {place child : Located document} {key : String} :
    (key, child) ∈ place.members ↔ place.member? key = some child := by
  rw [members, mem_filterMap]
  constructor
  · rintro ⟨m, -, hm⟩
    obtain ⟨p, hp, heq⟩ := Option.map_eq_some_iff.mp hm
    cases heq
    exact hp
  · intro h
    have hlookup := place.value_member? key
    rw [h, map_some] at hlookup
    exact ⟨(key, child.value), mem_of_lookup hlookup.symm, by rw [h]; rfl⟩

theorem nodup_members (hdocument : WellFormed document) :
    (place.members.map Prod.fst).Nodup := by
  have hnames := congrArg (List.map Prod.fst) (place.values_members hdocument)
  rw [List.map_map] at hnames
  exact hnames ▸ (hdocument.at? place.at_eq).nodup_members

/-- The items of an array, each with its value. -/
theorem values_items :
    place.items.map value = place.value.items := by
  have hitem : ∀ item ∈ place.value.items.zipIdx,
      (place.child? (.index item.2)).map value = some item.1 := by
    intro item hitem
    rw [value_child?, ← List.mem_zipIdx_iff_getElem?.mp hitem]
    cases place.value <;> rfl
  calc place.items.map value
      = place.value.items.zipIdx.filterMap (some ∘ Prod.fst) := by
        rw [items, map_filterMap]
        exact filterMap_congr hitem
    _ = place.value.items := by rw [filterMap_eq_map, zipIdx_map_fst]

end Located

end Json
