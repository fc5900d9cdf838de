import ApiTruth.Foundation.Json.Members

/-!
# Shapes of JSON values

Validation of a JSON value against a closed shape, as far as a declarative schema with literals,
texts, arrays and objects without further members says it.

## Main definitions

* `Json.isNonEmptyString`, `Json.isLiteral`, `Json.isArrayOf`, `Json.isClosedObject` : the shapes.

## Main results

* `Json.valid_of_isClosedObject` : a member of a closed object has its declared shape.
-/

namespace Json

def isNonEmptyString : Json → Bool
  | .str s => s ≠ ""
  | _ => false

def isLiteral (text : String) : Json → Bool
  | .str s => s = text
  | _ => false

def isOneOf (texts : List String) : Json → Bool
  | .str s => texts.contains s
  | _ => false

def isArrayOf (shape : Json → Bool) : Json → Bool
  | .arr xs => xs.all shape
  | _ => false

def hasUniqueItems (j : Json) : Bool := decide (j.items.map canon).Nodup

/-- An object with all of the required members, some of the optional ones and no others, each of
its declared shape. -/
def isClosedObject (required optional : List (String × (Json → Bool))) : Json → Bool
  | .obj ms =>
    required.all (fun field => (ms.lookup field.1).isSome) &&
      ms.all fun m => ((required ++ optional).lookup m.1).any (· m.2)
  | _ => false

variable {required optional : List (String × (Json → Bool))} {j value : Json} {name : String}

variable (h : isClosedObject required optional j = true)

include h in
/-- A member of a closed object is declared and has its declared shape. -/
theorem valid_of_isClosedObject (hvalue : j.members.lookup name = some value) :
    ∃ shape, (required ++ optional).lookup name = some shape ∧ shape value = true := by
  cases j with
  | obj ms =>
    simp only [isClosedObject, Bool.and_eq_true, List.all_eq_true] at h
    have hmember := h.2 (name, value) (mem_of_lookup hvalue)
    cases hshape : (required ++ optional).lookup name with
    | none => simp [hshape] at hmember
    | some shape => exact ⟨shape, rfl, by simpa [hshape] using hmember⟩
  | _ => simp [isClosedObject] at h

include h in
theorem exists_of_isClosedObject (hrequired : name ∈ required.map Prod.fst) :
    ∃ value, j.members.lookup name = some value := by
  cases j with
  | obj ms =>
    simp only [isClosedObject, Bool.and_eq_true, List.all_eq_true] at h
    obtain ⟨field, hfield, rfl⟩ := List.mem_map.mp hrequired
    exact Option.isSome_iff_exists.mp (h.1 field hfield)
  | _ => simp [isClosedObject] at h

theorem member_eq_of_lookup (h : j.members.lookup name = some value) : j.member name = value := by
  rw [member_eq, h]
  rfl

include h in
theorem shape_of_lookup {shape : Json → Bool} (hvalue : j.members.lookup name = some value)
    (hshape : (required ++ optional).lookup name = some shape) : shape value = true := by
  obtain ⟨shape', hshape', hvalid⟩ := valid_of_isClosedObject h hvalue
  cases hshape.symm.trans hshape'
  exact hvalid

include h in
theorem lookup_eq_none_of_isClosedObject (hshape : (required ++ optional).lookup name = none) :
    j.members.lookup name = none := by
  cases hvalue : j.members.lookup name with
  | none => rfl
  | some value =>
    obtain ⟨shape, hshape', -⟩ := valid_of_isClosedObject h hvalue
    rw [hshape] at hshape'
    cases hshape'

end Json
