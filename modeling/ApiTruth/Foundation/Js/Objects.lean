import ApiTruth.Foundation.Js.JsonText
import Mathlib.Data.Fintype.Basic

/-!
# Objects of JavaScript

A value of JavaScript is a primitive or the address of an object.  The objects live in a heap of
finitely many objects, so that they may be shared and may contain each other.  An array has a
property or a hole for every index; every other object has own properties, each with a value or with
accessors.  A value stands for the JSON value that a finite unfolding of the heap shows.

## Main definitions

* `JsValue`, `JsDescriptor`, `JsObject`, `JsHeap` : values, properties, objects and heaps.
* `JsHeap.Denotes` : the JSON value that a value stands for.

## Main results

* `JsHeap.Denotes.unique` : a value stands for one JSON value at most.
* `JsHeap.Denotes.wellFormed` : its objects do not repeat names.
-/

/-- A value; functions, symbols, big integers and `undefined` are not told apart. -/
inductive JsValue (ν : Type) (n : ℕ)
  | other
  | null
  | bool (value : Bool)
  | number (value : ν)
  | nonFinite
  | string (value : JsString)
  | object (address : Fin n)
deriving DecidableEq

inductive PropertyKey
  | string (name : JsString)
  | symbol (id : ℕ)
deriving DecidableEq

/-- A property: a value, or accessors whose getter returns a value unless it throws. -/
inductive JsDescriptor (ν : Type) (n : ℕ)
  | data (value : JsValue ν n) (enumerable : Bool)
  | accessor (get : Option (JsValue ν n)) (enumerable : Bool)
deriving DecidableEq

inductive JsPrototype
  | object
  | null
  | other
deriving DecidableEq

/-- An object.  The own properties of an array are `length`, those of its indices, which are given
in order with the holes, and the extra ones, which are only counted. -/
inductive JsObject (ν : Type) (n : ℕ)
  | array (elements : List (Option (JsDescriptor ν n))) (extra : ℕ)
  | plain (prototype : JsPrototype) (properties : OrderedMap PropertyKey (JsDescriptor ν n))

abbrev JsHeap (ν : Type) (n : ℕ) := Fin n → JsObject ν n

namespace JsDescriptor

variable {ν : Type} {n : ℕ}

/-- The value of a data property. -/
def value? : JsDescriptor ν n → Option (JsValue ν n)
  | data value _ => some value
  | accessor _ _ => none

/-- The value that reading the property returns. -/
def get? : JsDescriptor ν n → Option (JsValue ν n)
  | data value _ => some value
  | accessor get _ => get

def enumerable : JsDescriptor ν n → Bool
  | data _ enumerable => enumerable
  | accessor _ enumerable => enumerable

end JsDescriptor

namespace JsHeap

variable {ν : Type} {n : ℕ}

/-- The value stands for a JSON value: its arrays have a data property for every index and no other
properties but `length`, its other objects are plain and have enumerable data properties only. -/
inductive Denotes (heap : JsHeap ν n) : JsValue ν n → JsonTree ν → Prop
  | null : Denotes heap .null .null
  | bool (b : Bool) : Denotes heap (.bool b) (.bool b)
  | number (x : ν) : Denotes heap (.number x) (.num x)
  | string (s : JsString) : Denotes heap (.string s) (.str s)
  | array {address : Fin n} {items : List ((JsValue ν n × Bool) × JsonTree ν)}
    (haddress : heap address = .array (items.map fun item => some (.data item.1.1 item.1.2)) 0)
    (h : ∀ item ∈ items, Denotes heap item.1.1 item.2) :
    Denotes heap (.object address) (.arr (items.map Prod.snd))
  | object {address : Fin n} {prototype : JsPrototype}
    {properties : OrderedMap PropertyKey (JsDescriptor ν n)}
    {members : List (JsString × JsValue ν n × JsonTree ν)}
    (haddress : heap address = .plain prototype properties) (hprototype : prototype ≠ .other)
    (hproperties : properties.entries = members.map fun m => (.string m.1, .data m.2.1 true))
    (h : ∀ m ∈ members, Denotes heap m.2.1 m.2.2) :
    Denotes heap (.object address) (.obj (members.map fun m => (m.1, m.2.2)))

theorem map_eq_map_of_determined {α γ δ : Type*} {f : α → γ} {g : α → δ} {xs ys : List α}
    (h : xs.map f = ys.map f) (hdetermined : ∀ x ∈ xs, ∀ y ∈ ys, f x = f y → g x = g y) :
    xs.map g = ys.map g := by
  induction xs generalizing ys with
  | nil => rw [List.map_eq_nil_iff.mp h.symm]
  | cons x xs ih =>
    cases ys with
    | nil => cases h
    | cons y ys =>
      obtain ⟨hhead, htail⟩ := List.cons.inj h
      rw [List.map_cons, List.map_cons,
        hdetermined x List.mem_cons_self y List.mem_cons_self hhead,
        ih htail fun a ha b hb => hdetermined a (List.mem_cons_of_mem _ ha) b
          (List.mem_cons_of_mem _ hb)]

variable {heap : JsHeap ν n}

theorem Denotes.unique {v : JsValue ν n} {t u : JsonTree ν} (h : heap.Denotes v t)
    (h' : heap.Denotes v u) : t = u := by
  induction h generalizing u with
  | null => cases h'; rfl
  | bool b => cases h'; rfl
  | number x => cases h'; rfl
  | string s => cases h'; rfl
  | @array address items haddress _ ih =>
    cases h' with
    | @array _ items' haddress' h' =>
      have heq := (JsObject.array.inj (haddress.symm.trans haddress')).1
      rw [map_eq_map_of_determined heq fun item hitem item' hitem' hfields => ?_]
      have hvalue := (JsDescriptor.data.inj (Option.some.inj hfields)).1
      exact ih item hitem (hvalue ▸ h' item' hitem')
    | object haddress' => cases haddress.symm.trans haddress'
  | @object address prototype properties members haddress _ hproperties _ ih =>
    cases h' with
    | array haddress' => cases haddress.symm.trans haddress'
    | @object _ prototype' properties' members' haddress' _ hproperties' h' =>
      obtain ⟨-, rfl⟩ := JsObject.plain.inj (haddress.symm.trans haddress')
      rw [map_eq_map_of_determined (hproperties.symm.trans hproperties')
        fun m hm m' hm' hfields => ?_]
      obtain ⟨hname, hdata⟩ := Prod.mk.inj hfields
      have hvalue := (JsDescriptor.data.inj hdata).1
      rw [PropertyKey.string.inj hname, ih m hm (hvalue ▸ h' m' hm')]

/-- Its objects do not repeat names. -/
theorem Denotes.wellFormed {v : JsValue ν n} {t : JsonTree ν} (h : heap.Denotes v t) :
    t.WellFormed := by
  induction h with
  | null => exact .null
  | bool b => exact .bool b
  | number x => exact .num x
  | string s => exact .str s
  | array _ _ ih => exact .arr (List.forall_mem_map.mpr ih)
  | @object address prototype properties members _ _ hproperties _ ih =>
    refine .obj ?_ (List.forall_mem_map.mpr ih)
    have hnodup := properties.nodup
    rw [hproperties, List.map_map] at hnodup
    rw [List.map_map]
    exact List.Nodup.of_map PropertyKey.string (by rw [List.map_map]; exact hnodup)

end JsHeap
