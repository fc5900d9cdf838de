import ApiTruth.Foundation.Js.JsonText

/-!
# The order of members

The members of an object are enumerated with the array indices among their names first, in ascending
order; the other names keep the order in which the members were added.  A value is rearranged by
sorting the members of its objects, in one order after the other.  A sort that tells all names apart
makes the orders before it irrelevant.

## Main definitions

* `JsString.units`, `JsString.propertyOrder` : the order of code units, and of properties.
* `JsonTree.rearrange` : the value with its members sorted at every level.

## Main results

* `JsonTree.rearrange_rearrange` : rearranging twice.
* `JsonTree.rearrange_append` : only the last sort that tells names apart counts.
* `JsonTree.isNormal_canon` : representatives are normal if no name is repeated.
-/

open List

namespace JsString

/-- The order of code units, in which `sort` sorts. -/
def units : Collation JsString :=
  .ofKey (·.map UInt16.toNat) (List.map_injective_iff.mpr fun _ _ => UInt16.toNat_inj.mp)

def arrayIndex (name : JsString) : Option ℕ :=
  let digits := name.map fun unit => unit.toNat - 0x30
  let index := digits.foldl (fun index digit => 10 * index + digit) 0
  if name.all (fun unit => 0x30 ≤ unit && unit ≤ 0x39) && name ≠ [] &&
    (digits.head? ≠ some 0 || name.length = 1) && index < 2 ^ 32 - 1 then some index else none

/-- Array indices stand in ascending order before all other names. -/
def propertyOrder (name other : JsString) : Bool :=
  (arrayIndex name).getD (2 ^ 32) ≤ (arrayIndex other).getD (2 ^ 32)

end JsString

namespace JsonTree

variable {ν : Type} {α β : Type*} (orders : List (JsString → JsString → Bool))

/-- Members sorted in one order after the other; sorting is stable. -/
def arrange (members : List (JsString × α)) : List (JsString × α) :=
  orders.foldl (fun members le => members.insertionSort fun a b => le a.1 b.1) members

theorem arrange_perm (members : List (JsString × α)) : (arrange orders members).Perm members := by
  induction orders generalizing members with
  | nil => exact .refl _
  | cons le orders ih => exact (ih _).trans (perm_insertionSort _ _)

theorem arrange_map (f : α → β) (members : List (JsString × α)) :
    arrange orders (members.map fun m => (m.1, f m.2)) =
      (arrange orders members).map fun m => (m.1, f m.2) := by
  induction orders generalizing members with
  | nil => rfl
  | cons le orders ih =>
    have hsort := map_insertionSort (fun a b : JsString × α => le a.1 b.1 = true) (fun a b :
      JsString × β => le a.1 b.1 = true) (fun m => (m.1, f m.2)) members fun _ _ _ _ => Iff.rfl
    rw [arrange, foldl_cons, ← hsort]
    exact ih _

variable (first : List (JsString → JsString → Bool))

theorem arrange_append (c : Collation JsString) {members : List (JsString × α)}
    (h : (members.map Prod.fst).Nodup) :
    arrange (first ++ c.le :: orders) members = arrange (c.le :: orders) members := by
  have hsort := Collation.sortBy_eq_of_perm (c := c) (arrange_perm first members).symm h
  rw [arrange, foldl_append]
  exact congrArg (arrange orders) hsort.symm

section Rearrange

variable (number : ν → ν)

mutual

/-- The value with its members sorted at every level and its numbers replaced. -/
def rearrange : JsonTree ν → JsonTree ν
  | .null => .null
  | .bool b => .bool b
  | .num x => .num (number x)
  | .str s => .str s
  | .arr items => .arr (rearrangeItems items)
  | .obj members => .obj (arrange orders (rearrangeMembers members))

def rearrangeItems : List (JsonTree ν) → List (JsonTree ν)
  | [] => []
  | item :: items => rearrange item :: rearrangeItems items

def rearrangeMembers : List (JsString × JsonTree ν) → List (JsString × JsonTree ν)
  | [] => []
  | (name, value) :: members => (name, rearrange value) :: rearrangeMembers members

end

theorem rearrange_arr (items : List (JsonTree ν)) : rearrange orders number (.arr items) =
    .arr (items.map (rearrange orders number)) := by
  rw [rearrange]
  congr 1
  induction items with
  | nil => rfl
  | cons item items ih => rw [rearrangeItems, ih, map_cons]

theorem rearrange_obj (members : List (JsString × JsonTree ν)) :
    rearrange orders number (.obj members) =
      .obj ((arrange orders members).map fun m => (m.1, rearrange orders number m.2)) := by
  rw [rearrange, ← arrange_map]
  congr 2
  induction members with
  | nil => rfl
  | cons member members ih => rw [rearrangeMembers, ih, map_cons]

end Rearrange

variable {orders}

theorem rearrange_rearrange (orders' : List (JsString → JsString → Bool)) (f g : ν → ν)
    (t : JsonTree ν) : rearrange orders' g (rearrange orders f t) =
      rearrange (orders ++ orders') (g ∘ f) t := by
  induction t using induction with
  | null | bool | num | str => rfl
  | arr items ih =>
    rw [rearrange_arr, rearrange_arr, rearrange_arr, List.map_map]
    exact congrArg JsonTree.arr (map_congr_left ih)
  | obj members ih =>
    rw [rearrange_obj, rearrange_obj, rearrange_obj, arrange_map, List.map_map, arrange,
      arrange, arrange, foldl_append]
    refine congrArg JsonTree.obj (map_congr_left fun m hm => ?_)
    have hm := (arrange_perm orders members).mem_iff.mp ((arrange_perm orders' _).mem_iff.mp hm)
    exact Prod.ext rfl (ih m hm)

variable {t : JsonTree ν}

/-- Only the last sort that tells names apart counts. -/
theorem rearrange_append (c : Collation JsString) (f : ν → ν) (h : t.WellFormed) :
    rearrange (first ++ c.le :: orders) f t = rearrange (c.le :: orders) f t := by
  induction h with
  | null | bool | num | str => rfl
  | arr _ ih =>
    rw [rearrange_arr, rearrange_arr]
    exact congrArg JsonTree.arr (map_congr_left ih)
  | obj hnames _ ih =>
    rw [rearrange_obj, rearrange_obj, arrange_append _ _ _ hnames]
    exact congrArg JsonTree.obj (map_congr_left fun m hm =>
      Prod.ext rfl (ih m ((arrange_perm _ _).mem_iff.mp hm)))

variable {format : NumberFormat ν}

theorem IsNormal.wellFormed (h : t.IsNormal format) : t.WellFormed := by
  induction h with
  | null => exact .null
  | bool b => exact .bool b
  | num => exact .num _
  | str s => exact .str s
  | arr _ ih => exact .arr ih
  | obj hnames _ ih => exact .obj hnames ih

variable [DecidableEq ν]

theorem isNormal_rearrange (h : t.WellFormed) :
    (rearrange orders format.unsigned t).IsNormal format := by
  induction h with
  | null => exact .null
  | bool b => exact .bool b
  | num x => exact .num (format.unsigned_ne x)
  | str s => exact .str s
  | arr _ ih =>
    rw [rearrange_arr]
    exact .arr (List.forall_mem_map.mpr ih)
  | @obj members hnames _ ih =>
    have hperm := arrange_perm orders members
    rw [rearrange_obj]
    refine .obj ?_ (List.forall_mem_map.mpr fun m hm => ih m (hperm.mem_iff.mp hm))
    rw [List.map_map]
    exact (hperm.map Prod.fst).nodup_iff.mpr hnames

theorem canon_eq_rearrange (t : JsonTree ν) :
    canon format t = rearrange [JsString.collation.le] format.unsigned t := by
  induction t using induction with
  | null | bool | num | str => rfl
  | arr items ih =>
    rw [canon_arr, rearrange_arr]
    exact congrArg JsonTree.arr (map_congr_left ih)
  | obj members ih =>
    rw [canon_obj, rearrange_obj, ← arrange_map]
    exact congrArg (fun members => JsonTree.obj (sortMembers members))
      (map_congr_left fun m hm => Prod.ext rfl (ih m hm))

/-- Representatives are normal if no name is repeated. -/
theorem isNormal_canon (format : NumberFormat ν) (h : t.WellFormed) :
    (canon format t).IsNormal format := by
  rw [canon_eq_rearrange]
  exact isNormal_rearrange h

end JsonTree
