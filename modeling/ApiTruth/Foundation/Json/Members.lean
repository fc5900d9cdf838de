import ApiTruth.Foundation.Json.Value
import Mathlib.Data.List.Dedup

/-!
# Members of objects and normal forms

Programs compare JSON values after they have dropped some members and sorted some arrays.

## Main definitions

* `Json.member`, `Json.without` : read and drop a member.
* `Json.mapMembers` : change every member by the function for its name.
* `canonicalSet` : the elements of a list, sorted and without repetition.

## Main results

* `canonicalSet_eq_iff` : canonical sets are equal exactly for lists with the same elements.
-/

/-! ### Canonical sets -/

section CanonicalSet

variable {α : Type*} [LinearOrder α]

/-- The elements of a list in increasing order, each once. -/
def canonicalSet (xs : List α) : List α := xs.dedup.insertionSort (· ≤ ·)

@[simp] theorem mem_canonicalSet {xs : List α} {a : α} : a ∈ canonicalSet xs ↔ a ∈ xs := by
  simp [canonicalSet]

theorem nodup_canonicalSet (xs : List α) : (canonicalSet xs).Nodup :=
  (List.perm_insertionSort _ _).nodup_iff.mpr (List.nodup_dedup xs)

theorem canonicalSet_eq_iff {xs ys : List α} :
    canonicalSet xs = canonicalSet ys ↔ ∀ a, a ∈ xs ↔ a ∈ ys := by
  constructor
  · intro h a
    rw [← mem_canonicalSet, h, mem_canonicalSet]
  · intro h
    have hperm : (canonicalSet xs).Perm (canonicalSet ys) :=
      (List.perm_ext_iff_of_nodup (nodup_canonicalSet xs) (nodup_canonicalSet ys)).mpr
        fun a => by simp [h a]
    exact hperm.eq_of_pairwise (fun a b _ _ => le_antisymm) (List.pairwise_insertionSort _ _)
      (List.pairwise_insertionSort _ _)

@[simp] theorem canonicalSet_canonicalSet (xs : List α) :
    canonicalSet (canonicalSet xs) = canonicalSet xs :=
  canonicalSet_eq_iff.mpr fun _ => mem_canonicalSet

end CanonicalSet

namespace Json

open List

/-! ### Members -/

/-- The value of a member, `null` where there is none. -/
def member (name : String) : Json → Json
  | .obj ms => (ms.lookup name).getD .null
  | _ => .null

/-- Change every member by the function for its name; a member without one is dropped. -/
def mapMembers (fs : String → Option (Json → Json)) : Json → Json
  | .obj ms => .obj (ms.filterMap fun m => (fs m.1).map fun f => (m.1, f m.2))
  | j => j

/-- Drop a member. -/
def without (name : String) : Json → Json :=
  mapMembers fun n => if n = name then none else some id

/-- The members of a value, none unless it is an object. -/
def members : Json → List (String × Json)
  | .obj ms => ms
  | _ => []

/-- The items of a value, none unless it is an array. -/
def items : Json → List Json
  | .arr xs => xs
  | _ => []

def IsObject (j : Json) : Prop := ∃ ms, j = .obj ms

theorem member_eq (name : String) (j : Json) :
    member name j = (j.members.lookup name).getD .null := by
  cases j <;> rfl

theorem canon_isObject_iff {j : Json} : (canon j).IsObject ↔ j.IsObject := by
  cases j <;> simp [IsObject, canon_obj]

theorem isObject_iff_of_canon_eq {i j : Json} (h : canon i = canon j) :
    i.IsObject ↔ j.IsObject := by
  rw [← canon_isObject_iff, h, canon_isObject_iff]

theorem lookup_members_canon_eq {i j : Json} (h : canon i = canon j) (name : String) :
    (i.members.lookup name).map canon = (j.members.lookup name).map canon := by
  by_cases hi : i.IsObject
  · obtain ⟨ms, rfl⟩ := hi
    obtain ⟨ns, rfl⟩ := (isObject_iff_of_canon_eq h).mp ⟨ms, rfl⟩
    exact lookup_canon_eq h name
  · have hj : ¬ j.IsObject := fun hj => hi ((isObject_iff_of_canon_eq h).mpr hj)
    have hnone {k : Json} (hk : ¬ k.IsObject) : k.members = [] := by
      cases k <;> first | rfl | exact absurd ⟨_, rfl⟩ hk
    rw [hnone hi, hnone hj]

theorem canon_member {i j : Json} (h : canon i = canon j) (name : String) :
    canon (member name i) = canon (member name j) := by
  have hlookup := lookup_members_canon_eq h name
  rw [member_eq, member_eq]
  cases hms : i.members.lookup name <;> cases hns : j.members.lookup name <;> simp_all

theorem eq_str_of_canon_eq {j : Json} {s : String} (h : canon j = .str s) : j = .str s := by
  cases j <;> simp_all [canon_obj]

/-! ### Dropping a member -/

section Filter

variable {α : Type*} (p : String × α → Bool)

theorem filter_orderedInsert {m : String × α} {ms : List (String × α)}
    (h : ms.Pairwise (·.1 ≤ ·.1)) :
    (ms.orderedInsert (·.1 ≤ ·.1) m).filter p =
      if p m then (ms.filter p).orderedInsert (·.1 ≤ ·.1) m else ms.filter p := by
  induction ms with
  | nil => cases hm : p m <;> simp [hm]
  | cons n ms ih =>
    rw [pairwise_cons] at h
    by_cases hle : m.1 ≤ n.1
    · -- `m` comes before all that is kept
      rw [orderedInsert_cons, if_pos hle, filter_cons]
      split_ifs with hm
      · cases hkept : (n :: ms).filter p with
        | nil => simp
        | cons k ks =>
          have hk : k ∈ n :: ms := mem_of_mem_filter (p := p) (hkept ▸ mem_cons_self)
          have hmk : m.1 ≤ k.1 := by
            rcases List.mem_cons.mp hk with rfl | hk
            · exact hle
            · exact hle.trans (h.1 k hk)
          rw [orderedInsert_cons, if_pos hmk]
      · rfl
    · rw [orderedInsert_cons, if_neg hle, filter_cons, filter_cons, ih h.2]
      cases hm : p m <;> cases hn : p n <;> simp [hle]

theorem sortMembers_filter (ms : List (String × α)) :
    sortMembers (ms.filter p) = (sortMembers ms).filter p := by
  induction ms with
  | nil => rfl
  | cons m ms ih =>
    have hinsert := filter_orderedInsert p (m := m) (pairwise_sortMembers ms)
    rw [filter_cons]
    show _ = ((sortMembers ms).orderedInsert (·.1 ≤ ·.1) m).filter p
    rw [hinsert, ← ih]
    split_ifs <;> rfl

end Filter

theorem without_obj (name : String) (ms : List (String × Json)) :
    without name (.obj ms) = .obj (ms.filter fun m => m.1 ≠ name) := by
  show Json.obj _ = Json.obj _
  congr 1
  induction ms with
  | nil => rfl
  | cons m ms ih =>
    rw [filterMap_cons, filter_cons, ← ih]
    by_cases h : m.1 = name <;> simp [h]

theorem canon_without (name : String) (j : Json) :
    canon (without name j) = without name (canon j) := by
  cases j with
  | obj ms =>
    rw [without_obj, canon_obj, canon_obj, without_obj, ← sortMembers_filter, List.filter_map]
    rfl
  | arr xs => rw [canon_arr]; exact canon_arr xs
  | _ => rfl

end Json
