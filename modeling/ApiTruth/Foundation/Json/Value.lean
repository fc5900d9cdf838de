import ApiTruth.Foundation.OrderedMap
import Mathlib.Data.List.Perm.Subperm
import Mathlib.Data.List.TakeWhile

/-!
# JSON values

A JSON value is modelled as the tree a parser returns: the members of an object keep the order in
which they were read.  Two values denote the same JSON value when they agree up to the order of
members at every level; `Json.canon` picks the representative whose members are sorted by name.

A number is identified with its canonical decimal numeral, so that equality of numbers is equality
of numerals.

## Main definitions

* `JsonNumber`, `Json` : numbers and values.
* `Json.rearrange` : rearrange the members of every object.
* `Json.canon` : the representative with sorted members.
* `Json.WellFormed` : the names of every object are distinct.

## Main results

* `Json.induction` : induction with a hypothesis for every item and every member value.
* `Json.canon_obj_eq_iff` : equal representatives are those of one value up to member order.
* `Json.lookup_canon_eq` : equal objects give equal values to a name.
-/

/-! ### Numerals -/

def isNumberChar (c : Char) : Bool := c.isDigit || c == '-' || c == '+' || c == '.' || c == 'e'

namespace Numeral

open Bool

open List

/-- An optional exponent `e±digits`. -/
def isExponent : List Char → Bool
  | [] => true
  | 'e' :: sign :: digits =>
    (sign == '+' || sign == '-') && !digits.isEmpty && digits.all Char.isDigit
  | _ => false

/-- An optional fraction, followed by an optional exponent. -/
def isFraction : List Char → Bool
  | '.' :: cs => !(cs.takeWhile Char.isDigit).isEmpty && isExponent (cs.dropWhile Char.isDigit)
  | cs => isExponent cs

/-- An integer part without leading zeros, a fraction and an exponent. -/
def isUnsigned (cs : List Char) : Bool :=
  let digits := cs.takeWhile Char.isDigit
  !digits.isEmpty && (digits == ['0'] || digits.head? != some '0')
    && isFraction (cs.dropWhile Char.isDigit)

/-- The decimal numerals that serialization produces: an optional sign and an unsigned numeral,
with one numeral for zero. -/
def isNumeral : List Char → Bool
  | '-' :: cs => cs != ['0'] && isUnsigned cs
  | cs => isUnsigned cs

theorem isNumberChar_of_isDigit {c : Char} (h : c.isDigit = true) : isNumberChar c = true := by
  simp [isNumberChar, h]

theorem isExponent_chars : ∀ {cs : List Char}, isExponent cs = true →
    ∀ c ∈ cs, isNumberChar c = true
  | [], _, c, hc => by simp at hc
  | a :: cs, h, c, hc => by
    unfold isExponent at h
    split at h
    · simp_all
    · rename_i sign digits heq
      simp only [and_eq_true, or_eq_true, beq_iff_eq, List.all_eq_true] at h
      rw [heq] at hc
      simp only [mem_cons] at hc
      rcases hc with rfl | rfl | hc
      · rfl
      · rcases h.1.1 with rfl | rfl <;> rfl
      · exact isNumberChar_of_isDigit (h.2 c hc)
    · simp at h

variable {cs : List Char}

theorem isFraction_chars (h : isFraction cs = true) :
    ∀ c ∈ cs, isNumberChar c = true := by
  unfold isFraction at h
  split at h
  · rename_i rest
    simp only [and_eq_true] at h
    intro c hc
    rw [← takeWhile_append_dropWhile (p := Char.isDigit) (l := rest)] at hc
    simp only [mem_cons, mem_append] at hc
    rcases hc with rfl | hc | hc
    · rfl
    · exact isNumberChar_of_isDigit (mem_takeWhile_imp (p := Char.isDigit) hc)
    · exact isExponent_chars h.2 c hc
  · exact isExponent_chars h

theorem isUnsigned_chars (h : isUnsigned cs = true) :
    cs ≠ [] ∧ ∀ c ∈ cs, isNumberChar c = true := by
  simp only [isUnsigned, and_eq_true] at h
  constructor
  · rintro rfl
    simp at h
  · intro c hc
    rw [← takeWhile_append_dropWhile (p := Char.isDigit) (l := cs), mem_append] at hc
    rcases hc with hc | hc
    · exact isNumberChar_of_isDigit (mem_takeWhile_imp (p := Char.isDigit) hc)
    · exact isFraction_chars h.2 c hc

theorem isNumeral_chars (h : isNumeral cs = true) :
    cs ≠ [] ∧ ∀ c ∈ cs, isNumberChar c = true := by
  unfold isNumeral at h
  split at h
  · rename_i rest
    simp only [and_eq_true] at h
    refine ⟨by simp, fun c hc => ?_⟩
    rcases List.mem_cons.mp hc with rfl | hc
    · rfl
    · exact (isUnsigned_chars h.2).2 c hc
  · exact isUnsigned_chars h

end Numeral

/-- A JSON number, given by its canonical numeral. -/
structure JsonNumber where
  numeral : List Char
  isNumeral : Numeral.isNumeral numeral = true
deriving DecidableEq

namespace JsonNumber

def isNegative (n : JsonNumber) : Bool := n.numeral.head? == some '-'

/-- The number is an integer: its numeral has no fraction and no negative exponent, or it is so
large that it is written with a positive exponent. -/
def isInteger (n : JsonNumber) : Bool :=
  n.numeral.contains '+' || !(n.numeral.contains '.' || n.numeral.contains 'e')

end JsonNumber

/-! ### Values -/

/-- A JSON value; the members of an object keep their order. -/
inductive Json
  | null
  | bool (value : Bool)
  | num (value : JsonNumber)
  | str (value : String)
  | arr (items : List Json)
  | obj (members : List (String × Json))

namespace Json

open List

variable {P : Json → Prop} {ms ns : List (String × Json)}

/-- Induction on JSON values. -/
theorem induction (null : P .null) (bool : ∀ b, P (.bool b))
    (num : ∀ n, P (.num n)) (str : ∀ s, P (.str s)) (arr : ∀ xs, (∀ x ∈ xs, P x) → P (.arr xs))
    (obj : ∀ ms, (∀ m ∈ ms, P m.2) → P (.obj ms)) (j : Json) : P j :=
  Json.rec (motive_1 := P) (motive_2 := fun xs => ∀ x ∈ xs, P x)
    (motive_3 := fun ms => ∀ m ∈ ms, P m.2) (motive_4 := fun m => P m.2)
    null bool num str arr obj
    (by simp) (fun x xs hx hxs y hy => by
      rcases List.mem_cons.mp hy with rfl | hy
      exacts [hx, hxs y hy])
    (by simp) (fun m ms hm hms y hy => by
      rcases List.mem_cons.mp hy with rfl | hy
      exacts [hm, hms y hy])
    (fun _ _ h => h) j

theorem sizeInduction (step : ∀ s, (∀ t, sizeOf t < sizeOf s → P t) → P s) (s : Json) : P s :=
  (measure (sizeOf : Json → ℕ)).wf.induction s step

mutual

/-- Structural equality. -/
def beq : Json → Json → Bool
  | .null, .null => true
  | .bool a, .bool b => a == b
  | .num a, .num b => decide (a = b)
  | .str a, .str b => a == b
  | .arr xs, .arr ys => beqItems xs ys
  | .obj ms, .obj ns => beqMembers ms ns
  | _, _ => false

def beqItems : List Json → List Json → Bool
  | [], [] => true
  | x :: xs, y :: ys => beq x y && beqItems xs ys
  | _, _ => false

def beqMembers : List (String × Json) → List (String × Json) → Bool
  | [], [] => true
  | (k, v) :: ms, (l, w) :: ns => k == l && beq v w && beqMembers ms ns
  | _, _ => false

end

theorem beqItems_iff {xs : List Json} (ih : ∀ x ∈ xs, ∀ y, beq x y = true ↔ x = y)
    (ys : List Json) : beqItems xs ys = true ↔ xs = ys := by
  induction xs generalizing ys with
  | nil => cases ys <;> simp [beqItems]
  | cons x xs hxs =>
    cases ys with
    | nil => simp [beqItems]
    | cons y ys =>
      simp [beqItems, ih x mem_cons_self, hxs fun x hx => ih x (mem_cons_of_mem _ hx)]

theorem beqMembers_iff {ms : List (String × Json)}
    (ih : ∀ m ∈ ms, ∀ y, beq m.2 y = true ↔ m.2 = y) (ns : List (String × Json)) :
    beqMembers ms ns = true ↔ ms = ns := by
  induction ms generalizing ns with
  | nil => cases ns <;> simp [beqMembers]
  | cons m ms hms =>
    obtain ⟨k, v⟩ := m
    cases ns with
    | nil => simp [beqMembers]
    | cons n ns =>
      obtain ⟨l, w⟩ := n
      have hv := ih (k, v) mem_cons_self w
      simp [beqMembers, hv, hms fun m hm => ih m (mem_cons_of_mem _ hm)]

theorem beq_iff_eq (a b : Json) : beq a b = true ↔ a = b := by
  induction a using induction generalizing b with
  | null => cases b <;> simp [beq]
  | bool x => cases b <;> simp [beq]
  | num n => cases b <;> simp [beq]
  | str s => cases b <;> simp [beq]
  | arr xs ih => cases b <;> simp [beq, beqItems_iff ih]
  | obj ms ih => cases b <;> simp [beq, beqMembers_iff ih]

instance : DecidableEq Json := fun a b => decidable_of_iff _ (beq_iff_eq a b)

/-! ### Sorted members -/

mutual

/-- Rearrange the members of every object, from the inside out. -/
def rearrange (f : List (String × Json) → List (String × Json)) : Json → Json
  | .arr xs => .arr (rearrangeItems f xs)
  | .obj ms => .obj (f (rearrangeMembers f ms))
  | .null => .null
  | .bool b => .bool b
  | .num n => .num n
  | .str s => .str s

/-- `rearrange` on every item. -/
def rearrangeItems (f : List (String × Json) → List (String × Json)) : List Json → List Json
  | [] => []
  | x :: xs => rearrange f x :: rearrangeItems f xs

/-- `rearrange` on every member value. -/
def rearrangeMembers (f : List (String × Json) → List (String × Json)) :
    List (String × Json) → List (String × Json)
  | [] => []
  | (k, v) :: ms => (k, rearrange f v) :: rearrangeMembers f ms

end

section Rearrange

variable (f : List (String × Json) → List (String × Json))

theorem rearrangeItems_eq_map (xs : List Json) : rearrangeItems f xs = xs.map (rearrange f) := by
  induction xs with
  | nil => rfl
  | cons x xs ih => simp [rearrangeItems, ih]

variable (ms : List (String × Json))

theorem rearrangeMembers_eq_map :
    rearrangeMembers f ms = ms.map fun m => (m.1, rearrange f m.2) := by
  induction ms with
  | nil => rfl
  | cons m ms ih => simp [rearrangeMembers, ih]

@[simp] theorem rearrange_null : rearrange f .null = .null := rfl
@[simp] theorem rearrange_bool (b : Bool) : rearrange f (.bool b) = .bool b := rfl
@[simp] theorem rearrange_num (n : JsonNumber) : rearrange f (.num n) = .num n := rfl
@[simp] theorem rearrange_str (s : String) : rearrange f (.str s) = .str s := rfl

@[simp] theorem rearrange_arr (xs : List Json) :
    rearrange f (.arr xs) = .arr (xs.map (rearrange f)) := by
  rw [rearrange, rearrangeItems_eq_map]

theorem rearrange_obj :
    rearrange f (.obj ms) = .obj (f (ms.map fun m => (m.1, rearrange f m.2))) := by
  rw [rearrange, rearrangeMembers_eq_map]

end Rearrange

def sortMembers {α : Type*} (ms : List (String × α)) : List (String × α) :=
  ms.insertionSort (·.1 ≤ ·.1)

/-- The representative of a JSON value with sorted members. -/
def canon : Json → Json := rearrange sortMembers

@[simp] theorem canon_null : canon .null = .null := rfl
@[simp] theorem canon_bool (b : Bool) : canon (.bool b) = .bool b := rfl
@[simp] theorem canon_num (n : JsonNumber) : canon (.num n) = .num n := rfl
@[simp] theorem canon_str (s : String) : canon (.str s) = .str s := rfl

@[simp] theorem canon_arr (xs : List Json) : canon (.arr xs) = .arr (xs.map canon) :=
  rearrange_arr sortMembers xs

theorem canon_obj :
    canon (.obj ms) = .obj (sortMembers (ms.map fun m => (m.1, canon m.2))) :=
  rearrange_obj sortMembers ms

section SortMembers

variable {α β : Type*}

theorem sortMembers_perm (ms : List (String × α)) : (sortMembers ms).Perm ms :=
  perm_insertionSort _ ms

variable {ms : List (String × α)}

theorem mem_sortMembers {m : String × α} :
    m ∈ sortMembers ms ↔ m ∈ ms := (sortMembers_perm ms).mem_iff

theorem pairwise_sortMembers (ms : List (String × α)) :
    (sortMembers ms).Pairwise (·.1 ≤ ·.1) := by
  exact pairwise_insertionSort _ ms

theorem sortMembers_map (f : α → β) (ms : List (String × α)) :
    sortMembers (ms.map fun m => (m.1, f m.2)) = (sortMembers ms).map fun m => (m.1, f m.2) :=
  (map_insertionSort (r := fun a b : String × α => a.1 ≤ b.1)
    (s := fun a b : String × β => a.1 ≤ b.1) (fun m => (m.1, f m.2)) ms fun _ _ _ _ => Iff.rfl).symm

theorem sortMembers_eq_self (h : ms.Pairwise (·.1 ≤ ·.1)) :
    sortMembers ms = ms := Pairwise.insertionSort_eq h

theorem sortMembers_eq_of_perm {ms ns : List (String × α)} (h : ms.Perm ns)
    (hnodup : (ms.map Prod.fst).Nodup) : sortMembers ms = sortMembers ns := by
  have hperm : (sortMembers ms).Perm (sortMembers ns) :=
    (sortMembers_perm ms).trans (h.trans (sortMembers_perm ns).symm)
  refine hperm.eq_of_pairwise ?_ (pairwise_sortMembers ms) (pairwise_sortMembers ns)
  intro a b ha hb hab hba
  have hb' : b ∈ ms := h.mem_iff.mpr (mem_sortMembers.mp hb)
  exact inj_on_of_nodup_map hnodup (mem_sortMembers.mp ha) hb' (le_antisymm hab hba)

theorem lookup_orderedInsert (name : String) (m : String × α) (ms : List (String × α)) :
    (ms.orderedInsert (·.1 ≤ ·.1) m).lookup name = (m :: ms).lookup name := by
  induction ms with
  | nil => rfl
  | cons n ms ih =>
    by_cases h : m.1 ≤ n.1
    · simp [List.orderedInsert, h]
    · have hne : n.1 ≠ m.1 := fun heq => h heq.symm.le
      rw [List.orderedInsert, if_neg h]
      simp only [OrderedMap.lookup_cons_ite, ih]
      by_cases hn : name = n.1
      · subst hn
        simp [hne]
      · simp [hn]

theorem lookup_sortMembers (name : String) (ms : List (String × α)) :
    (sortMembers ms).lookup name = ms.lookup name := by
  induction ms with
  | nil => rfl
  | cons m ms ih =>
    rw [sortMembers, insertionSort_cons, lookup_orderedInsert, OrderedMap.lookup_cons_ite,
      OrderedMap.lookup_cons_ite, ← ih, sortMembers]

theorem lookup_map_snd (f : α → β) (name : String) (ms : List (String × α)) :
    (ms.map fun m => (m.1, f m.2)).lookup name = (ms.lookup name).map f := by
  induction ms with
  | nil => rfl
  | cons m ms ih =>
    simp only [map_cons, OrderedMap.lookup_cons_ite, ih]
    split_ifs <;> rfl

theorem mem_of_lookup {name : String} {a : α} (h : ms.lookup name = some a) : (name, a) ∈ ms := by
  induction ms with
  | nil => simp at h
  | cons m ms ih =>
    rw [OrderedMap.lookup_cons_ite] at h
    split_ifs at h with hname
    · subst hname
      cases h
      exact mem_cons_self
    · exact mem_cons_of_mem _ (ih h)

end SortMembers

/-! ### Equality of JSON values -/

/-- The names of every object are distinct, as a parser leaves them. -/
inductive WellFormed : Json → Prop
  | null : WellFormed .null
  | bool (b : Bool) : WellFormed (.bool b)
  | num (n : JsonNumber) : WellFormed (.num n)
  | str (s : String) : WellFormed (.str s)
  | arr {xs : List Json} (items : ∀ x ∈ xs, WellFormed x) : WellFormed (.arr xs)
  | obj {ms : List (String × Json)} (names : (ms.map Prod.fst).Nodup)
      (values : ∀ m ∈ ms, WellFormed m.2) : WellFormed (.obj ms)

mutual

def isWellFormed : Json → Bool
  | .arr xs => areWellFormed xs
  | .obj ms => decide (ms.map Prod.fst).Nodup && areWellFormedMembers ms
  | _ => true

/-- `isWellFormed` on every item. -/
def areWellFormed : List Json → Bool
  | [] => true
  | x :: xs => isWellFormed x && areWellFormed xs

/-- `isWellFormed` on every member value. -/
def areWellFormedMembers : List (String × Json) → Bool
  | [] => true
  | (_, v) :: ms => isWellFormed v && areWellFormedMembers ms

end

theorem areWellFormed_iff {xs : List Json} :
    areWellFormed xs = true ↔ ∀ x ∈ xs, isWellFormed x = true := by
  induction xs with
  | nil => simp [areWellFormed]
  | cons x xs ih => simp [areWellFormed, ih]

theorem areWellFormedMembers_iff {ms : List (String × Json)} :
    areWellFormedMembers ms = true ↔ ∀ m ∈ ms, isWellFormed m.2 = true := by
  induction ms with
  | nil => simp [areWellFormedMembers]
  | cons m ms ih => simp [areWellFormedMembers, ih]

theorem isWellFormed_iff {j : Json} : isWellFormed j = true ↔ WellFormed j := by
  induction j using induction with
  | null => exact iff_of_true rfl .null
  | bool b => exact iff_of_true rfl (.bool b)
  | num n => exact iff_of_true rfl (.num n)
  | str s => exact iff_of_true rfl (.str s)
  | arr xs ih =>
    rw [isWellFormed, areWellFormed_iff]
    constructor
    · exact fun h => .arr fun x hx => (ih x hx).mp (h x hx)
    · intro h
      cases h with
      | arr items => exact fun x hx => (ih x hx).mpr (items x hx)
  | obj ms ih =>
    rw [isWellFormed, Bool.and_eq_true, decide_eq_true_iff, areWellFormedMembers_iff]
    constructor
    · exact fun h => .obj h.1 fun m hm => (ih m hm).mp (h.2 m hm)
    · intro h
      cases h with
      | obj names values => exact ⟨names, fun m hm => (ih m hm).mpr (values m hm)⟩

@[simp] theorem canon_canon (j : Json) : canon (canon j) = canon j := by
  induction j using induction with
  | null | bool _ | num _ | str _ => rfl
  | arr xs ih =>
    rw [canon_arr, canon_arr, List.map_map]
    exact congrArg Json.arr (map_congr_left ih)
  | obj ms ih =>
    have hmap : (ms.map fun m => (m.1, canon m.2)).map (fun m => (m.1, canon m.2)) =
        ms.map fun m => (m.1, canon m.2) := by
      rw [List.map_map]
      exact map_congr_left fun m hm => by simp [ih m hm]
    rw [canon_obj, canon_obj, ← sortMembers_map canon, hmap,
      sortMembers_eq_self (pairwise_sortMembers _)]

/-- Objects are equal when their members agree in some order. -/
theorem canon_obj_eq_iff (hms : (ms.map Prod.fst).Nodup) :
    canon (.obj ms) = canon (.obj ns) ↔
      (ms.map fun m => (m.1, canon m.2)).Perm (ns.map fun m => (m.1, canon m.2)) := by
  rw [canon_obj, canon_obj, Json.obj.injEq]
  constructor
  · intro h
    exact (sortMembers_perm _).symm.trans (h ▸ sortMembers_perm _)
  · intro h
    refine sortMembers_eq_of_perm h ?_
    rw [List.map_map]
    exact hms

/-- Equal objects give equal values to a name. -/
theorem lookup_canon_eq (h : canon (.obj ms) = canon (.obj ns))
    (name : String) : (ms.lookup name).map canon = (ns.lookup name).map canon := by
  rw [canon_obj, canon_obj, Json.obj.injEq] at h
  rw [← lookup_map_snd, ← lookup_map_snd, ← lookup_sortMembers, h, lookup_sortMembers]

/-- Objects are equal when they have as many members and agree on the value of every name. -/
theorem canon_obj_eq_iff_lookup (hms : (ms.map Prod.fst).Nodup) (hns : (ns.map Prod.fst).Nodup) :
    canon (.obj ms) = canon (.obj ns) ↔ ms.length = ns.length ∧
      ∀ m ∈ ms, ∃ w, ns.lookup m.1 = some w ∧ canon m.2 = canon w := by
  have hmem {m : String × Json} : (∃ w, ns.lookup m.1 = some w ∧ canon m.2 = canon w) ↔
      (m.1, canon m.2) ∈ ns.map fun n => (n.1, canon n.2) := by
    simp only [OrderedMap.lookup_eq_some_iff hns, List.mem_map, Prod.mk.injEq]
    constructor
    · rintro ⟨w, hw, hcanon⟩
      exact ⟨(m.1, w), hw, rfl, hcanon.symm⟩
    · rintro ⟨n, hn, hname, hcanon⟩
      exact ⟨n.2, hname ▸ hn, hcanon.symm⟩
  simp only [canon_obj_eq_iff hms, hmem]
  constructor
  · intro h
    refine ⟨by simpa using h.length_eq, fun m hm => h.subset ?_⟩
    exact List.mem_map_of_mem (f := fun m : String × Json => (m.1, canon m.2)) hm
  · rintro ⟨hlength, hsubset⟩
    have hnodup : (ms.map fun m => (m.1, canon m.2)).Nodup := by
      refine Nodup.of_map Prod.fst ?_
      rw [List.map_map]
      exact hms
    have hsub : (ms.map fun m => (m.1, canon m.2)) ⊆ ns.map fun n => (n.1, canon n.2) := by
      intro x hx
      obtain ⟨m, hm, rfl⟩ := List.mem_map.mp hx
      exact hsubset m hm
    exact (subperm_of_subset hnodup hsub).perm_of_length_le (by simp [hlength])

end Json
