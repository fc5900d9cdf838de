import ApiTruth.Foundation.Decimal
import ApiTruth.Foundation.Json.Members
import ApiTruth.Foundation.Patterns
import Mathlib.Algebra.Order.BigOperators.Group.List

/-!
# The size of JSON values

Values that cross a boundary are copied under limits on what the copy visits: the number of values,
the bytes of their strings and names, the depth, the names of one object and the units of one
string.  An array is visited like an object whose names are its indices and `length`.

## Main definitions

* `Json.Size`, `Json.size` : what a copy of a value visits.
* `Json.Limits`, `Json.copyWithin` : a copy that is given up beyond its limits.
* `JsonNumber.ofNat` : a natural number as a JSON number.

## Main results

* `Json.copyWithin_eq_some_iff` : a copy is the value itself.
* `Json.size_arr_le`, `Json.size_obj_le` : bounds from those of the items and of the members.
-/

open ApiTruth (byteLength unitLength byteLength_le)

/-! ### Numbers -/

theorem Numeral.isNumeral_toString (n : ℕ) : Numeral.isNumeral (toString n).toList = true := by
  have hdigits : ∀ c ∈ (toString n).toList, c.isDigit = true := fun c hc => by
    rw [Nat.toString_eq_repr, Nat.toList_repr] at hc
    exact Nat.isDigit_of_mem_toDigits (by decide) (by decide) hc
  have htake : (toString n).toList.takeWhile Char.isDigit = (toString n).toList :=
    List.takeWhile_eq_self_iff.mpr hdigits
  have hdrop : (toString n).toList.dropWhile Char.isDigit = [] :=
    List.dropWhile_eq_nil_iff.mpr hdigits
  have hunsigned : Numeral.isUnsigned (toString n).toList = true := by
    simp only [Numeral.isUnsigned, htake, hdrop, Numeral.isFraction, Numeral.isExponent]
    rcases Nat.eq_zero_or_pos n with rfl | hn
    · decide
    · obtain ⟨first, rest, heq, hlow, -⟩ := Decimal.exists_toDigits_eq_cons hn
      have hzero : first ≠ '0' := by
        rintro rfl
        exact absurd hlow (by decide)
      simp [Nat.toString_eq_repr, Nat.toList_repr, heq, hzero]
  unfold Numeral.isNumeral
  split
  · next h => exact absurd (hdigits '-' (h ▸ List.mem_cons_self)) (by decide)
  · exact hunsigned

def JsonNumber.ofNat (n : ℕ) : JsonNumber := ⟨(toString n).toList, Numeral.isNumeral_toString n⟩

namespace Json

open List

/-! ### Sizes -/

/-- What a copy visits: values, bytes, levels below the value, names of one object and units of one
string. -/
structure Size where
  nodes : ℕ
  bytes : ℕ
  depth : ℕ
  keys : ℕ
  units : ℕ
deriving DecidableEq, Repr

namespace Size

/-- The size of two parts at one level. -/
def both (s t : Size) : Size :=
  ⟨s.nodes + t.nodes, s.bytes + t.bytes, max s.depth t.depth, max s.keys t.keys,
    max s.units t.units⟩

/-- The size of a string or a name, without a value of its own. -/
def text (s : String) : Size := ⟨0, byteLength s, 0, 0, unitLength s⟩

/-- The size of a part, seen from the value it is part of. -/
def below (s : Size) : Size := { s with depth := s.depth + 1 }

/-- The size of a value with so many names and parts of this size. -/
def node (keys : ℕ) (parts : Size) : Size :=
  { parts with nodes := parts.nodes + 1, keys := max keys parts.keys }

/-- Nothing. -/
def zero : Size := ⟨0, 0, 0, 0, 0⟩

/-- Smaller in every respect but the units of one string. -/
structure Le (s t : Size) : Prop where
  nodes : s.nodes ≤ t.nodes
  bytes : s.bytes ≤ t.bytes
  depth : s.depth ≤ t.depth
  keys : s.keys ≤ t.keys

theorem Le.trans {s t u : Size} (hst : s.Le t) (htu : t.Le u) : s.Le u :=
  ⟨hst.nodes.trans htu.nodes, hst.bytes.trans htu.bytes, hst.depth.trans htu.depth,
    hst.keys.trans htu.keys⟩

end Size

mutual

/-- What a copy of the value visits. -/
def size : Json → Size
  | .null => ⟨1, 0, 0, 0, 0⟩
  | .bool _ => ⟨1, 0, 0, 0, 0⟩
  | .num _ => ⟨1, 0, 0, 0, 0⟩
  | .str s => ⟨1, byteLength s, 0, 0, unitLength s⟩
  | .arr xs => .node (xs.length + 1) ((Size.text "length").both (itemsSize 0 xs))
  | .obj ms => .node ms.length (membersSize ms)

def itemsSize (index : ℕ) : List Json → Size
  | [] => .zero
  | x :: xs => ((Size.text (toString index)).both x.size.below).both (itemsSize (index + 1) xs)

def membersSize : List (String × Json) → Size
  | [] => .zero
  | (name, value) :: ms => ((Size.text name).both value.size.below).both (membersSize ms)

end

/-! ### Copies -/

/-- The limits of a copy; `units` may be unlimited. -/
structure Limits where
  bytes : ℕ
  nodes : ℕ
  depth : ℕ
  keys : ℕ
  units : Option ℕ

def Size.isWithin (s : Size) (limits : Limits) : Bool :=
  decide (s.bytes ≤ limits.bytes) && decide (s.nodes ≤ limits.nodes) &&
    decide (s.depth ≤ limits.depth) && decide (s.keys ≤ limits.keys) &&
    limits.units.all fun units => decide (s.units ≤ units)

/-- A copy of the value, unless it is beyond the limits. -/
def copyWithin (limits : Limits) (j : Json) : Option Json :=
  if j.size.isWithin limits then some j else none

theorem copyWithin_eq_some_iff {limits : Limits} {i j : Json} :
    copyWithin limits i = some j ↔ i = j ∧ i.size.isWithin limits = true := by
  unfold copyWithin
  split_ifs with h <;> simp [h]

/-! ### Bounds -/

theorem byteLength_of_ascii {text : String} (h : ∀ c ∈ text.toList, c.toNat < 128) :
    byteLength text = text.length := by
  rw [← String.length_toList]
  unfold byteLength
  generalize text.toList = cs at h ⊢
  induction cs with
  | nil => rfl
  | cons c cs ih =>
    have hc : c.utf8Size = 1 := by
      have hval : c.val ≤ 0x7f :=
        UInt32.le_iff_toNat_le.mpr (Nat.le_of_lt_succ (h c mem_cons_self))
      exact if_pos hval
    rw [map_cons, sum_cons, hc, ih fun d hd => h d (mem_cons_of_mem _ hd),
      length_cons, Nat.add_comm]

variable {n : ℕ} {s : Size}

theorem byteLength_toString_le (hn : n < 1000) : byteLength (toString n) ≤ 3 := by
  have hascii : ∀ c ∈ (toString n).toList, c.toNat < 128 := fun c hc => by
    rw [Nat.toString_eq_repr, Nat.toList_repr] at hc
    have hdigit := Nat.isDigit_of_mem_toDigits (by decide) (by decide) hc
    simp only [Char.isDigit, Bool.and_eq_true, decide_eq_true_eq] at hdigit
    exact lt_of_le_of_lt (UInt32.le_iff_toNat_le.mp hdigit.2) (by decide)
  rw [byteLength_of_ascii hascii]
  exact (Nat.length_repr_le_iff (by decide)).mpr hn

variable {xs : List Json} {ms : List (String × Json)}

theorem itemsSize_le {index : ℕ} (hxs : ∀ x ∈ xs, x.size.Le s)
    (hlength : index + xs.length ≤ 1000) :
    (itemsSize index xs).Le
      ⟨xs.length * s.nodes, xs.length * (3 + s.bytes), s.depth + 1, s.keys, 0⟩ := by
  induction xs generalizing index with
  | nil => exact ⟨by simp [itemsSize, Size.zero], by simp [itemsSize, Size.zero],
      by simp [itemsSize, Size.zero], by simp [itemsSize, Size.zero]⟩
  | cons x xs ih =>
    have hx := hxs x mem_cons_self
    have hindex := byteLength_toString_le (n := index) (by simp at hlength; omega)
    have hrest : (itemsSize (index + 1) xs).Le _ :=
      ih (fun y hy => hxs y (mem_cons_of_mem _ hy)) (by simp at hlength; omega)
    have hnodes := hrest.nodes
    have hbytes := hrest.bytes
    have hdepth := hrest.depth
    have hkeys := hrest.keys
    have hx1 := hx.nodes
    have hx2 := hx.bytes
    have hx3 := hx.depth
    have hx4 := hx.keys
    constructor <;> simp only [itemsSize, Size.both, Size.text, Size.below, length_cons,
      Nat.add_mul, Nat.one_mul] at * <;> omega

/-- An array of at most `n` items, each at most this large. -/
theorem size_arr_le (hxs : ∀ x ∈ xs, x.size.Le s) (hlength : xs.length ≤ n) (hn : n ≤ 1000) :
    (Json.arr xs).size.Le ⟨n * s.nodes + 1, n * (3 + s.bytes) + 6, s.depth + 1,
      max (n + 1) s.keys, 0⟩ := by
  have hitems : (itemsSize 0 xs).Le _ := itemsSize_le hxs (by omega)
  have hnodes := hitems.nodes.trans (Nat.mul_le_mul_right _ hlength)
  have hbytes := hitems.bytes.trans (Nat.mul_le_mul_right _ hlength)
  have hdepth := hitems.depth
  have hkeys := hitems.keys
  have htext : byteLength "length" = 6 := by decide
  constructor <;> simp only [size, Size.node, Size.both, Size.text] at * <;> omega

theorem membersSize_le {depth keys : ℕ}
    (hnames : ∀ m ∈ ms, byteLength m.1 ≤ 32) (hdepth : ∀ m ∈ ms, m.2.size.depth ≤ depth)
    (hkeys : ∀ m ∈ ms, m.2.size.keys ≤ keys) :
    (membersSize ms).Le ⟨(ms.map fun m => m.2.size.nodes).sum,
      (ms.map fun m => 32 + m.2.size.bytes).sum, depth + 1, keys, 0⟩ := by
  induction ms with
  | nil => constructor <;> simp [membersSize, Size.zero]
  | cons m ms ih =>
    have hm := hnames m mem_cons_self
    have hmdepth := hdepth m mem_cons_self
    have hmkeys := hkeys m mem_cons_self
    have hrest := ih (fun n hn => hnames n (mem_cons_of_mem _ hn)) (fun n hn => hdepth n
      (mem_cons_of_mem _ hn)) fun n hn => hkeys n (mem_cons_of_mem _ hn)
    obtain ⟨h1, h2, h3, h4⟩ := hrest
    constructor <;> simp only [membersSize, Size.both, Size.text, Size.below, map_cons,
      sum_cons] at * <;> omega

theorem size_obj_le_sum {ms : List (String × Json)} {nodes bytes depth keys : ℕ}
    (hnames : ∀ m ∈ ms, byteLength m.1 ≤ 32)
    (hnodes : (ms.map fun m => m.2.size.nodes).sum ≤ nodes)
    (hbytes : (ms.map fun m => 32 + m.2.size.bytes).sum ≤ bytes)
    (hdepth : ∀ m ∈ ms, m.2.size.depth ≤ depth) (hkeys : ∀ m ∈ ms, m.2.size.keys ≤ keys)
    (hlength : ms.length ≤ keys) :
    (Json.obj ms).size.Le ⟨nodes + 1, bytes, depth + 1, keys, 0⟩ := by
  obtain ⟨h1, h2, h3, h4⟩ := membersSize_le hnames hdepth hkeys
  constructor <;> simp only [size, Size.node] at * <;> omega

/-- An object of at most `n` members, each at most this large. -/
theorem size_obj_le (hnames : ∀ m ∈ ms, byteLength m.1 ≤ 32) (hms : ∀ m ∈ ms, m.2.size.Le s)
    (hlength : ms.length ≤ n) (hn : n ≤ s.keys) :
    (Json.obj ms).size.Le ⟨n * s.nodes + 1, n * (32 + s.bytes), s.depth + 1, s.keys, 0⟩ := by
  have hnodes : (ms.map fun m => m.2.size.nodes).sum ≤ n * s.nodes := by
    have hsum := sum_le_card_nsmul (ms.map fun m => m.2.size.nodes) s.nodes
      (List.forall_mem_map.mpr fun m hm => (hms m hm).nodes)
    rw [length_map, nsmul_eq_mul, Nat.cast_id] at hsum
    exact hsum.trans (Nat.mul_le_mul_right _ hlength)
  have hbytes : (ms.map fun m => 32 + m.2.size.bytes).sum ≤ n * (32 + s.bytes) := by
    have hsum := sum_le_card_nsmul (ms.map fun m => 32 + m.2.size.bytes) (32 + s.bytes)
      (List.forall_mem_map.mpr fun m hm => Nat.add_le_add_left (hms m hm).bytes 32)
    rw [length_map, nsmul_eq_mul, Nat.cast_id] at hsum
    exact hsum.trans (Nat.mul_le_mul_right _ hlength)
  exact size_obj_le_sum hnames hnodes hbytes (fun m hm => (hms m hm).depth)
    (fun m hm => (hms m hm).keys) (hlength.trans hn)

/-! ### Parts -/

theorem size_le_itemsSize {x : Json} {index : ℕ} (h : x ∈ xs) :
    x.size.Le (itemsSize index xs) := by
  induction xs generalizing index with
  | nil => simp at h
  | cons y ys ih =>
    rcases List.mem_cons.mp h with rfl | h
    · constructor <;> simp only [itemsSize, Size.both, Size.text, Size.below] <;> omega
    · have hle : x.size.Le (itemsSize (index + 1) ys) := ih h
      obtain ⟨h1, h2, h3, h4⟩ := hle
      constructor <;> simp only [itemsSize, Size.both, Size.text, Size.below] <;> omega

theorem size_le_membersSize {m : String × Json} (h : m ∈ ms) :
    m.2.size.Le (membersSize ms) := by
  induction ms with
  | nil => simp at h
  | cons n ns ih =>
    rcases List.mem_cons.mp h with rfl | h
    · constructor <;> simp only [membersSize, Size.both, Size.text, Size.below] <;> omega
    · obtain ⟨h1, h2, h3, h4⟩ := ih h
      constructor <;> simp only [membersSize, Size.both, Size.text, Size.below] <;> omega

theorem size_le_arr {x : Json} (h : x ∈ xs) : x.size.Le (Json.arr xs).size := by
  have hle : x.size.Le (itemsSize 0 xs) := size_le_itemsSize h
  obtain ⟨h1, h2, h3, h4⟩ := hle
  constructor <;> simp only [size, Size.node, Size.both, Size.text] <;> omega

theorem size_member_le (name : String) (j : Json) : (j.member name).size.Le j.size := by
  have hnull : (Json.null).size.Le j.size := by
    cases j <;> constructor <;> simp only [size, Size.node] <;> omega
  cases j with
  | obj ms =>
    simp only [member]
    cases hlookup : ms.lookup name with
    | none => exact hnull
    | some value =>
      have hle : value.size.Le (membersSize ms) := size_le_membersSize (mem_of_lookup hlookup)
      obtain ⟨h1, h2, h3, h4⟩ := hle
      constructor <;> simp only [Option.getD_some, size, Size.node] <;> omega
  | _ => exact hnull

end Json
