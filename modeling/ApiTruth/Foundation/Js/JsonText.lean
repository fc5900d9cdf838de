import ApiTruth.Foundation.Js.Strings
import ApiTruth.Foundation.Json.Value
import ApiTruth.Foundation.Traverse

/-!
# JSON texts of JavaScript values

The tree of a JSON value has strings of JavaScript, which may contain lone surrogates, and numbers
of a type that comes with the texts of its numbers.  Its text is well formed: `JSON.stringify`
escapes lone surrogates.  Negative zero has the text of zero, and two trees stand for one JSON value
when they agree up to negative zero and the order of members at every level;
`JsonTree.canon` picks the representative without negative zeros whose members are sorted by the
code points of their names.

## Main definitions

* `NumberFormat`, `NumberFormat.numerals` : numbers with their texts.
* `JsonTree` : the trees of JSON values.
* `JsonTree.chars` : the text of a tree.
* `JsonTree.canon` : the representative with sorted members and without negative zeros.
* `JsonTree.IsNormal` : no negative zeros and no repeated names.
* `JsonTree.SameValue` : trees of one JSON value.

## Main results

* `JsonTree.induction` : induction with a hypothesis for every item and every member value.
* `JsonTree.canon_eq_iff` : trees have one representative if they are trees of one JSON value.
-/

/-! ### Numbers -/

/-- Numbers with the texts in which they are written and read back; negative zero is written as
zero. -/
structure NumberFormat (ν : Type) where
  zero : ν
  negativeZero : ν
  text : ν → List Char
  read : List Char → ν
  isNumeral_text : ∀ x, Numeral.isNumeral (text x) = true
  text_negativeZero : text negativeZero = text zero
  read_text : ∀ x, x ≠ negativeZero → read (text x) = x
  zero_ne : zero ≠ negativeZero

namespace NumberFormat

variable {ν : Type} [DecidableEq ν] (format : NumberFormat ν)

def unsigned (x : ν) : ν := if x = format.negativeZero then format.zero else x

theorem unsigned_ne (x : ν) : format.unsigned x ≠ format.negativeZero := by
  unfold unsigned
  split_ifs with h
  · exact format.zero_ne
  · exact h

@[simp] theorem unsigned_unsigned (x : ν) : format.unsigned (format.unsigned x) = format.unsigned x :=
  if_neg (format.unsigned_ne x)

@[simp] theorem text_unsigned (x : ν) : format.text (format.unsigned x) = format.text x := by
  unfold unsigned
  split_ifs with h
  · rw [h, format.text_negativeZero]
  · rfl

end NumberFormat

/-- The numbers that are given by their numerals, with a negative zero added. -/
def NumberFormat.numerals : NumberFormat (Option JsonNumber) where
  zero := some ⟨['0'], rfl⟩
  negativeZero := none
  text
    | some number => number.numeral
    | none => ['0']
  read text := if h : Numeral.isNumeral text = true then some ⟨text, h⟩ else none
  isNumeral_text
    | some number => number.isNumeral
    | none => rfl
  text_negativeZero := rfl
  read_text
    | some number, _ => dif_pos number.isNumeral
    | none, h => absurd rfl h
  zero_ne := Option.some_ne_none _

/-! ### Trees -/

/-- A JSON value; the members of an object keep their order. -/
inductive JsonTree (ν : Type)
  | null
  | bool (value : Bool)
  | num (value : ν)
  | str (value : JsString)
  | arr (items : List (JsonTree ν))
  | obj (members : List (JsString × JsonTree ν))

namespace JsonTree

open List

variable {ν : Type}

/-- Induction on JSON values. -/
theorem induction {P : JsonTree ν → Prop} (null : P .null) (bool : ∀ b, P (.bool b))
    (num : ∀ x, P (.num x)) (str : ∀ s, P (.str s))
    (arr : ∀ items, (∀ item ∈ items, P item) → P (.arr items))
    (obj : ∀ members, (∀ member ∈ members, P member.2) → P (.obj members)) (t : JsonTree ν) : P t :=
  JsonTree.rec (motive_1 := P) (motive_2 := fun items => ∀ item ∈ items, P item)
    (motive_3 := fun members => ∀ member ∈ members, P member.2) (motive_4 := fun m => P m.2)
    null bool num str arr obj
    (by simp) (fun _ _ h hs => List.forall_mem_cons.mpr ⟨h, hs⟩)
    (by simp) (fun _ _ h hs => List.forall_mem_cons.mpr ⟨h, hs⟩)
    (fun _ _ h => h) t

/-! ### Equality -/

section Equality

variable [DecidableEq ν]

mutual

/-- Structural equality. -/
def beq : JsonTree ν → JsonTree ν → Bool
  | .null, .null => true
  | .bool b, .bool c => b == c
  | .num x, .num y => decide (x = y)
  | .str s, .str t => s == t
  | .arr items, .arr others => beqItems items others
  | .obj members, .obj others => beqMembers members others
  | _, _ => false

def beqItems : List (JsonTree ν) → List (JsonTree ν) → Bool
  | [], [] => true
  | item :: items, other :: others => beq item other && beqItems items others
  | _, _ => false

def beqMembers : List (JsString × JsonTree ν) → List (JsString × JsonTree ν) → Bool
  | [], [] => true
  | (name, item) :: members, (otherName, other) :: others =>
    name == otherName && beq item other && beqMembers members others
  | _, _ => false

end

theorem beqItems_iff {items : List (JsonTree ν)}
    (h : ∀ item ∈ items, ∀ other, beq item other = true ↔ item = other)
    (others : List (JsonTree ν)) : beqItems items others = true ↔ items = others := by
  induction items generalizing others with
  | nil => cases others <;> simp [beqItems]
  | cons item items ih =>
    rw [forall_mem_cons] at h
    cases others with
    | nil => simp [beqItems]
    | cons other others => simp [beqItems, h.1, ih h.2]

variable {members : List (JsString × JsonTree ν)}

theorem beqMembers_iff
    (h : ∀ member ∈ members, ∀ other, beq member.2 other = true ↔ member.2 = other)
    (others : List (JsString × JsonTree ν)) :
    beqMembers members others = true ↔ members = others := by
  induction members generalizing others with
  | nil => cases others <;> simp [beqMembers]
  | cons member members ih =>
    rw [forall_mem_cons] at h
    cases others with
    | nil => simp [beqMembers]
    | cons other others => simp [beqMembers, Prod.ext_iff, h.1, ih h.2]

theorem beq_iff (t u : JsonTree ν) : beq t u = true ↔ t = u := by
  induction t using induction generalizing u with
  | null => cases u <;> simp [beq]
  | bool b => cases u <;> simp [beq]
  | num x => cases u <;> simp [beq]
  | str s => cases u <;> simp [beq]
  | arr items ih => cases u <;> simp [beq, beqItems_iff ih]
  | obj members ih => cases u <;> simp [beq, beqMembers_iff ih]

instance : DecidableEq (JsonTree ν) := fun t u => decidable_of_iff _ (beq_iff t u)

end Equality

/-! ### Representatives -/

section Canon

variable [DecidableEq ν] (format : NumberFormat ν)

/-- Members sorted by the code points of their names. -/
def sortMembers {α : Type*} (members : List (JsString × α)) : List (JsString × α) :=
  JsString.collation.sortBy Prod.fst members

variable {α : Type*}

variable (members : List (JsString × α))

theorem sortMembers_perm :
    (sortMembers members).Perm members := JsString.collation.sortBy_perm Prod.fst members

theorem sortMembers_map {α β : Type*} (f : α → β) (members : List (JsString × α)) :
    sortMembers (members.map fun m => (m.1, f m.2)) =
      (sortMembers members).map fun m => (m.1, f m.2) :=
  (map_insertionSort (fun a b : JsString × α => JsString.collation.le a.1 b.1 = true)
    (fun a b : JsString × β => JsString.collation.le a.1 b.1 = true)
    (fun m : JsString × α => (m.1, f m.2)) members fun _ _ _ _ => Iff.rfl).symm

theorem map_fst_sortMembers :
    (sortMembers members).map Prod.fst = JsString.collation.sort (members.map Prod.fst) :=
  JsString.collation.map_sortBy Prod.fst members

theorem sortMembers_sortMembers :
    sortMembers (sortMembers members) = sortMembers members :=
  (JsString.collation.pairwise_sortBy Prod.fst members).insertionSort_eq

mutual

/-- The representative with sorted members and without negative zeros. -/
def canon : JsonTree ν → JsonTree ν
  | .null => .null
  | .bool b => .bool b
  | .num x => .num (format.unsigned x)
  | .str s => .str s
  | .arr items => .arr (canonItems items)
  | .obj members => .obj (sortMembers (canonMembers members))

/-- `canon` on every item. -/
def canonItems : List (JsonTree ν) → List (JsonTree ν)
  | [] => []
  | item :: items => canon item :: canonItems items

/-- `canon` on every member value. -/
def canonMembers : List (JsString × JsonTree ν) → List (JsString × JsonTree ν)
  | [] => []
  | (name, value) :: members => (name, canon value) :: canonMembers members

end

theorem canonItems_eq_map (items : List (JsonTree ν)) :
    canonItems format items = items.map (canon format) := by
  induction items with
  | nil => rfl
  | cons item items ih => rw [canonItems, ih, map_cons]

variable (members : List (JsString × JsonTree ν))

theorem canonMembers_eq_map :
    canonMembers format members = members.map fun m => (m.1, canon format m.2) := by
  induction members with
  | nil => rfl
  | cons member members ih => rw [canonMembers, ih, map_cons]

theorem canon_arr (items : List (JsonTree ν)) :
    canon format (.arr items) = .arr (items.map (canon format)) := by
  rw [canon, canonItems_eq_map]

theorem canon_obj :
    canon format (.obj members) =
      .obj (sortMembers (members.map fun m => (m.1, canon format m.2))) := by
  rw [canon, canonMembers_eq_map]

end Canon

/-- No number is a negative zero and no object repeats a name. -/
inductive IsNormal (format : NumberFormat ν) : JsonTree ν → Prop
  | null : IsNormal format .null
  | bool (b : Bool) : IsNormal format (.bool b)
  | num {x : ν} (h : x ≠ format.negativeZero) : IsNormal format (.num x)
  | str (s : JsString) : IsNormal format (.str s)
  | arr {items : List (JsonTree ν)} (h : ∀ item ∈ items, IsNormal format item) :
    IsNormal format (.arr items)
  | obj {members : List (JsString × JsonTree ν)} (hnames : (members.map Prod.fst).Nodup)
    (h : ∀ member ∈ members, IsNormal format member.2) : IsNormal format (.obj members)

inductive WellFormed : JsonTree ν → Prop
  | null : WellFormed .null
  | bool (b : Bool) : WellFormed (.bool b)
  | num (x : ν) : WellFormed (.num x)
  | str (s : JsString) : WellFormed (.str s)
  | arr {items : List (JsonTree ν)} (h : ∀ item ∈ items, WellFormed item) :
    WellFormed (.arr items)
  | obj {members : List (JsString × JsonTree ν)} (hnames : (members.map Prod.fst).Nodup)
    (h : ∀ member ∈ members, WellFormed member.2) : WellFormed (.obj members)

theorem WellFormed.names (h : WellFormed (.obj members)) : (members.map Prod.fst).Nodup := by
  cases h with
  | obj hnames _ => exact hnames

theorem WellFormed.member (h : WellFormed (.obj members)) :
    ∀ member ∈ members, WellFormed member.2 := by
  cases h with
  | obj _ h => exact h

theorem WellFormed.item {items : List (JsonTree ν)} (h : WellFormed (.arr items)) :
    ∀ item ∈ items, WellFormed item := by
  cases h with
  | arr h => exact h

/-! ### Equality of JSON values -/

/-- The trees stand for one JSON value: they agree up to negative zero and the order of members at
every level. -/
inductive SameValue [DecidableEq ν] (format : NumberFormat ν) : JsonTree ν → JsonTree ν → Prop
  | null : SameValue format .null .null
  | bool (b : Bool) : SameValue format (.bool b) (.bool b)
  | num {x y : ν} (h : format.unsigned x = format.unsigned y) :
    SameValue format (.num x) (.num y)
  | str (s : JsString) : SameValue format (.str s) (.str s)
  | arr {pairs : List (JsonTree ν × JsonTree ν)} (h : ∀ p ∈ pairs, SameValue format p.1 p.2) :
    SameValue format (.arr (pairs.map Prod.fst)) (.arr (pairs.map Prod.snd))
  | obj {pairs : List ((JsString × JsonTree ν) × JsString × JsonTree ν)}
    {members : List (JsString × JsonTree ν)} (hnames : ∀ p ∈ pairs, p.1.1 = p.2.1)
    (h : ∀ p ∈ pairs, SameValue format p.1.2 p.2.2) (hperm : (pairs.map Prod.snd).Perm members) :
    SameValue format (.obj (pairs.map Prod.fst)) (.obj members)

section SameValue

variable [DecidableEq ν] {format : NumberFormat ν} {t u : JsonTree ν}

theorem SameValue.canon_eq (h : SameValue format t u) (ht : t.WellFormed) :
    canon format t = canon format u := by
  induction h with
  | null => rfl
  | bool b => rfl
  | num h => rw [canon, canon, h]
  | str s => rfl
  | arr _ ih =>
    rw [canon_arr, canon_arr, List.map_map, List.map_map]
    exact congrArg JsonTree.arr (map_congr_left fun p hp =>
      ih p hp (ht.item p.1 (List.mem_map_of_mem hp)))
  | @obj pairs members hnames _ hperm ih =>
    have hmap : (pairs.map Prod.fst).map (fun m => (m.1, canon format m.2)) =
        (pairs.map Prod.snd).map fun m => (m.1, canon format m.2) := by
      rw [List.map_map, List.map_map]
      refine map_congr_left fun p hp => ?_
      exact Prod.ext (hnames p hp) (ih p hp (ht.member p.1 (List.mem_map_of_mem hp)))
    rw [canon_obj, canon_obj, hmap]
    refine congrArg JsonTree.obj (Collation.sortBy_eq_of_perm (hperm.map _) ?_)
    rw [← hmap, List.map_map]
    exact ht.names

theorem sameValue_of_canon_eq (h : canon format t = canon format u) :
    SameValue format t u := by
  induction t using induction generalizing u with
  | null =>
    cases u with
    | null => exact .null
    | _ => cases h
  | bool b =>
    cases u with
    | bool b' => cases h; exact .bool b
    | _ => cases h
  | num x =>
    cases u with
    | num y => exact .num (JsonTree.num.inj h)
    | _ => cases h
  | str s =>
    cases u with
    | str s' => cases h; exact .str s
    | _ => cases h
  | arr items ih =>
    cases u with
    | arr items' =>
      rw [canon_arr, canon_arr, JsonTree.arr.injEq, ← forall₂_eq_eq_eq,
        forall₂_map_left_iff, forall₂_map_right_iff] at h
      obtain ⟨pairs, rfl, rfl, hpairs⟩ := exists_pairs h
      exact .arr fun p hp => ih p.1 (List.mem_map_of_mem hp) (hpairs p hp)
    | _ => cases h
  | obj members ih =>
    cases u with
    | obj members' =>
      rw [canon_obj, canon_obj, JsonTree.obj.injEq] at h
      have hsorted : (sortMembers (members.map fun m => (m.1, canon format m.2))).Perm
          (members'.map fun m => (m.1, canon format m.2)) := by
        rw [h]
        exact sortMembers_perm _
      obtain ⟨members'', hperm, hrelated⟩ :=
        exists_perm_of_map_perm ((sortMembers_perm _).symm.trans hsorted)
      obtain ⟨pairs, rfl, rfl, hpairs⟩ := exists_pairs hrelated
      exact .obj (fun p hp => (Prod.mk.inj (hpairs p hp)).1)
        (fun p hp => ih p.1 (List.mem_map_of_mem hp) (Prod.mk.inj (hpairs p hp)).2) hperm
    | _ => cases h

theorem canon_canon (t : JsonTree ν) : canon format (canon format t) = canon format t := by
  induction t using induction with
  | null => rfl
  | bool b => rfl
  | num x => rw [canon, canon, NumberFormat.unsigned_unsigned]
  | str s => rfl
  | arr items ih =>
    rw [canon_arr, canon_arr, List.map_map]
    exact congrArg JsonTree.arr (map_congr_left ih)
  | obj members ih =>
    have hmembers : (members.map fun m => (m.1, canon format m.2)).map
        (fun m => (m.1, canon format m.2)) = members.map fun m => (m.1, canon format m.2) := by
      rw [List.map_map]
      exact map_congr_left fun m hm => Prod.ext rfl (ih m hm)
    rw [canon_obj, canon_obj, ← sortMembers_map, hmembers, sortMembers_sortMembers]

/-- The representative tells the JSON value. -/
theorem canon_eq_iff (ht : t.WellFormed) :
    canon format t = canon format u ↔ SameValue format t u :=
  ⟨sameValue_of_canon_eq, fun h => h.canon_eq ht⟩

end SameValue

/-! ### Texts -/

def hexDigit (n : ℕ) : Char := if n < 10 then Char.ofNat (48 + n) else Char.ofNat (87 + n)

def unicodeEscape (unit : ℕ) : List Char :=
  ['\\', 'u', hexDigit (unit / 4096), hexDigit (unit / 256 % 16), hexDigit (unit / 16 % 16),
    hexDigit (unit % 16)]

/-- A code point inside a string literal: quotes, backslashes, control characters and surrogates
are escaped. -/
def escape (point : ℕ) : List Char :=
  if point = 0x22 then ['\\', '"']
  else if point = 0x5c then ['\\', '\\']
  else if point = 0x08 then ['\\', 'b']
  else if point = 0x09 then ['\\', 't']
  else if point = 0x0a then ['\\', 'n']
  else if point = 0x0c then ['\\', 'f']
  else if point = 0x0d then ['\\', 'r']
  else if point < 0x20 ∨ 0xd800 ≤ point ∧ point < 0xe000 then unicodeEscape point
  else [Char.ofNat point]

/-- `JSON.stringify` of a string. -/
def quote (s : JsString) : List Char := '"' :: ((JsString.codePoints s).flatMap escape ++ ['"'])

section Chars

variable (format : NumberFormat ν)

mutual

/-- The text of a value, without white space and with the members of objects in their order. -/
def chars : JsonTree ν → List Char
  | .null => ['n', 'u', 'l', 'l']
  | .bool true => ['t', 'r', 'u', 'e']
  | .bool false => ['f', 'a', 'l', 's', 'e']
  | .num x => format.text x
  | .str s => quote s
  | .arr [] => ['[', ']']
  | .arr (item :: items) => '[' :: (chars item ++ itemsTail items)
  | .obj [] => ['{', '}']
  | .obj ((name, value) :: members) =>
    '{' :: (quote name ++ ':' :: (chars value ++ membersTail members))

def itemsTail : List (JsonTree ν) → List Char
  | [] => [']']
  | item :: items => ',' :: (chars item ++ itemsTail items)

def membersTail : List (JsString × JsonTree ν) → List Char
  | [] => ['}']
  | (name, value) :: members => ',' :: (quote name ++ ':' :: (chars value ++ membersTail members))

end

end Chars

end JsonTree
