import ApiTruth.Ir.Host
import ApiTruth.Ir.SchemaMeaning
import ApiTruth.Foundation.Traverse
import Mathlib.Data.List.Lex

/-!
# Canonical schemas

The comparison engine brings a schema into canonical form before it compares: from the inside out,
the arrays under `type` and `required` become sorted sets of strings, and the arrays under `enum`,
`oneOf`, `anyOf` and `allOf` sorted sets of JSON values.  The recursion does not know which objects
are schemas, so that it rewrites literals as well; and sorting strings by their bytes raises where
an item of a literal cannot be converted into a buffer.

## Main definitions

* `canonicalStringItems` : a sorted set of strings, for arbitrary items.
* `normalizeKeyword`, `canonicalSchema` : the canonical form.
* `MemberNormalized` : what becomes of one member of an object.

## Main results

* `canonicalSchema_obj` : the members of a canonical form, one by one.
* `mem_canonicalStringItems` : distinct strings are all kept.
* `canonicalStringItems_eq_self` : sorted distinct items are left alone.
-/

namespace ApiTruth.Updates

open ApiTruth.Ir List Option OrderedMap

variable (host : Host)

/-! ### Sorted sets of strings -/

/-- Two keys of a `Map` coincide: primitive values by value, arrays and objects never. -/
def sameKey : Json → Json → Bool
  | .arr _, _ => false
  | .obj _, _ => false
  | a, b => decide (a = b)

/-- The distinct keys among the items, in the order of their first occurrences. -/
def distinctItems : List Json → List Json
  | [] => []
  | x :: xs => x :: (distinctItems xs).filter fun y => !sameKey x y

/-- `Buffer.compare(left, right) <= 0`. -/
def bufferLe (left right : List UInt8) : Prop := left.map UInt8.toNat ≤ right.map UInt8.toNat

instance : DecidableRel bufferLe := fun left right =>
  inferInstanceAs (Decidable (left.map UInt8.toNat ≤ right.map UInt8.toNat))

/-- The items with their buffers, or nothing where a conversion raises. -/
def buffered (items : List Json) : Option (List (List UInt8 × Json)) :=
  items.mapM fun item => (host.bufferFrom item).map fun buffer => (buffer, item)

def sortByBuffer (items : List Json) : Option (List Json) :=
  (buffered host items).map fun entries =>
    (entries.insertionSort fun a b => bufferLe a.1 b.1).map Prod.snd

/-- `canonicalStrings` on the items of an array; a single item is not compared with another. -/
def canonicalStringItems (items : List Json) : Option (List Json) :=
  if (distinctItems items).length ≤ 1 then some (distinctItems items)
  else sortByBuffer host (distinctItems items)

/-! ### Canonical forms -/

/-- The value of a keyword whose value is in canonical form already. -/
def normalizeKeyword (keyword : String) (value : Json) : Option Json :=
  match keyword, value with
  | "type", .arr items => (canonicalStringItems host items).map .arr
  | "required", .arr items => (canonicalStringItems host items).map .arr
  | "enum", .arr items => some (.arr (uniqueSorted Json.canonicalJson items))
  | "oneOf", .arr items => some (.arr (uniqueSorted Json.canonicalJson items))
  | "anyOf", .arr items => some (.arr (uniqueSorted Json.canonicalJson items))
  | "allOf", .arr items => some (.arr (uniqueSorted Json.canonicalJson items))
  | _, value => some value

/-- The members of an object whose values are in canonical form already. -/
def normalizeKeywords (members : List (String × Json)) : Option (List (String × Json)) :=
  members.mapM fun m => (normalizeKeyword host m.1 m.2).map fun value => (m.1, value)

mutual

/-- The canonical form of a schema, or nothing where the canonicalization raises. -/
def canonicalSchema : Json → Option Json
  | .arr items => (canonicalItems items).map .arr
  | .obj members => ((canonicalMembers members).bind (normalizeKeywords host)).map .obj
  | value => some value

/-- `canonicalSchema` on every item. -/
def canonicalItems : List Json → Option (List Json)
  | [] => some []
  | x :: xs => (canonicalSchema x).bind fun y => (canonicalItems xs).map fun ys => y :: ys

/-- `canonicalSchema` on every member value. -/
def canonicalMembers : List (String × Json) → Option (List (String × Json))
  | [] => some []
  | (k, v) :: ms => (canonicalSchema v).bind fun w =>
    (canonicalMembers ms).map fun ns => (k, w) :: ns

end

/-- The value `v` of a name becomes `v'` in a canonical form. -/
def Normalized (name : String) (v v' : Json) : Prop :=
  ∃ w, canonicalSchema host v = some w ∧ normalizeKeyword host name w = some v'

structure MemberNormalized (m n : String × Json) : Prop where
  name : n.1 = m.1
  value : Normalized host m.1 m.2 n.2

section Forms

variable {host} {keyword : String}

theorem normalizeKeyword_names (h : keyword ∈ ["type", "required"])
    (items : List Json) : normalizeKeyword host keyword (.arr items) =
      (canonicalStringItems host items).map .arr := by
  simp only [mem_cons, not_mem_nil, or_false] at h
  rcases h with rfl | rfl <;> rfl

theorem normalizeKeyword_values (h : keyword ∈ ["enum", "oneOf", "anyOf", "allOf"])
    (items : List Json) : normalizeKeyword host keyword (.arr items) =
      some (.arr (uniqueSorted Json.canonicalJson items)) := by
  simp only [mem_cons, not_mem_nil, or_false] at h
  rcases h with rfl | rfl | rfl | rfl <;> rfl

def sortedKeywords : List String := ["type", "required", "enum", "oneOf", "anyOf", "allOf"]

theorem normalizeKeyword_of_notMem (h : keyword ∉ sortedKeywords)
    (value : Json) : normalizeKeyword host keyword value = some value := by
  unfold normalizeKeyword
  split <;> first | rfl | exact absurd (by simp [sortedKeywords]) h

theorem normalizeKeyword_of_ne_arr (keyword : String) {value : Json}
    (h : ∀ items, value ≠ .arr items) : normalizeKeyword host keyword value = some value := by
  unfold normalizeKeyword
  split <;> first | rfl | exact absurd rfl (h _)

theorem canonicalItems_eq_some {xs ys : List Json} :
    canonicalItems host xs = some ys ↔
      List.Forall₂ (fun x y => canonicalSchema host x = some y) xs ys := by
  induction xs generalizing ys with
  | nil => simp [canonicalItems, eq_comm]
  | cons x xs ih =>
    rw [canonicalItems, bind_eq_some_iff, forall₂_cons_left_iff]
    simp only [map_eq_some_iff, ih]
    constructor
    · rintro ⟨y, hy, zs, hzs, rfl⟩
      exact ⟨y, zs, hy, hzs, rfl⟩
    · rintro ⟨y, zs, hy, hzs, rfl⟩
      exact ⟨y, hy, zs, hzs, rfl⟩

variable {ms ns : List (String × Json)}

theorem canonicalMembers_eq_some :
    canonicalMembers host ms = some ns ↔
      List.Forall₂ (fun m n => n.1 = m.1 ∧ canonicalSchema host m.2 = some n.2) ms ns := by
  induction ms generalizing ns with
  | nil => simp [canonicalMembers, eq_comm]
  | cons m ms ih =>
    obtain ⟨k, v⟩ := m
    rw [canonicalMembers, bind_eq_some_iff, forall₂_cons_left_iff]
    simp only [map_eq_some_iff, ih]
    constructor
    · rintro ⟨w, hw, ns, hns, rfl⟩
      exact ⟨(k, w), ns, ⟨rfl, hw⟩, hns, rfl⟩
    · rintro ⟨⟨l, w⟩, ns, ⟨rfl, hw⟩, hns, rfl⟩
      exact ⟨w, hw, ns, hns, rfl⟩

theorem normalizeKeywords_eq_some :
    normalizeKeywords host ms = some ns ↔
      List.Forall₂ (fun m n => n.1 = m.1 ∧ normalizeKeyword host m.1 m.2 = some n.2) ms ns := by
  rw [normalizeKeywords, mapM_eq_some_iff]
  refine iff_of_eq (congrArg (List.Forall₂ · ms ns) (funext₂ fun m n => propext ?_))
  rw [map_eq_some_iff]
  constructor
  · rintro ⟨w, hw, rfl⟩
    exact ⟨rfl, hw⟩
  · rintro ⟨hname, hw⟩
    exact ⟨n.2, hw, by rw [← hname]⟩

variable {xs : List Json}

theorem canonicalSchema_arr {t : Json} :
    canonicalSchema host (.arr xs) = some t ↔ ∃ ys, t = .arr ys ∧
      List.Forall₂ (fun x y => canonicalSchema host x = some y) xs ys := by
  rw [canonicalSchema, map_eq_some_iff]
  simp only [canonicalItems_eq_some]
  constructor
  · rintro ⟨ys, hys, rfl⟩
    exact ⟨ys, rfl, hys⟩
  · rintro ⟨ys, rfl, hys⟩
    exact ⟨ys, hys, rfl⟩

theorem memberNormalized_iff {m n : String × Json} :
    MemberNormalized host m n ↔ ∃ l : String × Json,
      (l.1 = m.1 ∧ canonicalSchema host m.2 = some l.2) ∧
        n.1 = l.1 ∧ normalizeKeyword host l.1 l.2 = some n.2 := by
  constructor
  · rintro ⟨hname, w, hw, hn⟩
    exact ⟨(m.1, w), ⟨rfl, hw⟩, hname, hn⟩
  · rintro ⟨l, ⟨hl, hw⟩, hname, hn⟩
    exact ⟨hname.trans hl, l.2, hw, hl ▸ hn⟩

/-- The canonical form of an object has a member for every member of the object. -/
theorem canonicalSchema_obj {ms : List (String × Json)} {t : Json} :
    canonicalSchema host (.obj ms) = some t ↔ ∃ ns, t = .obj ns ∧
      List.Forall₂ (MemberNormalized host) ms ns := by
  simp only [canonicalSchema, map_eq_some_iff, bind_eq_some_iff,
    canonicalMembers_eq_some, normalizeKeywords_eq_some, forall₂_comp, ← memberNormalized_iff]
  constructor
  · rintro ⟨ns, hns, rfl⟩
    exact ⟨ns, rfl, hns⟩
  · rintro ⟨ns, rfl, hns⟩
    exact ⟨ns, hns, rfl⟩

theorem exists_lookup_normalized
    (h : List.Forall₂ (MemberNormalized host) ms ns) {name : String} {v : Json} :
    ms.lookup name = some v → ∃ w, ns.lookup name = some w ∧ Normalized host name v w := by
  induction h with
  | nil => simp
  | @cons m n ms ns hmn _ ih =>
    rw [lookup_cons_ite, lookup_cons_ite, hmn.name]
    split_ifs with hname
    · rintro ⟨⟩
      subst hname
      exact ⟨n.2, rfl, hmn.value⟩
    · exact ih

theorem lookup_normalized_none (h : List.Forall₂ (MemberNormalized host) ms ns) {name : String} :
    ns.lookup name = none ↔ ms.lookup name = none := by
  induction h with
  | nil => rfl
  | @cons m n ms ns hmn _ ih =>
    rw [lookup_cons_ite, lookup_cons_ite, hmn.name]
    split_ifs <;> simp [ih]

end Forms

/-! ### Sorted sets of strings -/

section Strings

theorem sameKey_str (s : String) (x : Json) : sameKey (.str s) x = decide (Json.str s = x) := rfl

theorem mem_distinctItems (hxs : ∀ x ∈ xs, ∃ s, x = .str s) {y : Json} :
    y ∈ distinctItems xs ↔ y ∈ xs := by
  induction xs with
  | nil => rfl
  | cons x xs ih =>
    obtain ⟨s, rfl⟩ := hxs x mem_cons_self
    rw [distinctItems, mem_cons, mem_filter,
      ih fun x hx => hxs x (mem_cons_of_mem _ hx), sameKey_str, mem_cons]
    by_cases h : y = .str s
    · simp [h]
    · simp [h, Ne.symm h]

theorem distinctItems_eq_self (h : xs.Pairwise fun x y => sameKey x y = false) :
    distinctItems xs = xs := by
  induction h with
  | nil => rfl
  | cons hx _ ih =>
    rw [distinctItems, ih, List.filter_eq_self.mpr]
    intro y hy
    rw [hx y hy]
    rfl

theorem pairwise_distinctItems (xs : List Json) :
    (distinctItems xs).Pairwise fun x y => sameKey x y = false := by
  induction xs with
  | nil => exact .nil
  | cons x xs ih =>
    refine .cons (fun y hy => ?_) (ih.filter _)
    simpa using (List.mem_filter.mp hy).2

variable {host}

theorem buffered_eq_some {entries : List (List UInt8 × Json)}
    (h : buffered host xs = some entries) :
    entries.map Prod.snd = xs ∧ ∀ e ∈ entries, host.bufferFrom e.2 = some e.1 := by
  have hrel := mapM_eq_some_iff.mp h
  constructor
  · have hmap : xs.map id = entries.map Prod.snd := (hrel.imp fun x e he => by
      obtain ⟨_, _, rfl⟩ := Option.map_eq_some_iff.mp he
      rfl).map_eq
    rw [← hmap, List.map_id]
  · intro e he
    obtain ⟨x, _, hx⟩ := hrel.exists_left he
    obtain ⟨buffer, hbuffer, rfl⟩ := Option.map_eq_some_iff.mp hx
    exact hbuffer

variable {xs ys : List Json}

theorem sortByBuffer_perm (h : sortByBuffer host xs = some ys) :
    ys.Perm xs := by
  obtain ⟨entries, hentries, rfl⟩ := Option.map_eq_some_iff.mp h
  rw [← (buffered_eq_some hentries).1]
  exact (perm_insertionSort _ _).map Prod.snd

theorem canonicalStringItems_perm
    (h : canonicalStringItems host xs = some ys) : ys.Perm (distinctItems xs) := by
  unfold canonicalStringItems at h
  split_ifs at h
  · rw [Option.some.inj h]
  · exact sortByBuffer_perm h

/-- Strings become a set of the same strings. -/
theorem mem_canonicalStringItems (hxs : ∀ x ∈ xs, ∃ s, x = .str s)
    (h : canonicalStringItems host xs = some ys) {y : Json} : y ∈ ys ↔ y ∈ xs := by
  rw [(canonicalStringItems_perm h).mem_iff, mem_distinctItems hxs]

theorem pairwise_sortByBuffer (h : sortByBuffer host xs = some ys) :
    ys.Pairwise fun a b => ∀ p q, host.bufferFrom a = some p → host.bufferFrom b = some q →
      bufferLe p q := by
  obtain ⟨entries, hentries, rfl⟩ := Option.map_eq_some_iff.mp h
  have htotal : Std.Total fun a b : List UInt8 × Json => bufferLe a.1 b.1 :=
    ⟨fun a b => le_total (a.1.map UInt8.toNat) (b.1.map UInt8.toNat)⟩
  have htrans : IsTrans (List UInt8 × Json) fun a b => bufferLe a.1 b.1 :=
    ⟨fun a b c => le_trans (a := a.1.map UInt8.toNat)⟩
  rw [pairwise_map]
  refine Pairwise.imp_of_mem ?_
    (pairwise_insertionSort (fun a b : List UInt8 × Json => bufferLe a.1 b.1) entries)
  intro a b ha hb hab p q hp hq
  have hbuffer {e : List UInt8 × Json} (he : e ∈ entries.insertionSort fun a b =>
      bufferLe a.1 b.1) : host.bufferFrom e.2 = some e.1 :=
    (buffered_eq_some hentries).2 e ((perm_insertionSort _ _).mem_iff.mp he)
  cases (hbuffer ha).symm.trans hp
  cases (hbuffer hb).symm.trans hq
  exact hab

theorem pairwise_canonicalStringItems (h : canonicalStringItems host xs = some ys) :
    ys.Pairwise fun a b => ∀ p q, host.bufferFrom a = some p → host.bufferFrom b = some q →
      bufferLe p q := by
  unfold canonicalStringItems at h
  split_ifs at h with hlength
  · cases h
    match hitems : distinctItems xs with
    | [] => exact .nil
    | [x] => exact pairwise_singleton _ x
    | x :: y :: rest => simp [hitems] at hlength
  · exact pairwise_sortByBuffer h

/-- The items have buffers and are sorted by them. -/
def sortedByBuffer (host : Host) (items : List Json) : Bool :=
  match buffered host items with
  | some entries => decide (entries.Pairwise fun a b => bufferLe a.1 b.1)
  | none => false

/-- No two items coincide as keys, and more than one item are sorted by their buffers. -/
def isStringSet (host : Host) (items : List Json) : Bool :=
  decide (items.Pairwise fun x y => sameKey x y = false) &&
    (decide (items.length ≤ 1) || sortedByBuffer host items)

variable {items : List Json}

theorem sortByBuffer_eq_self (h : sortedByBuffer host items = true) :
    sortByBuffer host items = some items := by
  unfold sortedByBuffer at h
  split at h
  · rename_i entries hentries
    rw [sortByBuffer, hentries, map_some,
      Pairwise.insertionSort_eq (of_decide_eq_true h), (buffered_eq_some hentries).1]
  · simp at h

/-- Sorted distinct items are left alone. -/
theorem canonicalStringItems_eq_self (h : isStringSet host items = true) :
    canonicalStringItems host items = some items := by
  simp only [isStringSet, Bool.and_eq_true, Bool.or_eq_true, decide_eq_true_eq] at h
  rw [canonicalStringItems, distinctItems_eq_self h.1]
  split_ifs with hlength
  · rfl
  · exact sortByBuffer_eq_self (h.2.resolve_left hlength)

section Utf8

variable (hutf8 : host.Utf8Buffers)
include hutf8

theorem exists_canonicalStringItems (hxs : ∀ x ∈ xs, ∃ s, x = .str s) :
    ∃ ys, canonicalStringItems host xs = some ys := by
  unfold canonicalStringItems
  split_ifs
  · exact ⟨_, rfl⟩
  · obtain ⟨entries, hentries⟩ := exists_forall₂ (distinctItems xs)
      (R := fun x e => ((host.bufferFrom x).map fun buffer => (buffer, x)) = some e) fun x hx => by
        obtain ⟨s, rfl⟩ := hxs x ((mem_distinctItems hxs).mp hx)
        exact ⟨_, by rw [hutf8 s, map_some]⟩
    rw [sortByBuffer, buffered, mapM_eq_some_iff.mpr hentries]
    exact ⟨_, rfl⟩

theorem canonicalStringItems_eq_iff {xs ys xs' ys' : List Json} (hxs : ∀ x ∈ xs, ∃ s, x = .str s)
    (hys : ∀ y ∈ ys, ∃ s, y = .str s) (hxs' : canonicalStringItems host xs = some xs')
    (hys' : canonicalStringItems host ys = some ys') :
    xs' = ys' ↔ ∀ x, x ∈ xs ↔ x ∈ ys := by
  have hnodup {us us' : List Json} (hus : ∀ u ∈ us, ∃ s, u = .str s)
      (h : canonicalStringItems host us = some us') : us'.Nodup := by
    refine (canonicalStringItems_perm h).nodup_iff.mpr ?_
    refine Pairwise.imp_of_mem (fun {a b} ha _ hab => ?_) (pairwise_distinctItems us)
    obtain ⟨s, rfl⟩ := hus a ((mem_distinctItems hus).mp ha)
    exact of_decide_eq_false hab
  constructor
  · rintro rfl x
    rw [← mem_canonicalStringItems hxs hxs', mem_canonicalStringItems hys hys']
  · intro h
    have hperm : xs'.Perm ys' := (perm_ext_iff_of_nodup (hnodup hxs hxs')
      (hnodup hys hys')).mpr fun x => by
        rw [mem_canonicalStringItems hxs hxs', mem_canonicalStringItems hys hys', h]
    refine hperm.eq_of_pairwise ?_ (pairwise_canonicalStringItems hxs')
      (pairwise_canonicalStringItems hys')
    intro a b ha hb hab hba
    obtain ⟨s, rfl⟩ := hxs a ((mem_canonicalStringItems hxs hxs').mp ha)
    obtain ⟨t, rfl⟩ := hys b ((mem_canonicalStringItems hys hys').mp hb)
    have hbytes := le_antisymm (hab _ _ (hutf8 s) (hutf8 t)) (hba _ _ (hutf8 t) (hutf8 s))
    have hinj : Function.Injective UInt8.toNat := fun _ _ => UInt8.toNat_inj.mp
    rw [Host.utf8_injective (hinj.list_map hbytes)]

end Utf8

end Strings

end ApiTruth.Updates
