import ApiTruth.Foundation.Tables
import Mathlib.Order.RelClasses

/-!
# Collations

A collation is a total order on the values of a column.  A query sorts its rows by a collation, and
a program that sorts the same values by an order of its own can compare both lists row by row; the
comparison succeeds only if the two orders agree on these values.

## Main definitions

* `Collation` : a total order as a Boolean comparison.
* `Collation.ofKey` : the order of a key that determines the value.
* `Collation.sort`, `Collation.sortBy` : sort values, and rows by a column.
* `Collation.Sorted` : the values stand in order.

## Main results

* `Collation.sort_eq_iff` : the sorted list is the permutation that stands in order.
* `Collation.sort_congr` : lists of the same values without repetitions are sorted alike.
* `Table.map_sortBy_select_eq_iff` : the sorted rows show the values of a list, each with its flag
  set, when every value has such a row and the list stands in order.
-/

structure Collation (α : Type*) where
  le : α → α → Bool
  total : ∀ a b, le a b = true ∨ le b a = true
  trans : ∀ a b c, le a b = true → le b c = true → le a c = true
  antisymm : ∀ a b, le a b = true → le b a = true → a = b

namespace Collation

open List

variable {α : Type*}

/-- The order of a key that determines the value. -/
def ofKey {κ : Type*} [LinearOrder κ] (key : α → κ) (hkey : Function.Injective key) :
    Collation α where
  le a b := decide (key a ≤ key b)
  total a b := by simpa using le_total (key a) (key b)
  trans a b c := by simpa using le_trans
  antisymm a b hab hba := hkey (le_antisymm (by simpa using hab) (by simpa using hba))

variable (c : Collation α)

def sortBy {ρ : Type*} (column : ρ → α) (rows : List ρ) : List ρ :=
  rows.insertionSort fun a b => c.le (column a) (column b)

def sort (values : List α) : List α := c.sortBy id values

def Sorted (values : List α) : Prop := values.Pairwise fun a b => c.le a b = true

instance (values : List α) : Decidable (c.Sorted values) :=
  inferInstanceAs (Decidable (values.Pairwise fun a b => c.le a b = true))

section

variable {ρ : Type*} (column : ρ → α)

theorem sortBy_perm (rows : List ρ) : (c.sortBy column rows).Perm rows :=
  perm_insertionSort _ rows

theorem map_sortBy (rows : List ρ) :
    (c.sortBy column rows).map column = c.sort (rows.map column) :=
  map_insertionSort _ _ column rows fun _ _ _ _ => Iff.rfl

end

variable {c}

variable (values : List α)

theorem sort_perm : (c.sort values).Perm values := c.sortBy_perm id values

theorem sorted_sort : c.Sorted (c.sort values) := by
  have htotal : Std.Total fun a b : α => c.le a b = true := ⟨c.total⟩
  have htrans : IsTrans α fun a b => c.le a b = true := ⟨c.trans⟩
  exact pairwise_insertionSort (fun a b => c.le a b = true) values

/-- The sorted list is the permutation that stands in order. -/
theorem sort_eq_iff {values sorted : List α} :
    c.sort values = sorted ↔ values.Perm sorted ∧ c.Sorted sorted := by
  constructor
  · rintro rfl
    exact ⟨(sort_perm values).symm, sorted_sort values⟩
  · rintro ⟨hperm, hsorted⟩
    exact ((sort_perm values).trans hperm).eq_of_pairwise
      (fun a b _ _ => c.antisymm a b) (sorted_sort values) hsorted

variable {values : List α}

theorem mem_sort {value : α} : value ∈ c.sort values ↔ value ∈ values :=
  (sort_perm values).mem_iff

theorem nodup_sort : (c.sort values).Nodup ↔ values.Nodup :=
  (sort_perm values).nodup_iff

theorem length_sort : (c.sort values).length = values.length :=
  (sort_perm values).length_eq

theorem pairwise_sortBy {ρ : Type*} (c : Collation α) (column : ρ → α) (rows : List ρ) :
    (c.sortBy column rows).Pairwise fun a b => c.le (column a) (column b) = true := by
  have h := c.sorted_sort (rows.map column)
  rw [← map_sortBy] at h
  exact pairwise_map.mp h

theorem sortBy_eq_of_perm {ρ : Type*} {column : ρ → α} {rows rows' : List ρ}
    (h : rows.Perm rows') (hnodup : (rows.map column).Nodup) :
    c.sortBy column rows = c.sortBy column rows' := by
  have hperm := (c.sortBy_perm column rows).trans (h.trans (c.sortBy_perm column rows').symm)
  refine hperm.eq_of_pairwise (fun a b ha hb hab hba => ?_) (c.pairwise_sortBy column rows)
    (c.pairwise_sortBy column rows')
  have ha' := (c.sortBy_perm column rows).mem_iff.mp ha
  have hb' := h.mem_iff.mpr ((c.sortBy_perm column rows').mem_iff.mp hb)
  exact inj_on_of_nodup_map hnodup ha' hb' (c.antisymm _ _ hab hba)

/-- Lists of the same values without repetitions are sorted alike. -/
theorem sort_congr {values values' : List α} (h : values.Nodup) (h' : values'.Nodup)
    (hmem : ∀ value, value ∈ values ↔ value ∈ values') : c.sort values = c.sort values' :=
  sort_eq_iff.mpr ⟨((perm_ext_iff_of_nodup h h').mpr hmem).trans (sort_perm values').symm,
    sorted_sort values'⟩

end Collation

namespace Table

variable {ρ κ α : Type*} [DecidableEq κ] {key : ρ → κ}

/-- The sorted rows show the values of a list, each with its flag set, when every value has such a
row and the list stands in order. -/
theorem map_sortBy_select_eq_iff (table : Table key) (c : Collation α) {column : ρ → α}
    {encode : α → κ} (hencode : Function.Injective encode) (hvalues : values.Nodup)
    (hcolumn : ∀ row ∈ table.select (values.map encode) fun _ => true, encode (column row) = key row)
    (flag : ρ → Bool) :
    ((c.sortBy column (table.select (values.map encode) fun _ => true)).map
        fun row => (column row, flag row)) = values.map (·, true) ↔
      (∀ value ∈ values, table.Has (encode value) flag) ∧ c.Sorted values := by
  have hsort := c.map_sortBy column (table.select (values.map encode) fun _ => true)
  have hperm := c.sortBy_perm column (table.select (values.map encode) fun _ => true)
  constructor
  · intro hrows
    have hvalue : (c.sortBy column (table.select (values.map encode) fun _ => true)).map column =
        values := by
      have hfst := congrArg (List.map Prod.fst) hrows
      simpa [Function.comp_def] using hfst
    refine ⟨fun value hmem => ?_, ?_⟩
    · have hpair : (value, true) ∈ values.map (·, true) := List.mem_map_of_mem hmem
      rw [← hrows] at hpair
      obtain ⟨row, hrow, heq⟩ := List.mem_map.mp hpair
      obtain ⟨rfl, hflag⟩ := Prod.mk.inj heq
      have hselected := hperm.mem_iff.mp hrow
      exact ⟨row, (table.mem_select.mp hselected).1, (hcolumn row hselected).symm, hflag⟩
    · rw [← hvalue, hsort]
      exact Collation.sorted_sort _
  · rintro ⟨hhas, hsorted⟩
    have hkeys : ((table.select (values.map encode) fun _ => true).map key).Perm
        (values.map encode) := by
      refine table.keys_select_perm (hvalues.map hencode) fun k hk => ?_
      obtain ⟨value, hmem, rfl⟩ := List.mem_map.mp hk
      obtain ⟨row, hrow, hkey, -⟩ := hhas value hmem
      exact ⟨row, hrow, hkey, rfl⟩
    have hcolumns : ((table.select (values.map encode) fun _ => true).map column).Perm values := by
      refine (List.map_perm_map_iff hencode).mp ?_
      rw [List.map_map]
      exact (List.map_congr_left hcolumn).symm ▸ hkeys
    have hvalue : (c.sortBy column (table.select (values.map encode) fun _ => true)).map column =
        values := by
      rw [hsort]
      exact Collation.sort_eq_iff.mpr ⟨hcolumns, hsorted⟩
    have hflag : ∀ row ∈ c.sortBy column (table.select (values.map encode) fun _ => true),
        flag row = true := by
      intro row hrow
      have hselected := hperm.mem_iff.mp hrow
      have hmem : column row ∈ values := hcolumns.mem_iff.mp (List.mem_map_of_mem hselected)
      obtain ⟨found, hfound, hkey, hset⟩ := hhas _ hmem
      have heq := table.eq_of_key_eq hfound (table.mem_select.mp hselected).1
        (hkey.trans (hcolumn row hselected))
      exact heq ▸ hset
    have hmap : (c.sortBy column (table.select (values.map encode) fun _ => true)).map
        (fun row => (column row, flag row)) =
          (c.sortBy column (table.select (values.map encode) fun _ => true)).map
            ((·, true) ∘ column) :=
      List.map_congr_left fun row hrow => by rw [hflag row hrow, Function.comp_apply]
    rw [hmap, ← List.map_map, hvalue]

end Table
