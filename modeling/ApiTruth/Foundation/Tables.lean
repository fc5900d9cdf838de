import Mathlib.Data.List.Nodup
import Mathlib.Data.List.Perm.Subperm
import Mathlib.Data.List.Sort

/-!
# Tables with a primary key

A table is the list of its rows, in whatever order they are stored, and no two rows have the same
key.  A query selects the rows whose key is one of a list and that satisfy a condition; since keys
are unique, counting the selected rows decides whether every key of the list has such a row.

## Main definitions

* `Table` : rows without a repeated key.
* `Table.insert`, `Table.update` : store a row under a key that is free, change the row of a key.
* `Table.Has` : the table has a row of the key that satisfies the condition.
* `Table.select`, `Table.join` : the rows of listed keys, and their pairs with the rows of another
  table.

## Main results

* `Table.length_select_eq_iff` : every listed key has its row when as many rows are selected.
* `Table.sort_column_eq_iff` : a sorted column of the selected rows says the same.
* `Table.length_join` : a join with a table by its key selects at most one row a key.
-/

structure Table {ρ κ : Type*} (key : ρ → κ) where
  rows : List ρ
  nodup : (rows.map key).Nodup

namespace Table

open List

variable {ρ ρ' κ κ' : Type*} {key : ρ → κ} {key' : ρ' → κ'}

theorem eq_of_key_eq (table : Table key) {row row' : ρ} (h : row ∈ table.rows)
    (h' : row' ∈ table.rows) (heq : key row = key row') : row = row' :=
  inj_on_of_nodup_map table.nodup h h' heq

/-- A table of one row. -/
def singleton (row : ρ) : Table key := ⟨[row], List.nodup_singleton (key row)⟩

/-- The table with the rows mapped, none of which changes its key. -/
def mapRows (table : Table key) (f : ρ → ρ) (hf : ∀ row, key (f row) = key row) : Table key :=
  ⟨table.rows.map f, by
    rw [List.map_map, show key ∘ f = key from funext hf]
    exact table.nodup⟩

variable [DecidableEq κ] [DecidableEq κ']

/-- The table has a row with this key that satisfies the condition. -/
def Has (table : Table key) (k : κ) (holds : ρ → Bool) : Prop :=
  ∃ row ∈ table.rows, key row = k ∧ holds row = true

instance (table : Table key) (k : κ) (holds : ρ → Bool) : Decidable (table.Has k holds) :=
  inferInstanceAs (Decidable (∃ row ∈ table.rows, key row = k ∧ holds row = true))

/-- The row with the given key. -/
def find? (table : Table key) (k : κ) : Option ρ :=
  table.rows.find? fun row => decide (key row = k)

/-- `WHERE key = ANY(keys) AND holds`. -/
def select (table : Table key) (keys : List κ) (holds : ρ → Bool) : List ρ :=
  table.rows.filter fun row => decide (key row ∈ keys) && holds row

/-- The pairs of a selected row with the rows of another table under the key that it refers to. -/
def join (table : Table key) (other : Table key') (keys : List κ) (holds : ρ → Bool)
    (reference : ρ → κ') (holds' : ρ' → Bool) : List (ρ × ρ') :=
  (table.select keys holds).flatMap fun row =>
    (other.select [reference row] holds').map (row, ·)

/-- `INSERT … ON CONFLICT DO NOTHING`: a row whose key is taken is not stored. -/
def insert (table : Table key) (row : ρ) : Table key :=
  if h : key row ∈ table.rows.map key then table
  else ⟨row :: table.rows, List.nodup_cons.mpr ⟨h, table.nodup⟩⟩

/-- `UPDATE … WHERE key = k`, of columns that are not part of the key. -/
def update (table : Table key) (k : κ) (f : ρ → ρ) (hf : ∀ row, key (f row) = key row) :
    Table key :=
  table.mapRows (fun row => if key row = k then f row else row) fun row => by
    split
    · exact hf row
    · rfl

variable (table : Table key)

theorem mem_insert {row other : ρ} (h : other ∈ (table.insert row).rows) :
    other = row ∨ other ∈ table.rows := by
  unfold insert at h
  split at h
  · exact .inr h
  · exact List.mem_cons.mp h

theorem mem_insert_of_mem {row other : ρ} (h : other ∈ table.rows) :
    other ∈ (table.insert row).rows := by
  unfold insert
  split
  · exact h
  · exact mem_cons_of_mem row h

variable {f : ρ → ρ} {k : κ}

theorem mem_update (hf : ∀ row, key (f row) = key row) {row' : ρ} :
    row' ∈ (table.update k f hf).rows ↔
      ∃ row ∈ table.rows, row' = if key row = k then f row else row := by
  simp only [update, mapRows, List.mem_map, eq_comm]

theorem mem_update_of_ne (hf : ∀ row, key (f row) = key row) {row : ρ}
    (h : row ∈ table.rows) (hne : key row ≠ k) : row ∈ (table.update k f hf).rows :=
  (table.mem_update hf).mpr ⟨row, h, (if_neg hne).symm⟩

theorem mem_update_self (hf : ∀ row, key (f row) = key row) {row : ρ}
    (h : row ∈ table.rows) : f row ∈ (table.update (key row) f hf).rows :=
  (table.mem_update hf).mpr ⟨row, h, (if_pos rfl).symm⟩

theorem find?_eq_some_iff {row : ρ} :
    table.find? k = some row ↔ row ∈ table.rows ∧ key row = k := by
  constructor
  · intro h
    exact ⟨mem_of_find?_eq_some h, by simpa using find?_some h⟩
  · rintro ⟨hmem, rfl⟩
    have hsome : (table.find? (key row)).isSome := by
      rw [find?, find?_isSome]
      exact ⟨row, hmem, decide_eq_true rfl⟩
    obtain ⟨found, hfound⟩ := Option.isSome_iff_exists.mp hsome
    have hkey : key found = key row := by simpa using find?_some hfound
    rw [hfound, table.eq_of_key_eq (mem_of_find?_eq_some hfound) hmem hkey]

theorem filter_key (k : κ) :
    table.rows.filter (fun row => decide (key row = k)) = (table.find? k).toList := by
  cases h : table.find? k with
  | none =>
    rw [find?, List.find?_eq_none] at h
    exact List.filter_eq_nil_iff.mpr h
  | some row =>
    obtain ⟨hmem, rfl⟩ := table.find?_eq_some_iff.mp h
    refine List.perm_singleton.mp ((perm_ext_iff_of_nodup
      ((Nodup.of_map key table.nodup).filter _) (nodup_singleton row)).mpr fun other => ?_)
    rw [mem_filter, decide_eq_true_eq, mem_singleton]
    constructor
    · rintro ⟨hother, hkey⟩
      exact table.eq_of_key_eq hother hmem hkey
    · rintro rfl
      exact ⟨hmem, rfl⟩

variable {holds : ρ → Bool} {keys : List κ}

theorem mem_select {row : ρ} :
    row ∈ table.select keys holds ↔ row ∈ table.rows ∧ key row ∈ keys ∧ holds row = true := by
  simp [select]

theorem nodup_keys_select (keys : List κ) (holds : ρ → Bool) :
    ((table.select keys holds).map key).Nodup :=
  table.nodup.sublist (List.filter_sublist.map key)

theorem mem_keys_select :
    k ∈ (table.select keys holds).map key ↔ k ∈ keys ∧ table.Has k holds := by
  rw [List.mem_map]
  constructor
  · rintro ⟨row, hrow, rfl⟩
    obtain ⟨hmem, hkey, hholds⟩ := table.mem_select.mp hrow
    exact ⟨hkey, row, hmem, rfl, hholds⟩
  · rintro ⟨hkey, row, hmem, rfl, hholds⟩
    exact ⟨row, table.mem_select.mpr ⟨hmem, hkey, hholds⟩, rfl⟩

/-- When every listed key has its row, the selected rows have exactly the listed keys. -/
theorem keys_select_perm (hkeys : keys.Nodup)
    (h : ∀ k ∈ keys, table.Has k holds) : ((table.select keys holds).map key).Perm keys := by
  rw [perm_ext_iff_of_nodup (table.nodup_keys_select keys holds) hkeys]
  intro k
  rw [mem_keys_select]
  exact ⟨fun hk => hk.1, fun hk => ⟨hk, h k hk⟩⟩

/-- As many rows as keys are selected when every listed key has its row. -/
theorem length_select_eq_iff (hkeys : keys.Nodup) :
    (table.select keys holds).length = keys.length ↔ ∀ k ∈ keys, table.Has k holds := by
  constructor
  · intro hlength k hk
    have hsub : ((table.select keys holds).map key).Subperm keys :=
      (table.nodup_keys_select keys holds).subperm fun k hk => (table.mem_keys_select.mp hk).1
    have hperm := hsub.perm_of_length_le (by rw [length_map, hlength])
    exact (table.mem_keys_select.mp (hperm.mem_iff.mpr hk)).2
  · intro h
    rw [← length_map, (table.keys_select_perm hkeys h).length_eq]

theorem sort_column_eq_iff {σ : Type*} [LinearOrder σ] (column : ρ → σ) {encode : σ → κ}
    (hencode : Function.Injective encode) {values : List σ} (hnodup : values.Nodup)
    (hsorted : values.Pairwise (· ≤ ·))
    (hcolumn : ∀ row ∈ table.select (values.map encode) holds, encode (column row) = key row) :
    ((table.select (values.map encode) holds).map column).insertionSort (· ≤ ·) = values ↔
      ∀ value ∈ values, table.Has (encode value) holds := by
  have hkeys : (values.map encode).Nodup := hnodup.map hencode
  have hforall : (∀ value ∈ values, table.Has (encode value) holds) ↔
      ∀ k ∈ values.map encode, table.Has k holds := by simp
  rw [hforall, ← table.length_select_eq_iff hkeys]
  constructor
  · intro hequal
    have hlength := congrArg List.length hequal
    simpa using hlength
  · intro hlength
    have hperm := table.keys_select_perm hkeys ((table.length_select_eq_iff hkeys).mp hlength)
    have hcolumns : (((table.select (values.map encode) holds).map column).map encode).Perm
        (values.map encode) := by
      have hmap : (table.select (values.map encode) holds).map (encode ∘ column) =
          (table.select (values.map encode) holds).map key := map_congr_left hcolumn
      rw [List.map_map, hmap]
      exact hperm
    have hvalues := (map_perm_map_iff hencode).mp hcolumns
    exact ((perm_insertionSort (· ≤ ·) _).trans hvalues).eq_of_pairwise'
      (pairwise_insertionSort _ _) hsorted

theorem length_select_singleton (k : κ) (holds : ρ → Bool) :
    (table.select [k] holds).length = if table.Has k holds then 1 else 0 := by
  split_ifs with h
  · exact (table.length_select_eq_iff (nodup_singleton k)).mpr (by simpa using h)
  · rw [length_eq_zero_iff, eq_nil_iff_forall_not_mem]
    intro row hrow
    obtain ⟨hmem, hkey, hholds⟩ := table.mem_select.mp hrow
    exact h ⟨row, hmem, List.mem_singleton.mp hkey, hholds⟩

theorem length_join (other : Table key') (keys : List κ) (holds : ρ → Bool)
    (reference : ρ → κ') (holds' : ρ' → Bool) :
    (table.join other keys holds reference holds').length =
      (table.select keys fun row => holds row && decide (other.Has (reference row) holds')).length := by
  have hpairs (rows : List ρ) : (rows.flatMap fun row =>
      (other.select [reference row] holds').map (row, ·)).length =
        (rows.filter fun row => decide (other.Has (reference row) holds')).length := by
    induction rows with
    | nil => rfl
    | cons row rows ih =>
      rw [flatMap_cons, length_append, ih, length_map, length_select_singleton, filter_cons]
      by_cases h : other.Has (reference row) holds'
      · simp [h, Nat.add_comm]
      · simp [h]
  rw [join, hpairs, select, select, List.filter_filter]
  congr 2
  funext row
  rw [Bool.and_comm, Bool.and_assoc]

end Table
