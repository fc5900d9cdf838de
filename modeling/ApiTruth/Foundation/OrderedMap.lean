import Mathlib.Data.List.Induction
import Mathlib.Data.List.Nodup
import Mathlib.Data.List.Pairwise
import Mathlib.Data.List.Sort
import Mathlib.Data.String.Basic

/-!
# Insertion-ordered maps and sorted sets of values

An insertion-ordered map lists its entries in the order in which their keys were first set;
setting a key again replaces its value in place.  `uniqueSorted` collects values in such a map
under a key and lists them by increasing key, so that the last value of every key is kept.

## Main definitions

* `OrderedMap`, `OrderedMap.set`, `OrderedMap.get?`, `OrderedMap.ofEntries`.
* `OrderedMap.mapValues`, `OrderedMap.setIfAbsent` : map all values, insert under a free key.
* `OrderedMap.groupBy` : the values listed by key.
* `uniqueSorted` : the values with distinct keys, by increasing key.

## Main results

* `OrderedMap.get?_ofEntries` : the last entry of a key counts.
* `OrderedMap.mem_entries_groupBy` : the groups are the classes of the values with one key.
* `pairwise_uniqueSorted` : the keys are strictly increasing.
* `mem_uniqueSorted` : the values kept, when a key determines its value.
* `map_uniqueSorted_eq_iff` : two lists have the same keys.
* `uniqueSorted_congr`, `uniqueSorted_eq_self` : the list depends on the set of values only.
-/

/-- A map whose entries are listed in the order in which their keys were first set. -/
structure OrderedMap (κ α : Type*) where
  entries : List (κ × α)
  nodup : (entries.map Prod.fst).Nodup

namespace OrderedMap

open List Option

variable {κ α : Type*} [DecidableEq κ]

def setEntries (key : κ) (value : α) : List (κ × α) → List (κ × α)
  | [] => [(key, value)]
  | entry :: entries =>
    if entry.1 = key then (key, value) :: entries else entry :: setEntries key value entries

theorem keys_setEntries (key : κ) (value : α) (entries : List (κ × α)) :
    (setEntries key value entries).map Prod.fst =
      if key ∈ entries.map Prod.fst then entries.map Prod.fst
      else entries.map Prod.fst ++ [key] := by
  induction entries with
  | nil => rfl
  | cons entry entries ih =>
    by_cases h : entry.1 = key
    · simp [setEntries, h]
    · have h' : key ≠ entry.1 := fun heq => h heq.symm
      simp only [setEntries, if_neg h, map_cons, ih, mem_cons, h', false_or]
      split_ifs <;> simp

variable {entries : List (κ × α)}

theorem nodup_setEntries (key : κ) (value : α)
    (h : (entries.map Prod.fst).Nodup) : ((setEntries key value entries).map Prod.fst).Nodup := by
  rw [keys_setEntries]
  split_ifs with hkey
  · exact h
  · exact List.nodup_append.mpr ⟨h, nodup_singleton key, by
      rintro a ha b hb rfl
      exact hkey (List.mem_singleton.mp hb ▸ ha)⟩

def empty : OrderedMap κ α := ⟨[], List.nodup_nil⟩

def set (m : OrderedMap κ α) (key : κ) (value : α) : OrderedMap κ α :=
  ⟨setEntries key value m.entries, nodup_setEntries key value m.nodup⟩

/-- The value of a key. -/
def get? (m : OrderedMap κ α) (key : κ) : Option α := m.entries.lookup key

/-- The keys in the order in which they were first set. -/
def keys (m : OrderedMap κ α) : List κ := m.entries.map Prod.fst

def ofEntries (entries : List (κ × α)) : OrderedMap κ α :=
  entries.foldl (fun m entry => m.set entry.1 entry.2) empty

theorem lookup_cons_ite (key : κ) (entry : κ × α) (entries : List (κ × α)) :
    (entry :: entries).lookup key = if key = entry.1 then some entry.2 else entries.lookup key := by
  obtain ⟨k, v⟩ := entry
  by_cases h : key = k
  · simp [h]
  · simp [lookup_cons, h, beq_eq_false_iff_ne.mpr h]

theorem lookup_setEntries (key k : κ) (value : α) (entries : List (κ × α)) :
    (setEntries key value entries).lookup k =
      if k = key then some value else entries.lookup k := by
  induction entries with
  | nil => simp [setEntries, lookup_cons_ite]
  | cons entry entries ih =>
    by_cases h : entry.1 = key
    · simp only [setEntries, h, if_true, lookup_cons_ite]
      split_ifs <;> rfl
    · simp only [setEntries, if_neg h, lookup_cons_ite, ih]
      by_cases hk : k = key
      · subst hk
        simp [Ne.symm h]
      · simp [hk]

variable (m : OrderedMap κ α)

@[simp] theorem get?_set (key k : κ) (value : α) :
    (m.set key value).get? k = if k = key then some value else m.get? k :=
  lookup_setEntries key k value m.entries

@[simp] theorem get?_empty (k : κ) : (empty : OrderedMap κ α).get? k = none := rfl

@[simp] theorem ofEntries_nil : ofEntries ([] : List (κ × α)) = empty := rfl

theorem ofEntries_concat (entries : List (κ × α)) (entry : κ × α) :
    ofEntries (entries ++ [entry]) = (ofEntries entries).set entry.1 entry.2 := by
  simp [ofEntries]

/-- The last entry of a key counts. -/
theorem get?_ofEntries (entries : List (κ × α)) (key : κ) :
    (ofEntries entries).get? key = entries.reverse.lookup key := by
  induction entries using List.reverseRecOn with
  | nil => rfl
  | append_singleton entries entry ih =>
    rw [ofEntries_concat, get?_set, ih, reverse_append, reverse_singleton,
      singleton_append, lookup_cons_ite]

theorem mem_keys_set (key k : κ) (value : α) :
    k ∈ (m.set key value).keys ↔ k = key ∨ k ∈ m.keys := by
  simp only [keys, set, keys_setEntries]
  split_ifs with h
  · constructor
    · exact Or.inr
    · rintro (rfl | hk)
      exacts [h, hk]
  · simp [or_comm]

@[simp] theorem mem_keys_ofEntries (entries : List (κ × α)) (key : κ) :
    key ∈ (ofEntries entries).keys ↔ key ∈ entries.map Prod.fst := by
  induction entries using List.reverseRecOn with
  | nil => simp [keys, empty]
  | append_singleton entries entry ih =>
    rw [ofEntries_concat, mem_keys_set, ih]
    simp [or_comm]

variable {key : κ}

theorem lookup_eq_some_iff (h : (entries.map Prod.fst).Nodup)
    {value : α} : entries.lookup key = some value ↔ (key, value) ∈ entries := by
  induction entries with
  | nil => simp
  | cons entry entries ih =>
    obtain ⟨k, v⟩ := entry
    simp only [map_cons, nodup_cons, List.mem_map, not_exists, not_and] at h
    rw [lookup_cons_ite, mem_cons]
    by_cases hk : key = k
    · subst hk
      have hnot : (key, value) ∉ entries := fun hmem => h.1 _ hmem rfl
      simp [hnot, eq_comm]
    · simp [hk, ih h.2]

theorem exists_lookup_of_mem_keys
    (h : key ∈ entries.map Prod.fst) : ∃ value, entries.lookup key = some value := by
  induction entries with
  | nil => simp at h
  | cons entry entries ih =>
    rw [lookup_cons_ite]
    split_ifs with hkey
    · exact ⟨entry.2, rfl⟩
    · exact ih ((List.mem_cons.mp h).resolve_left hkey)

/-- Entries that become new ones under their keys, or are left out; under this key none is. -/
theorem lookup_filterMap {β : Type*} (f : κ → α → Option β)
    (h : ∀ value, (key, value) ∈ entries → (f key value).isSome) :
    (entries.filterMap fun entry => (f entry.1 entry.2).map (entry.1, ·)).lookup key =
      (entries.lookup key).bind (f key) := by
  induction entries with
  | nil => rfl
  | cons entry entries ih =>
    have hrest := ih fun value hvalue => h value (mem_cons_of_mem _ hvalue)
    rw [filterMap_cons, lookup_cons_ite]
    by_cases hkey : key = entry.1
    · subst hkey
      obtain ⟨new, hnew⟩ := Option.isSome_iff_exists.mp (h entry.2 mem_cons_self)
      simp [hnew, lookup_cons_ite]
    · rw [if_neg hkey, ← hrest]
      cases f entry.1 entry.2 with
      | none => rfl
      | some new => rw [map_some, lookup_cons_ite, if_neg hkey]

theorem lookup_filter (p : κ → Bool) (entries : List (κ × α)) (key : κ) :
    (entries.filter fun entry => p entry.1).lookup key =
      if p key then entries.lookup key else none := by
  induction entries with
  | nil => simp
  | cons entry entries ih =>
    rw [filter_cons, lookup_cons_ite]
    by_cases hkey : key = entry.1
    · subst hkey
      by_cases hp : p entry.1 = true
      · simp [hp, lookup_cons_ite]
      · rw [if_neg hp, ih, if_neg hp, if_neg hp]
    · rw [if_neg hkey, ← ih]
      split_ifs with hp
      · rw [lookup_cons_ite, if_neg hkey]
      · rfl

theorem get?_eq_some_iff {value : α} :
    m.get? key = some value ↔ (key, value) ∈ m.entries :=
  lookup_eq_some_iff m.nodup

theorem get?_isSome_iff (key : κ) :
    (m.get? key).isSome = true ↔ key ∈ m.keys := by
  rw [isSome_iff_exists]
  simp [get?_eq_some_iff, keys]

theorem mem_of_mem_ofEntries {entry : κ × α}
    (h : entry ∈ (ofEntries entries).entries) : entry ∈ entries := by
  induction entries using List.reverseRecOn with
  | nil => simp [empty] at h
  | append_singleton entries last ih =>
    rw [ofEntries_concat] at h
    obtain ⟨k, v⟩ := entry
    rw [← get?_eq_some_iff, get?_set] at h
    split_ifs at h with hk
    · cases h
      subst hk
      simp
    · exact mem_append_left _ (ih ((get?_eq_some_iff _).mp h))

theorem setEntries_of_notMem (key : κ) (value : α) (h : key ∉ entries.map Prod.fst) :
    setEntries key value entries = entries ++ [(key, value)] := by
  induction entries with
  | nil => rfl
  | cons entry entries ih =>
    simp only [map_cons, mem_cons, not_or] at h
    rw [setEntries, if_neg (Ne.symm h.1), ih h.2, cons_append]

theorem entries_ofEntries (h : (entries.map Prod.fst).Nodup) :
    (ofEntries entries).entries = entries := by
  induction entries using List.reverseRecOn with
  | nil => rfl
  | append_singleton entries entry ih =>
    rw [map_append, map_singleton, nodup_append] at h
    have hnot : entry.1 ∉ entries.map Prod.fst := fun hmem =>
      h.2.2 _ hmem _ (mem_singleton_self _) rfl
    rw [ofEntries_concat]
    change setEntries entry.1 entry.2 (ofEntries entries).entries = entries ++ [entry]
    rw [ih h.1, setEntries_of_notMem entry.1 entry.2 hnot]

def mapValues {β : Type*} (f : κ → α → β) (m : OrderedMap κ α) : OrderedMap κ β :=
  ⟨m.entries.map fun entry => (entry.1, f entry.1 entry.2), by
    rw [List.map_map]
    exact m.nodup⟩

@[simp] theorem get?_mapValues {β : Type*} (f : κ → α → β) (m : OrderedMap κ α) (key : κ) :
    (m.mapValues f).get? key = (m.get? key).map (f key) := by
  simp only [get?, mapValues]
  induction m.entries with
  | nil => rfl
  | cons entry entries ih =>
    rw [map_cons, lookup_cons_ite, lookup_cons_ite, ih]
    split_ifs with h
    · rw [h, map_some]
    · rfl

theorem map_get?_mapValues {β γ : Type*} {f : κ → α → β} {g : β → γ} {g' : α → γ}
    (hkeep : ∀ key value, g (f key value) = g' value) (m : OrderedMap κ α) (key : κ) :
    ((m.mapValues f).get? key).map g = (m.get? key).map g' := by
  rw [get?_mapValues, Option.map_map]
  exact congrArg (Option.map · (m.get? key)) (funext (hkeep key))

def setIfAbsent (m : OrderedMap κ α) (key : κ) (value : α) : OrderedMap κ α :=
  if (m.get? key).isSome then m else m.set key value

theorem get?_setIfAbsent (key k : κ) (value : α) :
    (m.setIfAbsent key value).get? k =
      if k = key then some ((m.get? key).getD value) else m.get? k := by
  unfold setIfAbsent
  cases hkey : m.get? key with
  | none => rw [isSome_none, if_neg Bool.false_ne_true, get?_set, getD_none]
  | some stored =>
    rw [isSome_some, if_pos rfl, getD_some]
    split_ifs with h
    · rw [h, hkey]
    · rfl

/-! ### Groups -/

/-- Append a value to the list of its key. -/
def push (m : OrderedMap κ (List α)) (key : κ) (value : α) : OrderedMap κ (List α) :=
  m.set key ((m.get? key).getD [] ++ [value])

/-- The values listed by key, the keys in the order in which they first appear. -/
def groupBy (key : α → κ) (values : List α) : OrderedMap κ (List α) :=
  values.foldl (fun m value => m.push (key value) value) empty

variable (key : α → κ)

variable (values : List α)

theorem groupBy_concat (value : α) :
    groupBy key (values ++ [value]) = (groupBy key values).push (key value) value := by
  simp [groupBy]

theorem getD_get?_groupBy (k : κ) :
    ((groupBy key values).get? k).getD [] = values.filter (key · = k) := by
  induction values using List.reverseRecOn with
  | nil => rfl
  | append_singleton values value ih =>
    rw [groupBy_concat, push, get?_set, filter_append]
    by_cases hk : k = key value
    · subst hk
      simp [ih]
    · simp [hk, Ne.symm hk, ih]

@[simp] theorem mem_keys_groupBy (k : κ) :
    k ∈ (groupBy key values).keys ↔ k ∈ values.map key := by
  induction values using List.reverseRecOn with
  | nil => simp [groupBy, keys, empty]
  | append_singleton values value ih =>
    rw [groupBy_concat, push, mem_keys_set, ih]
    simp [or_comm]

theorem mem_entries_groupBy (k : κ) (group : List α) :
    (k, group) ∈ (groupBy key values).entries ↔
      k ∈ values.map key ∧ group = values.filter (key · = k) := by
  rw [← get?_eq_some_iff, ← mem_keys_groupBy key values k, ← get?_isSome_iff,
    ← getD_get?_groupBy key values k]
  cases (groupBy key values).get? k with
  | none => simp
  | some found => simp [eq_comm]

end OrderedMap

/-! ### Values with distinct keys -/

section UniqueSorted

variable {κ α : Type*} [LinearOrder κ] (key : α → κ)

/-- The values by increasing key; of the values with one key the last is kept. -/
def uniqueSorted (values : List α) : List α :=
  ((OrderedMap.ofEntries (values.map fun v => (key v, v))).entries.insertionSort
    (·.1 ≤ ·.1)).map Prod.snd

variable {values : List α}

private theorem mem_sortedEntries {entry : κ × α}
    (h : entry ∈ (OrderedMap.ofEntries (values.map fun v => (key v, v))).entries.insertionSort
      (·.1 ≤ ·.1)) : entry.2 ∈ values ∧ key entry.2 = entry.1 := by
  have hmem := OrderedMap.mem_of_mem_ofEntries ((List.perm_insertionSort _ _).mem_iff.mp h)
  obtain ⟨v, hv, rfl⟩ := List.mem_map.mp hmem
  exact ⟨hv, rfl⟩

theorem mem_of_mem_uniqueSorted {v : α} (h : v ∈ uniqueSorted key values) :
    v ∈ values := by
  obtain ⟨entry, hentry, rfl⟩ := List.mem_map.mp h
  exact (mem_sortedEntries key hentry).1

theorem exists_mem_uniqueSorted {v : α} (h : v ∈ values) :
    ∃ w ∈ uniqueSorted key values, key w = key v := by
  have hkey : key v ∈ (OrderedMap.ofEntries (values.map fun v => (key v, v))).keys := by
    rw [OrderedMap.mem_keys_ofEntries, List.map_map]
    exact List.mem_map_of_mem h
  obtain ⟨entry, hentry, hfst⟩ := List.mem_map.mp hkey
  have hsorted := (List.perm_insertionSort (fun a b : κ × α => a.1 ≤ b.1) _).mem_iff.mpr hentry
  exact ⟨entry.2, List.mem_map_of_mem hsorted, (mem_sortedEntries key hsorted).2.trans hfst⟩

/-- The keys are strictly increasing. -/
theorem pairwise_uniqueSorted (values : List α) :
    (uniqueSorted key values).Pairwise (key · < key ·) := by
  set m := OrderedMap.ofEntries (values.map fun v => (key v, v)) with hm
  have hle := List.pairwise_insertionSort (fun a b : κ × α => a.1 ≤ b.1) m.entries
  have hne : (m.entries.insertionSort (·.1 ≤ ·.1)).Pairwise (fun a b => a.1 ≠ b.1) := by
    have hperm := (List.perm_insertionSort (fun a b : κ × α => a.1 ≤ b.1) m.entries).map Prod.fst
    exact List.pairwise_map.mp (hperm.nodup_iff.mpr m.nodup)
  rw [uniqueSorted, List.pairwise_map]
  refine List.Pairwise.imp_of_mem ?_ (hle.and hne)
  intro a b ha hb hab
  rw [(mem_sortedEntries key ha).2, (mem_sortedEntries key hb).2]
  exact lt_of_le_of_ne hab.1 hab.2

variable {key}

/-- Values that are determined by their keys are all kept. -/
theorem mem_uniqueSorted (hkey : ∀ v ∈ values, ∀ w ∈ values, key v = key w → v = w) {v : α} :
    v ∈ uniqueSorted key values ↔ v ∈ values := by
  refine ⟨mem_of_mem_uniqueSorted key, fun hv => ?_⟩
  obtain ⟨w, hw, hwv⟩ := exists_mem_uniqueSorted key hv
  rwa [← hkey w (mem_of_mem_uniqueSorted key hw) v hv hwv]

variable {vs ws : List α}

theorem eq_of_pairwise_key_lt (hv : vs.Pairwise (key · < key ·))
    (hw : ws.Pairwise (key · < key ·)) (hmem : ∀ v, v ∈ vs ↔ v ∈ ws) : vs = ws := by
  have hnodup {us : List α} (h : us.Pairwise (key · < key ·)) : us.Nodup :=
    h.imp fun hlt heq => hlt.ne (congrArg key heq)
  have hperm : vs.Perm ws := (List.perm_ext_iff_of_nodup (hnodup hv) (hnodup hw)).mpr hmem
  exact hperm.eq_of_pairwise (fun a b _ _ hab hba => absurd hab hba.asymm) hv hw

/-- Sorting depends on the set of values only, when a key determines its value. -/
theorem uniqueSorted_congr
    (hkey : ∀ v ∈ vs, ∀ w ∈ vs, key v = key w → v = w) (hmem : ∀ v, v ∈ vs ↔ v ∈ ws) :
    uniqueSorted key vs = uniqueSorted key ws := by
  refine eq_of_pairwise_key_lt (pairwise_uniqueSorted key vs) (pairwise_uniqueSorted key ws) ?_
  intro v
  rw [mem_uniqueSorted hkey, mem_uniqueSorted fun v hv w hw =>
    hkey v ((hmem v).mpr hv) w ((hmem w).mpr hw), hmem]

theorem uniqueSorted_perm (h : values.Pairwise (key · ≠ key ·)) :
    (uniqueSorted key values).Perm values := by
  have hsymm : Std.Symm fun a b : α => key a ≠ key b := ⟨fun _ _ h => h.symm⟩
  have hkey : ∀ v ∈ values, ∀ w ∈ values, key v = key w → v = w := by
    intro v hv w hw heq
    by_contra hne
    exact h.forall hv hw hne heq
  have hnodup : values.Nodup := h.imp fun hne heq => hne (congrArg key heq)
  have hnodup' : (uniqueSorted key values).Nodup :=
    (pairwise_uniqueSorted key values).imp fun hlt heq => hlt.ne (congrArg key heq)
  exact (List.perm_ext_iff_of_nodup hnodup' hnodup).mpr fun v => mem_uniqueSorted hkey

/-- The keys of two lists agree when every key of the one list is a key of the other. -/
theorem map_uniqueSorted_eq_iff :
    (uniqueSorted key vs).map key = (uniqueSorted key ws).map key ↔
      (∀ v ∈ vs, ∃ w ∈ ws, key v = key w) ∧ ∀ w ∈ ws, ∃ v ∈ vs, key v = key w := by
  have hmem (us : List α) (k : κ) : k ∈ (uniqueSorted key us).map key ↔ ∃ u ∈ us, key u = k := by
    rw [List.mem_map]
    constructor
    · rintro ⟨u, hu, rfl⟩
      exact ⟨u, mem_of_mem_uniqueSorted key hu, rfl⟩
    · rintro ⟨u, hu, rfl⟩
      exact exists_mem_uniqueSorted key hu
  have hpair (us : List α) : ((uniqueSorted key us).map key).Pairwise (id · < id ·) :=
    List.pairwise_map.mpr (pairwise_uniqueSorted key us)
  constructor
  · intro h
    refine ⟨fun v hv => ?_, fun w hw => ?_⟩
    · obtain ⟨w, hw, hkey⟩ := (hmem ws (key v)).mp (h ▸ (hmem vs (key v)).mpr ⟨v, hv, rfl⟩)
      exact ⟨w, hw, hkey.symm⟩
    · exact (hmem vs (key w)).mp (h ▸ (hmem ws (key w)).mpr ⟨w, hw, rfl⟩)
  · rintro ⟨hvs, hws⟩
    have hiff (k : κ) :
        k ∈ (uniqueSorted key vs).map key ↔ k ∈ (uniqueSorted key ws).map key := by
      rw [hmem, hmem]
      constructor
      · rintro ⟨v, hv, rfl⟩
        obtain ⟨w, hw, hkey⟩ := hvs v hv
        exact ⟨w, hw, hkey.symm⟩
      · rintro ⟨w, hw, rfl⟩
        exact hws w hw
    exact eq_of_pairwise_key_lt (hpair vs) (hpair ws) hiff

/-- Values listed by strictly increasing key are left alone. -/
theorem uniqueSorted_eq_self (h : values.Pairwise (key · < key ·)) :
    uniqueSorted key values = values :=
  eq_of_pairwise_key_lt (pairwise_uniqueSorted key values) h fun _ =>
    (uniqueSorted_perm (h.imp fun hlt => hlt.ne)).mem_iff

theorem uniqueSorted_idem (values : List α) :
    uniqueSorted key (uniqueSorted key values) = uniqueSorted key values :=
  uniqueSorted_eq_self (pairwise_uniqueSorted key values)

end UniqueSorted

/-- Strings without repetition, in increasing order. -/
def canonicalStrings (values : List String) : List String := uniqueSorted id values

@[simp] theorem mem_canonicalStrings {values : List String} {v : String} :
    v ∈ canonicalStrings values ↔ v ∈ values :=
  mem_uniqueSorted fun _ _ _ _ h => h

theorem nodup_canonicalStrings (values : List String) : (canonicalStrings values).Nodup :=
  (pairwise_uniqueSorted id values).imp fun h => h.ne

theorem canonicalStrings_eq_iff {vs ws : List String} :
    canonicalStrings vs = canonicalStrings ws ↔ ∀ v, v ∈ vs ↔ v ∈ ws := by
  constructor
  · intro h v
    rw [← mem_canonicalStrings, h, mem_canonicalStrings]
  · exact uniqueSorted_congr fun _ _ _ _ h => h
