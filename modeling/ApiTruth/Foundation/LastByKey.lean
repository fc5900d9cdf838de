import ApiTruth.Foundation.OrderedMap

/-!
# The last values of keys, sorted

A list is made canonical by keeping the last value of every key and sorting the values by their
keys.  Where the order is a preorder only, keys that it ties keep the order in which they were first
met, so that the list depends on more than the set of values.

## Main definitions

* `lastByKey` : the last value of every key, sorted by the keys.

## Main results

* `mem_lastByKey` : the values kept, when a key determines its value.
* `lastByKey_congr` : the list depends on the set of values only, when no two of them tie.
* `lastByKey_pair_of_ne`, `lastByKey_pair_of_eq` : two values that tie.
-/

variable {α κ : Type*} [DecidableEq κ] (key : α → κ) (le : κ → κ → Bool)

/-- The last value of every key, sorted by the keys. -/
def lastByKey (values : List α) : List α :=
  ((OrderedMap.ofEntries (values.map fun value => (key value, value))).entries.insertionSort
    (le ·.1 ·.1)).map Prod.snd

variable {key le}

theorem eq_of_mem_entries {values : List α} {entry : κ × α}
    (h : entry ∈ (OrderedMap.ofEntries (values.map fun value => (key value, value))).entries) :
    entry.2 ∈ values ∧ entry.1 = key entry.2 := by
  obtain ⟨value, hvalue, rfl⟩ := List.mem_map.mp (OrderedMap.mem_of_mem_ofEntries h)
  exact ⟨hvalue, rfl⟩

variable (values : List α)

theorem lastByKey_eq : lastByKey key le values =
    ((OrderedMap.ofEntries (values.map fun value => (key value, value))).entries.map
      Prod.snd).insertionSort fun x y => le (key x) (key y) = true :=
  List.map_insertionSort _ _ Prod.snd _ fun entry hentry other hother => by
    rw [(eq_of_mem_entries hentry).2, (eq_of_mem_entries hother).2]

theorem lastByKey_perm : (lastByKey key le values).Perm
    ((OrderedMap.ofEntries (values.map fun value => (key value, value))).entries.map Prod.snd) := by
  rw [lastByKey_eq]
  exact List.perm_insertionSort _ _

theorem mem_of_mem_lastByKey {values : List α} {value : α} (h : value ∈ lastByKey key le values) :
    value ∈ values := by
  obtain ⟨entry, hentry, rfl⟩ := List.mem_map.mp ((lastByKey_perm values).mem_iff.mp h)
  exact (eq_of_mem_entries hentry).1

/-- Every value is kept when a key determines its value. -/
theorem mem_lastByKey {values : List α} (hkey : ∀ x ∈ values, ∀ y ∈ values, key x = key y → x = y)
    {value : α} : value ∈ lastByKey key le values ↔ value ∈ values := by
  refine ⟨mem_of_mem_lastByKey, fun h => ?_⟩
  have hmem : key value ∈
      (OrderedMap.ofEntries (values.map fun value => (key value, value))).keys := by
    rw [OrderedMap.mem_keys_ofEntries, List.map_map]
    exact List.mem_map_of_mem h
  obtain ⟨entry, hentry, heq⟩ := List.mem_map.mp hmem
  obtain ⟨hvalue, hk⟩ := eq_of_mem_entries hentry
  obtain rfl := hkey _ hvalue value h (hk.symm.trans heq)
  exact (lastByKey_perm values).mem_iff.mpr (List.mem_map_of_mem hentry)

theorem nodup_lastByKey : (lastByKey key le values).Nodup := by
  rw [(lastByKey_perm values).nodup_iff]
  have hnodup := (OrderedMap.ofEntries (values.map fun value => (key value, value))).nodup
  rw [List.map_congr_left fun entry hentry => (eq_of_mem_entries hentry).2] at hnodup
  refine List.Nodup.of_map key ?_
  rwa [List.map_map]

section Congr

variable (htotal : ∀ a b, le a b = true ∨ le b a = true)
  (htrans : ∀ {a b c}, le a b = true → le b c = true → le a c = true)

include htotal htrans

theorem pairwise_lastByKey (values : List α) :
    (lastByKey key le values).Pairwise fun x y => le (key x) (key y) = true := by
  have htotal' : Std.Total fun x y : α => le (key x) (key y) = true := ⟨fun x y => htotal _ _⟩
  have htrans' : IsTrans α fun x y => le (key x) (key y) = true := ⟨fun x y z => htrans⟩
  rw [lastByKey_eq]
  exact List.pairwise_insertionSort (fun x y => le (key x) (key y) = true) _

/-- The list depends on the set of values only, when no two of them tie. -/
theorem lastByKey_congr {values values' : List α}
    (htie : ∀ x ∈ values, ∀ y ∈ values, le (key x) (key y) = true → le (key y) (key x) = true →
      x = y) (hmem : ∀ x, x ∈ values ↔ x ∈ values') :
    lastByKey key le values = lastByKey key le values' := by
  have hrefl (k : κ) : le k k = true := (htotal k k).elim id id
  have hkey : ∀ x ∈ values, ∀ y ∈ values, key x = key y → x = y := fun x hx y hy heq =>
    htie x hx y hy (heq ▸ hrefl _) (heq ▸ hrefl _)
  have hkey' : ∀ x ∈ values', ∀ y ∈ values', key x = key y → x = y := fun x hx y hy =>
    hkey x ((hmem x).mpr hx) y ((hmem y).mpr hy)
  have hperm : (lastByKey key le values).Perm (lastByKey key le values') :=
    (List.perm_ext_iff_of_nodup (nodup_lastByKey _) (nodup_lastByKey _)).mpr fun x => by
      rw [mem_lastByKey hkey, mem_lastByKey hkey', hmem]
  exact hperm.eq_of_pairwise (fun x y hx hy => htie x (mem_of_mem_lastByKey hx) y
    ((hmem y).mpr (mem_of_mem_lastByKey hy))) (pairwise_lastByKey htotal htrans _)
    (pairwise_lastByKey htotal htrans _)

end Congr

/-- Two values with different keys that tie stay in their order. -/
theorem lastByKey_pair_of_ne {x y : α} (hne : key x ≠ key y) (hle : le (key x) (key y) = true) :
    lastByKey key le [x, y] = [x, y] := by
  rw [lastByKey_eq, OrderedMap.entries_ofEntries (by simpa using hne)]
  simp [hle]

@[simp] theorem lastByKey_singleton (x : α) : lastByKey key le [x] = [x] := rfl

/-- Of two values with one key the second is kept. -/
theorem lastByKey_pair_of_eq {x y : α} (heq : key x = key y) : lastByKey key le [x, y] = [y] := by
  simp [lastByKey, OrderedMap.ofEntries, OrderedMap.set, OrderedMap.setEntries, OrderedMap.empty,
    heq]
