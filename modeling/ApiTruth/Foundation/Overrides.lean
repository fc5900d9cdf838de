import Mathlib.Data.List.Perm.Basic

/-!
# Declarations that override others

A declaration is a key with a value.  The own declarations of a key take the place of the inherited
ones, and a key that the deciding list declares more than once has no value.

## Main definitions

* `Overrides.declared` : the values that a list declares for a key.
* `Overrides.effective` : the value of a key.

## Main results

* `Overrides.effective_perm` : the order of the declarations does not matter.
* `Overrides.effective_map` : keys may be written differently as long as they stay apart.
-/

namespace Overrides

open List

variable {κ κ' α β : Type*} [DecidableEq κ] [DecidableEq κ']

/-- The values that a list declares for a key. -/
def declared (key : κ) (declarations : List (κ × α)) : List α :=
  (declarations.filter (·.1 = key)).map Prod.snd

def only : List α → Option α
  | [value] => some value
  | _ => none

/-- The only one of the given values, or what was there before if there are none. -/
def override (before : Option α) (values : List α) : Option α :=
  if values = [] then before else only values

/-- The value of a key: the own declarations decide, or else the inherited ones. -/
def effective (inherited own : List (κ × α)) (key : κ) : Option α :=
  override (only (declared key inherited)) (declared key own)

theorem declared_perm {xs ys : List (κ × α)} (h : xs.Perm ys) (key : κ) :
    (declared key xs).Perm (declared key ys) := (h.filter _).map _

theorem only_perm {xs ys : List α} (h : xs.Perm ys) : only xs = only ys := by
  match xs, ys, h.length_eq with
  | [], [], _ => rfl
  | [x], [y], _ => rw [List.singleton_perm_singleton.mp h]
  | _ :: _ :: _, _ :: _ :: _, _ => rfl

/-- The order of the declarations does not matter. -/
theorem effective_perm {inherited inherited' own own' : List (κ × α)}
    (hinherited : inherited.Perm inherited') (hown : own.Perm own') (key : κ) :
    effective inherited own key = effective inherited' own' key := by
  have hempty : declared key own = [] ↔ declared key own' = [] := by
    rw [← length_eq_zero_iff, (declared_perm hown key).length_eq, length_eq_zero_iff]
  simp only [effective, override, hempty, only_perm (declared_perm hinherited key),
    only_perm (declared_perm hown key)]

theorem declared_append (key : κ) (xs ys : List (κ × α)) :
    declared key (xs ++ ys) = declared key xs ++ declared key ys := by
  rw [declared, filter_append, map_append]
  rfl

theorem declared_singleton (key : κ) (d : κ × α) :
    declared key [d] = if d.1 = key then [d.2] else [] := by
  by_cases h : d.1 = key <;> simp [declared, h]

variable {key : κ} {xs : List (κ × α)} {inherited own : List (κ × α)}

theorem declared_eq_nil_iff :
    declared key xs = [] ↔ key ∉ xs.map Prod.fst := by
  rw [declared, map_eq_nil_iff, filter_eq_nil_iff]
  constructor
  · intro h hmem
    obtain ⟨d, hd, rfl⟩ := List.mem_map.mp hmem
    exact h d hd (by simp)
  · intro h d hd hkey
    exact h (List.mem_map.mpr ⟨d, hd, by simpa using hkey⟩)

theorem override_concat (before : Option α) (values : List α) (value : α) :
    override before (values ++ [value]) = if values = [] then some value else none := by
  cases values with
  | nil => rfl
  | cons v values =>
    cases values <;> rfl

theorem only_map (f : α → β) (xs : List α) : only (xs.map f) = (only xs).map f := by
  match xs with
  | [] => rfl
  | [_] => rfl
  | _ :: _ :: _ => rfl

theorem mem_of_only {xs : List α} {x : α} (h : only xs = some x) : x ∈ xs := by
  match xs, h with
  | [_], h => exact Option.some.inj h ▸ mem_cons_self

theorem mem_of_effective {value : α}
    (h : effective inherited own key = some value) : (key, value) ∈ inherited ++ own := by
  have hmem : value ∈ declared key inherited ∨ value ∈ declared key own := by
    unfold effective override at h
    split at h
    · exact .inl (mem_of_only h)
    · exact .inr (mem_of_only h)
  simpa [declared, mem_append] using hmem

theorem declared_map (f : κ → κ') (g : α → β) (h : ∀ d ∈ xs, f d.1 = f key → d.1 = key) :
    declared (f key) (xs.map (Prod.map f g)) = (declared key xs).map g := by
  induction xs with
  | nil => rfl
  | cons d xs ih =>
    have hrest := ih fun d' hd' => h d' (mem_cons_of_mem _ hd')
    have hiff : f d.1 = f key ↔ d.1 = key := ⟨h d mem_cons_self, congrArg f⟩
    rw [map_cons, ← singleton_append, declared_append, hrest,
      ← singleton_append (x := d), declared_append, declared_singleton, declared_singleton]
    by_cases hd : d.1 = key
    · simp [hd]
    · simp [hiff, hd]

/-- Keys may be written differently as long as they stay apart. -/
theorem effective_map (f : κ → κ') (g : α → β)
    (h : ∀ d ∈ inherited ++ own, f d.1 = f key → d.1 = key) :
    effective (inherited.map (Prod.map f g)) (own.map (Prod.map f g)) (f key) =
      (effective inherited own key).map g := by
  rw [effective, declared_map f g fun d hd => h d (mem_append_left _ hd),
    declared_map f g fun d hd => h d (mem_append_right _ hd), only_map, effective]
  simp only [override, map_eq_nil_iff, only_map]
  split <;> rfl

end Overrides
