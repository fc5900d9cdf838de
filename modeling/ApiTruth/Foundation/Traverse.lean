import Mathlib.Data.List.Forall2
import Mathlib.Data.List.Perm.Basic

/-!
# Fallible maps over lists

A fallible function maps a list when it succeeds on every item.  The results are related to the
items one by one, and such relations compose.

## Main results

* `mapM_eq_some_iff`, `mapM_eq_some_map_iff` : the results of a fallible map.
* `forall₂_comp` : two relations of lists, one after the other.
* `exists_pairs` : related lists are the columns of a list of pairs.
* `List.append_cons_inj_of_notMem_left` : a separator ends what does not contain it.
-/

variable {α β γ : Type*} {xs : List α} {ys : List β} {R : α → β → Prop}

variable {f : α → Option β} {δ : Type*}

/-- A fallible map succeeds when it succeeds on every item. -/
theorem mapM_eq_some_iff :
    xs.mapM f = some ys ↔ List.Forall₂ (fun x y => f x = some y) xs ys := by
  induction xs generalizing ys with
  | nil =>
    rw [List.mapM_nil, List.forall₂_nil_left_iff]
    exact ⟨fun h => (Option.some.inj h).symm, fun h => h ▸ rfl⟩
  | cons x xs ih =>
    rw [List.mapM_cons, List.forall₂_cons_left_iff]
    constructor
    · intro h
      obtain ⟨y, hy, h⟩ := Option.bind_eq_some_iff.mp h
      obtain ⟨zs, hzs, h⟩ := Option.bind_eq_some_iff.mp h
      exact ⟨y, zs, hy, ih.mp hzs, (Option.some.inj h).symm⟩
    · rintro ⟨y, zs, hy, hzs, rfl⟩
      exact Option.bind_eq_some_iff.mpr ⟨y, hy, Option.bind_eq_some_iff.mpr ⟨zs, ih.mpr hzs, rfl⟩⟩

/-- A map that succeeds under a condition gives its values where all items meet it. -/
theorem mapM_eq_some_map_iff {p : α → Prop} {g : α → β}
    (hf : ∀ x y, f x = some y ↔ p x ∧ y = g x) {xs : List α} {ys : List β} :
    xs.mapM f = some ys ↔ (∀ x ∈ xs, p x) ∧ ys = xs.map g := by
  rw [mapM_eq_some_iff]
  induction xs generalizing ys with
  | nil => simp [List.forall₂_nil_left_iff]
  | cons x xs ih =>
    rw [List.forall₂_cons_left_iff, List.forall_mem_cons, List.map_cons]
    constructor
    · rintro ⟨y, zs, hy, hzs, rfl⟩
      obtain ⟨hx, rfl⟩ := (hf x y).mp hy
      obtain ⟨hxs, rfl⟩ := ih.mp hzs
      exact ⟨⟨hx, hxs⟩, rfl⟩
    · rintro ⟨⟨hx, hxs⟩, rfl⟩
      exact ⟨g x, xs.map g, (hf x _).mpr ⟨hx, rfl⟩, ih.mpr ⟨hxs, rfl⟩, rfl⟩

theorem mapM_map_eq_some {f : α → β} {g : β → Option γ} {h : α → γ}
    (hg : ∀ x ∈ xs, g (f x) = some (h x)) : (xs.map f).mapM g = some (xs.map h) := by
  rw [mapM_eq_some_iff, List.forall₂_map_left_iff, List.forall₂_map_right_iff, List.forall₂_same]
  exact hg

theorem exists_map_of_forall_mem {f : β → α} {P : β → Prop}
    (h : ∀ x ∈ xs, ∃ y, x = f y ∧ P y) : ∃ ys : List β, xs = ys.map f ∧ ∀ y ∈ ys, P y := by
  induction xs with
  | nil => exact ⟨[], rfl, by simp⟩
  | cons x xs ih =>
    rw [List.forall_mem_cons] at h
    obtain ⟨⟨y, rfl, hy⟩, hxs⟩ := h
    obtain ⟨ys, rfl, hys⟩ := ih hxs
    exact ⟨y :: ys, rfl, List.forall_mem_cons.mpr ⟨hy, hys⟩⟩

/-- Lists related by two relations in turn are related item by item. -/
theorem forall₂_comp {S : β → γ → Prop} {zs : List γ} :
    (∃ ys, List.Forall₂ R xs ys ∧ List.Forall₂ S ys zs) ↔
      List.Forall₂ (fun x z => ∃ y, R x y ∧ S y z) xs zs := by
  induction xs generalizing zs with
  | nil => simp [List.forall₂_nil_left_iff]
  | cons x xs ih =>
    rw [List.forall₂_cons_left_iff]
    constructor
    · rintro ⟨ys, hR, hS⟩
      obtain ⟨y, ys, hxy, hxys, rfl⟩ := List.forall₂_cons_left_iff.mp hR
      obtain ⟨z, zs, hyz, hyzs, rfl⟩ := List.forall₂_cons_left_iff.mp hS
      exact ⟨z, zs, ⟨y, hxy, hyz⟩, ih.mp ⟨ys, hxys, hyzs⟩, rfl⟩
    · rintro ⟨z, zs, ⟨y, hxy, hyz⟩, hzs, rfl⟩
      obtain ⟨ys, hxys, hyzs⟩ := ih.mpr hzs
      exact ⟨y :: ys, .cons hxy hxys, .cons hyz hyzs⟩

theorem exists_forall₂ (xs : List α) (h : ∀ x ∈ xs, ∃ y, R x y) :
    ∃ ys, List.Forall₂ R xs ys := by
  induction xs with
  | nil => exact ⟨[], .nil⟩
  | cons x xs ih =>
    obtain ⟨y, hy⟩ := h x List.mem_cons_self
    obtain ⟨ys, hys⟩ := ih fun x hx => h x (List.mem_cons_of_mem _ hx)
    exact ⟨y :: ys, .cons hy hys⟩

variable (h : List.Forall₂ R xs ys)

include h in
/-- Related lists are the two columns of a list of related pairs. -/
theorem exists_pairs :
    ∃ pairs : List (α × β), pairs.map Prod.fst = xs ∧ pairs.map Prod.snd = ys ∧
      ∀ pair ∈ pairs, R pair.1 pair.2 := by
  induction h with
  | nil => exact ⟨[], rfl, rfl, by simp⟩
  | @cons x y xs ys hxy _ ih =>
    obtain ⟨pairs, hfst, hsnd, hpairs⟩ := ih
    exact ⟨(x, y) :: pairs, by rw [List.map_cons, hfst], by rw [List.map_cons, hsnd],
      List.forall_mem_cons.mpr ⟨hxy, hpairs⟩⟩

/-- Two lists with one image up to order: the one is related to an arrangement of the other. -/
theorem exists_perm_of_map_perm {f : α → γ} {g : β → γ} (h : (xs.map f).Perm (ys.map g)) :
    ∃ zs, zs.Perm ys ∧ List.Forall₂ (fun x z => f x = g z) xs zs := by
  have hys : List.Forall₂ (fun image y => image = g y) (ys.map g) ys := by
    rw [List.forall₂_map_left_iff, List.forall₂_same]
    exact fun _ _ => rfl
  obtain ⟨zs, hzs, hperm⟩ := List.perm_comp_forall₂ h hys
  exact ⟨zs, hperm, List.forall₂_map_left_iff.mp hzs⟩

include h in
theorem List.Forall₂.exists_right {x : α} (hx : x ∈ xs) : ∃ y ∈ ys, R x y := by
  induction h with
  | nil => simp at hx
  | cons hxy _ ih =>
    rcases List.mem_cons.mp hx with rfl | hx
    · exact ⟨_, List.mem_cons_self, hxy⟩
    · obtain ⟨y, hy, hR⟩ := ih hx
      exact ⟨y, List.mem_cons_of_mem _ hy, hR⟩

include h in
theorem List.Forall₂.exists_left {y : β} (hy : y ∈ ys) : ∃ x ∈ xs, R x y := by
  obtain ⟨x, hx, hR⟩ := h.flip.exists_right hy
  exact ⟨x, hx, hR⟩

theorem List.Forall₂.map_eq {f : α → δ} {g : β → δ}
    (h : List.Forall₂ (fun x y => f x = g y) xs ys) : xs.map f = ys.map g := by
  rw [← List.forall₂_eq_eq_eq, List.forall₂_map_left_iff, List.forall₂_map_right_iff]
  exact h

include h in
/-- Related items that yield the same up to order yield the same up to order together. -/
theorem List.Forall₂.flatMap_perm {f : α → List δ} {g : β → List δ}
    (hperm : ∀ x ∈ xs, ∀ y, R x y → (f x).Perm (g y)) : (xs.flatMap f).Perm (ys.flatMap g) := by
  induction h with
  | nil => exact .rfl
  | @cons x y xs ys hxy _ ih =>
    rw [List.forall_mem_cons] at hperm
    exact (hperm.1 y hxy).append (ih hperm.2)

theorem forall₂_congr_of_forall₂ {R : α → γ → Prop} {S : β → δ → Prop}
    {T : α → β → Prop} {U : γ → δ → Prop} {xs' : List γ}
    {ys' : List δ} (hxs : List.Forall₂ R xs xs') (hys : List.Forall₂ S ys ys')
    (h : ∀ x ∈ xs, ∀ y ∈ ys, ∀ x' y', R x x' → S y y' → (T x y ↔ U x' y')) :
    List.Forall₂ U xs' ys' ↔ List.Forall₂ T xs ys := by
  induction hxs generalizing ys ys' with
  | nil =>
    cases hys <;> simp
  | @cons x x' xs xs' hx _ ih =>
    cases hys with
    | nil => simp
    | @cons y y' ys ys' hy hys =>
      rw [List.forall₂_cons, List.forall₂_cons, h x List.mem_cons_self y List.mem_cons_self x' y' hx
        hy, ih hys fun x hx y hy => h x (List.mem_cons_of_mem _ hx) y (List.mem_cons_of_mem _ hy)]

include h in
theorem List.Forall₂.pairwise {P : α → α → Prop} {Q : β → β → Prop} (hP : xs.Pairwise P)
    (hPQ : ∀ x ∈ xs, ∀ x' ∈ xs, ∀ y y', R x y → R x' y' → P x x' → Q y y') : ys.Pairwise Q := by
  induction h with
  | nil => exact .nil
  | @cons x y xs ys hxy hxys ih =>
    cases hP with
    | cons hx hP =>
      refine .cons (fun y' hy' => ?_) (ih hP fun x hx x' hx' =>
        hPQ x (List.mem_cons_of_mem _ hx) x' (List.mem_cons_of_mem _ hx'))
      obtain ⟨x', hx', hR⟩ := hxys.exists_left hy'
      exact hPQ x List.mem_cons_self x' (List.mem_cons_of_mem _ hx') y y' hxy hR (hx x' hx')

/-- Parts without the separator end where it first stands. -/
theorem List.append_cons_inj_of_notMem_left {α : Type*} {x : α} {as bs us vs : List α} (ha : x ∉ as)
    (hb : x ∉ bs) : as ++ x :: us = bs ++ x :: vs ↔ as = bs ∧ us = vs := by
  refine ⟨fun h => ?_, fun h => by rw [h.1, h.2]⟩
  rcases List.append_eq_append_iff.mp h with ⟨cs, rfl, hcs⟩ | ⟨cs, rfl, hcs⟩
  · cases cs with
    | nil => simpa using hcs
    | cons y cs =>
      obtain rfl := (List.cons.inj hcs).1
      simp at hb
  · cases cs with
    | nil => simpa [eq_comm] using hcs
    | cons y cs =>
      obtain rfl := (List.cons.inj hcs).1
      simp at ha
