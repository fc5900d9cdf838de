import Mathlib.Data.List.Forall2
import Mathlib.Tactic.Basic

/-!
# Computations that check their way

A transaction reads rows, raises an error when one is missing or a condition fails, and returns
the rows it leaves.  This file gives the two checks and reads a successful computation back as
the conjunction of its checks.

## Main definitions

* `Checked.require` : raise unless a condition holds.
* `Checked.orRaise` : raise unless a value is there.

## Main results

* `Checked.bind_eq_ok`, `Checked.require_bind_eq_ok`, `Checked.orRaise_bind_eq_ok`.
* `Checked.foldlM_invariant` : what every step of a fold preserves, the fold preserves.
* `Checked.foldlM_cases` : a fold raises, or reaches what each of its steps reaches.
-/

namespace Checked

open List

universe u

variable {ε : Type*} {α β : Type u}

/-- Raise the error unless the condition holds. -/
def require (condition : Prop) [Decidable condition] (error : ε) : Except ε PUnit :=
  if condition then .ok .unit else .error error

def orRaise (value : Option α) (error : ε) : Except ε α :=
  match value with
  | some a => .ok a
  | none => .error error

variable {x : Except ε α} {error : ε} {xs : List α} {f : β → α → Except ε β}

variable {b : β} {condition : Prop} {value : Option α} {I : β → Prop}

theorem bind_eq_ok {f : α → Except ε β} :
    (x >>= f) = .ok b ↔ ∃ a, x = .ok a ∧ f a = .ok b := by
  cases x <;> simp [bind, Except.bind]

theorem bind_ne_error {f : α → Except ε β} (hx : x ≠ .error error)
    (hf : ∀ a, x = .ok a → f a ≠ .error error) : (x >>= f) ≠ .error error := by
  cases x with
  | error e => exact fun h => hx (congrArg Except.error (Except.error.inj h))
  | ok a => exact hf a rfl

theorem map_eq_ok {f : α → β} :
    f <$> x = .ok b ↔ ∃ a, x = .ok a ∧ f a = b := by
  cases x <;> simp [Functor.map, Except.map]

theorem pure_eq_ok {a b : α} : (pure a : Except ε α) = .ok b ↔ a = b := by
  simp [pure, Except.pure]

theorem require_eq_ok [Decidable condition] {u : PUnit} :
    require condition error = .ok u ↔ condition := by
  by_cases h : condition <;> simp [require, h]

theorem orRaise_eq_ok {a : α} :
    orRaise value error = .ok a ↔ value = some a := by
  cases value <;> simp [orRaise]

theorem require_bind_eq_ok [Decidable condition] {f : PUnit → Except ε β} :
    (require condition error >>= f) = .ok b ↔ condition ∧ f .unit = .ok b := by
  by_cases h : condition <;> simp [require, h, bind, Except.bind]

theorem orRaise_bind_eq_ok {f : α → Except ε β} :
    (orRaise value error >>= f) = .ok b ↔ ∃ a, value = some a ∧ f a = .ok b := by
  cases value <;> simp [orRaise, bind, Except.bind]

theorem toOption_eq_some_iff {a : α} : x.toOption = some a ↔ x = .ok a := by
  cases x <;> simp [Except.toOption]

theorem isOk_iff : x.isOk = true ↔ ∃ a, x = .ok a := by
  cases x <;> simp [Except.isOk, Except.toBool]

theorem mapM_eq_ok_iff {f : α → Except ε β} {ys : List β} :
    xs.mapM f = .ok ys ↔ List.Forall₂ (fun x y => f x = .ok y) xs ys := by
  induction xs generalizing ys with
  | nil =>
    rw [mapM_nil, forall₂_nil_left_iff, pure_eq_ok, eq_comm]
  | cons x xs ih =>
    rw [mapM_cons, forall₂_cons_left_iff, bind_eq_ok]
    constructor
    · rintro ⟨y, hy, h⟩
      obtain ⟨zs, hzs, h⟩ := bind_eq_ok.mp h
      exact ⟨y, zs, hy, ih.mp hzs, (pure_eq_ok.mp h).symm⟩
    · rintro ⟨y, zs, hy, hzs, rfl⟩
      exact ⟨y, hy, bind_eq_ok.mpr ⟨zs, ih.mpr hzs, rfl⟩⟩

theorem foldlM_invariant_of_mem
    (hstep : ∀ b b', ∀ a ∈ xs, I b → f b a = .ok b' → I b') {b b' : β} (hb : I b)
    (h : xs.foldlM f b = .ok b') : I b' := by
  induction xs generalizing b with
  | nil =>
    cases h
    exact hb
  | cons x xs ih =>
    obtain ⟨c, hc, hrest⟩ := bind_eq_ok.mp h
    exact ih (fun b b' a ha => hstep b b' a (mem_cons_of_mem x ha))
      (hstep _ _ x mem_cons_self hb hc) hrest

/-- What every step of a fold preserves, the fold preserves. -/
theorem foldlM_invariant
    (hstep : ∀ b a b', I b → f b a = .ok b' → I b') {xs : List α} {b b' : β} (hb : I b)
    (h : xs.foldlM f b = .ok b') : I b' :=
  foldlM_invariant_of_mem (fun b b' a _ => hstep b a b') hb h

theorem exists_of_foldlM_eq_ok {b b' : β}
    (h : xs.foldlM f b = .ok b') : ∀ a ∈ xs, ∃ c c', f c a = .ok c' := by
  induction xs generalizing b with
  | nil => simp
  | cons x xs ih =>
    obtain ⟨c, hc, hrest⟩ := bind_eq_ok.mp h
    intro a ha
    rcases List.mem_cons.mp ha with rfl | ha
    · exact ⟨b, c, hc⟩
    · exact ih hrest a ha

/-- A fold raises, for a reason that every raising step gives, or reaches what each step reaches
and no later step gives up. -/
theorem foldlM_cases {P : α → β → Prop} {reason : Prop}
    (hstep : ∀ b, ∀ a ∈ xs, I b → (∃ error, f b a = .error error) ∧ reason ∨
      ∃ b', f b a = .ok b' ∧ I b' ∧ P a b' ∧ ∀ other, P other b → P other b') {b : β} (hb : I b) :
    (∃ error, xs.foldlM f b = .error error) ∧ reason ∨
      ∃ b', xs.foldlM f b = .ok b' ∧ I b' ∧ (∀ a ∈ xs, P a b') ∧ ∀ other, P other b → P other b' := by
  induction xs generalizing b with
  | nil => exact .inr ⟨b, rfl, hb, by simp, fun _ h => h⟩
  | cons x xs ih =>
    rcases hstep b x mem_cons_self hb with ⟨⟨error, herror⟩, hreason⟩ | ⟨c, hc, hI, hx, hkeep⟩
    · exact .inl ⟨⟨error, by simp [foldlM_cons, herror, bind, Except.bind]⟩, hreason⟩
    · have hrest : (x :: xs).foldlM f b = xs.foldlM f c := by
        simp [foldlM_cons, hc, bind, Except.bind]
      rw [hrest]
      rcases ih (fun b a ha => hstep b a (mem_cons_of_mem x ha)) hI with
        hraised | ⟨b', hb', hI', hall, hkeep'⟩
      · exact .inl hraised
      · refine .inr ⟨b', hb', hI', fun a ha => ?_, fun other h => hkeep' other (hkeep other h)⟩
        rcases List.mem_cons.mp ha with rfl | ha
        · exact hkeep' a hx
        · exact hall a ha

end Checked
