import Mathlib.Data.List.Forall2
import Mathlib.Tactic.Basic

/-!
# Polarity

A change inside a formula changes the verdict of the formula in a direction that depends on the
connectives above it: a conjunction keeps the direction, a negation turns it round, and below an
exclusive disjunction only a change that leaves the verdict as it is leaves the whole as it is.

## Main definitions

* `Polarity`, `Polarity.flip`.
* `Polarity.Allows` : the changes of a verdict that a polarity allows.

## Main results

* `Allows.not`, `Allows.all`, `Allows.any` : what the connectives make of allowed changes.
-/

/-- The directions in which a verdict may change. -/
inductive Polarity
  | positive
  | negative
  | mixed
deriving DecidableEq, Repr

namespace Polarity

open Bool

/-- The polarity below a negation. -/
def flip : Polarity → Polarity
  | .positive => .negative
  | .negative => .positive
  | .mixed => .mixed

@[simp] theorem flip_eq_negative_iff {p : Polarity} : p.flip = .negative ↔ p = .positive := by
  cases p <;> simp [flip]

@[simp] theorem flip_eq_positive_iff {p : Polarity} : p.flip = .positive ↔ p = .negative := by
  cases p <;> simp [flip]

@[simp] theorem flip_flip (p : Polarity) : p.flip.flip = p := by
  cases p <;> rfl

/-- The verdict may change from `a` to `b` : a positive verdict may only grow, a negative one may
only shrink, and a mixed one stays. -/
def Allows (p : Polarity) (a b : Bool) : Prop :=
  (p ≠ .negative → a = true → b = true) ∧ (p ≠ .positive → b = true → a = true)

variable {p : Polarity} {a b : Bool} {α β : Type*}

theorem allows_mixed_iff : Allows .mixed a b ↔ a = b := by
  rw [Bool.eq_iff_iff]
  exact ⟨fun h => ⟨h.1 (by simp), h.2 (by simp)⟩, fun h => ⟨fun _ => h.1, fun _ => h.2⟩⟩

theorem Allows.refl (p : Polarity) (a : Bool) : Allows p a a := ⟨fun _ => id, fun _ => id⟩

theorem Allows.of_eq (h : a = b) : Allows p a b := h ▸ Allows.refl p a

theorem Allows.not (h : Allows p a b) : Allows p.flip (!a) (!b) := by
  constructor
  · intro hp ha
    rw [not_eq_true'] at ha ⊢
    rw [← not_eq_true] at ha ⊢
    exact fun hb => ha (h.2 (fun heq => hp (flip_eq_negative_iff.mpr heq)) hb)
  · intro hp hb
    rw [not_eq_true'] at hb ⊢
    rw [← not_eq_true] at hb ⊢
    exact fun ha => hb (h.1 (fun heq => hp (flip_eq_positive_iff.mpr heq)) ha)

theorem Allows.and {c d : Bool} (h : Allows p a b) (h' : Allows p c d) :
    Allows p (a && c) (b && d) := by
  constructor
  · intro hp ha
    rw [and_eq_true] at ha ⊢
    exact ⟨h.1 hp ha.1, h'.1 hp ha.2⟩
  · intro hp hb
    rw [and_eq_true] at hb ⊢
    exact ⟨h.2 hp hb.1, h'.2 hp hb.2⟩

theorem Allows.or {c d : Bool} (h : Allows p a b) (h' : Allows p c d) :
    Allows p (a || c) (b || d) := by
  constructor
  · intro hp ha
    rw [or_eq_true] at ha ⊢
    exact ha.imp (h.1 hp) (h'.1 hp)
  · intro hp hb
    rw [or_eq_true] at hb ⊢
    exact hb.imp (h.2 hp) (h'.2 hp)

variable {f : α → Bool} {g : β → Bool} {xs : List α} {ys : List β}

variable (h : List.Forall₂ (fun x y => Allows p (f x) (g y)) xs ys)

include h in
/-- A conjunction of changes. -/
theorem Allows.all : Allows p (xs.all f) (ys.all g) := by
  induction h with
  | nil => exact .refl p true
  | cons hfirst _ ih =>
    exact hfirst.and ih

include h in
/-- A disjunction of changes. -/
theorem Allows.any : Allows p (xs.any f) (ys.any g) := by
  induction h with
  | nil => exact .refl p false
  | cons hfirst _ ih =>
    exact hfirst.or ih

theorem countP_eq_of_mixed (h : List.Forall₂ (fun x y => Allows .mixed (f x) (g y)) xs ys) :
    xs.countP f = ys.countP g := by
  induction h with
  | nil => rfl
  | cons hfirst _ ih =>
    rw [List.countP_cons, List.countP_cons, ih, allows_mixed_iff.mp hfirst]

end Polarity
