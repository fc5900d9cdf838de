import Mathlib.Data.List.Basic
import Mathlib.Tactic.Basic

/-!
# Values with diagnostics

A computation that goes on after a problem reports the problem and returns a value.  This file
gives the monad of such computations and reads the value and the diagnostics of a composed
computation off its parts.

## Main definitions

* `Reported` : a value and the diagnostics that were reported on the way.
* `Reported.report`, `Reported.each` : report one diagnostic; work through a list.

## Main results

* `Reported.value_bind`, `Reported.diagnostics_bind`.
* `Reported.diagnostics_each_eq_nil_iff` : a list is silent when each of its items is.
-/

universe u

/-- A value and the diagnostics that were reported on the way. -/
structure Reported (δ : Type u) (α : Type u) where
  value : α
  diagnostics : List δ

namespace Reported

variable {δ α β : Type u}

instance : Monad (Reported δ) where
  pure a := ⟨a, []⟩
  bind x f := ⟨(f x.value).value, x.diagnostics ++ (f x.value).diagnostics⟩

@[ext] theorem ext {x y : Reported δ α} (value : x.value = y.value)
    (diagnostics : x.diagnostics = y.diagnostics) : x = y := by
  cases x
  cases y
  simp_all

def report (diagnostic : δ) : Reported δ PUnit := ⟨.unit, [diagnostic]⟩

def reportIf (condition : Prop) [Decidable condition] (diagnostic : δ) : Reported δ PUnit :=
  if condition then report diagnostic else pure .unit

/-- Work through a list. -/
def each (xs : List α) (f : α → Reported δ β) : Reported δ (List β) :=
  ⟨xs.map fun x => (f x).value, xs.flatMap fun x => (f x).diagnostics⟩

@[simp] theorem value_pure (a : α) : (pure a : Reported δ α).value = a := rfl

@[simp] theorem diagnostics_pure (a : α) : (pure a : Reported δ α).diagnostics = [] := rfl

@[simp] theorem value_bind (x : Reported δ α) (f : α → Reported δ β) :
    (x >>= f).value = (f x.value).value := rfl

@[simp] theorem diagnostics_bind (x : Reported δ α) (f : α → Reported δ β) :
    (x >>= f).diagnostics = x.diagnostics ++ (f x.value).diagnostics := rfl

@[simp] theorem value_map (f : α → β) (x : Reported δ α) : (f <$> x).value = f x.value := rfl

@[simp] theorem diagnostics_map (f : α → β) (x : Reported δ α) :
    (f <$> x).diagnostics = x.diagnostics := by
  change x.diagnostics ++ [] = x.diagnostics
  rw [List.append_nil]

@[simp] theorem diagnostics_report (diagnostic : δ) :
    (report diagnostic).diagnostics = [diagnostic] := rfl

@[simp] theorem diagnostics_reportIf_eq_nil_iff {condition : Prop} [Decidable condition]
    {diagnostic : δ} : (reportIf condition diagnostic).diagnostics = [] ↔ ¬ condition := by
  by_cases h : condition <;> simp [reportIf, h]

@[simp] theorem value_each (xs : List α) (f : α → Reported δ β) :
    (each xs f).value = xs.map fun x => (f x).value := rfl

/-- A list is silent when each of its items is. -/
@[simp] theorem diagnostics_each_eq_nil_iff {xs : List α} {f : α → Reported δ β} :
    (each xs f).diagnostics = [] ↔ ∀ x ∈ xs, (f x).diagnostics = [] :=
  List.flatMap_eq_nil_iff

end Reported
