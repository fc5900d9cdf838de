import Mathlib.Data.List.Basic
import Mathlib.Tactic.Basic

/-!
# Runs of a labelled transition system

A transition system is a relation `step : σ → α → σ → Prop` between a state, an action and a
next state.  This file has no state and no action of its own: it gives the induction rules by
which invariants and eventualities of a concrete system are proved from facts about one step.

## Main definitions

* `Run step s as t` : the actions `as`, performed in order, lead from `s` to `t`.
* `Reachable step init t` : some run from a state in `init` ends in `t`.
* `Guarded step guard` : the steps of `step` that are taken in a state satisfying `guard`.

## Main results

* `Run.invariant`, `Reachable.invariant` : what one step preserves, a run preserves.
* `Run.holds_or_escapes` : a property that only an escaping step can destroy holds at the end of
  the run unless the run takes such a step.
* `Run.exists_crossing` : a run into a property starts outside of it or crosses into it.
-/

namespace TransitionSystem

variable {σ α : Type*} {step step' : σ → α → σ → Prop}

/-- The actions of the list, performed in order, lead from the first state to the last. -/
inductive Run (step : σ → α → σ → Prop) : σ → List α → σ → Prop
  | nil (s : σ) : Run step s [] s
  | cons {s t u : σ} {a : α} {as : List α} :
      step s a t → Run step t as u → Run step s (a :: as) u

/-- Some run from a state satisfying `init` ends in `t`. -/
def Reachable (step : σ → α → σ → Prop) (init : σ → Prop) (t : σ) : Prop :=
  ∃ s as, init s ∧ Run step s as t

/-- The steps of `step` taken in a state and with an action that satisfy `guard`. -/
def Guarded (step : σ → α → σ → Prop) (guard : σ → α → Prop) : σ → α → σ → Prop :=
  fun s a t => step s a t ∧ guard s a

namespace Run

variable {as : List α}

theorem mono (hsub : ∀ s a t, step s a t → step' s a t) {s t : σ} (hrun : Run step s as t) :
    Run step' s as t := by
  induction hrun with
  | nil s => exact .nil s
  | cons hstep _ ih => exact .cons (hsub _ _ _ hstep) ih

variable {as : List α} {s t : σ} {P : σ → Prop}

theorem of_guarded {guard : σ → α → Prop}
    (hrun : Run (Guarded step guard) s as t) : Run step s as t :=
  hrun.mono fun _ _ _ h => h.1

theorem append {s t u : σ} {as bs : List α} (hrun : Run step s as t)
    (hrun' : Run step t bs u) : Run step s (as ++ bs) u := by
  induction hrun with
  | nil s => exact hrun'
  | cons hstep _ ih => exact .cons hstep (ih hrun')

theorem split {s u : σ} {as bs : List α} (hrun : Run step s (as ++ bs) u) :
    ∃ t, Run step s as t ∧ Run step t bs u := by
  induction as generalizing s with
  | nil => exact ⟨s, .nil s, hrun⟩
  | cons a as ih =>
    cases hrun with
    | cons h hrest =>
      obtain ⟨t, has, hbs⟩ := ih hrest
      exact ⟨t, .cons h has, hbs⟩

theorem guarded {guard : α → Prop} (hrun : Run step s as t)
    (has : ∀ a ∈ as, guard a) : Run (Guarded step fun _ a => guard a) s as t := by
  induction hrun with
  | nil s => exact .nil s
  | cons h _ ih =>
    rw [List.forall_mem_cons] at has
    exact .cons ⟨h, has.1⟩ (ih has.2)

/-- What one step preserves, a run preserves. -/
theorem invariant {I : σ → Prop} (hstep : ∀ s a t, I s → step s a t → I t) {s t : σ}
    (hrun : Run step s as t) (hs : I s) : I t := by
  induction hrun with
  | nil s => exact hs
  | cons h _ ih => exact ih (hstep _ _ _ hs h)

/-- If every step from a state with `P` keeps `P` or is an escape, then at the end of a run from a
state with `P` either `P` holds or the run has taken an escape from a state with `P`. -/
theorem holds_or_escapes {escape : σ → α → Prop}
    (hstep : ∀ s a t, P s → step s a t → P t ∨ escape s a) {s t : σ} (hrun : Run step s as t)
    (hs : P s) :
    P t ∨ ∃ pre a post u, as = pre ++ a :: post ∧ Run step s pre u ∧ P u ∧ escape u a := by
  induction hrun with
  | nil s => exact .inl hs
  | @cons s t u a as h _ ih =>
    rcases hstep _ _ _ hs h with ht | hesc
    · rcases ih ht with hu | ⟨pre, b, post, v, rfl, hpre, hv, hesc⟩
      · exact .inl hu
      · exact .inr ⟨a :: pre, b, post, v, rfl, .cons h hpre, hv, hesc⟩
    · exact .inr ⟨[], a, as, s, rfl, .nil s, hs, hesc⟩

/-- A run that ends with `P` starts with `P` or takes a step from outside of `P` into it. -/
theorem exists_crossing (hrun : Run step s as t) (ht : P t) :
    P s ∨ ∃ pre a post u v, as = pre ++ a :: post ∧ Run step s pre u ∧ ¬ P u ∧ step u a v ∧
      P v ∧ Run step v post t := by
  induction hrun with
  | nil s => exact .inl ht
  | @cons s t u a as h hrest ih =>
    by_cases hs : P s
    · exact .inl hs
    · rcases ih ht with hmid | ⟨pre, b, post, v, w, rfl, hpre, hv, hvw, hw, hpost⟩
      · exact .inr ⟨[], a, as, s, t, rfl, .nil s, hs, h, hmid, hrest⟩
      · exact .inr ⟨a :: pre, b, post, v, w, rfl, .cons h hpre, hv, hvw, hw, hpost⟩

end Run

/-- An invariant of the initial states and of every step holds in every reachable state. -/
theorem Reachable.invariant {init I : σ → Prop} (hinit : ∀ s, init s → I s)
    (hstep : ∀ s a t, I s → step s a t → I t) {t : σ} (ht : Reachable step init t) : I t := by
  obtain ⟨s, as, hs, hrun⟩ := ht
  exact hrun.invariant hstep (hinit s hs)

theorem Reachable.run {init : σ → Prop} {s t : σ} (hs : Reachable step init s)
    (hrun : Run step s as t) : Reachable step init t := by
  obtain ⟨r, bs, hr, hbs⟩ := hs
  exact ⟨r, bs ++ as, hr, hbs.append hrun⟩

end TransitionSystem
