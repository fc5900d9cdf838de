import Mathlib.Data.Finset.Card
import Mathlib.Data.List.Defs

/-!
# Sweeping until nothing changes

A loop sweeps over its state until a sweep reports no change.  Every sweep that reports a change
has collected a fact that the state did not have; as the facts come from a finite set, the loop
ends, with a state that a last sweep has found complete.

## Main definitions

* `saturate` : the loop, for a number of sweeps.
* `Saturating` : what a sweep does to the facts of a state.

## Main results

* `Saturating.exists_saturate` : the loop ends after a sweep that has reported no change.
-/

variable {σ β : Type*}

/-- The loop over sweeps, which gives up after a number of them. -/
def saturate (sweep : σ → Option σ) (changed : σ → Bool) : ℕ → σ → Option σ
  | 0, _ => none
  | rounds + 1, state => do
    let state' ← sweep state
    if changed state' then saturate sweep changed rounds state' else some state'

/-- From a state that keeps the invariant a sweep comes to another one with all facts of the first,
and with a new one if it reports a change. -/
structure Saturating (sweep : σ → Option σ) (changed : σ → Bool) (invariant : σ → Prop)
    (has : σ → β → Prop) (facts : Finset β) : Prop where
  sweeps : ∀ state, invariant state → ∃ state', sweep state = some state' ∧ invariant state'
  keeps : ∀ state state', invariant state → sweep state = some state' →
    ∀ fact, has state fact → has state' fact
  grows : ∀ state state', invariant state → sweep state = some state' → changed state' = true →
    ∃ fact ∈ facts, has state' fact ∧ ¬ has state fact

namespace Saturating

open Option

variable {sweep : σ → Option σ} {changed : σ → Bool} {invariant : σ → Prop}
  {has : σ → β → Prop} {facts : Finset β}

open Classical in
theorem card_lt (h : Saturating sweep changed invariant has facts) {state state' : σ}
    (hstate : invariant state) (hsweep : sweep state = some state')
    (hchanged : changed state' = true) :
    (facts.filter fun fact => ¬ has state' fact).card <
      (facts.filter fun fact => ¬ has state fact).card := by
  obtain ⟨fact, hfact, hnew, hold⟩ := h.grows state state' hstate hsweep hchanged
  refine Finset.card_lt_card ⟨fun x hx => ?_, fun hsub => ?_⟩
  · rw [Finset.mem_filter] at hx ⊢
    exact ⟨hx.1, fun hhas => hx.2 (h.keeps state state' hstate hsweep x hhas)⟩
  · exact (Finset.mem_filter.mp (hsub (Finset.mem_filter.mpr ⟨hfact, hold⟩))).2 hnew

/-- The loop ends after a sweep that has reported no change. -/
theorem exists_saturate (h : Saturating sweep changed invariant has facts) {state : σ}
    (hstate : invariant state) :
    ∃ bound last final, invariant last ∧ sweep last = some final ∧ changed final = false ∧
      ∀ rounds, bound ≤ rounds → saturate sweep changed rounds state = some final := by
  classical
  induction hn : (facts.filter fun fact => ¬ has state fact).card using
    Nat.strong_induction_on generalizing state with
  | _ n ih =>
    obtain ⟨state', hsweep, hstate'⟩ := h.sweeps state hstate
    cases hchanged : changed state' with
    | true =>
      obtain ⟨bound, last, final, hlast, hfinal, hend, hrounds⟩ :=
        ih _ (hn ▸ h.card_lt hstate hsweep hchanged) hstate' rfl
      refine ⟨bound + 1, last, final, hlast, hfinal, hend, fun rounds hle => ?_⟩
      obtain ⟨rounds, rfl⟩ : ∃ more, rounds = more + 1 := ⟨rounds - 1, by omega⟩
      rw [saturate, hsweep, bind_eq_bind, bind_some, if_pos hchanged]
      exact hrounds rounds (by omega)
    | false =>
      refine ⟨1, state, state', hstate, hsweep, hchanged, fun rounds hle => ?_⟩
      obtain ⟨rounds, rfl⟩ : ∃ more, rounds = more + 1 := ⟨rounds - 1, by omega⟩
      rw [saturate, hsweep, bind_eq_bind, bind_some, if_neg (by simp [hchanged])]

end Saturating
