import Mathlib.Data.List.Pairwise
import Mathlib.Logic.Relation
import Mathlib.Order.Defs.Unbundled

/-!
# Locks taken in one order

Agents take locks one after the other and release them at once.  An agent that has to take a lock
whose key belongs to a lock of another agent waits for it.  When every agent takes its locks in an
order that all agents share, an agent waits for a lock that precedes all locks that its holder still
has to take, so that no agents wait for one another in a circle.

## Main definitions

* `LockOrder.Agent` : the locks that an agent holds and those that it has still to take.
* `LockOrder.WaitsFor` : one agent waits for another one.

## Main results

* `LockOrder.not_transGen_waitsFor` : ordered agents do not wait in a circle.
-/

namespace LockOrder

open List

variable {ι ρ κ : Type*}

/-- The locks that an agent holds, and those that it has still to take, in their order. -/
structure Agent (ρ : Type*) where
  held : List ρ := []
  pending : List ρ := []

namespace Agent

def Ordered (before : ρ → ρ → Prop) (agent : Agent ρ) : Prop :=
  (agent.held ++ agent.pending).Pairwise before

theorem Ordered.held_pending {before : ρ → ρ → Prop} {agent : Agent ρ} (h : agent.Ordered before)
    {l m : ρ} (hl : l ∈ agent.held) (hm : m ∈ agent.pending) : before l m :=
  (pairwise_append.mp h).2.2 l hl m hm

theorem Ordered.acquire {before : ρ → ρ → Prop} {held rest : List ρ} {l : ρ}
    (h : (⟨held, l :: rest⟩ : Agent ρ).Ordered before) :
    (⟨held ++ [l], rest⟩ : Agent ρ).Ordered before := by
  rw [Ordered, append_assoc, singleton_append]
  exact h

end Agent

variable (key : ρ → κ) (agents : ι → Agent ρ)

/-- The next lock of an agent has the key of a lock that another agent holds. -/
def WaitsFor (i j : ι) : Prop :=
  i ≠ j ∧ ∃ l ∈ (agents i).pending.head?, ∃ m ∈ (agents j).held, key m = key l

/-- The keys tell the locks apart that agents hold and wait for. -/
def Separates : Prop :=
  ∀ i j, ∀ l ∈ (agents i).pending, ∀ m ∈ (agents j).held, key m = key l → m = l

variable {key agents} {before : ρ → ρ → Prop} [IsTrans ρ before]

theorem before_of_transGen (hordered : ∀ i, (agents i).Ordered before)
    (hkey : Separates key agents) {i j : ι} (h : Relation.TransGen (WaitsFor key agents) i j) {l m : ρ}
    (hl : l ∈ (agents i).pending.head?) (hm : m ∈ (agents j).pending.head?) : before l m := by
  have hedge {i j : ι} (h : WaitsFor key agents i j) {l m : ρ}
      (hl : l ∈ (agents i).pending.head?) (hm : m ∈ (agents j).pending.head?) : before l m := by
    obtain ⟨-, l', hl', n, hn, heq⟩ := h
    obtain rfl : l = l' := Option.mem_unique hl hl'
    obtain rfl := hkey i j l (mem_of_mem_head? hl) n hn heq
    exact (hordered j).held_pending hn (mem_of_mem_head? hm)
  induction h generalizing m with
  | single h => exact hedge h hl hm
  | tail _ h ih =>
    obtain ⟨-, n, hn, -⟩ := id h
    exact IsTrans.trans _ _ _ (ih hn) (hedge h hn hm)

/-- Agents that take their locks in one order do not wait in a circle. -/
theorem not_transGen_waitsFor [Std.Irrefl before] (hordered : ∀ i, (agents i).Ordered before)
    (hkey : Separates key agents) (i : ι) : ¬ Relation.TransGen (WaitsFor key agents) i i := by
  intro h
  obtain ⟨j, ⟨-, l, hl, -⟩, -⟩ := Relation.TransGen.head'_iff.mp h
  exact irrefl l (before_of_transGen hordered hkey h hl hl)

end LockOrder
