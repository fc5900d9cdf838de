import Mathlib.Data.Set.Basic
import Mathlib.Order.Basic

/-!
# Values that are written once and deleted for good

A key is first absent, then holds a value, and at last is gone; it never goes back.  A store of such
keys is ordered by how far its keys have come.

## Main definitions

* `Retained` : the values of the live keys, and the keys that are gone.
* `Retained.Known` : a key that is live or gone.

## Main results

* `Retained.Known.mono`, `Retained.not_live_of_gone`, `Retained.live_eq_of_le` : what a later store
  keeps of an earlier one.
-/

/-- The values of the live keys and the keys that are gone. -/
@[ext]
structure Retained (κ ρ : Type*) where
  live : κ → Option ρ
  gone : Set κ
  disjoint : ∀ k ∈ gone, live k = none

namespace Retained

variable {κ ρ : Type*} {s t : Retained κ ρ} {k : κ} {r r' : ρ}

/-- Nothing has been written. -/
def empty : Retained κ ρ := ⟨fun _ => none, ∅, fun _ _ => rfl⟩

/-- Every key has come at least as far, and a value that is still there is the same. -/
instance : PartialOrder (Retained κ ρ) where
  le s t := s.gone ⊆ t.gone ∧ ∀ k r, s.live k = some r → t.live k = some r ∨ k ∈ t.gone
  le_refl s := ⟨subset_rfl, fun _ _ h => .inl h⟩
  le_trans s t u hst htu := by
    refine ⟨hst.1.trans htu.1, fun k r h => ?_⟩
    rcases hst.2 k r h with hlive | hgone
    · exact htu.2 k r hlive
    · exact .inr (htu.1 hgone)
  le_antisymm s t hst hts := by
    have hgone : s.gone = t.gone := Set.Subset.antisymm hst.1 hts.1
    have hlive : ∀ {a b : Retained κ ρ}, a.gone = b.gone →
        (∀ k r, a.live k = some r → b.live k = some r ∨ k ∈ b.gone) →
          ∀ k r, a.live k = some r → b.live k = some r := by
      intro a b heq hle k r h
      refine (hle k r h).resolve_right fun hmem => ?_
      rw [a.disjoint k (heq ▸ hmem)] at h
      cases h
    refine Retained.ext (funext fun k => Option.ext fun r => ?_) hgone
    exact ⟨hlive hgone hst.2 k r, hlive hgone.symm hts.2 k r⟩

def Known (s : Retained κ ρ) (k : κ) : Prop := (∃ r, s.live k = some r) ∨ k ∈ s.gone

theorem Known.xor (h : s.Known k) : Xor (∃ r, s.live k = some r) (k ∈ s.gone) := by
  rcases h with hlive | hgone
  · refine .inl ⟨hlive, fun hgone => ?_⟩
    obtain ⟨r, hr⟩ := hlive
    rw [s.disjoint k hgone] at hr
    cases hr
  · refine .inr ⟨hgone, ?_⟩
    rintro ⟨r, hr⟩
    rw [s.disjoint k hgone] at hr
    cases hr

theorem Known.mono (h : s ≤ t) (hk : s.Known k) : t.Known k := by
  rcases hk with ⟨r, hr⟩ | hgone
  · exact (h.2 k r hr).imp_left fun hlive => ⟨r, hlive⟩
  · exact .inr (h.1 hgone)

/-- A key that is gone never has a value again. -/
theorem not_live_of_gone (h : s ≤ t) (hk : k ∈ s.gone) : t.live k = none :=
  t.disjoint k (h.1 hk)

/-- A value never changes. -/
theorem live_eq_of_le (h : s ≤ t) (hr : s.live k = some r) (hr' : t.live k = some r') : r' = r := by
  rcases h.2 k r hr with hlive | hgone
  · exact Option.some.inj (hr'.symm.trans hlive)
  · rw [t.disjoint k hgone] at hr'
    cases hr'

end Retained
