import Mathlib.Data.List.Sort
import Mathlib.Order.Defs.LinearOrder
import Mathlib.Tactic.SplitIfs

/-!
# Cancellation of sorted lists

Two lists sorted by a key are gone through at once, and members that stand in both are dropped
pairwise.  What is left of each list is its difference to the other as a multiset: a member that
stands more often in the one list than in the other is left as often as it stands there in excess.

## Main definitions

* `cancelEqual` : drops the common members of two sorted lists.

## Main results

* `count_cancelEqual` : what is left of the two lists.
-/

section Cancellation

variable {α κ : Type*} [LinearOrder κ] (key : α → κ)

/-- Goes through two lists at once and drops members with one key pairwise. -/
def cancelEqual : List α → List α → List α × List α
  | [], after => ([], after)
  | b :: before, [] => (b :: before, [])
  | b :: before, a :: after =>
    if key b = key a then cancelEqual before after
    else if key b < key a then
      (b :: (cancelEqual before (a :: after)).1, (cancelEqual before (a :: after)).2)
    else ((cancelEqual (b :: before) after).1, a :: (cancelEqual (b :: before) after).2)
termination_by before after => before.length + after.length

variable {key}

private theorem count_of_key_lt [DecidableEq α] {b a : α} {after : List α} (hlt : key b < key a)
    (hafter : (a :: after).Pairwise (key · ≤ key ·)) : (a :: after).count b = 0 := by
  rw [List.count_eq_zero]
  intro hmem
  rcases List.mem_cons.mp hmem with rfl | hmem
  · exact lt_irrefl _ hlt
  · exact absurd (List.rel_of_pairwise_cons hafter hmem) hlt.not_ge

/-- Of sorted lists whose members are determined by their keys, the differences are left. -/
theorem count_cancelEqual [DecidableEq α] {before after : List α}
    (hbefore : before.Pairwise (key · ≤ key ·)) (hafter : after.Pairwise (key · ≤ key ·))
    (hkey : ∀ b ∈ before, ∀ a ∈ after, key b = key a → b = a) (x : α) :
    (cancelEqual key before after).1.count x = before.count x - after.count x ∧
      (cancelEqual key before after).2.count x = after.count x - before.count x := by
  fun_induction cancelEqual key before after with
  | case1 after => simp
  | case2 b before => simp
  | case3 b before a after heq ih =>
    obtain rfl := hkey b List.mem_cons_self a List.mem_cons_self heq
    obtain ⟨hfst, hsnd⟩ := ih hbefore.of_cons hafter.of_cons fun b' hb' a' ha' =>
      hkey b' (List.mem_cons_of_mem _ hb') a' (List.mem_cons_of_mem _ ha')
    rw [hfst, hsnd, List.count_cons, List.count_cons]
    omega
  | case4 b before a after hne hlt ih =>
    obtain ⟨hfst, hsnd⟩ := ih hbefore.of_cons hafter fun b' hb' =>
      hkey b' (List.mem_cons_of_mem _ hb')
    have hzero := count_of_key_lt hlt hafter
    rw [List.count_cons, hfst, hsnd, List.count_cons (l := before)]
    by_cases hx : b = x
    · subst hx
      rw [hzero]
      simp
    · simp [hx]
  | case5 b before a after hne hlt ih =>
    obtain ⟨hfst, hsnd⟩ := ih hbefore hafter.of_cons fun b' hb' a' ha' =>
      hkey b' hb' a' (List.mem_cons_of_mem _ ha')
    have hzero := count_of_key_lt (lt_of_le_of_ne (not_lt.mp hlt) (Ne.symm hne)) hbefore
    rw [hfst, List.count_cons (l := (cancelEqual key (b :: before) after).2), hsnd,
      List.count_cons (l := after)]
    by_cases hx : a = x
    · subst hx
      rw [hzero]
      simp
    · simp [hx]

end Cancellation
