import ApiTruth.Environment.Ordering
import ApiTruth.Orchestration.ProviderUpdate

/-!
# The laws of provider order

Updates of a provider are placed by comparing decimal sequences.  Newer and stale are converse,
newer is a strict order, a replay can be read in both directions, and confirmations compose.  The
catalog, the scheduler and the environments each have a comparison of their own; all three are the
order of the numbers.

## Main results

* `classifyProviderUpdate_eq_newer_iff`, `classifyProviderUpdate_eq_stale_iff`,
  `classifyProviderUpdate_eq_exactReplay_iff` : the classifications in terms of the evidence.
* `isMonotoneProviderConfirmation_trans` : confirmations compose.
* `compareCanonicalSequence_eq_numericOrder` : sequences are compared as numbers.
* `providerOrdering_lawful` : the laws together.
-/

namespace ApiTruth.Orchestration

open Catalog Environment Decimal

variable {α : Type*} [DecidableEq α] {a b c : ProviderCheckpoint α}

/-! ### Classifications -/

/-- An update is newer when its sequence is larger. -/
theorem classifyProviderUpdate_eq_newer_iff :
    classifyProviderUpdate (some a) b = .newer ↔ a.evidence.Before b.evidence := by
  refine ⟨before_of_newer, ?_⟩
  rintro ⟨hprovider, x, y, hx, hy, hlt⟩
  rw [classifyProviderUpdate_of_sequence hprovider hx hy, compare_eq_newer_iff.mpr hlt]

/-- An update is stale when its sequence is smaller. -/
theorem classifyProviderUpdate_eq_stale_iff :
    classifyProviderUpdate (some a) b = .stale ↔ b.evidence.Before a.evidence := by
  constructor
  · intro h
    rcases classifyProviderUpdate_cases a b with
      ⟨x, y, hprovider, hx, hy⟩ | ⟨hreplay, -⟩ | hincomparable
    · rw [classifyProviderUpdate_of_sequence hprovider hx hy] at h
      refine ⟨hprovider.symm, y, x, hy, hx, compare_eq_older_iff.mp ?_⟩
      cases hcompare : Decimal.compare x y with
      | older => rfl
      | newer => simp [hcompare] at h
      | equal =>
        simp only [hcompare] at h
        split_ifs at h
    · simp [hreplay] at h
    · simp [hincomparable] at h
  · intro h
    by_contra hstale
    exact not_before_of_not_stale hstale h

def HasNoSequence (evidence : ProviderReference) : Prop :=
  ∀ value, evidence.order ≠ some ⟨.sequence, value⟩

/-- A replay repeats the sequence, the reference and the payload, or all of a checkpoint that has no
sequence. -/
theorem classifyProviderUpdate_eq_exactReplay_iff :
    classifyProviderUpdate (some a) b = .exactReplay ↔
      (a.evidence.SameSequence b.evidence ∧
        a.evidence.providerReference = b.evidence.providerReference ∧
        a.relevantPayload = b.relevantPayload) ∨
      a = b ∧ HasNoSequence a.evidence := by
  constructor
  · intro h
    rcases (repeats_of_exactReplay h).1 with heq | ⟨hsame, hreference⟩
    · obtain rfl : a = b := by
        have hpayload := (repeats_of_exactReplay h).2
        cases a
        cases b
        simp_all
      by_cases hnone : HasNoSequence a.evidence
      · exact .inr ⟨rfl, hnone⟩
      · obtain ⟨value, hvalue⟩ := not_forall_not.mp hnone
        refine .inl ⟨⟨rfl, value, ?_⟩, rfl, rfl⟩
        suffices hcanonical : isCanonical value = true from
          ⟨⟨hvalue, hcanonical⟩, hvalue, hcanonical⟩
        by_contra hcanonical
        rw [Bool.not_eq_true] at hcanonical
        simp [classifyProviderUpdate, hvalue, compareCanonicalSequence, hcanonical] at h
    · exact .inl ⟨hsame, hreference, (repeats_of_exactReplay h).2⟩
  · rintro (⟨⟨hprovider, x, hx, hy⟩, hreference, hpayload⟩ | ⟨rfl, hnone⟩)
    · rw [classifyProviderUpdate_of_sequence hprovider hx hy, compare_eq_equal_iff.mpr rfl]
      simp [sameSemanticCheckpoint, hreference, hpayload]
    · obtain ⟨evidence, payload⟩ := a
      exact classifyProviderUpdate_self fun value hvalue => absurd hvalue (hnone value)

theorem classifyProviderUpdate_newer_iff_stale :
    classifyProviderUpdate (some a) b = .newer ↔ classifyProviderUpdate (some b) a = .stale :=
  classifyProviderUpdate_eq_newer_iff.trans classifyProviderUpdate_eq_stale_iff.symm

theorem classifyProviderUpdate_newer_irrefl : classifyProviderUpdate (some a) a ≠ .newer :=
  fun h => ProviderReference.Before.irrefl _ (classifyProviderUpdate_eq_newer_iff.mp h)

theorem classifyProviderUpdate_newer_trans (hab : classifyProviderUpdate (some a) b = .newer)
    (hbc : classifyProviderUpdate (some b) c = .newer) :
    classifyProviderUpdate (some a) c = .newer :=
  classifyProviderUpdate_eq_newer_iff.mpr ((classifyProviderUpdate_eq_newer_iff.mp hab).trans
    (classifyProviderUpdate_eq_newer_iff.mp hbc))

theorem classifyProviderUpdate_exactReplay_symm
    (h : classifyProviderUpdate (some a) b = .exactReplay) :
    classifyProviderUpdate (some b) a = .exactReplay := by
  rw [classifyProviderUpdate_eq_exactReplay_iff] at h ⊢
  rcases h with ⟨hsame, hreference, hpayload⟩ | ⟨rfl, hnone⟩
  · exact .inl ⟨hsame.symm, hreference.symm, hpayload.symm⟩
  · exact .inr ⟨rfl, hnone⟩

theorem classifyProviderUpdate_exactReplay_trans
    (hab : classifyProviderUpdate (some a) b = .exactReplay)
    (hbc : classifyProviderUpdate (some b) c = .exactReplay) :
    classifyProviderUpdate (some a) c = .exactReplay := by
  rw [classifyProviderUpdate_eq_exactReplay_iff] at hab
  rcases hab with ⟨hsame, hreference, hpayload⟩ | ⟨rfl, -⟩
  · rw [classifyProviderUpdate_eq_exactReplay_iff] at hbc ⊢
    rcases hbc with ⟨hsame', hreference', hpayload'⟩ | ⟨rfl, -⟩
    · exact .inl ⟨hsame.trans hsame', hreference.trans hreference', hpayload.trans hpayload'⟩
    · exact .inl ⟨hsame, hreference, hpayload⟩
  · exact hbc

/-! ### Confirmations -/

theorem isMonotoneProviderConfirmation_iff : isMonotoneProviderConfirmation a b = true ↔
    a.relevantPayload = b.relevantPayload ∧
      (classifyProviderUpdate (some a) b = .exactReplay ∨
        classifyProviderUpdate (some a) b = .newer) := by
  simp [isMonotoneProviderConfirmation]

theorem newer_of_exactReplay_of_newer (hab : classifyProviderUpdate (some a) b = .exactReplay)
    (hbc : classifyProviderUpdate (some b) c = .newer) :
    classifyProviderUpdate (some a) c = .newer := by
  rw [classifyProviderUpdate_eq_exactReplay_iff] at hab
  rw [classifyProviderUpdate_eq_newer_iff] at hbc ⊢
  rcases hab with ⟨hsame, -, -⟩ | ⟨rfl, -⟩
  · exact hsame.trans_before hbc
  · exact hbc

theorem newer_of_newer_of_exactReplay (hab : classifyProviderUpdate (some a) b = .newer)
    (hbc : classifyProviderUpdate (some b) c = .exactReplay) :
    classifyProviderUpdate (some a) c = .newer := by
  rw [classifyProviderUpdate_eq_exactReplay_iff] at hbc
  rw [classifyProviderUpdate_eq_newer_iff] at hab ⊢
  rcases hbc with ⟨hsame, -, -⟩ | ⟨rfl, -⟩
  · exact hab.trans_sameSequence hsame
  · exact hab

/-- Confirmations compose. -/
theorem isMonotoneProviderConfirmation_trans (hab : isMonotoneProviderConfirmation a b = true)
    (hbc : isMonotoneProviderConfirmation b c = true) :
    isMonotoneProviderConfirmation a c = true := by
  rw [isMonotoneProviderConfirmation_iff] at hab hbc ⊢
  refine ⟨hab.1.trans hbc.1, ?_⟩
  rcases hab.2 with hab | hab <;> rcases hbc.2 with hbc | hbc
  · exact .inl (classifyProviderUpdate_exactReplay_trans hab hbc)
  · exact .inr (newer_of_exactReplay_of_newer hab hbc)
  · exact .inr (newer_of_newer_of_exactReplay hab hbc)
  · exact .inr (classifyProviderUpdate_newer_trans hab hbc)

/-! ### The order of numbers -/

/-- Sequences are compared as the numbers that they denote. -/
theorem compareCanonicalSequence_eq_numericOrder (current next : String) :
    compareCanonicalSequence current next =
      if isCanonical current && isCanonical next
      then some (numericOrder (value current) (value next)) else none := by
  rw [compareCanonicalSequence_eq]
  split_ifs with hcanonical
  · rw [Bool.and_eq_true] at hcanonical
    rw [compare_eq_numericOrder hcanonical.1 hcanonical.2]
  · rfl

theorem compareProviderOrder_eq (current next : String) :
    compareProviderOrder (some ⟨.sequence, current⟩) (some ⟨.sequence, next⟩) =
      (compareCanonicalSequence current next).elim .unknown .known := by
  unfold compareProviderOrder compareCanonicalSequence
  simp only [apply_ite (Option.elim · ProviderOrderComparison.unknown .known)]
  rfl

theorem compareCanonicalSequence_eq_compareDecimal {current next : String}
    (hcurrent : isCanonical current = true) (hnext : isCanonical next = true) :
    compareCanonicalSequence current next = some (compareDecimal current next) :=
  compareCanonicalSequence_eq_some_iff.mpr ⟨hcurrent, hnext, rfl⟩

variable (α) in
/-- The order of provider updates is lawful: newer and stale are converse, newer is irreflexive and
transitive, replays are symmetric and confirmations compose.  The comparison behind it is that of
the numbers, and those of the catalog and of the environments agree with it. -/
theorem providerOrdering_lawful :
    (∀ a b : ProviderCheckpoint α, classifyProviderUpdate (some a) b = .newer ↔
      classifyProviderUpdate (some b) a = .stale) ∧
    (∀ a : ProviderCheckpoint α, classifyProviderUpdate (some a) a ≠ .newer) ∧
    (∀ a b c : ProviderCheckpoint α, classifyProviderUpdate (some a) b = .newer →
      classifyProviderUpdate (some b) c = .newer → classifyProviderUpdate (some a) c = .newer) ∧
    (∀ a b : ProviderCheckpoint α, classifyProviderUpdate (some a) b = .exactReplay →
      classifyProviderUpdate (some b) a = .exactReplay) ∧
    (∀ a b c : ProviderCheckpoint α, isMonotoneProviderConfirmation a b = true →
      isMonotoneProviderConfirmation b c = true → isMonotoneProviderConfirmation a c = true) ∧
    (∀ current next, compareCanonicalSequence current next =
      if Decimal.isCanonical current && Decimal.isCanonical next
      then some (Decimal.numericOrder (Decimal.value current) (Decimal.value next)) else none) ∧
    (∀ number : ℕ, Decimal.isCanonical (toString number) = true ∧
      Decimal.value (toString number) = number) ∧
    ∀ current next, Decimal.isCanonical current = true → Decimal.isCanonical next = true →
      compareCanonicalSequence current next = some (compareDecimal current next) ∧
      compareProviderOrder (some ⟨.sequence, current⟩) (some ⟨.sequence, next⟩) =
        .known (compareDecimal current next) := by
  refine ⟨fun _ _ => classifyProviderUpdate_newer_iff_stale, fun _ =>
    classifyProviderUpdate_newer_irrefl, fun _ _ _ => classifyProviderUpdate_newer_trans, fun _ _ =>
    classifyProviderUpdate_exactReplay_symm, fun _ _ _ => isMonotoneProviderConfirmation_trans,
    compareCanonicalSequence_eq_numericOrder, fun number => ⟨isCanonical_toString number,
    value_toString number⟩, fun current next hcurrent hnext => ?_⟩
  have hcompare := compareCanonicalSequence_eq_compareDecimal hcurrent hnext
  refine ⟨hcompare, ?_⟩
  rw [compareProviderOrder_eq, hcompare, Option.elim_some]

end ApiTruth.Orchestration
