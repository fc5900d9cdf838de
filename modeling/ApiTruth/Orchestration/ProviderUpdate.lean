import ApiTruth.Catalog.BranchPointer

/-!
# Order of provider updates

An update of a provider is placed with respect to the checkpoint it would replace.  The payload
is what a repetition must repeat: for a branch, whether it exists and at which revision.

## Main definitions

* `classifyProviderUpdate` : first, exact replay, newer, stale, conflict or incomparable.
* `isMonotoneProviderConfirmation` : the current checkpoint repeats or follows the origin.

## Main results

* `before_of_newer`, `repeats_of_exactReplay`, `not_before_of_not_stale` : the
  classifications in terms of the order of sequences.
-/

namespace ApiTruth.Orchestration

open Catalog Decimal Bool

/-- The evidence of a provider together with the payload it is about. -/
structure ProviderCheckpoint (α : Type*) where
  evidence : ProviderReference
  relevantPayload : α
deriving DecidableEq, Repr

/-- The result of `classifyProviderUpdate`. -/
inductive ProviderUpdateClassification
  | first
  | exactReplay
  | newer
  | stale
  | conflict
  | incomparable
deriving DecidableEq, Repr

/-- Orders two sequences; `none` when one of them is not canonical. -/
def compareCanonicalSequence (current next : String) : Option Decimal.Order :=
  if !Decimal.isCanonical current || !Decimal.isCanonical next then none
  else if next.length < current.length then some .older
  else if current.length < next.length then some .newer
  else if next = current then some .equal
  else if next < current then some .older else some .newer

variable {α : Type*} [DecidableEq α]

def sameSemanticCheckpoint (current next : ProviderCheckpoint α) : Bool :=
  current.evidence.providerReference == next.evidence.providerReference
    && current.relevantPayload == next.relevantPayload

def sameExactCheckpoint (current next : ProviderCheckpoint α) : Bool :=
  current.evidence == next.evidence && current.relevantPayload == next.relevantPayload

/-- Places an update with respect to the current checkpoint. -/
def classifyProviderUpdate (current : Option (ProviderCheckpoint α))
    (next : ProviderCheckpoint α) : ProviderUpdateClassification :=
  match current with
  | none => if canonicalSequence next.evidence.order then .first else .incomparable
  | some current =>
    if current.evidence.provider ≠ next.evidence.provider then .incomparable
    else match current.evidence.order, next.evidence.order with
      | some ⟨.sequence, oldValue⟩, some ⟨.sequence, newValue⟩ =>
        match compareCanonicalSequence oldValue newValue with
        | none => .incomparable
        | some .older => .stale
        | some .newer => .newer
        | some .equal => if sameSemanticCheckpoint current next then .exactReplay else .conflict
      | _, _ => if sameExactCheckpoint current next then .exactReplay else .incomparable

/-- The current checkpoint has the payload of the origin and repeats or follows its evidence. -/
def isMonotoneProviderConfirmation (origin current : ProviderCheckpoint α) : Bool :=
  origin.relevantPayload == current.relevantPayload &&
    let classification := classifyProviderUpdate (some origin) current
    classification == .exactReplay || classification == .newer

/-! ### Classifications and the order of sequences -/

/-- The evidence is the same up to what an exact replay does not compare. -/
def SameEvidence (a b : ProviderReference) : Prop :=
  a = b ∨ (a.SameSequence b ∧ a.providerReference = b.providerReference)

theorem compareCanonicalSequence_eq (current next : String) :
    compareCanonicalSequence current next =
      if isCanonical current && isCanonical next
      then some (Decimal.compare current next) else none := by
  rw [compareCanonicalSequence, ← Bool.not_and, Decimal.compare_eq_ite]
  cases isCanonical current && isCanonical next with
  | false => rfl
  | true => simp only [apply_ite some, Bool.not_true, Bool.false_eq_true, ↓reduceIte]

theorem compareCanonicalSequence_eq_some_iff {current next : String} {order : Decimal.Order} :
    compareCanonicalSequence current next = some order ↔ isCanonical current = true ∧
      Decimal.isCanonical next = true ∧ Decimal.compare current next = order := by
  rw [compareCanonicalSequence_eq]
  by_cases hcurrent : isCanonical current <;>
    by_cases hnext : isCanonical next <;> simp [hcurrent, hnext]

theorem classifyProviderUpdate_of_sequence {current next : ProviderCheckpoint α} {x y : String}
    (hprovider : current.evidence.provider = next.evidence.provider)
    (hx : current.evidence.HasSequence x) (hy : next.evidence.HasSequence y) :
    classifyProviderUpdate (some current) next = match Decimal.compare x y with
      | .older => .stale
      | .newer => .newer
      | .equal => if sameSemanticCheckpoint current next then .exactReplay else .conflict := by
  have hcompare : compareCanonicalSequence x y = some (Decimal.compare x y) :=
    compareCanonicalSequence_eq_some_iff.mpr ⟨hx.2, hy.2, rfl⟩
  simp only [classifyProviderUpdate, hprovider, ne_eq, not_true_eq_false, ↓reduceIte, hx.1, hy.1,
    hcompare]
  cases Decimal.compare x y <;> rfl

theorem classifyProviderUpdate_cases (current next : ProviderCheckpoint α) :
    (∃ x y, current.evidence.provider = next.evidence.provider ∧ current.evidence.HasSequence x ∧
        next.evidence.HasSequence y) ∨
      (classifyProviderUpdate (some current) next = .exactReplay ∧
        sameExactCheckpoint current next = true) ∨
      classifyProviderUpdate (some current) next = .incomparable := by
  unfold classifyProviderUpdate
  by_cases hprovider : current.evidence.provider = next.evidence.provider
  · simp only [hprovider, ne_eq, not_true_eq_false, ↓reduceIte]
    split
    · next x y hx hy =>
      cases hcompare : compareCanonicalSequence x y with
      | none => exact .inr (.inr rfl)
      | some order =>
        obtain ⟨hcx, hcy, -⟩ := compareCanonicalSequence_eq_some_iff.mp hcompare
        exact .inl ⟨x, y, trivial, ⟨hx, hcx⟩, ⟨hy, hcy⟩⟩
    · by_cases hexact : sameExactCheckpoint current next = true
      · exact .inr (.inl ⟨by simp [hexact], hexact⟩)
      · exact .inr (.inr (by simp [hexact]))
  · exact .inr (.inr (by simp [hprovider]))

theorem classifyProviderUpdate_ne_first (current next : ProviderCheckpoint α) :
    classifyProviderUpdate (some current) next ≠ .first := by
  rcases classifyProviderUpdate_cases current next with
    ⟨x, y, hprovider, hx, hy⟩ | ⟨hreplay, -⟩ | hincomparable
  · rw [classifyProviderUpdate_of_sequence hprovider hx hy]
    cases Decimal.compare x y with
    | older => simp
    | newer => simp
    | equal =>
      split_ifs <;> simp
  · simp [hreplay]
  · simp [hincomparable]

variable {current next : ProviderCheckpoint α} {payload : α}

theorem before_of_newer (h : classifyProviderUpdate (some current) next = .newer) :
    current.evidence.Before next.evidence := by
  rcases classifyProviderUpdate_cases current next with
    ⟨x, y, hprovider, hx, hy⟩ | ⟨hreplay, -⟩ | hincomparable
  · rw [classifyProviderUpdate_of_sequence hprovider hx hy] at h
    refine ⟨hprovider, x, y, hx, hy, compare_eq_newer_iff.mp ?_⟩
    cases hcompare : Decimal.compare x y with
    | newer => rfl
    | older => simp [hcompare] at h
    | equal =>
      simp only [hcompare] at h
      split_ifs at h
  · simp [hreplay] at h
  · simp [hincomparable] at h

/-- An exact replay repeats the evidence and the payload. -/
theorem repeats_of_exactReplay (h : classifyProviderUpdate (some current) next = .exactReplay) :
    SameEvidence current.evidence next.evidence ∧
      current.relevantPayload = next.relevantPayload := by
  rcases classifyProviderUpdate_cases current next with
    ⟨x, y, hprovider, hx, hy⟩ | ⟨-, hexact⟩ | hincomparable
  · rw [classifyProviderUpdate_of_sequence hprovider hx hy] at h
    cases hcompare : Decimal.compare x y with
    | newer => simp [hcompare] at h
    | older => simp [hcompare] at h
    | equal =>
      obtain rfl := compare_eq_equal_iff.mp hcompare
      simp only [hcompare] at h
      split_ifs at h with hsame
      simp only [sameSemanticCheckpoint, and_eq_true, beq_iff_eq] at hsame
      exact ⟨.inr ⟨⟨hprovider, _, hx, hy⟩, hsame.1⟩, hsame.2⟩
  · simp only [sameExactCheckpoint, and_eq_true, beq_iff_eq] at hexact
    exact ⟨.inl hexact.1, hexact.2⟩
  · simp [hincomparable] at h

/-- Only a stale update has a smaller sequence than the checkpoint. -/
theorem not_before_of_not_stale (h : classifyProviderUpdate (some current) next ≠ .stale) :
    ¬ next.evidence.Before current.evidence := by
  rintro ⟨hprovider, y, x, hy, hx, hlt⟩
  refine h ?_
  rw [classifyProviderUpdate_of_sequence hprovider.symm hx hy, compare_eq_older_iff.mpr hlt]

theorem before_or_sameEvidence_of_confirmation {origin current : ProviderCheckpoint α}
    (h : isMonotoneProviderConfirmation origin current = true) :
    origin.evidence.Before current.evidence ∨ SameEvidence origin.evidence current.evidence := by
  simp only [isMonotoneProviderConfirmation, and_eq_true, or_eq_true, beq_iff_eq] at h
  rcases h.2 with hreplay | hnewer
  · exact .inr (repeats_of_exactReplay hreplay).1
  · exact .inl (before_of_newer hnewer)

/-! ### Confirmations -/

theorem classifyProviderUpdate_self {evidence : ProviderReference}
    (hcanonical : ∀ value, evidence.order = some ⟨.sequence, value⟩ →
      isCanonical value = true) :
    classifyProviderUpdate (some ⟨evidence, payload⟩) ⟨evidence, payload⟩ = .exactReplay := by
  rcases classifyProviderUpdate_cases (⟨evidence, payload⟩ : ProviderCheckpoint α)
      ⟨evidence, payload⟩ with ⟨x, y, hprovider, hx, hy⟩ | ⟨hreplay, -⟩ | hincomparable
  · obtain rfl := hx.unique hy
    rw [classifyProviderUpdate_of_sequence hprovider hx hy, compare_eq_equal_iff.mpr rfl]
    simp [sameSemanticCheckpoint]
  · exact hreplay
  · unfold classifyProviderUpdate at hincomparable
    simp only [ne_eq, not_true_eq_false, ↓reduceIte] at hincomparable
    split at hincomparable
    · next x y hx hy =>
      have hcompare : compareCanonicalSequence x y = some .equal := by
        have hxy : x = y := by simpa [hx] using hy
        subst hxy
        exact compareCanonicalSequence_eq_some_iff.mpr
          ⟨hcanonical x hx, hcanonical x hx, compare_eq_equal_iff.mpr rfl⟩
      simp [hcompare, sameSemanticCheckpoint] at hincomparable
    · simp [sameExactCheckpoint] at hincomparable

/-- Two sequences of one provider confirm when they grow, or repeat with their reference. -/
theorem isMonotoneProviderConfirmation_of_sequence {origin next : ProviderReference}
    {x y : String} (hprovider : origin.provider = next.provider) (hx : origin.HasSequence x)
    (hy : next.HasSequence y) :
    isMonotoneProviderConfirmation ⟨origin, payload⟩ ⟨next, payload⟩ = true ↔
      Decimal.Precedes x y ∨ x = y ∧ origin.providerReference = next.providerReference := by
  have hclassify : classifyProviderUpdate (some (⟨origin, payload⟩ : ProviderCheckpoint α))
      ⟨next, payload⟩ = _ := classifyProviderUpdate_of_sequence hprovider hx hy
  simp only [isMonotoneProviderConfirmation, beq_self_eq_true, Bool.true_and, hclassify]
  cases hcompare : Decimal.compare x y with
  | older =>
    have hlt := Decimal.compare_eq_older_iff.mp hcompare
    have hne : x ≠ y := by
      rintro rfl
      exact Decimal.Precedes.irrefl _ hlt
    have hnot : ¬ Decimal.Precedes x y := fun h => Decimal.Precedes.irrefl _ (h.trans hlt)
    simp [hne, hnot]
  | newer => simp [Decimal.compare_eq_newer_iff.mp hcompare]
  | equal =>
    obtain rfl := Decimal.compare_eq_equal_iff.mp hcompare
    have hnot : ¬ Decimal.Precedes y y := Decimal.Precedes.irrefl _
    by_cases hreference : origin.providerReference = next.providerReference <;>
      simp [sameSemanticCheckpoint, hreference, hnot]

/-- A checkpoint that confirms an origin takes over evidence that it neither finds stale nor in
conflict: the origin stays confirmed exactly when the evidence is its own or both have sequences
of one provider. -/
theorem isMonotoneProviderConfirmation_takeover_iff {origin current next : ProviderReference}
    (hcanonical : ∀ value, next.order = some ⟨.sequence, value⟩ →
      isCanonical value = true)
    (horigin : isMonotoneProviderConfirmation ⟨origin, payload⟩ ⟨current, payload⟩ = true)
    (hstale : classifyProviderUpdate (some ⟨current, payload⟩) ⟨next, payload⟩ ≠ .stale)
    (hconflict : classifyProviderUpdate (some ⟨current, payload⟩) ⟨next, payload⟩ ≠ .conflict) :
    isMonotoneProviderConfirmation ⟨origin, payload⟩ ⟨next, payload⟩ = true ↔
      next = origin ∨ ∃ x y, origin.provider = next.provider ∧ origin.HasSequence x ∧
        next.HasSequence y := by
  constructor
  · intro h
    rcases before_or_sameEvidence_of_confirmation h with
      ⟨hprovider, x, y, hx, hy, -⟩ | hequal | ⟨⟨hprovider, x, hx, hy⟩, -⟩
    · exact .inr ⟨x, y, hprovider, hx, hy⟩
    · exact .inl (Eq.symm hequal)
    · exact .inr ⟨x, x, hprovider, hx, hy⟩
  · rintro (rfl | ⟨x, y, hprovider, hx, hy⟩)
    · simp [isMonotoneProviderConfirmation, classifyProviderUpdate_self hcanonical]
    · -- the checkpoint has a sequence between those of the origin and of the new evidence
      obtain ⟨z, hprovider', hz⟩ : ∃ z, origin.provider = current.provider ∧
          current.HasSequence z := by
        rcases before_or_sameEvidence_of_confirmation horigin with
          ⟨h, -, z, -, hz, -⟩ | hequal | ⟨⟨h, z, -, hz⟩, -⟩
        · exact ⟨z, h, hz⟩
        · have hequal : origin = current := hequal
          exact ⟨x, congrArg _ hequal, hequal ▸ hx⟩
        · exact ⟨z, h, hz⟩
      have hfirst := (isMonotoneProviderConfirmation_of_sequence hprovider' hx hz).mp horigin
      have hsecond : Decimal.Precedes z y ∨
          z = y ∧ current.providerReference = next.providerReference := by
        rw [classifyProviderUpdate_of_sequence (hprovider'.symm.trans hprovider) hz hy]
          at hstale hconflict
        cases hcompare : Decimal.compare z y with
        | older => simp [hcompare] at hstale
        | newer => exact .inl (compare_eq_newer_iff.mp hcompare)
        | equal =>
          simp only [hcompare] at hconflict
          split_ifs at hconflict with hsame
          · simp only [sameSemanticCheckpoint, and_eq_true, beq_iff_eq] at hsame
            exact .inr ⟨(compare_eq_equal_iff.mp hcompare).symm, hsame.1⟩
          · simp at hconflict
      refine (isMonotoneProviderConfirmation_of_sequence hprovider hx hy).mpr ?_
      rcases hfirst with hxz | ⟨rfl, hreference⟩ <;> rcases hsecond with hzy | ⟨rfl, hreference'⟩
      · exact .inl (hxz.trans hzy)
      · exact .inl hxz
      · exact .inl hzy
      · exact .inr ⟨rfl, hreference.trans hreference'⟩

end ApiTruth.Orchestration
