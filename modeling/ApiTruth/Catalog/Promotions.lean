import ApiTruth.Catalog.BranchPointer
import ApiTruth.Foundation.Runs
import ApiTruth.Ir.Validation

/-!
# Promotions of one branch

A branch pointer is moved by concurrent promotions.  Every promotion takes the advisory lock of
its branch before it reads the pointer, so the promotions of a branch happen one after the other,
in some order.  This file follows the pointer of a branch through every such order, interleaved
with ingestions and with promotions of other branches.

## Main definitions

* `ProviderReference.sequence?` : the number of a canonical sequence.
* `Store.perform` : the rows after one call; a call that raises is rolled back.
* `Store.PointerEffect` : what a call can do to the pointer of a branch.
* `Store.CalledEligibly` : a promotion whose target was stored when it was called.

## Main results

* `Store.pointerEffect_perform` : the step lemma.
* `Store.branch_pointer_linearised` : the pointer through every order of calls.
-/

namespace ApiTruth.Catalog

open Ir Checked TransitionSystem List Decimal

namespace ProviderReference

/-- The number of a canonical sequence. -/
def sequence? (evidence : ProviderReference) : Option ℕ :=
  match evidence.order with
  | some ⟨.sequence, value⟩ =>
    if Decimal.isCanonical value then some (Decimal.value value) else none
  | _ => none

theorem HasSequence.sequence? {evidence : ProviderReference} {value : String}
    (h : evidence.HasSequence value) : evidence.sequence? = some (Decimal.value value) := by
  simp [ProviderReference.sequence?, h.1, h.2]

variable {a b : ProviderReference}

theorem Before.sequence_lt (h : a.Before b) {m n : ℕ}
    (ha : a.sequence? = some m) (hb : b.sequence? = some n) : m < n := by
  obtain ⟨-, x, y, hx, hy, hlt⟩ := h
  cases hx.sequence?.symm.trans ha
  cases hy.sequence?.symm.trans hb
  exact value_lt_of_precedes hx.2 hy.2 hlt

theorem sequence_trichotomy (hprovider : a.provider = b.provider)
    (ha : canonicalSequence a.order = true) (hb : canonicalSequence b.order = true) :
    a.Before b ∨ a.SameSequence b ∨ b.Before a := by
  obtain ⟨x, hx⟩ := canonicalSequence_eq_true_iff.mp ha
  obtain ⟨y, hy⟩ := canonicalSequence_eq_true_iff.mp hb
  rcases precedes_trichotomy x y with hlt | rfl | hlt
  · exact .inl ⟨hprovider, x, y, hx, hy, hlt⟩
  · exact .inr (.inl ⟨hprovider, x, hx, hy⟩)
  · exact .inr (.inr ⟨hprovider.symm, y, x, hy, hx, hlt⟩)

/-- Both pieces of evidence have canonical sequences of one provider. -/
def Comparable (a b : ProviderReference) : Prop :=
  a.provider = b.provider ∧ canonicalSequence a.order = true ∧ canonicalSequence b.order = true

end ProviderReference

/-- A call of the catalog, or a change of the access scopes. -/
inductive Action
  | promote (input : PromoteBranchInput)
  | ingest (converted : ConvertedAnalyzerSnapshot)
  | scopes (activeScope : String → Bool)

namespace Store

variable (parses : ContractSnapshot → Bool) (store : Store)

/-- The rows after a call; a call that raises is rolled back. -/
def commit {ρ : Type} (result : Except CatalogError (Store × ρ)) : Store :=
  match result with
  | .ok (store, _) => store
  | .error _ => store

/-- The rows after one action. -/
def perform : Action → Store
  | .promote input => store.commit (store.promoteBranch input)
  | .ingest converted => store.commit (store.ingestAnalyzerResult parses converted)
  | .scopes activeScope => { store with activeScope := activeScope }

def Step (store : Store) (action : Action) (next : Store) : Prop :=
  next = store.perform parses action

def IsInitial : Prop := ∀ key, store.pointers key = none

/-- The version of a pointer, zero while there is none. -/
def pointerVersion (key : BranchKey) : ℕ :=
  ((store.pointers key).map BranchPointer.pointerVersion).getD 0

/-- A pointer refers to a stored snapshot of its service. -/
def ForeignKeys : Prop :=
  ∀ key pointer, store.pointers key = some pointer →
    store.isEligible key pointer.snapshotId = true

/-- What a promotion that moves the pointer has checked, and the pointer it writes. -/
structure Moves (input : PromoteBranchInput) : Prop where
  eligible : store.isEligible input.key input.snapshotId = true
  expected : input.expected.all (expectedMatches · (store.pointers input.key)) = true
  later : ∀ pointer, store.pointers input.key = some pointer →
    pointer.provider.Comparable input.provider → pointer.provider.Before input.provider
  fallback : input.expected = none → canonicalSequence input.provider.order = true ∧
    ∀ pointer, store.pointers input.key = some pointer →
      pointer.provider.Comparable input.provider

variable {parses store}

/-! ### What one call does -/

variable {input : PromoteBranchInput} {key : BranchKey} {action : Action} {actions : List Action}
  {provider : String} {seen : List PromoteBranchInput}

theorem assertPromotionOrder_eq_ok {current : Option BranchPointer}
    (h : assertPromotionOrder current input = .ok ()) :
    input.expected.all (expectedMatches · current) = true ∧
      (∀ pointer, current = some pointer → pointer.provider.Comparable input.provider →
        pointer.provider.Before input.provider) ∧
      (input.expected = none → canonicalSequence input.provider.order = true ∧
        ∀ pointer, current = some pointer → pointer.provider.Comparable input.provider) := by
  unfold assertPromotionOrder at h
  rw [require_bind_eq_ok] at h
  refine ⟨h.1, ?_⟩
  replace h := h.2
  cases current with
  | none =>
    have hchecked := require_eq_ok.mp h
    refine ⟨fun _ hnone => by simp at hnone, fun hexpected => ⟨?_, fun _ hnone => by simp at hnone⟩⟩
    exact hchecked.resolve_right fun hne => hne hexpected
  | some current =>
    by_cases hcomparable : current.provider.Comparable input.provider
    · obtain ⟨hprovider, hcurrent, hinput⟩ := hcomparable
      refine ⟨fun pointer hpointer _ => ?_, fun _ => ⟨hinput, fun pointer hpointer => ?_⟩⟩
      · cases hpointer
        obtain ⟨x, hx⟩ := canonicalSequence_eq_true_iff.mp hcurrent
        obtain ⟨y, hy⟩ := canonicalSequence_eq_true_iff.mp hinput
        simp only [hprovider, hcurrent, hinput, and_self, ↓reduceIte,
          compareProviderOrder_of_hasSequence hx hy] at h
        refine ⟨hprovider, x, y, hx, hy, compare_eq_newer_iff.mp ?_⟩
        cases hcompare : Decimal.compare x y with
        | newer => rfl
        | older => simp [hcompare, throw, throwThe, MonadExceptOf.throw] at h
        | equal => simp [hcompare, throw, throwThe, MonadExceptOf.throw] at h
      · cases hpointer
        exact ⟨hprovider, hcurrent, hinput⟩
    · have hne : ¬ (current.provider.provider = input.provider.provider ∧
          canonicalSequence current.provider.order = true ∧
          canonicalSequence input.provider.order = true) := hcomparable
      simp only [hne, ↓reduceIte, require_eq_ok] at h
      refine ⟨fun pointer hpointer hcomp => ?_, fun hexpected => absurd hexpected h⟩
      exact absurd (Option.some.inj hpointer ▸ hcomp) hcomparable

theorem promoteBranch_cases (store : Store) (input : PromoteBranchInput) :
    (∃ error, store.promoteBranch input = .error error) ∨
    (store.promoteBranch input = .ok (store, .existing) ∧
      ∃ pointer, store.pointers input.key = some pointer ∧
        pointer.snapshotId = input.snapshotId ∧ pointer.provider = input.provider) ∨
    (store.promoteBranch input = .ok (store.writePointer input, .promoted) ∧
      store.Moves input) := by
  cases hresult : store.promoteBranch input with
  | error error => exact .inl ⟨error, rfl⟩
  | ok result =>
    right
    have h := hresult
    simp only [promoteBranch, require_bind_eq_ok] at h
    obtain ⟨heligible, h⟩ := h
    by_cases hreplay : (store.pointers input.key).any (exactProviderReplay · input) = true
    · simp only [hreplay, ↓reduceIte, pure_eq_ok] at h
      obtain ⟨pointer, hpointer, hexact⟩ := (Option.any_eq_true ..).mp hreplay
      exact .inl ⟨h ▸ rfl, pointer, hpointer, exactProviderReplay_iff.mp hexact⟩
    · simp only [hreplay, Bool.false_eq_true, ↓reduceIte, bind_eq_ok, pure_eq_ok] at h
      obtain ⟨_, horder, rfl⟩ := h
      obtain ⟨hexpected, hlater, hfallback⟩ := assertPromotionOrder_eq_ok horder
      exact .inr ⟨rfl, heligible, hexpected, hlater, hfallback⟩

theorem pointers_writePointer (input : PromoteBranchInput) (key : BranchKey) :
    (store.writePointer input).pointers key =
      if key = input.key
      then some ⟨input.snapshotId, store.pointerVersion key + 1, input.provider⟩
      else store.pointers key := by
  by_cases hkey : key = input.key
  · subst hkey
    cases h : store.pointers input.key <;> simp [writePointer, pointerVersion, h]
  · simp [writePointer, hkey]

/-- What a call can do to the pointer of a branch. -/
inductive PointerEffect (store next : Store) (action : Action) (key : BranchKey) : Prop
  | unchanged (same : next.pointers key = store.pointers key)
  | moved (input : PromoteBranchInput) (call : action = .promote input) (branch : input.key = key)
      (moves : store.Moves input)
      (written : next.pointers key =
        some ⟨input.snapshotId, store.pointerVersion key + 1, input.provider⟩)

theorem pointers_ingest (converted : ConvertedAnalyzerSnapshot) :
    (store.perform parses (.ingest converted)).pointers = store.pointers := by
  simp only [perform, commit]
  split
  · rename_i next outcome h
    exact (ingestAnalyzerResult_eq_ok h).1
  · rfl

/-- Every call leaves the pointer of a branch alone or moves it as a promotion of that branch. -/
theorem pointerEffect_perform (parses : ContractSnapshot → Bool) (store : Store) (action : Action)
    (key : BranchKey) : PointerEffect store (store.perform parses action) action key := by
  cases action with
  | ingest converted => exact .unchanged (by rw [pointers_ingest])
  | scopes activeScope => exact .unchanged rfl
  | promote input =>
    simp only [perform]
    rcases promoteBranch_cases store input with ⟨error, h⟩ | ⟨h, -⟩ | ⟨h, hmoves⟩
    · exact .unchanged (by rw [h]; rfl)
    · exact .unchanged (by rw [h]; rfl)
    · by_cases hkey : key = input.key
      · refine .moved input rfl hkey.symm hmoves ?_
        rw [h]
        exact (pointers_writePointer input key).trans (if_pos hkey)
      · refine .unchanged ?_
        rw [h]
        exact (pointers_writePointer input key).trans (if_neg hkey)

theorem isEligible_perform {snapshotId : String}
    (h : store.isEligible key snapshotId = true) (action : Action) :
    (store.perform parses action).isEligible key snapshotId = true := by
  obtain ⟨row, hrow, hservice⟩ := isEligible_iff.mp h
  refine isEligible_iff.mpr ⟨row, ?_, hservice⟩
  cases action with
  | scopes activeScope => exact hrow
  | ingest converted =>
    simp only [perform, commit]
    split
    · rename_i next outcome hingest
      exact (ingestAnalyzerResult_eq_ok hingest).2.1 snapshotId row hrow
    · exact hrow
  | promote input =>
    simp only [perform]
    rcases promoteBranch_cases store input with ⟨error, heq⟩ | ⟨heq, -⟩ | ⟨heq, -⟩ <;>
    · rw [heq]
      exact hrow

theorem IsInitial.foreignKeys (h : store.IsInitial) : store.ForeignKeys := by
  intro key pointer hpointer
  simp [h key] at hpointer

theorem ForeignKeys.perform (h : store.ForeignKeys) (action : Action) :
    (store.perform parses action).ForeignKeys := by
  intro key pointer hpointer
  refine isEligible_perform ?_ action
  cases pointerEffect_perform parses store action key with
  | unchanged same => exact h key pointer (same ▸ hpointer)
  | moved input call branch moves written =>
    cases written.symm.trans hpointer
    exact branch ▸ moves.eligible

/-! ### Versions -/

theorem pointerVersion_of_ne (h : (store.perform parses action).pointers key ≠ store.pointers key) :
    (store.perform parses action).pointerVersion key = store.pointerVersion key + 1 := by
  cases pointerEffect_perform parses store action key with
  | unchanged same => exact absurd same h
  | moved input call branch moves written => rw [pointerVersion, written]; rfl

theorem pointerVersion_perform (action : Action) (key : BranchKey) :
    store.pointerVersion key ≤ (store.perform parses action).pointerVersion key := by
  by_cases h : (store.perform parses action).pointers key = store.pointers key
  · rw [pointerVersion, pointerVersion, h]
  · rw [pointerVersion_of_ne h]
    exact Nat.le_succ _

variable {start final : Store} {pointer : BranchPointer}

theorem pointerVersion_run (key : BranchKey) (hrun : Run (Step parses) start actions final) :
    start.pointerVersion key ≤ final.pointerVersion key :=
  hrun.invariant (I := fun store => start.pointerVersion key ≤ store.pointerVersion key)
    (fun _ action _ h hstep => h.trans (hstep ▸ pointerVersion_perform action key)) le_rfl

theorem Moves.expected_present (h : store.Moves input) {version : ℕ}
    (hexpected : input.expected = some (.present version)) :
    store.pointerVersion input.key = version := by
  have hmatches := h.expected
  rw [hexpected] at hmatches
  cases hpointer : store.pointers input.key with
  | none => simp [expectedMatches, hpointer] at hmatches
  | some pointer =>
    simpa [expectedMatches, hpointer, pointerVersion] using hmatches

theorem Moves.expected_absent (h : store.Moves input)
    (hexpected : input.expected = some .absent) : store.pointers input.key = none := by
  have hmatches := h.expected
  rw [hexpected] at hmatches
  simpa [expectedMatches] using hmatches

theorem promote_at_most_once {first second : PromoteBranchInput} {expected : ExpectedPointer}
    {between : List Action} {later : Store} (hkey : second.key = first.key)
    (hfirst : first.expected = some expected) (hsecond : second.expected = some expected)
    (hmoved : (store.perform parses (.promote first)).pointers first.key ≠
      store.pointers first.key)
    (hrun : Run (Step parses) (store.perform parses (.promote first)) between later) :
    (later.perform parses (.promote second)).pointers first.key = later.pointers first.key := by
  cases pointerEffect_perform parses store (.promote first) first.key with
  | unchanged same => exact absurd same hmoved
  | moved input call branch moves written =>
    obtain rfl := (Action.promote.inj call)
    cases pointerEffect_perform parses later (.promote second) first.key with
    | unchanged same => exact same
    | moved input' call' branch' moves' written' =>
      obtain rfl := (Action.promote.inj call')
      have hraised := pointerVersion_of_ne hmoved
      have hmono := pointerVersion_run first.key hrun
      have hlater : later.pointerVersion first.key = later.pointerVersion second.key := by
        rw [hkey]
      cases expected with
      | present version =>
        have hbefore := moves.expected_present hfirst
        have hafter := moves'.expected_present hsecond
        omega
      | absent =>
        have hnone := moves'.expected_absent hsecond
        have hzero : later.pointerVersion second.key = 0 := by simp [pointerVersion, hnone]
        omega

theorem ForeignKeys.replay (h : store.ForeignKeys)
    (hpointer : store.pointers input.key = some pointer)
    (hsnapshot : pointer.snapshotId = input.snapshotId)
    (hprovider : pointer.provider = input.provider) :
    store.promoteBranch input = .ok (store, .existing) := by
  have heligible := h input.key pointer hpointer
  rw [hsnapshot] at heligible
  have hexact : (store.pointers input.key).any (exactProviderReplay · input) = true := by
    rw [hpointer]
    exact exactProviderReplay_iff.mpr ⟨hsnapshot, hprovider⟩
  simp only [promoteBranch, heligible, require, ↓reduceIte, bind, Except.bind, hexact]
  rfl

theorem before_of_ne {pointer next : BranchPointer} (hpointer : store.pointers key = some pointer)
    (hnext : (store.perform parses action).pointers key = some next) (hne : next ≠ pointer)
    (hcomparable : pointer.provider.Comparable next.provider) :
    pointer.provider.Before next.provider := by
  cases pointerEffect_perform parses store action key with
  | unchanged same =>
    rw [same, hpointer] at hnext
    exact absurd (Option.some.inj hnext).symm hne
  | moved input call branch moves written =>
    cases written.symm.trans hnext
    exact moves.later pointer (branch ▸ hpointer) hcomparable

/-! ### Promotions without an expected version -/

/-- The call when it is a promotion of the branch and its target is stored. -/
def eligibleCall (key : BranchKey) (store : Store) : Action → List PromoteBranchInput
  | .promote input =>
    if input.key = key ∧ store.isEligible input.key input.snapshotId = true then [input] else []
  | _ => []

/-- The promotions of a branch whose target was stored when they were called. -/
def eligibleCalls (parses : ContractSnapshot → Bool) (key : BranchKey) (store : Store) :
    List Action → List PromoteBranchInput
  | [] => []
  | action :: actions =>
    eligibleCall key store action ++ eligibleCalls parses key (store.perform parses action) actions

def IsCall (key : BranchKey) (actions : List Action) (input : PromoteBranchInput) : Prop :=
  .promote input ∈ actions ∧ input.key = key

/-- The promotions of the branch carry pairwise distinct canonical sequences of one provider and
expect nothing of the pointer. -/
structure Sequenced (key : BranchKey) (provider : String) (actions : List Action) : Prop where
  evidence : ∀ input, IsCall key actions input → input.provider.provider = provider ∧
    canonicalSequence input.provider.order = true ∧ input.expected = none
  distinct : ∀ input, IsCall key actions input → ∀ other, IsCall key actions other →
    input.provider.sequence? = other.provider.sequence? → input = other

/-- The pointer of the branch is the greatest of the promotions seen so far. -/
structure FollowsGreatest (store : Store) (key : BranchKey) (seen : List PromoteBranchInput) :
    Prop where
  absent : store.pointers key = none → seen = []
  greatest : ∀ pointer, store.pointers key = some pointer → ∃ input ∈ seen,
    pointer.snapshotId = input.snapshotId ∧ pointer.provider = input.provider ∧
      ∀ other ∈ seen, other = input ∨ other.provider.Before input.provider

theorem IsInitial.followsGreatest (h : store.IsInitial) (key : BranchKey) :
    store.FollowsGreatest key [] where
  absent _ := rfl
  greatest pointer hpointer := by simp [h key] at hpointer

theorem Sequenced.trichotomy (h : Sequenced key provider actions) {input other : PromoteBranchInput}
    (hinput : IsCall key actions input) (hother : IsCall key actions other) :
    input.provider.Before other.provider ∨ input = other ∨
      other.provider.Before input.provider := by
  obtain ⟨hprovider, hcanonical, -⟩ := h.evidence input hinput
  obtain ⟨hprovider', hcanonical', -⟩ := h.evidence other hother
  refine (ProviderReference.sequence_trichotomy (hprovider.trans hprovider'.symm) hcanonical
    hcanonical').imp_right (Or.imp_left fun hsame => ?_)
  obtain ⟨-, x, hx, hy⟩ := hsame
  exact h.distinct input hinput other hother (hx.sequence?.trans hy.sequence?.symm)

theorem promoteBranch_of_before (heligible : store.isEligible input.key input.snapshotId = true)
    (hexpected : input.expected = none) (hcanonical : canonicalSequence input.provider.order = true)
    (hbefore : ∀ pointer, store.pointers input.key = some pointer →
      pointer.provider.Before input.provider) :
    store.promoteBranch input = .ok (store.writePointer input, .promoted) := by
  unfold promoteBranch
  simp only [heligible, require, ↓reduceIte, bind, Except.bind]
  cases hpointer : store.pointers input.key with
  | none =>
    simp [assertPromotionOrder, require, hexpected, hcanonical, bind, Except.bind, pure,
      Except.pure]
  | some pointer =>
    obtain ⟨hprovider, x, y, hx, hy, hlt⟩ := hbefore pointer hpointer
    have hcurrent := canonicalSequence_eq_true_iff.mpr ⟨x, hx⟩
    have hne : ¬ exactProviderReplay pointer input = true := by
      intro hexact
      have hsame := (exactProviderReplay_iff.mp hexact).2
      exact ProviderReference.Before.irrefl _ (hsame ▸ hbefore pointer hpointer)
    simp [assertPromotionOrder, require, hexpected, hcanonical, hcurrent, hprovider, hne,
      compareProviderOrder_of_hasSequence hx hy, compare_eq_newer_iff.mpr hlt, bind,
      Except.bind, pure, Except.pure]

theorem pointers_promote_of_not_before (parses : ContractSnapshot → Bool)
    (hpointer : store.pointers input.key = some pointer)
    (hcomparable : pointer.provider.Comparable input.provider)
    (hnot : ¬ pointer.provider.Before input.provider) :
    (store.perform parses (.promote input)).pointers input.key = some pointer := by
  cases pointerEffect_perform parses store (.promote input) input.key with
  | unchanged same => exact same.trans hpointer
  | moved other call branch moves written =>
    cases call
    exact absurd (moves.later pointer hpointer hcomparable) hnot

theorem FollowsGreatest.promote (h : store.FollowsGreatest key seen)
    (hsequenced : Sequenced key provider actions) (hseen : ∀ other ∈ seen, IsCall key actions other)
    {input : PromoteBranchInput} (hinput : IsCall key actions input)
    (heligible : store.isEligible input.key input.snapshotId = true) :
    (store.perform parses (.promote input)).FollowsGreatest key (input :: seen) := by
  obtain ⟨hprovider, hcanonical, hexpected⟩ := hsequenced.evidence input hinput
  obtain rfl := hinput.2
  -- the promotion goes through when every promotion seen is before it
  have hmoved (hall : ∀ other ∈ seen, other.provider.Before input.provider) :
      (store.perform parses (.promote input)).FollowsGreatest input.key (input :: seen) := by
    have hwritten : (store.perform parses (.promote input)).pointers input.key =
        some ⟨input.snapshotId, store.pointerVersion input.key + 1, input.provider⟩ := by
      have hgoes := promoteBranch_of_before heligible hexpected hcanonical fun pointer hpointer => by
        obtain ⟨top, htop, -, hsame, -⟩ := h.greatest pointer hpointer
        exact hsame ▸ hall top htop
      rw [perform, hgoes]
      exact (pointers_writePointer input input.key).trans (if_pos rfl)
    refine ⟨fun hnone => by simp [hwritten] at hnone, fun pointer hpointer => ?_⟩
    cases hwritten.symm.trans hpointer
    refine ⟨input, mem_cons_self, rfl, rfl, List.forall_mem_cons.mpr ⟨.inl rfl, ?_⟩⟩
    exact fun other hother => .inr (hall other hother)
  cases hpointer : store.pointers input.key with
  | none => exact hmoved (by simp [h.absent hpointer])
  | some pointer =>
    obtain ⟨top, htop, hsnapshot, hsame, hgreatest⟩ := h.greatest pointer hpointer
    obtain ⟨hprovider', hcanonical', -⟩ := hsequenced.evidence top (hseen top htop)
    -- otherwise the pointer stays at the greatest promotion seen before
    have hkept (hnot : ¬ top.provider.Before input.provider)
        (hle : input = top ∨ input.provider.Before top.provider) :
        (store.perform parses (.promote input)).FollowsGreatest input.key (input :: seen) := by
      have hunchanged := pointers_promote_of_not_before parses hpointer
        (hsame ▸ ⟨hprovider'.trans hprovider.symm, hcanonical', hcanonical⟩) (hsame ▸ hnot)
      refine ⟨fun hnone => by simp [hunchanged] at hnone, fun other hother => ?_⟩
      cases hunchanged.symm.trans hother
      exact ⟨top, mem_cons_of_mem _ htop, hsnapshot, hsame,
        List.forall_mem_cons.mpr ⟨hle, hgreatest⟩⟩
    rcases hsequenced.trichotomy (hseen top htop) hinput with hbefore | rfl | hafter
    · refine hmoved fun other hother => ?_
      rcases hgreatest other hother with rfl | hother'
      · exact hbefore
      · exact hother'.trans hbefore
    · exact hkept (ProviderReference.Before.irrefl _) (.inl rfl)
    · exact hkept (fun hbefore => ProviderReference.Before.irrefl _ (hbefore.trans hafter))
        (.inr hafter)

theorem pointers_perform_of_not_call (h : ∀ input, action = .promote input → input.key = key →
      store.isEligible input.key input.snapshotId = false) :
    (store.perform parses action).pointers key = store.pointers key := by
  cases pointerEffect_perform parses store action key with
  | unchanged same => exact same
  | moved input call branch moves written =>
    have hineligible := h input call branch
    rw [moves.eligible] at hineligible
    simp at hineligible

theorem FollowsGreatest.congr {seen seen' : List PromoteBranchInput}
    (h : store.FollowsGreatest key seen) (hmem : ∀ input, input ∈ seen ↔ input ∈ seen') :
    store.FollowsGreatest key seen' where
  absent hnone := by
    refine List.eq_nil_iff_forall_not_mem.mpr fun input hinput => ?_
    simp [h.absent hnone] at hmem
    exact hmem input hinput
  greatest pointer hpointer := by
    obtain ⟨input, hinput, hsnapshot, hprovider, hgreatest⟩ := h.greatest pointer hpointer
    exact ⟨input, (hmem input).mp hinput, hsnapshot, hprovider,
      fun other hother => hgreatest other ((hmem other).mpr hother)⟩

theorem FollowsGreatest.perform (h : store.FollowsGreatest key seen)
    (hsequenced : Sequenced key provider actions) (hseen : ∀ other ∈ seen, IsCall key actions other)
    {action : Action} (haction : action ∈ actions) :
    (store.perform parses action).FollowsGreatest key (seen ++ eligibleCall key store action) := by
  have hkept (hnot : ∀ input, action = .promote input → input.key = key →
      store.isEligible input.key input.snapshotId = false) :
      (store.perform parses action).FollowsGreatest key seen := by
    have hsame : (store.perform parses action).pointers key = store.pointers key :=
      pointers_perform_of_not_call hnot
    exact ⟨fun hnone => h.absent (hsame ▸ hnone), fun pointer hp => h.greatest pointer (hsame ▸ hp)⟩
  cases action with
  | scopes activeScope => simpa [eligibleCall] using hkept (by simp)
  | ingest converted => simpa [eligibleCall] using hkept (by simp)
  | promote input =>
    by_cases hcall : input.key = key ∧ store.isEligible input.key input.snapshotId = true
    · refine (h.promote hsequenced hseen ⟨haction, hcall.1⟩ hcall.2).congr fun other => ?_
      rw [eligibleCall, if_pos hcall, mem_append, mem_singleton, mem_cons, or_comm]
    · simp only [eligibleCall, hcall, ↓reduceIte, append_nil]
      refine hkept fun other heq hkey => ?_
      cases heq
      exact Bool.eq_false_iff.mpr fun heligible => hcall ⟨hkey, heligible⟩

theorem isCall_of_mem_eligibleCall (haction : action ∈ actions)
    (h : input ∈ eligibleCall key store action) : IsCall key actions input := by
  cases action with
  | scopes activeScope => simp [eligibleCall] at h
  | ingest converted => simp [eligibleCall] at h
  | promote other =>
    simp only [eligibleCall] at h
    split at h
    · rename_i hcall
      obtain rfl := List.mem_singleton.mp h
      exact ⟨haction, hcall.1⟩
    · simp at h

/-- Along a run the pointer is the greatest of the eligible promotions of the branch. -/
theorem followsGreatest_run {all actions : List Action}
    (hsequenced : Sequenced key provider all) (hrun : Run (Step parses) start actions final)
    (hsub : ∀ action ∈ actions, action ∈ all) (hseen : ∀ other ∈ seen, IsCall key all other)
    (h : start.FollowsGreatest key seen) :
    final.FollowsGreatest key (seen ++ eligibleCalls parses key start actions) := by
  induction hrun generalizing seen with
  | nil store => simpa [eligibleCalls] using h
  | @cons store next final action actions hstep _ ih =>
    subst hstep
    rw [forall_mem_cons] at hsub
    have hseen' : ∀ other ∈ seen ++ eligibleCall key store action, IsCall key all other :=
      List.forall_mem_append.mpr
        ⟨hseen, fun other hother => isCall_of_mem_eligibleCall hsub.1 hother⟩
    have hnext := ih hsub.2 hseen' (h.perform hsequenced hseen hsub.1)
    rwa [append_assoc] at hnext

theorem pointer_eq_greatest (hstart : start.IsInitial)
    (hrun : Run (Step parses) start actions final) (hsequenced : Sequenced key provider actions)
    {greatest : PromoteBranchInput} (hmem : greatest ∈ eligibleCalls parses key start actions)
    (hgreatest : ∀ other ∈ eligibleCalls parses key start actions, ∀ m n,
      other.provider.sequence? = some m → greatest.provider.sequence? = some n → m ≤ n) :
    ∃ version, final.pointers key = some ⟨greatest.snapshotId, version, greatest.provider⟩ := by
  have hfollows := followsGreatest_run hsequenced hrun (fun _ h => h) (by simp)
    (hstart.followsGreatest key)
  rw [nil_append] at hfollows
  cases hpointer : final.pointers key with
  | none => simp [hfollows.absent hpointer] at hmem
  | some pointer =>
    obtain ⟨top, htop, hsnapshot, hprovider, hall⟩ := hfollows.greatest pointer hpointer
    obtain rfl : greatest = top := by
      refine (hall greatest hmem).resolve_right fun hbefore => ?_
      obtain ⟨-, x, y, hx, hy, -⟩ := id hbefore
      exact absurd (hbefore.sequence_lt hx.sequence? hy.sequence?)
        (not_lt.mpr (hgreatest top htop _ _ hy.sequence? hx.sequence?))
    exact ⟨pointer.pointerVersion, by rw [← hsnapshot, ← hprovider]⟩

/-- The pointer of a branch through every order of calls.  Promotions with pairwise distinct
canonical sequences of one provider and without an expected version leave it at the greatest
sequence.  While the evidence is comparable a change raises the sequence, and every change raises
the version by one.  An exact replay succeeds and changes nothing, of several promotions that
expect the same pointer at most one changes it, and a promotion that raises changes nothing. -/
theorem branch_pointer_linearised (parses : ContractSnapshot → Bool) {start store : Store}
    {actions : List Action} (hstart : start.IsInitial)
    (hrun : Run (Step parses) start actions store) (key : BranchKey) :
    (∀ provider, Sequenced key provider actions →
      ∀ greatest ∈ eligibleCalls parses key start actions,
        (∀ other ∈ eligibleCalls parses key start actions, ∀ m n,
          other.provider.sequence? = some m → greatest.provider.sequence? = some n → m ≤ n) →
        ∃ version, store.pointers key =
          some ⟨greatest.snapshotId, version, greatest.provider⟩) ∧
    (∀ action pointer next, store.pointers key = some pointer →
      (store.perform parses action).pointers key = some next → next ≠ pointer →
      pointer.provider.Comparable next.provider →
        ∃ m n, pointer.provider.sequence? = some m ∧ next.provider.sequence? = some n ∧ m < n) ∧
    (∀ action, (store.perform parses action).pointers key ≠ store.pointers key →
      (store.perform parses action).pointerVersion key = store.pointerVersion key + 1) ∧
    (∀ input pointer, input.key = key → store.pointers key = some pointer →
      pointer.snapshotId = input.snapshotId → pointer.provider = input.provider →
        store.promoteBranch input = .ok (store, .existing)) ∧
    (∀ first second expected between later, first.key = key → second.key = key →
      first.expected = some expected → second.expected = some expected →
      (store.perform parses (.promote first)).pointers key ≠ store.pointers key →
      Run (Step parses) (store.perform parses (.promote first)) between later →
        (later.perform parses (.promote second)).pointers key = later.pointers key) ∧
    ∀ input error, store.promoteBranch input = .error error →
      store.perform parses (.promote input) = store := by
  have hforeign : store.ForeignKeys :=
    hrun.invariant (fun _ action _ h hstep => hstep ▸ h.perform action) hstart.foreignKeys
  refine ⟨fun _ hsequenced _ => pointer_eq_greatest hstart hrun hsequenced,
    fun action pointer next hpointer hnext hne hcomparable => ?_, fun _ => pointerVersion_of_ne,
    ?_, ?_, fun input error h => by rw [perform, h]; rfl⟩
  · have hbefore := before_of_ne hpointer hnext hne hcomparable
    obtain ⟨-, x, y, hx, hy, -⟩ := id hbefore
    exact ⟨_, _, hx.sequence?, hy.sequence?, hbefore.sequence_lt hx.sequence? hy.sequence?⟩
  · rintro input pointer rfl hpointer
    exact hforeign.replay hpointer
  · rintro first second expected between later rfl hkey hfirst hsecond hmoved
    exact promote_at_most_once hkey hfirst hsecond hmoved

/-- A catalog with one stored snapshot and no pointer. -/
def sampleStore : Store where
  activeScope _ := true
  snapshots id :=
    if id = "snap" then some (snapshotRow ⟨sampleSnapshot, ["internal"], .success⟩) else none
  pointers _ := none

/-- A promotion of the stored snapshot under a sequence. -/
def samplePromotion (sequence : String) : PromoteBranchInput where
  key := ⟨"repo", "svc", "main"⟩
  snapshotId := "snap"
  provider := ⟨"git", sequence, some ⟨.sequence, sequence⟩⟩
  expected := none

/-- The order at work: a late promotion does not displace the greatest sequence. -/
theorem branch_pointer_linearised_ninth_tenth :
    ∃ version, ((sampleStore.perform (fun _ => true) (.promote (samplePromotion "10"))).perform
      (fun _ => true) (.promote (samplePromotion "9"))).pointers ⟨"repo", "svc", "main"⟩ =
        some ⟨"snap", version, (samplePromotion "10").provider⟩ := by
  have hcalls : eligibleCalls (fun _ => true) ⟨"repo", "svc", "main"⟩ sampleStore
      [.promote (samplePromotion "10"), .promote (samplePromotion "9")] =
        [samplePromotion "10", samplePromotion "9"] := by
    simp only [eligibleCalls, eligibleCall]
    rfl
  have hten : (samplePromotion "10").provider.sequence? = some 10 := by decide
  have hnine : (samplePromotion "9").provider.sequence? = some 9 := by decide
  refine (branch_pointer_linearised (fun _ => true) (fun _ => rfl)
    (.cons rfl (.cons rfl (.nil _))) ⟨"repo", "svc", "main"⟩).1 "git" ⟨?_, ?_⟩
      (samplePromotion "10") (by simp [hcalls]) ?_
  · rintro input ⟨hmem, -⟩
    simp only [mem_cons, not_mem_nil, or_false, Action.promote.injEq] at hmem
    rcases hmem with rfl | rfl <;> exact ⟨rfl, by decide, rfl⟩
  · rintro input ⟨hmem, -⟩ other ⟨hmem', -⟩ hsame
    simp only [mem_cons, not_mem_nil, or_false, Action.promote.injEq] at hmem hmem'
    rcases hmem with rfl | rfl <;> rcases hmem' with rfl | rfl <;> simp [hten, hnine] at hsame ⊢
  · intro other hother m n hm hn
    cases hten.symm.trans hn
    simp only [hcalls, mem_cons, not_mem_nil, or_false] at hother
    rcases hother with rfl | rfl
    · exact (Option.some.inj (hten.symm.trans hm)).ge
    · have := Option.some.inj (hnine.symm.trans hm)
      omega

end Store

end ApiTruth.Catalog
