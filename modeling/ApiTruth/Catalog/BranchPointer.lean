import ApiTruth.Foundation.Checked
import ApiTruth.Foundation.Decimal
import ApiTruth.Ir.Snapshot
import Mathlib.Logic.Function.Basic

/-!
# Stored snapshots and branch pointers

The catalog stores immutable snapshots and, for every branch of a service, one pointer to a
stored snapshot with the provider evidence it was promoted under.  The rows are those of one
tenant.  A digest is modelled by the value it is the digest of.

## Main definitions

* `ProviderReference` : the evidence of a provider, with its order.
* `Store.ingestAnalyzerResult` : store a snapshot, or verify the one stored under its id.
* `Store.promoteBranch` : move the pointer of a branch.

## Main results

* `Store.ingestAnalyzerResult_eligible` : an ingested snapshot can be promoted.
* `Store.promoteBranch_succeeds` : when a promotion goes through.
-/

namespace ApiTruth.Catalog

open Ir Checked Decimal Function

/-! ### Provider evidence -/

/-- The `kind` of a provider order. -/
inductive OrderKind
  | sequence
  | cursor
  | effectiveVersion
deriving DecidableEq, Repr

/-- The order of a provider, opaque unless it is a sequence. -/
structure ProviderOrder where
  kind : OrderKind
  value : String
deriving DecidableEq, Repr

/-- What a provider says about one of its references. -/
structure ProviderReference where
  provider : String
  providerReference : String
  order : Option ProviderOrder := none
deriving DecidableEq, Repr

/-- The result of `compareProviderOrder`. -/
inductive ProviderOrderComparison
  | known (order : Decimal.Order)
  | unknown
deriving DecidableEq, Repr

/-- Orders two provider orders when both are canonical sequences. -/
def compareProviderOrder (current next : Option ProviderOrder) : ProviderOrderComparison :=
  match current, next with
  | some ⟨.sequence, current⟩, some ⟨.sequence, next⟩ =>
    if !Decimal.isCanonical current || !Decimal.isCanonical next then .unknown
    else if next.length < current.length then .known .older
    else if current.length < next.length then .known .newer
    else if next = current then .known .equal
    else if next < current then .known .older else .known .newer
  | _, _ => .unknown

def canonicalSequence (order : Option ProviderOrder) : Bool :=
  match order with
  | some ⟨.sequence, value⟩ => Decimal.isCanonical value
  | _ => false

namespace ProviderReference

/-- The evidence has the canonical sequence `value`. -/
def HasSequence (evidence : ProviderReference) (value : String) : Prop :=
  evidence.order = some ⟨.sequence, value⟩ ∧ Decimal.isCanonical value = true

/-- Both pieces of evidence have canonical sequences of one provider, the second a larger one. -/
def Before (a b : ProviderReference) : Prop :=
  a.provider = b.provider ∧
    ∃ x y, a.HasSequence x ∧ b.HasSequence y ∧ Decimal.Precedes x y

/-- Both pieces of evidence have the same canonical sequence of one provider. -/
def SameSequence (a b : ProviderReference) : Prop :=
  a.provider = b.provider ∧ ∃ x, a.HasSequence x ∧ b.HasSequence x

theorem HasSequence.unique {a : ProviderReference} {x y : String} (hx : a.HasSequence x)
    (hy : a.HasSequence y) : x = y := by
  have h := hx.1.symm.trans hy.1
  simpa using h

variable {a b : ProviderReference}

theorem SameSequence.symm (h : a.SameSequence b) :
    b.SameSequence a := by
  obtain ⟨hp, x, ha, hb⟩ := h
  exact ⟨hp.symm, x, hb, ha⟩

variable {a b c : ProviderReference}

theorem SameSequence.trans (hab : a.SameSequence b)
    (hbc : b.SameSequence c) : a.SameSequence c := by
  obtain ⟨hp, x, ha, hb⟩ := hab
  obtain ⟨hp', y, hb', hc⟩ := hbc
  obtain rfl := hb.unique hb'
  exact ⟨hp.trans hp', x, ha, hc⟩

theorem Before.trans (hab : a.Before b) (hbc : b.Before c) :
    a.Before c := by
  obtain ⟨hp, x, y, ha, hb, hxy⟩ := hab
  obtain ⟨hp', y', z, hb', hc, hyz⟩ := hbc
  obtain rfl := hb.unique hb'
  exact ⟨hp.trans hp', x, z, ha, hc, hxy.trans hyz⟩

theorem Before.trans_sameSequence (hab : a.Before b) (hbc : b.SameSequence c) : a.Before c := by
  obtain ⟨hp, x, y, ha, hb, hxy⟩ := hab
  obtain ⟨hp', z, hb', hc⟩ := hbc
  obtain rfl := hb.unique hb'
  exact ⟨hp.trans hp', x, y, ha, hc, hxy⟩

theorem SameSequence.trans_before (hab : a.SameSequence b) (hbc : b.Before c) : a.Before c := by
  obtain ⟨hp, x, ha, hb⟩ := hab
  obtain ⟨hp', y, z, hb', hc, hyz⟩ := hbc
  obtain rfl := hb.unique hb'
  exact ⟨hp.trans hp', x, z, ha, hc, hyz⟩

theorem Before.not_self (h : a.Before b) : ¬ b.SameSequence a := by
  rintro hsame
  obtain ⟨-, x, y, hx, hy, hlt⟩ := h.trans_sameSequence hsame
  obtain rfl := hx.unique hy
  exact Decimal.Precedes.irrefl _ hlt

theorem Before.irrefl (a : ProviderReference) : ¬ a.Before a := by
  rintro ⟨-, x, y, hx, hy, hlt⟩
  obtain rfl := hx.unique hy
  exact Decimal.Precedes.irrefl _ hlt

end ProviderReference

theorem canonicalSequence_eq_true_iff {evidence : ProviderReference} :
    canonicalSequence evidence.order = true ↔ ∃ x, evidence.HasSequence x := by
  unfold canonicalSequence ProviderReference.HasSequence
  split
  · next value hvalue => simp [hvalue]
  · next hother =>
    simp only [Bool.false_eq_true, false_iff, not_exists, not_and]
    intro x hx
    exact absurd hx (hother x)

theorem compareProviderOrder_of_hasSequence {a b : ProviderReference} {x y : String}
    (ha : a.HasSequence x) (hb : b.HasSequence y) :
    compareProviderOrder a.order b.order = .known (compare x y) := by
  rw [ha.1, hb.1, compare_eq_ite]
  simp only [compareProviderOrder, ha.2, hb.2, Bool.not_true, Bool.or_self, Bool.false_eq_true, ↓reduceIte,
    apply_ite ProviderOrderComparison.known]

/-! ### Rows -/

structure BranchKey where
  repositoryId : String
  serviceId : String
  branch : String
deriving DecidableEq, Repr

/-- The `analyzer_status` of a stored snapshot. -/
inductive AnalyzerStatus
  | success
  | partialResult
deriving DecidableEq, Repr

/-- The value hashed by `snapshotIdentitySha256`. -/
structure SnapshotIdentity where
  snapshotId : String
  repositoryId : String
  serviceId : String
  immutableRevision : String
  analyzer : AnalyzerIdentity
  irVersion : String
  identityVersion : String
  configFingerprint : String
deriving DecidableEq, Repr

def snapshotIdentity (snapshot : ContractSnapshot) : SnapshotIdentity where
  snapshotId := snapshot.snapshotId
  repositoryId := snapshot.service.repositoryId
  serviceId := snapshot.service.serviceId
  immutableRevision := snapshot.source.immutableRevision
  analyzer := snapshot.analyzer
  irVersion := snapshot.irVersion
  identityVersion := snapshot.identityVersion
  configFingerprint := snapshot.config.configFingerprint

/-- The content of a snapshot: everything but `created_at`. -/
def normalizedContractContent (snapshot : ContractSnapshot) : ContractSnapshot :=
  { snapshot with createdAt := "" }

/-- What `contractSnapshotFromAnalyzerResult` makes of the result of an analyzer. -/
structure ConvertedAnalyzerSnapshot where
  snapshot : ContractSnapshot
  requiredScopeIds : List String
  analyzerStatus : AnalyzerStatus
deriving DecidableEq

/-- A row of `catalog_snapshots`. -/
structure SnapshotRow where
  snapshotId : String
  repositoryId : String
  serviceId : String
  immutableRevision : String
  analyzerStatus : AnalyzerStatus
  irVersion : String
  identityVersion : String
  configFingerprint : String
  identitySha256 : SnapshotIdentity
  contentSha256 : ContractSnapshot
  requiredScopeIds : List String
  document : ContractSnapshot
deriving DecidableEq

/-- A row of `catalog_branch_pointers`. -/
structure BranchPointer where
  snapshotId : String
  pointerVersion : ℕ
  provider : ProviderReference
deriving DecidableEq, Repr

/-- The pointer a caller of `promoteBranch` expects. -/
inductive ExpectedPointer
  | absent
  | present (pointerVersion : ℕ)
deriving DecidableEq, Repr

/-- The input of `promoteBranch`. -/
structure PromoteBranchInput where
  key : BranchKey
  snapshotId : String
  provider : ProviderReference
  expected : Option ExpectedPointer
deriving DecidableEq, Repr

inductive CatalogError
  | unknownAccessScope
  | snapshotIdentityConflict
  | branchTargetIneligible
  | branchPointerStale
  | branchPointerConflict
  | storageError
deriving DecidableEq, Repr

/-- `outcome` of `ingestAnalyzerResult`. -/
inductive WriteOutcome
  | inserted
  | existing
deriving DecidableEq, Repr

/-- `outcome` of `promoteBranch`. -/
inductive PromotionOutcome
  | promoted
  | existing
deriving DecidableEq, Repr

structure Store where
  /-- The access scope exists and is active. -/
  activeScope : String → Bool
  snapshots : String → Option SnapshotRow
  pointers : BranchKey → Option BranchPointer

namespace Store

variable (store : Store)

/-! ### Ingestion -/

def snapshotRow (converted : ConvertedAnalyzerSnapshot) : SnapshotRow where
  snapshotId := converted.snapshot.snapshotId
  repositoryId := converted.snapshot.service.repositoryId
  serviceId := converted.snapshot.service.serviceId
  immutableRevision := converted.snapshot.source.immutableRevision
  analyzerStatus := converted.analyzerStatus
  irVersion := converted.snapshot.irVersion
  identityVersion := converted.snapshot.identityVersion
  configFingerprint := converted.snapshot.config.configFingerprint
  identitySha256 := snapshotIdentity converted.snapshot
  contentSha256 := normalizedContractContent converted.snapshot
  requiredScopeIds := converted.requiredScopeIds
  document := converted.snapshot

/-- `verifyStoredSnapshotRow`: the document parses and the columns repeat it. -/
def verifyStoredSnapshotRow (parses : ContractSnapshot → Bool) (row : SnapshotRow) : Bool :=
  let snapshot := row.document
  parses snapshot
    && snapshot.coverage.isIncomplete == (row.analyzerStatus == .partialResult)
    && snapshot.snapshotId == row.snapshotId
    && snapshot.service.repositoryId == row.repositoryId
    && snapshot.source.repositoryId == row.repositoryId
    && snapshot.service.serviceId == row.serviceId
    && snapshot.source.immutableRevision == row.immutableRevision
    && snapshot.irVersion == row.irVersion
    && snapshot.identityVersion == row.identityVersion
    && snapshot.config.configFingerprint == row.configFingerprint
    && snapshotIdentity snapshot == row.identitySha256
    && normalizedContractContent snapshot == row.contentSha256

/-- Store a snapshot unless its id is taken; what is stored under the id must be the snapshot. -/
def ingestAnalyzerResult (parses : ContractSnapshot → Bool)
    (converted : ConvertedAnalyzerSnapshot) : Except CatalogError (Store × WriteOutcome) := do
  let row := snapshotRow converted
  require (∀ scope ∈ converted.requiredScopeIds, store.activeScope scope = true)
    .unknownAccessScope
  let (stored, outcome) := match store.snapshots row.snapshotId with
    | some stored => (stored, WriteOutcome.existing)
    | none => (row, WriteOutcome.inserted)
  require (verifyStoredSnapshotRow parses stored = true) .storageError
  require (stored.identitySha256 = row.identitySha256 ∧ stored.contentSha256 = row.contentSha256
    ∧ stored.analyzerStatus = row.analyzerStatus
    ∧ stored.requiredScopeIds = row.requiredScopeIds) .snapshotIdentityConflict
  return ({ store with snapshots := Function.update store.snapshots row.snapshotId (some stored) },
    outcome)

/-- A stored snapshot of the service of a branch: the target that `promoteBranch` selects.  Both
stored statuses are eligible. -/
def isEligible (key : BranchKey) (snapshotId : String) : Bool :=
  match store.snapshots snapshotId with
  | some row => row.repositoryId == key.repositoryId && row.serviceId == key.serviceId
  | none => false

/-! ### Promotion -/

/-- The pointer already is what the promotion would make it. -/
def exactProviderReplay (current : BranchPointer) (input : PromoteBranchInput) : Bool :=
  current.snapshotId == input.snapshotId
    && current.provider.provider == input.provider.provider
    && current.provider.providerReference == input.provider.providerReference
    && current.provider.order == input.provider.order

def expectedMatches (expected : ExpectedPointer) (current : Option BranchPointer) : Bool :=
  match expected with
  | .absent => current.isNone
  | .present pointerVersion => current.any (·.pointerVersion == pointerVersion)

/-- The order check of a promotion that is not a replay. -/
def assertPromotionOrder (current : Option BranchPointer) (input : PromoteBranchInput) :
    Except CatalogError Unit := do
  require (input.expected.all (expectedMatches · current) = true) .branchPointerConflict
  match current with
  | none =>
    require (canonicalSequence input.provider.order = true ∨ input.expected ≠ none)
      .branchPointerConflict
  | some current =>
    if current.provider.provider = input.provider.provider
        ∧ canonicalSequence current.provider.order = true
        ∧ canonicalSequence input.provider.order = true then
      match compareProviderOrder current.provider.order input.provider.order with
      | .known .newer => return ()
      | .known .older => throw .branchPointerStale
      | _ => throw .branchPointerConflict
    else require (input.expected ≠ none) .branchPointerConflict

/-- Write the pointer of a branch: a new one starts at version 1. -/
def writePointer (input : PromoteBranchInput) : Store :=
  let pointerVersion := match store.pointers input.key with
    | none => 1
    | some current => current.pointerVersion + 1
  { store with
    pointers := Function.update store.pointers input.key
      (some ⟨input.snapshotId, pointerVersion, input.provider⟩) }

/-- Move the pointer of a branch to a stored snapshot. -/
def promoteBranch (input : PromoteBranchInput) :
    Except CatalogError (Store × PromotionOutcome) := do
  let current := store.pointers input.key
  require (store.isEligible input.key input.snapshotId = true) .branchTargetIneligible
  if current.any (exactProviderReplay · input) then
    return (store, .existing)
  else
    assertPromotionOrder current input
    return (store.writePointer input, .promoted)

/-! ### What ingestion and promotion guarantee -/

variable {store}

theorem isEligible_iff {key : BranchKey} {snapshotId : String} :
    store.isEligible key snapshotId = true ↔ ∃ row, store.snapshots snapshotId = some row ∧
      row.repositoryId = key.repositoryId ∧ row.serviceId = key.serviceId := by
  unfold isEligible
  cases store.snapshots snapshotId <;> simp

/-- Ingestion keeps the stored rows, leaves the pointers alone and stores the snapshot for its
service. -/
theorem ingestAnalyzerResult_eq_ok {parses : ContractSnapshot → Bool}
    {converted : ConvertedAnalyzerSnapshot} {store' : Store} {outcome : WriteOutcome}
    (h : store.ingestAnalyzerResult parses converted = .ok (store', outcome)) :
    store'.pointers = store.pointers ∧
      (∀ id row, store.snapshots id = some row → store'.snapshots id = some row) ∧
      ∃ row, store'.snapshots converted.snapshot.snapshotId = some row ∧
        row.repositoryId = converted.snapshot.service.repositoryId ∧
        row.serviceId = converted.snapshot.service.serviceId := by
  simp only [ingestAnalyzerResult, require_bind_eq_ok] at h
  obtain ⟨-, hverify, ⟨hidentity, -⟩, h⟩ := h
  obtain ⟨rfl, -⟩ := Prod.mk.inj (pure_eq_ok.mp h)
  refine ⟨rfl, fun id row hrow => ?_, _, update_self _ _ _, ?_⟩
  · by_cases hid : id = (snapshotRow converted).snapshotId
    · subst hid
      simp only [update_self, hrow]
    · simpa only [update_of_ne hid] using hrow
  · simp only [verifyStoredSnapshotRow, Bool.and_eq_true, beq_iff_eq] at hverify
    obtain ⟨⟨⟨⟨⟨⟨⟨⟨⟨-, hrepository⟩, -⟩, hservice⟩, -⟩, -⟩, -⟩, -⟩, hdigest⟩, -⟩ := hverify
    -- the identity digest of the document is the one of the ingested snapshot
    have hsame := hdigest.trans hidentity
    exact ⟨hrepository.symm.trans (congrArg SnapshotIdentity.repositoryId hsame),
      hservice.symm.trans (congrArg SnapshotIdentity.serviceId hsame)⟩

variable {input : PromoteBranchInput}

/-- The order check passes for an expected pointer whose provider evidence is not a sequence that
the input repeats or undercuts. -/
theorem assertPromotionOrder_succeeds {current : Option BranchPointer} {expected : ExpectedPointer}
    (hexpected : input.expected = some expected) (hmatches : expectedMatches expected current = true)
    (horder : ∀ pointer, current = some pointer → ¬ input.provider.Before pointer.provider ∧
      ¬ input.provider.SameSequence pointer.provider) :
    assertPromotionOrder current input = .ok () := by
  have hall : input.expected.all (expectedMatches · current) = true := by
    simpa [hexpected] using hmatches
  have hsome : input.expected ≠ none := by simp [hexpected]
  unfold assertPromotionOrder
  rw [require_bind_eq_ok]
  refine ⟨hall, ?_⟩
  cases current with
  | none => exact require_eq_ok.mpr (.inr hsome)
  | some pointer =>
    by_cases hcomparable : pointer.provider.provider = input.provider.provider ∧
        canonicalSequence pointer.provider.order = true ∧
        canonicalSequence input.provider.order = true
    · obtain ⟨hprovider, hpointer, hinput⟩ := hcomparable
      obtain ⟨x, hx⟩ := canonicalSequence_eq_true_iff.mp hpointer
      obtain ⟨y, hy⟩ := canonicalSequence_eq_true_iff.mp hinput
      obtain ⟨hbefore, hsame⟩ := horder pointer rfl
      have hcompare : Decimal.compare x y = .newer := by
        rw [compare_eq_newer_iff]
        by_contra hnot
        rcases precedes_trichotomy x y with hxy | rfl | hyx
        · exact hnot hxy
        · exact hsame ⟨hprovider.symm, x, hy, hx⟩
        · exact hbefore ⟨hprovider.symm, y, x, hy, hx, hyx⟩
      simp only [hprovider, hpointer, hinput, and_self, ↓reduceIte,
        compareProviderOrder_of_hasSequence hx hy, hcompare]
      rfl
    · simp only [hcomparable, ↓reduceIte]
      exact require_eq_ok.mpr hsome

/-- Promotion succeeds for an eligible target and the pointer just read, unless the evidence
repeats or undercuts the sequence of the pointer; repeating it is fine for an exact replay. -/
theorem promoteBranch_succeeds {expected : ExpectedPointer}
    (htarget : store.isEligible input.key input.snapshotId = true)
    (hexpected : input.expected = some expected)
    (hmatches : expectedMatches expected (store.pointers input.key) = true)
    (hbefore : ∀ pointer, store.pointers input.key = some pointer →
      ¬ input.provider.Before pointer.provider)
    (hsame : ∀ pointer, store.pointers input.key = some pointer →
      input.provider.SameSequence pointer.provider →
        pointer.snapshotId = input.snapshotId ∧
          pointer.provider.providerReference = input.provider.providerReference) :
    (store.promoteBranch input = .ok (store, .existing) ∧
        ∃ pointer, store.pointers input.key = some pointer ∧
          exactProviderReplay pointer input = true) ∨
      store.promoteBranch input = .ok (store.writePointer input, .promoted) := by
  unfold promoteBranch
  simp only [htarget, require, ↓reduceIte, bind, Except.bind]
  by_cases hreplay : (store.pointers input.key).any (exactProviderReplay · input) = true
  · left
    simp only [hreplay, ↓reduceIte]
    exact ⟨rfl, (Option.any_eq_true ..).mp hreplay⟩
  · right
    have horder := assertPromotionOrder_succeeds hexpected hmatches fun pointer hpointer => by
      refine ⟨hbefore pointer hpointer, fun hseq => hreplay ?_⟩
      obtain ⟨hsnapshot, hreference⟩ := hsame pointer hpointer hseq
      obtain ⟨hprovider, x, hx, hy⟩ := hseq
      simp [hpointer, exactProviderReplay, hsnapshot, hreference, hprovider, hx.1, hy.1]
    simp only [hreplay, Bool.false_eq_true, ↓reduceIte, horder]
    rfl

theorem exactProviderReplay_iff {current : BranchPointer} :
    exactProviderReplay current input = true ↔
      current.snapshotId = input.snapshotId ∧ current.provider = input.provider := by
  obtain ⟨snapshotId, version, provider, reference, order⟩ := current
  obtain ⟨key, snapshotId', ⟨provider', reference', order'⟩, expected⟩ := input
  simp [exactProviderReplay, and_assoc]

/-- After a promotion the pointer of the branch carries the snapshot and the evidence of the
input, and nothing else has changed. -/
theorem promoteBranch_eq_ok {store' : Store}
    {outcome : PromotionOutcome} (h : store.promoteBranch input = .ok (store', outcome)) :
    store.isEligible input.key input.snapshotId = true ∧ store'.snapshots = store.snapshots ∧
      (∀ key, key ≠ input.key → store'.pointers key = store.pointers key) ∧
      ∃ pointer, store'.pointers input.key = some pointer ∧
        pointer.snapshotId = input.snapshotId ∧ pointer.provider = input.provider := by
  simp only [promoteBranch, require_bind_eq_ok] at h
  obtain ⟨htarget, h⟩ := h
  refine ⟨htarget, ?_⟩
  by_cases hreplay : (store.pointers input.key).any (exactProviderReplay · input) = true
  · simp only [hreplay, ↓reduceIte, pure_eq_ok, Prod.mk.injEq] at h
    obtain ⟨rfl, -⟩ := h
    obtain ⟨pointer, hpointer, hexact⟩ := (Option.any_eq_true ..).mp hreplay
    exact ⟨rfl, fun _ _ => rfl, pointer, hpointer, exactProviderReplay_iff.mp hexact⟩
  · simp only [hreplay, Bool.false_eq_true, ↓reduceIte, bind_eq_ok, pure_eq_ok] at h
    obtain ⟨-, -, hwritten⟩ := h
    obtain ⟨rfl, -⟩ := Prod.mk.inj hwritten
    exact ⟨rfl, fun key hkey => update_of_ne hkey _ _, _, update_self _ _ _, rfl, rfl⟩

end Store

end ApiTruth.Catalog
