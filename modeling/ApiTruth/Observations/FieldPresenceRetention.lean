import ApiTruth.Foundation.Retention
import ApiTruth.Foundation.Runs
import ApiTruth.Observations.FieldPresenceStore
import Mathlib.Logic.Relation

/-!
# Retention of field presence results

Whatever the transactions of a policy do to its rows is a sequence of changes of four kinds: a
result is inserted, a result is replaced by its tombstone, a revision is approved, the policy is
disabled.  Each change keeps the rules of retention, so every run does.

## Main definitions

* `PolicyState.Valid` : the rules of retention on the committed rows of a policy.
* `PolicyState.retained` : the results and tombstones as keys that are written once.
* `Change` : what a statement of a transaction can change.
* `Evolves` : what later rows keep of earlier ones.

## Main results

* `changes_of_perform` : a transaction is a sequence of changes.
* `Change.valid`, `Change.evolves` : what a change preserves.
* `field_presence_retention` : the rules hold in every reachable state, and along every run.
-/

namespace ApiTruth.Observations

open Checked List Option Function

namespace PolicyState

variable {s t u : PolicyState} {key : ResultKey} {row : PresenceResult}

theorem mem_of_findResult (h : s.findResult key = some row) :
    row ∈ s.results ∧ row.key = key :=
  ⟨mem_of_find?_eq_some h, by simpa using find?_some h⟩

theorem findResult_eq_none : s.findResult key = none ↔ ∀ row ∈ s.results, row.key ≠ key := by
  simp [findResult]

theorem findTombstone_eq_none :
    s.findTombstone key = none ↔ ∀ row ∈ s.tombstones, row.key ≠ key := by
  simp [findTombstone]

theorem findResult_ne_none : s.findResult key ≠ none ↔ ∃ row ∈ s.results, row.key = key := by
  simp [findResult_eq_none]

theorem findResult_of_mem (h : (s.results.map (·.key)).Nodup)
    (hrow : row ∈ s.results) : s.findResult row.key = some row := by
  obtain ⟨found, hfound⟩ := ne_none_iff_exists'.mp (findResult_ne_none.mpr ⟨row, hrow, rfl⟩)
  obtain ⟨hmem, hkey⟩ := mem_of_findResult hfound
  rw [hfound, inj_on_of_nodup_map h hmem hrow hkey]

def IsDisjoint (s : PolicyState) : Prop :=
  ∀ row ∈ s.results, ∀ tombstone ∈ s.tombstones, tombstone.key ≠ row.key

def retained (s : PolicyState) (h : s.IsDisjoint) : Retained ResultKey PresenceResult where
  live := s.findResult
  gone := {key | ∃ tombstone ∈ s.tombstones, tombstone.key = key}
  disjoint := by
    rintro _ ⟨tombstone, htombstone, rfl⟩
    exact findResult_eq_none.mpr fun row hrow heq => h row hrow tombstone htombstone heq.symm

/-- The rules of retention on the committed rows of a policy. -/
structure Valid (lineage : Lineage) (clock : ℤ) (s : PolicyState) : Prop where
  keys : (s.results.map (·.key)).Nodup
  disjoint : s.IsDisjoint
  expiry : ∀ row ∈ s.results, ∃ policy imported,
    s.revisions.lookup row.key.ownerPolicyRevision = some policy ∧
      policy.policyFingerprint = row.policyFingerprint ∧
      lineage.imports row.key.importId = some imported ∧
      imported.windowEnd = some row.sourceWindowEnd ∧
      row.expiresAt = row.sourceWindowEnd + policy.ttl
  unowned : s.head = none → s.revisions = []
  owned : ∀ head, s.head = some head → ∃ policy,
    s.revisions.lookup head.currentOwnerPolicyRevision = some policy ∧
      policy.policyFingerprint = head.currentPolicyFingerprint
  newest : ∀ head, s.head = some head → ∀ number policy,
    s.revisions.lookup number = some policy → number ≤ head.currentOwnerPolicyRevision
  budget : ∀ head policy, s.head = some head →
    s.revisions.lookup head.currentOwnerPolicyRevision = some policy →
      (∃ row ∈ s.results, row.key.ownerPolicyRevision = head.currentOwnerPolicyRevision) →
        s.liveCount clock ≤ policy.maxLiveRecords

theorem valid_empty (lineage : Lineage) (clock : ℤ) : empty.Valid lineage clock where
  keys := nodup_nil
  disjoint _ h := absurd h not_mem_nil
  expiry _ h := absurd h not_mem_nil
  unowned _ := rfl
  owned _ h := by cases h
  newest _ h := by cases h
  budget _ _ h := by cases h

theorem liveCount_anti {now later : ℤ} (h : now ≤ later) : s.liveCount later ≤ s.liveCount now := by
  refine countP_mono_left fun row _ hlive => ?_
  rw [decide_eq_true_eq] at hlive ⊢
  omega

theorem Valid.later {lineage lineage' : Lineage} {clock clock' : ℤ} (h : s.Valid lineage clock)
    (hlineage : lineage.Extends lineage') (hclock : clock ≤ clock') : s.Valid lineage' clock' where
  keys := h.keys
  disjoint := h.disjoint
  expiry row hrow := by
    obtain ⟨policy, imported, hpolicy, hfingerprint, himported, hwindow, hexpires⟩ :=
      h.expiry row hrow
    exact ⟨policy, imported, hpolicy, hfingerprint, hlineage _ _ himported, hwindow, hexpires⟩
  unowned := h.unowned
  owned := h.owned
  newest := h.newest
  budget head policy hhead hpolicy hrow :=
    (liveCount_anti hclock).trans (h.budget head policy hhead hpolicy hrow)

end PolicyState

open PolicyState

/-! ### Changes -/

structure Admitted (lineage : Lineage) (now : ℤ) (s : PolicyState) (row : PresenceResult)
    (head : PolicyHead) (policy : PolicyRevision) : Prop where
  current : s.head = some head
  enabled : head.enabled = true
  revision : head.currentOwnerPolicyRevision = row.key.ownerPolicyRevision
  fingerprint : head.currentPolicyFingerprint = row.policyFingerprint
  selected : s.revisions.lookup row.key.ownerPolicyRevision = some policy
  undeleted : ∀ tombstone ∈ s.tombstones, tombstone.key ≠ row.key
  window : ∃ imported, lineage.imports row.key.importId = some imported ∧
    imported.windowEnd = some row.sourceWindowEnd
  expiry : row.expiresAt = row.sourceWindowEnd + policy.ttl
  unexpired : now < row.expiresAt

/-- The result of the key, if there is one, is replaced by its tombstone. -/
structure Removes (s t : PolicyState) (key : ResultKey) : Prop where
  head : t.head = s.head
  revisions : t.revisions = s.revisions
  results : t.results = s.results.filter fun row => decide (row.key ≠ key)
  kept : ∀ tombstone ∈ s.tombstones, tombstone ∈ t.tombstones
  added : ∀ tombstone ∈ t.tombstones, tombstone ∈ s.tombstones ∨ tombstone.key = key
  marked : (∃ row ∈ s.results, row.key = key) → ∃ tombstone ∈ t.tombstones, tombstone.key = key

/-- What a statement of a transaction can change. -/
inductive Change (lineage : Lineage) (now : ℤ) : PolicyState → PolicyState → Prop
  | insert {s : PolicyState} {row : PresenceResult} {head : PolicyHead} {policy : PolicyRevision}
      (hadmitted : Admitted lineage now s row head policy) (hnew : s.findResult row.key = none)
      (hbudget : s.liveCount now < policy.maxLiveRecords) :
      Change lineage now s { s with results := s.results ++ [row] }
  | remove {s t : PolicyState} {key : ResultKey} (h : Removes s t key) : Change lineage now s t
  | approve {s : PolicyState} {policy : CompiledPolicy}
      (hnew : s.revisions.lookup policy.ownerPolicyRevision = none)
      (hfirst : s.head = none → s.revisions = [])
      (hnext : ∀ head, s.head = some head →
        head.currentOwnerPolicyRevision < policy.ownerPolicyRevision) :
      Change lineage now s { s with
        revisions := s.revisions ++ [(policy.ownerPolicyRevision, policy.revision)]
        head := some policy.head }
  | disable {s : PolicyState} {head : PolicyHead} (h : s.head = some head) :
      Change lineage now s { s with head := some { head with enabled := false } }

/-- A head can be moved to a later revision, and within a revision only be disabled. -/
structure HeadLe (old new : PolicyHead) : Prop where
  revision : old.currentOwnerPolicyRevision ≤ new.currentOwnerPolicyRevision
  fingerprint : new.currentOwnerPolicyRevision = old.currentOwnerPolicyRevision →
    new.currentPolicyFingerprint = old.currentPolicyFingerprint
  disabled : new.currentOwnerPolicyRevision = old.currentOwnerPolicyRevision →
    old.enabled = false → new.enabled = false

theorem HeadLe.refl (head : PolicyHead) : HeadLe head head := ⟨le_rfl, fun _ => rfl, fun _ h => h⟩

theorem HeadLe.trans {a b c : PolicyHead} (hab : HeadLe a b) (hbc : HeadLe b c) : HeadLe a c where
  revision := hab.revision.trans hbc.revision
  fingerprint h := by
    have hmid : b.currentOwnerPolicyRevision = a.currentOwnerPolicyRevision :=
      le_antisymm (h ▸ hbc.revision) hab.revision
    exact (hbc.fingerprint (h.trans hmid.symm)).trans (hab.fingerprint hmid)
  disabled h hoff := by
    have hmid : b.currentOwnerPolicyRevision = a.currentOwnerPolicyRevision :=
      le_antisymm (h ▸ hbc.revision) hab.revision
    exact hbc.disabled (h.trans hmid.symm) (hab.disabled hmid hoff)

/-- What later rows of a policy keep of earlier ones. -/
structure Evolves (s t : PolicyState) : Prop where
  head : ∀ old, s.head = some old → ∃ new, t.head = some new ∧ HeadLe old new
  revisions : ∀ number policy, s.revisions.lookup number = some policy →
    t.revisions.lookup number = some policy
  retained : ∀ (hs : s.IsDisjoint) (ht : t.IsDisjoint), s.retained hs ≤ t.retained ht

theorem Evolves.refl (s : PolicyState) : Evolves s s where
  head old h := ⟨old, h, .refl old⟩
  revisions _ _ h := h
  retained _ _ := le_rfl

theorem Evolves.trans {s t u : PolicyState} (ht : t.IsDisjoint) (hst : Evolves s t)
    (htu : Evolves t u) : Evolves s u where
  head old h := by
    obtain ⟨mid, hmid, hle⟩ := hst.head old h
    obtain ⟨new, hnew, hle'⟩ := htu.head mid hmid
    exact ⟨new, hnew, hle.trans hle'⟩
  revisions number policy h := htu.revisions number policy (hst.revisions number policy h)
  retained hs hu := (hst.retained hs ht).trans (htu.retained ht hu)

variable {policy : PolicyRevision} {now : ℤ}

theorem lookup_append_of_some {number : ℕ}
    {revisions added : List (ℕ × PolicyRevision)} (h : revisions.lookup number = some policy) :
    (revisions ++ added).lookup number = some policy := by
  rw [lookup_append, h, some_or]

variable {lineage : Lineage} {s t : PolicyState}

theorem Change.evolves (h : Change lineage now s t) : Evolves s t := by
  cases h with
  | @insert row head policy hadmitted hnew hbudget =>
    refine ⟨fun old hold => ⟨old, hold, .refl old⟩, fun _ _ h => h, fun hs ht => ⟨subset_rfl, ?_⟩⟩
    intro key found hfound
    have hfound' : s.findResult key = some found := hfound
    refine .inl ?_
    change List.find? _ (s.results ++ [row]) = some found
    rw [find?_append]
    change (s.findResult key).or _ = some found
    rw [hfound', some_or]
  | @remove _ key h =>
    refine ⟨fun old hold => ⟨old, h.head ▸ hold, .refl old⟩, fun _ _ hr => h.revisions ▸ hr,
      fun hs ht => ⟨?_, ?_⟩⟩
    · rintro _ ⟨tombstone, htombstone, rfl⟩
      exact ⟨tombstone, h.kept tombstone htombstone, rfl⟩
    · intro other found hfound
      have hfound' : s.findResult other = some found := hfound
      obtain ⟨hmem, hkey⟩ := mem_of_findResult hfound'
      by_cases heq : other = key
      · exact .inr (heq ▸ h.marked ⟨found, hmem, hkey.trans heq⟩)
      · refine .inl ?_
        change List.find? _ t.results = some found
        rw [h.results, find?_filter]
        rw [← hfound']
        refine congrArg (fun p => List.find? p s.results) (funext fun row => ?_)
        by_cases hrow : row.key = other
        · simp [hrow, heq]
        · simp [hrow]
  | @approve policy hnew hfirst hnext =>
    refine ⟨fun old hold => ⟨_, rfl, ?_⟩, fun _ _ h => lookup_append_of_some h, fun _ _ => le_rfl⟩
    have hlt := hnext old hold
    exact ⟨hlt.le, fun heq => absurd heq (Nat.ne_of_gt hlt), fun heq =>
      absurd heq (Nat.ne_of_gt hlt)⟩
  | @disable head h =>
    refine ⟨fun old hold => ⟨_, rfl, ?_⟩, fun _ _ h => h, fun _ _ => le_rfl⟩
    obtain rfl : head = old := Option.some.inj (h.symm.trans hold)
    exact ⟨le_rfl, fun _ => rfl, fun _ _ => rfl⟩

theorem Change.valid
    (h : Change lineage now s t) (hs : s.Valid lineage now) : t.Valid lineage now := by
  cases h with
  | @insert row head policy hadmitted hnew hbudget =>
    obtain ⟨current, hcurrent, hfingerprint⟩ := hs.owned head hadmitted.current
    rw [hadmitted.revision, hadmitted.selected] at hcurrent
    obtain rfl : policy = current := Option.some.inj hcurrent
    refine ⟨?_, ?_, ?_, hs.unowned, hs.owned, hs.newest, ?_⟩
    · rw [map_append, map_singleton]
      refine List.nodup_append.mpr ⟨hs.keys, nodup_singleton _, ?_⟩
      intro key hkey other hother
      obtain ⟨existing, hexisting, rfl⟩ := List.mem_map.mp hkey
      rw [List.mem_singleton.mp hother]
      exact findResult_eq_none.mp hnew existing hexisting
    · intro other hother tombstone htombstone
      rcases List.mem_append.mp hother with hold | hnew
      · exact hs.disjoint other hold tombstone htombstone
      · rw [List.mem_singleton.mp hnew]
        exact hadmitted.undeleted tombstone htombstone
    · intro other hother
      rcases List.mem_append.mp hother with hold | hnew
      · exact hs.expiry other hold
      · rw [List.mem_singleton.mp hnew]
        obtain ⟨imported, himported, hwindow⟩ := hadmitted.window
        exact ⟨policy, imported, hadmitted.selected, hfingerprint.trans hadmitted.fingerprint,
          himported, hwindow, hadmitted.expiry⟩
    · intro head' policy' hhead' hpolicy' _
      obtain rfl : head = head' := Option.some.inj (hadmitted.current.symm.trans hhead')
      rw [hadmitted.revision, hadmitted.selected] at hpolicy'
      obtain rfl : policy = policy' := Option.some.inj hpolicy'
      rw [liveCount, countP_append]
      have hone : List.countP (fun row => decide (now < row.expiresAt)) [row] ≤ 1 :=
        countP_le_length
      have hlt : List.countP (fun row => decide (now < row.expiresAt)) s.results <
        policy.maxLiveRecords := hbudget
      omega
  | @remove _ key h =>
    have hsub : ∀ row ∈ t.results, row ∈ s.results ∧ row.key ≠ key := fun row hrow => by
      rw [h.results] at hrow
      simpa using hrow
    refine ⟨?_, ?_, ?_, ?_, ?_, ?_, ?_⟩
    · rw [h.results]
      exact hs.keys.sublist (List.filter_sublist.map _)
    · intro row hrow tombstone htombstone
      obtain ⟨hmem, hne⟩ := hsub row hrow
      rcases h.added tombstone htombstone with hold | hkey
      · exact hs.disjoint row hmem tombstone hold
      · exact hkey ▸ hne.symm
    · intro row hrow
      rw [h.revisions]
      exact hs.expiry row (hsub row hrow).1
    · rw [h.head, h.revisions]
      exact hs.unowned
    · rw [h.head, h.revisions]
      exact hs.owned
    · rw [h.head, h.revisions]
      exact hs.newest
    · rw [h.head, h.revisions]
      rintro head policy hhead hpolicy ⟨row, hrow, hrevision⟩
      have hle : t.liveCount now ≤ s.liveCount now := by
        rw [liveCount, h.results]
        exact List.filter_sublist.countP_le
      exact hle.trans (hs.budget head policy hhead hpolicy ⟨row, (hsub row hrow).1, hrevision⟩)
  | @approve policy hnew hfirst hnext =>
    refine ⟨hs.keys, hs.disjoint, ?_, fun h => (by cases h), ?_, ?_, ?_⟩
    · intro row hrow
      obtain ⟨revision, imported, hrevision, hrest⟩ := hs.expiry row hrow
      exact ⟨revision, imported, lookup_append_of_some hrevision, hrest⟩
    · intro head hhead
      cases hhead
      refine ⟨policy.revision, ?_, rfl⟩
      change (s.revisions ++ [_]).lookup policy.ownerPolicyRevision = _
      rw [lookup_append, hnew]
      simp
    · intro head hhead number revision hrevision
      cases hhead
      rw [lookup_append] at hrevision
      cases hold : s.revisions.lookup number with
      | some old =>
        cases hhead : s.head with
        | none =>
          rw [hfirst hhead] at hold
          cases hold
        | some head => exact (hs.newest head hhead number old hold).trans (hnext head hhead).le
      | none =>
        rw [hold, none_or] at hrevision
        by_cases heq : number = policy.ownerPolicyRevision
        · exact heq.le
        · have hbeq : (number == policy.ownerPolicyRevision) = false := beq_false_of_ne heq
          simp [lookup_cons, hbeq] at hrevision
    · intro head revision hhead _ hrow
      cases hhead
      obtain ⟨row, hmem, hrevision⟩ := hrow
      obtain ⟨old, _, hold, _⟩ := hs.expiry row hmem
      rw [hrevision] at hold
      exact absurd (hnew.symm.trans hold) (by simp)
  | @disable head h =>
    refine ⟨hs.keys, hs.disjoint, hs.expiry, fun h => (by cases h), ?_, ?_, ?_⟩
    · intro head' hhead
      cases hhead
      exact hs.owned head h
    · intro head' hhead
      cases hhead
      exact hs.newest head h
    · intro head' policy hhead
      cases hhead
      exact hs.budget head policy h

/-! ### Statements and transactions -/

section Statements

variable {lineage : Lineage} {now : ℤ} {s t : PolicyState} {new : NewResult} {key : ResultKey}

theorem window_of_checkLineage {windowEnd : ℤ}
    (h : checkLineage lineage policy new now = .ok windowEnd) :
    ∃ imported, lineage.imports new.key.importId = some imported ∧
      imported.windowEnd = some windowEnd := by
  obtain ⟨parent, -, h⟩ := orRaise_bind_eq_ok.mp h
  cases parent with
  | unresolved => cases h
  | confirmed endpointId statusCode =>
    obtain ⟨-, h⟩ := require_bind_eq_ok.mp h
    obtain ⟨imported, himported, h⟩ := orRaise_bind_eq_ok.mp h
    refine ⟨imported, himported, ?_⟩
    split at h
    · next windowEnd' _ _ hwindow _ =>
      obtain ⟨-, h⟩ := require_bind_eq_ok.mp h
      cases h
      exact hwindow
    · cases h

theorem admitted_of_insertGuard {row : PresenceResult}
    (h : insertGuard lineage now s new = .ok row) :
    row.key = new.key ∧ ∃ head policy, Admitted lineage now s row head policy ∧
      (s.findResult new.key = none → s.liveCount now < policy.maxLiveRecords) := by
  obtain ⟨-, h⟩ := require_bind_eq_ok.mp h
  obtain ⟨head, hhead, h⟩ := orRaise_bind_eq_ok.mp h
  obtain ⟨⟨henabled, hrevision, hfingerprint⟩, h⟩ := require_bind_eq_ok.mp h
  obtain ⟨policy, hpolicy, h⟩ := orRaise_bind_eq_ok.mp h
  obtain ⟨hundeleted, h⟩ := require_bind_eq_ok.mp h
  obtain ⟨windowEnd, hlineage, h⟩ := bind_eq_ok.mp h
  obtain ⟨hunexpired, h⟩ := require_bind_eq_ok.mp h
  obtain ⟨-, -, h⟩ := bind_eq_ok.mp h
  have hadmits : ∀ row : PresenceResult, row.key = new.key →
      row.policyFingerprint = new.policyFingerprint → row.sourceWindowEnd = windowEnd →
        row.expiresAt = windowEnd + policy.ttl → Admitted lineage now s row head policy := by
    intro row hkey hrow hwindow hexpires
    refine ⟨hhead, henabled, hkey ▸ hrevision, hrow ▸ hfingerprint, hkey ▸ hpolicy, ?_, ?_,
      hwindow ▸ hexpires, hexpires ▸ hunexpired⟩
    · rw [hkey]
      exact findTombstone_eq_none.mp hundeleted
    · rw [hkey, hwindow]
      exact window_of_checkLineage hlineage
  cases hfound : s.findResult new.key with
  | some existing =>
    simp only [hfound] at h
    obtain ⟨-, h⟩ := require_bind_eq_ok.mp h
    cases h
    exact ⟨rfl, head, policy, hadmits _ rfl rfl rfl rfl, fun hnone => by cases hnone⟩
  | none =>
    simp only [hfound] at h
    obtain ⟨hbudget, h⟩ := require_bind_eq_ok.mp h
    cases h
    exact ⟨rfl, head, policy, hadmits _ rfl rfl rfl rfl, fun _ => hbudget⟩

theorem insertResult_cases {inserted : Bool}
    (h : insertResult lineage now s new = .ok (t, inserted)) :
    ∃ row head policy, row.key = new.key ∧ Admitted lineage now s row head policy ∧
      ((inserted = true ∧ s.findResult new.key = none ∧ s.liveCount now < policy.maxLiveRecords ∧
          t = { s with results := s.results ++ [row] }) ∨
        (inserted = false ∧ s.findResult new.key ≠ none ∧ t = s)) := by
  obtain ⟨row, hguard, h⟩ := bind_eq_ok.mp h
  obtain ⟨-, h⟩ := require_bind_eq_ok.mp h
  obtain ⟨hkey, head, policy, hadmitted, hbudget⟩ := admitted_of_insertGuard hguard
  refine ⟨row, head, policy, hkey, hadmitted, ?_⟩
  cases hfound : s.findResult new.key with
  | some existing =>
    rw [hfound] at h
    cases h
    exact .inr ⟨rfl, by simp, rfl⟩
  | none =>
    rw [hfound] at h
    cases h
    exact .inl ⟨rfl, rfl, hbudget hfound, rfl⟩

theorem insertTombstone_cases (h : insertTombstone now s key = .ok t) :
    ∃ added, t = { s with tombstones := s.tombstones ++ added } ∧
      (∀ tombstone ∈ added, tombstone.key = key) ∧
        ∃ tombstone ∈ t.tombstones, tombstone.key = key := by
  obtain ⟨-, h⟩ := require_bind_eq_ok.mp h
  obtain ⟨result, -, h⟩ := orRaise_bind_eq_ok.mp h
  cases hfound : s.findTombstone key with
  | some tombstone =>
    rw [hfound] at h
    cases h
    have hkey : tombstone.key = key := by simpa using find?_some hfound
    exact ⟨[], by simp, by simp, tombstone, mem_of_find?_eq_some hfound, hkey⟩
  | none =>
    rw [hfound] at h
    cases h
    exact ⟨_, rfl, by simp, _, mem_append_right _ mem_cons_self, rfl⟩

/-- The function deletes the result of the key, if there is one, and leaves its tombstone. -/
theorem removes_of_delete {deleted : Bool}
    (h : observationFieldPresenceDelete now s key = .ok (t, deleted)) :
    t = s ∨ Removes s t key := by
  unfold observationFieldPresenceDelete at h
  cases hhead : s.head with
  | none =>
    rw [hhead] at h
    cases h
    exact .inl rfl
  | some head =>
    rw [hhead] at h
    obtain ⟨marked, hmarked, h⟩ := bind_eq_ok.mp h
    unfold insertTombstones at hmarked
    cases hfound : s.findResult key with
    | none =>
      rw [hfound] at hmarked
      cases hmarked
      rw [deleteResult, hfound] at h
      cases h
      exact .inl rfl
    | some row =>
      rw [hfound] at hmarked
      obtain ⟨added, rfl, hadded, htombstone⟩ := insertTombstone_cases hmarked
      have hfound' : PolicyState.findResult { s with tombstones := s.tombstones ++ added } key =
          some row := hfound
      rw [deleteResult, hfound'] at h
      obtain ⟨-, h⟩ := require_bind_eq_ok.mp h
      cases h
      refine .inr ⟨rfl, rfl, rfl, fun tombstone h => mem_append_left _ h, ?_, fun _ =>
        htombstone⟩
      intro tombstone h
      exact (List.mem_append.mp h).imp_right (hadded tombstone)

theorem orStorageError_eq_ok {α : Type} {x : Except SqlError α} {a : α} :
    orStorageError x = .ok a ↔ x = .ok a := by
  cases x <;> simp [orStorageError]

abbrev Changes (lineage : Lineage) (now : ℤ) : PolicyState → PolicyState → Prop :=
  Relation.ReflTransGen (Change lineage now)

theorem changes_of_delete {deleted : Bool}
    (h : observationFieldPresenceDelete now s key = .ok (t, deleted)) : Changes lineage now s t := by
  rcases removes_of_delete h with rfl | hremoves
  · exact .refl
  · exact .single (.remove hremoves)

theorem changes_of_deleteCandidates {keys : List ResultKey} {count removed : ℕ}
    (h : deleteCandidates now (s, count) keys = .ok (t, removed)) : Changes lineage now s t := by
  induction keys generalizing s count with
  | nil =>
    cases h
    exact .refl
  | cons key keys ih =>
    obtain ⟨⟨mid, deleted⟩, hdelete, hrest⟩ := bind_eq_ok.mp h
    exact (changes_of_delete hdelete).trans (ih hrest)

theorem current?_eq_some {head : PolicyHead} {revision : PolicyRevision}
    (h : s.current? = some (head, revision)) : s.head = some head := by
  unfold PolicyState.current? at h
  split at h
  · cases h
  · next hhead =>
    split at h
    · cases h
    · split_ifs at h
      cases h
      exact hhead

theorem insertRevision_cases {policy : CompiledPolicy} (h : insertRevision s policy = .ok t) :
    s.revisions.lookup policy.ownerPolicyRevision = none ∧
      t = { s with
        revisions := s.revisions ++ [(policy.ownerPolicyRevision, policy.revision)] } := by
  obtain ⟨⟨-, hnew⟩, h⟩ := require_bind_eq_ok.mp h
  cases h
  exact ⟨hnew, rfl⟩

theorem updateHead_cases {old new : PolicyHead} (h : updateHead s old new = .ok t) :
    t = { s with head := some new } := by
  obtain ⟨-, -, h⟩ := bind_eq_ok.mp h
  obtain ⟨-, h⟩ := require_bind_eq_ok.mp h
  cases h
  rfl

variable {outcome : RetentionOutcome}

variable {loaded : Except RetentionError NewResult}

theorem importObservation_cases (h : importObservation lineage now loaded s = .ok (t, outcome)) :
    ∃ new row head policy, loaded = .ok new ∧ row.key = new.key ∧
      Admitted lineage now s row head policy ∧ ((outcome = .inserted ∧ s.findResult new.key = none ∧
          s.liveCount now < policy.maxLiveRecords ∧
          t = { s with results := s.results ++ [row] }) ∨
        (outcome = .existing ∧ s.findResult new.key ≠ none ∧ t = s)) := by
  obtain ⟨new, hloaded, hrun⟩ := bind_eq_ok.mp h
  split at hrun
  · next mid hinsert =>
    cases hrun
    obtain ⟨row, head, policy, hkey, hadmitted, hcases⟩ := insertResult_cases hinsert
    refine ⟨new, row, head, policy, hloaded, hkey, hadmitted, .inl ?_⟩
    rcases hcases with ⟨-, hrest⟩ | ⟨hfalse, -⟩
    · exact ⟨rfl, hrest⟩
    · cases hfalse
  · next mid hinsert =>
    obtain ⟨row, head, policy, hkey, hadmitted, hcases⟩ := insertResult_cases hinsert
    rcases hcases with ⟨htrue, -⟩ | ⟨-, hfound, rfl⟩
    · cases htrue
    · refine ⟨new, row, head, policy, hloaded, hkey, hadmitted, .inr ?_⟩
      split at hrun
      · split_ifs at hrun
        cases hrun
        exact ⟨rfl, hfound, rfl⟩
      · cases hrun
  · split at hrun
    · split_ifs at hrun
    · cases hrun
  · cases hrun

/-- The head of a joined policy is the current one, so the join is empty only without a head. -/
theorem head_eq_none_of_current? (hs : s.Valid lineage now) (h : s.current? = none) :
    s.head = none := by
  cases hhead : s.head with
  | none => rfl
  | some head =>
    obtain ⟨policy, hpolicy, hfingerprint⟩ := hs.owned head hhead
    simp [PolicyState.current?, hhead, hpolicy, hfingerprint] at h

theorem changes_of_approve {authorized : Except RetentionError Unit} {policy : CompiledPolicy}
    {expected : ℕ} (hs : s.Valid lineage now)
    (h : approve authorized policy expected s = .ok (t, outcome)) : Changes lineage now s t := by
  obtain ⟨-, -, h⟩ := bind_eq_ok.mp h
  split at h
  · next head revision hcurrent =>
    obtain ⟨-, h⟩ := require_bind_eq_ok.mp h
    split_ifs at h
    · cases h
      exact .refl
    · obtain ⟨⟨hexpected, hnext⟩, h⟩ := require_bind_eq_ok.mp h
      obtain ⟨mid, hmid, h⟩ := bind_eq_ok.mp h
      obtain ⟨after, hafter, h⟩ := bind_eq_ok.mp h
      cases h
      obtain ⟨hnew, rfl⟩ := insertRevision_cases (orStorageError_eq_ok.mp hmid)
      obtain rfl := updateHead_cases (orStorageError_eq_ok.mp hafter)
      have hhead := current?_eq_some hcurrent
      refine .single (.approve hnew (fun hnone => ?_) fun other hother => ?_)
      · rw [hhead] at hnone
        cases hnone
      · obtain rfl : head = other := Option.some.inj (hhead.symm.trans hother)
        omega
  · next hcurrent =>
    obtain ⟨⟨hempty, -⟩, h⟩ := require_bind_eq_ok.mp h
    obtain ⟨mid, hmid, h⟩ := bind_eq_ok.mp h
    obtain ⟨-, h⟩ := require_bind_eq_ok.mp h
    cases h
    obtain ⟨hnew, rfl⟩ := insertRevision_cases (orStorageError_eq_ok.mp hmid)
    refine .single (.approve hnew (fun _ => hempty) fun other hother => ?_)
    rw [head_eq_none_of_current? hs hcurrent] at hother
    cases hother

theorem changes_of_disable {authorized : Bool} {ownerAccessScopeId : String} {expected : ℕ}
    (h : disable authorized ownerAccessScopeId expected s = .ok (t, outcome)) :
    Changes lineage now s t := by
  obtain ⟨-, h⟩ := require_bind_eq_ok.mp h
  obtain ⟨⟨head, revision⟩, hcurrent, h⟩ := orRaise_bind_eq_ok.mp h
  obtain ⟨-, h⟩ := require_bind_eq_ok.mp h
  split_ifs at h
  · obtain ⟨after, hafter, h⟩ := bind_eq_ok.mp h
    cases h
    obtain rfl := updateHead_cases (orStorageError_eq_ok.mp hafter)
    exact .single (.disable (current?_eq_some hcurrent))
  · cases h
    exact .refl

/-- A transaction is a sequence of changes. -/
theorem changes_of_perform {transaction : RetentionTransaction}
    (hs : s.Valid lineage now) (h : transaction.perform lineage now s = .ok (t, outcome)) :
    Changes lineage now s t := by
  cases transaction with
  | importObservation loaded =>
    obtain ⟨new, row, head, policy, -, hkey, hadmitted, hcases⟩ := importObservation_cases h
    rcases hcases with ⟨-, hnew, hbudget, rfl⟩ | ⟨-, -, rfl⟩
    · exact .single (.insert hadmitted (hkey ▸ hnew) hbudget)
    · exact .refl
  | deleteOne key =>
    obtain ⟨⟨mid, deleted⟩, hdelete, h⟩ := bind_eq_ok.mp h
    obtain ⟨-, -, h⟩ := bind_eq_ok.mp h
    cases h
    exact changes_of_delete (orStorageError_eq_ok.mp hdelete)
  | cleanup authorized ownerAccessScopeId clock limit =>
    obtain ⟨-, h⟩ := require_bind_eq_ok.mp h
    obtain ⟨-, h⟩ := require_bind_eq_ok.mp h
    obtain ⟨⟨head, revision⟩, -, h⟩ := orRaise_bind_eq_ok.mp h
    obtain ⟨-, h⟩ := require_bind_eq_ok.mp h
    obtain ⟨⟨mid, removed⟩, hdelete, h⟩ := bind_eq_ok.mp h
    obtain ⟨-, -, h⟩ := bind_eq_ok.mp h
    cases h
    exact changes_of_deleteCandidates (orStorageError_eq_ok.mp hdelete)
  | approve authorized policy expected => exact changes_of_approve hs h
  | disable authorized ownerAccessScopeId expected => exact changes_of_disable h

/-- A sequence of changes keeps the rules, and later rows keep what they must of earlier ones. -/
theorem Changes.spec (h : Changes lineage now s t) (hs : s.Valid lineage now) :
    t.Valid lineage now ∧ Evolves s t := by
  induction h with
  | refl => exact ⟨hs, .refl s⟩
  | tail _ hchange ih =>
    obtain ⟨hmid, hevolves⟩ := ih
    exact ⟨hchange.valid hmid, hevolves.trans hmid.disjoint hchange.evolves⟩

end Statements

/-! ### Every run -/

namespace RetentionState

def Valid (s : RetentionState) : Prop :=
  ∀ scope, (s.policies scope).Valid (s.lineage scope.environment) s.clock

def Evolves (s t : RetentionState) : Prop :=
  ∀ scope, Observations.Evolves (s.policies scope) (t.policies scope)

variable {s t : RetentionState} {action : RetentionAction}

theorem valid_of_isInitial (h : s.IsInitial) : s.Valid := fun scope => by
  rw [h]
  exact valid_empty _ _

theorem step_spec (hs : s.Valid) (hstep : RetentionStep s action t) : t.Valid ∧ s.Evolves t := by
  cases hstep with
  | @commit scope transaction after outcome h =>
    obtain ⟨hvalid, hevolves⟩ := (changes_of_perform (hs scope) h).spec (hs scope)
    constructor <;> intro other
    · by_cases heq : other = scope
      · subst heq
        simpa using hvalid
      · simpa [heq] using hs other
    · by_cases heq : other = scope
      · subst heq
        simpa using hevolves
      · simpa [heq] using Evolves.refl (s.policies other)
  | rollback h => exact ⟨hs, fun scope => .refl _⟩
  | tick h =>
    exact ⟨fun scope => (hs scope).later (fun _ _ h => h) h, fun scope => .refl _⟩
  | extend h =>
    exact ⟨fun scope => (hs scope).later (h scope.environment) le_rfl, fun scope => .refl _⟩

theorem run_spec {actions : List RetentionAction} (hs : s.Valid)
    (hrun : TransitionSystem.Run RetentionStep s actions t) : t.Valid ∧ s.Evolves t := by
  refine hrun.invariant (I := fun t => t.Valid ∧ s.Evolves t) ?_ ⟨hs, fun scope => .refl _⟩
  rintro mid action u ⟨hmid, hevolves⟩ hstep
  obtain ⟨hu, hstep⟩ := step_spec hmid hstep
  exact ⟨hu, fun scope => (hevolves scope).trans (hmid scope).disjoint (hstep scope)⟩

end RetentionState

theorem known_retained {s : PolicyState} (hs : s.IsDisjoint) {key : ResultKey}
    (h : ∃ row ∈ s.results, row.key = key) : (s.retained hs).Known key :=
  .inl (ne_none_iff_exists'.mp (findResult_ne_none.mpr h))

theorem xor_of_known {s : PolicyState} {hs : s.IsDisjoint} {key : ResultKey}
    (h : (s.retained hs).Known key) : Xor (∃ row ∈ s.results, row.key = key)
      (∃ tombstone ∈ s.tombstones, tombstone.key = key) := by
  have hlive : (∃ row, (s.retained hs).live key = some row) ↔ ∃ row ∈ s.results, row.key = key := by
    rw [← findResult_ne_none, ne_none_iff_exists']
    rfl
  rw [← hlive]
  exact h.xor

/-- An insertion that succeeds finds the enabled current generation, stores a row of it or has it
already, and leaves at most its maximum of results that have not expired. -/
theorem generation_of_import {outcome : RetentionOutcome} (hs : s.Valid lineage now)
    (h : importObservation lineage now loaded s = .ok (t, outcome)) :
    ∃ new head policy, loaded = .ok new ∧ s.head = some head ∧ head.enabled = true ∧
      head.currentOwnerPolicyRevision = new.key.ownerPolicyRevision ∧
      s.revisions.lookup head.currentOwnerPolicyRevision = some policy ∧
      t.liveCount now ≤ policy.maxLiveRecords ∧
      ∃ row ∈ t.results, row.key = new.key ∧
        row.policyFingerprint = head.currentPolicyFingerprint := by
  obtain ⟨new, row, head, policy, hloaded, hkey, hadmitted, hcases⟩ := importObservation_cases h
  have hselected : s.revisions.lookup head.currentOwnerPolicyRevision = some policy := by
    rw [hadmitted.revision]
    exact hadmitted.selected
  refine ⟨new, head, policy, hloaded, hadmitted.current, hadmitted.enabled,
    hkey ▸ hadmitted.revision, hselected, ?_⟩
  obtain ⟨current, hcurrent, hfingerprint⟩ := hs.owned head hadmitted.current
  obtain rfl : policy = current := Option.some.inj (hselected.symm.trans hcurrent)
  rcases hcases with ⟨-, hnew, hbudget, rfl⟩ | ⟨-, hfound, rfl⟩
  · have hvalid := (Change.insert hadmitted (hkey ▸ hnew) hbudget).valid hs
    have hrow : row ∈ s.results ++ [row] := mem_append_right _ mem_cons_self
    exact ⟨hvalid.budget head policy hadmitted.current hselected
      ⟨row, hrow, hadmitted.revision.symm⟩, row, hrow, hkey, hadmitted.fingerprint.symm⟩
  · obtain ⟨existing, hmem, heq⟩ := findResult_ne_none.mp hfound
    have hrevision : existing.key.ownerPolicyRevision = head.currentOwnerPolicyRevision := by
      rw [heq, ← hkey, hadmitted.revision]
    obtain ⟨selected, -, hlookup, hsame, -⟩ := hs.expiry existing hmem
    rw [hrevision] at hlookup
    obtain rfl : policy = selected := Option.some.inj (hselected.symm.trans hlookup)
    exact ⟨hs.budget head policy hadmitted.current hselected ⟨existing, hmem, hrevision⟩,
      existing, hmem, heq, hsame.symm.trans hfingerprint⟩

/-- The rules of retention hold in every reachable state: no key has a result and a tombstone, and a
result expires its policy's lifetime after the end of its source window.  An insertion that succeeds
does so under the enabled current generation and within its budget, and from then on its key has
exactly one of the two.  Along every run a deleted key has no result again, a result stays as it is,
and the head of a policy never goes back and is never enabled within a revision. -/
theorem field_presence_retention {s : RetentionState}
    (hs : TransitionSystem.Reachable RetentionStep RetentionState.IsInitial s) :
    (∀ scope, ∀ row ∈ (s.policies scope).results,
      (∀ tombstone ∈ (s.policies scope).tombstones, tombstone.key ≠ row.key) ∧
      ∃ policy imported,
        (s.policies scope).revisions.lookup row.key.ownerPolicyRevision = some policy ∧
          (s.lineage scope.environment).imports row.key.importId = some imported ∧
            imported.windowEnd = some row.sourceWindowEnd ∧
              row.expiresAt = row.sourceWindowEnd + policy.ttl) ∧
    (∀ scope loaded outcome t,
      RetentionStep s (.commit scope (.importObservation loaded) outcome) t →
        ∃ new head policy, loaded = .ok new ∧ (s.policies scope).head = some head ∧
          head.enabled = true ∧ head.currentOwnerPolicyRevision = new.key.ownerPolicyRevision ∧
          (s.policies scope).revisions.lookup head.currentOwnerPolicyRevision = some policy ∧
          (t.policies scope).liveCount s.clock ≤ policy.maxLiveRecords ∧
          (∃ row ∈ (t.policies scope).results, row.key = new.key ∧
            row.policyFingerprint = head.currentPolicyFingerprint) ∧
          ∀ actions u, TransitionSystem.Run RetentionStep t actions u →
            Xor (∃ row ∈ (u.policies scope).results, row.key = new.key)
              (∃ tombstone ∈ (u.policies scope).tombstones, tombstone.key = new.key)) ∧
    ∀ actions t, TransitionSystem.Run RetentionStep s actions t → ∀ scope,
      (∀ tombstone ∈ (s.policies scope).tombstones, ∀ row ∈ (t.policies scope).results,
        row.key ≠ tombstone.key) ∧
      (∀ row ∈ (s.policies scope).results, ∀ row' ∈ (t.policies scope).results,
        row'.key = row.key → row' = row) ∧
      ∀ old, (s.policies scope).head = some old → ∃ new, (t.policies scope).head = some new ∧
        HeadLe old new := by
  have hvalid : s.Valid := by
    obtain ⟨first, actions, hfirst, hrun⟩ := hs
    exact (RetentionState.run_spec (RetentionState.valid_of_isInitial hfirst) hrun).1
  refine ⟨?_, ?_, ?_⟩
  · intro scope row hrow
    obtain ⟨policy, imported, hpolicy, -, himported, hwindow, hexpires⟩ :=
      (hvalid scope).expiry row hrow
    exact ⟨(hvalid scope).disjoint row hrow, policy, imported, hpolicy, himported, hwindow,
      hexpires⟩
  · intro scope loaded outcome t hstep
    have hafter := (RetentionState.step_spec hvalid hstep).1
    cases hstep with
    | @commit _ _ after _ h =>
      obtain ⟨new, head, policy, hloaded, hhead, henabled, hrevision, hpolicy, hbudget, hrow⟩ :=
        generation_of_import (hvalid scope) h
      refine ⟨new, head, policy, hloaded, hhead, henabled, hrevision, hpolicy, ?_, ?_, ?_⟩
      · simpa using hbudget
      · simpa using hrow
      · intro actions u hrun
        obtain ⟨hu, hevolves⟩ := RetentionState.run_spec hafter hrun
        obtain ⟨row, hmem, hkey, -⟩ := hrow
        have hknown := known_retained (hafter scope).disjoint ⟨row, by simpa using hmem, hkey⟩
        exact xor_of_known (hknown.mono ((hevolves scope).retained _ (hu scope).disjoint))
  · intro actions t hrun scope
    obtain ⟨ht, hevolves⟩ := RetentionState.run_spec hvalid hrun
    have hle := (hevolves scope).retained (hvalid scope).disjoint (ht scope).disjoint
    refine ⟨?_, ?_, (hevolves scope).head⟩
    · intro tombstone htombstone row hrow heq
      have hgone := Retained.not_live_of_gone hle ⟨tombstone, htombstone, rfl⟩
      exact findResult_eq_none.mp hgone row hrow heq
    · intro row hrow row' hrow' hkey
      have hlive := findResult_of_mem (hvalid scope).keys hrow
      have hlive' := findResult_of_mem (ht scope).keys hrow'
      rw [hkey] at hlive'
      exact Retained.live_eq_of_le hle hlive hlive'

/-- A policy of one path and one record that is observed. -/
def sampleScope : PolicyScope := ⟨⟨"t", "r", "s", "e"⟩, "p"⟩

def sampleRevision : PolicyRevision where
  policyFingerprint := "f"
  configFingerprint := "c"
  configActivationCheckpoint := 1
  endpointId := "get"
  direction := .request
  mediaType := "application/json"
  propertyPaths := ["/a"]
  ttlSeconds := 60
  maxLiveRecords := 1
  ownerAccessScopeId := "o"
  ttl_bounds := by decide
  max_bounds := by decide

def sampleDigest : String := String.ofList ("sha256:".toList ++ List.replicate 64 'a')

def sampleLineage : Lineage where
  records _ _ := some (.confirmed "get" 200)
  imports _ := some ⟨"snapshot", "revision", "c", some 0, some 1, some 2⟩
  sourceDigests _ _ _ := some sampleDigest

def sampleResult : NewResult where
  key := ⟨1, "import", "record"⟩
  policyFingerprint := "f"
  sourceDigest := sampleDigest
  presenceFields := .arr [.obj [("path", .str "/a"), ("state", .str "present")]]
  sourceWindowEnd := none
  expiresAt := none

def sampleApproved : PolicyState where
  head := some ⟨1, "f", true⟩
  revisions := [(1, sampleRevision)]
  results := []
  tombstones := []

theorem sampleApproved_of_empty :
    approve (.ok ()) ⟨1, sampleRevision⟩ 0 .empty = .ok (sampleApproved, .approved) := rfl

theorem sampleResult_imported :
    (importObservation sampleLineage 10 (.ok sampleResult) sampleApproved).isOk = true := by
  decide +kernel

def sampleStart : RetentionState := ⟨10, fun _ => sampleLineage, fun _ => .empty⟩

def sampleStore : RetentionState :=
  ⟨10, fun _ => sampleLineage, Function.update (fun _ => .empty) sampleScope sampleApproved⟩

/-- A run that approves a policy and stores a result, which is then subject to its rules. -/
theorem retention_of_imported_result :
    ∃ s : RetentionState,
      (∃ row ∈ (s.policies sampleScope).results, row.key = sampleResult.key) ∧
        ∀ row ∈ (s.policies sampleScope).results,
          ∀ tombstone ∈ (s.policies sampleScope).tombstones, tombstone.key ≠ row.key := by
  obtain ⟨⟨after, outcome⟩, himport⟩ := isOk_iff.mp sampleResult_imported
  have happrove : RetentionStep sampleStart
      (.commit sampleScope (.approve (.ok ()) ⟨1, sampleRevision⟩ 0) .approved) sampleStore :=
    .commit sampleApproved_of_empty
  have hinsert : RetentionStep sampleStore
      (.commit sampleScope (.importObservation (.ok sampleResult)) outcome)
      { sampleStore with policies := update sampleStore.policies sampleScope after } := by
    refine .commit ?_
    exact himport
  have hrun : TransitionSystem.Reachable RetentionStep RetentionState.IsInitial
      { sampleStore with policies := update sampleStore.policies sampleScope after } :=
    ⟨sampleStart, _, rfl, .cons happrove (.cons hinsert (.nil _))⟩
  have hempty := valid_empty sampleLineage 10
  have hvalid := ((changes_of_approve hempty sampleApproved_of_empty).spec hempty).1
  obtain ⟨new, -, -, hloaded, -, -, -, -, -, row, hrow, hkey, -⟩ :=
    generation_of_import hvalid himport
  cases hloaded
  refine ⟨{ sampleStore with policies := update sampleStore.policies sampleScope after },
    ⟨row, by simpa using hrow, hkey⟩, fun row hrow => ?_⟩
  exact ((field_presence_retention hrun).1 sampleScope row hrow).1

end ApiTruth.Observations
