import Mathlib.Data.Multiset.UnionInter
import ApiTruth.Updates.ClaimDrafts

/-!
# Conservation of claim members

The matching of the claims of an owner does not lose a member and does not use one twice.  Members
are counted with their multiplicities: what equal conditions leave of the one side is distributed
over the assignments and the leftovers of that side, where an unconditional member that is matched
with a condition stands behind the assignment of this condition.

## Main definitions

* `Matching.beforeMembers`, `Matching.afterMembers` : the members that a matching accounts for.

## Main results

* `count_beforeMembers_ofClaims`, `count_afterMembers_ofClaims` : they are the members of the one
  side in excess of the other.
-/

namespace ApiTruth.Updates

open Json ApiTruth.Ir List Option OrderedMap

/-! ### Texts -/

theorem Verification.name_injective : Function.Injective Verification.name := by
  intro a b h
  cases a <;> cases b <;> first | rfl | exact absurd h (by decide)

theorem partitionKey_inj {v w : Json} {a b : Verification} :
    partitionKey v a = partitionKey w b ↔ canon v = canon w ∧ a = b := by
  rw [partitionKey, partitionKey, canonicalJson_inj]
  constructor
  · intro h
    have hvalue := lookup_canon_eq h "value"
    have hname := lookup_canon_eq h "verification"
    refine ⟨by simpa using hvalue, Verification.name_injective ?_⟩
    simpa [lookup_cons] using hname
  · rintro ⟨hvalue, rfl⟩
    simp [canon_obj, hvalue]

theorem exists_toJson (condition : Condition) : ∃ members, condition.toJson = .obj members := by
  cases condition with
  | predicate => exact ⟨_, rfl⟩
  | businessExpression => exact ⟨_, rfl⟩

variable {c d : Option Condition} {partition : ClaimPartition} {α β : Type*}

theorem optionalConditionKey_inj (hc : c.map canonicalCondition = c)
    (hd : d.map canonicalCondition = d) (h : optionalConditionKey c = optionalConditionKey d) :
    c = d := by
  have hcanon := canonicalJson_inj.mp h
  cases c with
  | none => cases d with
    | none => rfl
    | some d =>
      obtain ⟨members, hmembers⟩ := exists_toJson d
      simp [hmembers, canon_obj] at hcanon
  | some c => cases d with
    | none =>
      obtain ⟨members, hmembers⟩ := exists_toJson c
      simp [hmembers, canon_obj] at hcanon
    | some d =>
      rw [map_some, Option.some.injEq] at hc hd
      exact congrArg some (eq_of_canon_toJson hc hd hcanon)

namespace ClaimMember

/-- The value and the condition are representatives. -/
def IsCanonical (member : ClaimMember) : Prop :=
  canon member.value = member.value ∧ member.condition.map canonicalCondition = member.condition

theorem key_inj {m n : ClaimMember} (hm : m.IsCanonical) (hn : n.IsCanonical)
    (h : m.key = n.key) : m = n := by
  obtain ⟨value, verification, condition⟩ := m
  obtain ⟨value', verification', condition'⟩ := n
  obtain ⟨hmValue, hmCondition⟩ : canon value = value ∧
    condition.map canonicalCondition = condition := hm
  obtain ⟨hnValue, hnCondition⟩ : canon value' = value' ∧
    condition'.map canonicalCondition = condition' := hn
  have hcanon := canonicalJson_inj.mp h
  have hvalue := lookup_canon_eq hcanon "value"
  have hname := lookup_canon_eq hcanon "verification"
  have hcondition := lookup_canon_eq hcanon "condition"
  obtain rfl : value = value' := by
    rw [← hmValue, ← hnValue]
    simpa using hvalue
  obtain rfl : verification = verification' := by
    refine Verification.name_injective ?_
    simpa [lookup_cons] using hname
  have heq : optionalConditionKey condition = optionalConditionKey condition' := by
    refine canonicalJson_inj.mpr ?_
    cases condition <;> cases condition' <;> simp_all [lookup_cons, optionalMember]
  rw [optionalConditionKey_inj hmCondition hnCondition heq]

end ClaimMember

theorem isCanonical_claimMemberProjection (value : Json) (verification : Verification)
    (condition : Option Condition) :
    (claimMemberProjection value verification condition).IsCanonical := by
  refine ⟨canon_canon value, ?_⟩
  cases condition with
  | none => rfl
  | some condition => exact congrArg some (canonicalCondition_idem condition)

theorem mem_canonicalClaimMembers {members : List ClaimMember}
    (h : ∀ m ∈ members, m.IsCanonical) {m : ClaimMember} :
    m ∈ canonicalClaimMembers members ↔ m ∈ members :=
  mem_uniqueSorted fun a ha b hb hkey => ClaimMember.key_inj (h a ha) (h b hb) hkey

theorem nodup_canonicalClaimMembers (members : List ClaimMember) :
    (canonicalClaimMembers members).Nodup :=
  (pairwise_uniqueSorted ClaimMember.key members).imp fun hlt heq =>
    hlt.ne (congrArg ClaimMember.key heq)

/-! ### Partitions -/

def conditionsOf (key : String) (claims : List Claim) : List (Option Condition) :=
  (claims.filter (claimPartitionKey · = key)).map fun claim =>
    claim.condition.map canonicalCondition

variable (claims : List Claim)

variable (key : String)

theorem get?_foldl_addToPartition :
    (claims.foldl addToPartition .empty).get? key =
      (claims.find? (claimPartitionKey · = key)).map fun sample =>
        ⟨canon sample.value, sample.verification, conditionsOf key claims⟩ := by
  induction claims using List.reverseRecOn with
  | nil => rfl
  | append_singleton claims claim ih =>
    rw [foldl_append, foldl_cons, foldl_nil, addToPartition, get?_set, find?_append]
    by_cases hkey : key = claimPartitionKey claim
    · subst hkey
      rw [if_pos rfl, ih]
      cases hfind : claims.find? (claimPartitionKey · = claimPartitionKey claim) with
      | none =>
        have hnone : claims.filter (claimPartitionKey · = claimPartitionKey claim) = [] := by
          rw [filter_eq_nil_iff]
          exact List.find?_eq_none.mp hfind
        simp [conditionsOf, filter_append, hnone]
      | some sample => simp [conditionsOf, filter_append]
    · rw [if_neg hkey, ih]
      simp [conditionsOf, filter_append, Ne.symm hkey]

theorem get?_buildClaimPartitions :
    (buildClaimPartitions claims).get? key =
      (claims.find? (claimPartitionKey · = key)).map fun sample =>
        ⟨canon sample.value, sample.verification, sortConditions (conditionsOf key claims)⟩ := by
  rw [buildClaimPartitions, get?_mapValues, get?_foldl_addToPartition, Option.map_map]
  rfl

variable {claims : List Claim} {key : String}

theorem filter_eq_nil_of_find? (h : claims.find? (claimPartitionKey · = key) = none) :
    claims.filter (claimPartitionKey · = key) = [] :=
  List.filter_eq_nil_iff.mpr (List.find?_eq_none.mp h)

theorem members_get?_buildClaimPartitions :
    (((buildClaimPartitions claims).get? key).map ClaimPartition.members).getD [] =
      sortConditions (conditionsOf key claims) := by
  rw [get?_buildClaimPartitions]
  cases hfind : claims.find? (claimPartitionKey · = key) with
  | some sample => rfl
  | none =>
    rw [conditionsOf, filter_eq_nil_of_find? hfind]
    rfl

theorem partitionKey_of_get? (h : (buildClaimPartitions claims).get? key = some partition) :
    partitionKey partition.value partition.verification = key := by
  rw [get?_buildClaimPartitions, map_eq_some_iff] at h
  obtain ⟨sample, hsample, rfl⟩ := h
  have hkey : claimPartitionKey sample = key := by simpa using find?_some hsample
  rw [← hkey]
  exact partitionKey_inj.mpr ⟨canon_canon sample.value, rfl⟩

theorem mem_keys_buildClaimPartitions :
    key ∈ (buildClaimPartitions claims).keys ↔ key ∈ claims.map claimPartitionKey := by
  rw [← get?_isSome_iff, get?_buildClaimPartitions, isSome_map, find?_isSome]
  simp

/-! ### One partition -/

/-- The unconditional member with the same value and verification. -/
def ClaimMember.unconditional (member : ClaimMember) : ClaimMember := { member with condition := none }

namespace Matching

/-- The members of the base that are accounted for. -/
def beforeMembers (matching : Matching) : List ClaimMember :=
  matching.addedAssignments.map ClaimMember.unconditional ++ matching.removedAssignments ++
    matching.changedBeforeAssignments ++ matching.remainingBefore

/-- The members of the target that are accounted for. -/
def afterMembers (matching : Matching) : List ClaimMember :=
  matching.removedAssignments.map ClaimMember.unconditional ++ matching.addedAssignments ++
    matching.changedAfterAssignments ++ matching.remainingAfter

end Matching

def memberOf (partition : ClaimPartition) : Option Condition → ClaimMember :=
  claimMemberProjection partition.value partition.verification

theorem count_map_eq_add [DecidableEq β] (f : Option α → β) (xs : List (Option α))
    (y : β) : (xs.map f).count y = ((xs.filter Option.isNone).map fun _ => f none).count y +
        ((xs.filterMap id).map fun x => f (some x)).count y := by
  induction xs with
  | nil => rfl
  | cons x xs ih =>
    cases x with
    | none =>
      simp only [map_cons, filter_cons, isNone_none, if_true, filterMap_cons, id_eq, count_cons, ih]
      omega
    | some x =>
      simp only [map_cons, filter_cons, isNone_some, Bool.false_eq_true, if_false,
        filterMap_cons, id_eq, count_cons, ih]
      omega

/-- The unconditional members that are matched with other conditions, and the conditional ones that
are matched first, second or not at all. -/
theorem count_split {α β γ δ : Type*} [DecidableEq δ] (nulls : List α) (others : List β)
    (conditions : List γ) (u : δ) (f : γ → δ) {matched : ℕ} (hnulls : matched ≤ nulls.length)
    (hothers : matched ≤ others.length) (first second : ℕ) (y : δ) :
    ((others.take matched).map fun _ => u).count y + ((conditions.take first).map f).count y +
        (((conditions.drop first).take second).map f).count y +
        (((nulls.drop matched).map fun _ => u) ++
          ((conditions.drop first).drop second).map f).count y =
      (nulls.map fun _ => u).count y + (conditions.map f).count y := by
  have hconditions : (conditions.map f).count y = ((conditions.take first).map f).count y +
      (((conditions.drop first).take second).map f).count y +
      (((conditions.drop first).drop second).map f).count y := by
    rw [← List.count_append, ← List.count_append, ← map_append, ← map_append,
      append_assoc, take_append_drop, take_append_drop]
  have hmatched : (nulls.map fun _ => u).count y = ((others.take matched).map fun _ => u).count y +
      ((nulls.drop matched).map fun _ => u).count y := by
    rw [← List.count_append, map_const', map_const', map_const',
      replicate_append_replicate, length_take, length_drop]
    congr 2
    omega
  rw [List.count_append, hconditions, hmatched]
  omega

namespace Matching

variable (partition : ClaimPartition) (before after : List (Option Condition)) (m : ClaimMember)

theorem count_beforeMembers_ofConditions :
    (ofConditions partition before after).beforeMembers.count m =
      ((cancelEqualConditions before after).1.map (memberOf partition)).count m := by
  rw [count_map_eq_add, ← count_split _ ((cancelEqualConditions before after).2.filterMap id) _
    (memberOf partition none) (fun c => memberOf partition (some c)) (min_le_left _ _)
    (min_le_right _ _)]
  simp only [beforeMembers, List.count_append, ofConditions, List.map_map]
  rfl

theorem count_afterMembers_ofConditions :
    (ofConditions partition before after).afterMembers.count m =
      ((cancelEqualConditions before after).2.map (memberOf partition)).count m := by
  rw [count_map_eq_add, ← count_split _ ((cancelEqualConditions before after).1.filterMap id) _
    (memberOf partition none) (fun c => memberOf partition (some c)) (min_le_right _ _)
    (min_le_left _ _)]
  simp only [afterMembers, List.count_append, ofConditions, List.map_map]
  rfl

end Matching

/-! ### Cancellation -/

theorem count_map_of_inj [DecidableEq α] [DecidableEq β] {f : α → β} {xs : List α}
    {x : α} (hinj : ∀ y ∈ xs, f y = f x → y = x) : (xs.map f).count (f x) = xs.count x := by
  induction xs with
  | nil => rfl
  | cons y xs ih =>
    rw [map_cons, count_cons, count_cons, ih fun z hz => hinj z (mem_cons_of_mem _ hz)]
    by_cases hyx : y = x
    · simp [hyx]
    · have hf : f y ≠ f x := fun heq => hyx (hinj y mem_cons_self heq)
      simp [hyx, hf]

theorem count_map_sub [DecidableEq α] [DecidableEq β] {f : α → β} {good : α → Prop}
    (hinj : ∀ x y, good x → good y → f x = f y → x = y) {xs ys zs : List α}
    (hxs : ∀ x ∈ xs, good x) (hys : ∀ y ∈ ys, good y)
    (hcount : ∀ x, zs.count x = xs.count x - ys.count x) (m : β) :
    (zs.map f).count m = (xs.map f).count m - (ys.map f).count m := by
  have hzs : ∀ z ∈ zs, good z := by
    intro z hz
    have hpos := List.count_pos_iff.mpr hz
    rw [hcount] at hpos
    exact hxs z (List.count_pos_iff.mp (by omega))
  by_cases hm : ∃ x, good x ∧ f x = m
  · obtain ⟨x, hx, rfl⟩ := hm
    rw [count_map_of_inj fun y hy => hinj y x (hzs y hy) hx, count_map_of_inj fun y hy => hinj y x
      (hxs y hy) hx, count_map_of_inj fun y hy => hinj y x (hys y hy) hx, hcount]
  · have hzero {us : List α} (hus : ∀ u ∈ us, good u) : (us.map f).count m = 0 := by
      refine List.count_eq_zero.mpr fun hmem => hm ?_
      obtain ⟨u, hu, hum⟩ := List.mem_map.mp hmem
      exact ⟨u, hus u hu, hum⟩
    rw [hzero hzs, hzero hxs, Nat.zero_sub]

theorem count_of_perm {α : Type*} [DecidableEq α] {xs ys : List α} (h : xs.Perm ys) (x : α) :
    xs.count x = ys.count x :=
  h.count_eq x

def IsCanonicalOption (condition : Option Condition) : Prop :=
  condition.map canonicalCondition = condition

theorem isCanonicalOption_of_mem {condition : Option Condition}
    (h : condition ∈ conditionsOf key claims) : IsCanonicalOption condition := by
  obtain ⟨claim, -, rfl⟩ := List.mem_map.mp h
  exact (isCanonical_claimMemberProjection claim.value claim.verification claim.condition).2

variable (conditions : List (Option Condition))

theorem sortConditions_perm :
    (sortConditions conditions).Perm conditions :=
  perm_insertionSort _ _

theorem pairwise_sortConditions :
    (sortConditions conditions).Pairwise fun left right =>
      optionalConditionKey left ≤ optionalConditionKey right := by
  exact pairwise_insertionSort _ conditions

theorem memberOf_inj (partition : ClaimPartition)
    (hc : IsCanonicalOption c) (hd : IsCanonicalOption d)
    (h : memberOf partition c = memberOf partition d) : c = d := by
  have hconditions := congrArg ClaimMember.condition h
  rwa [memberOf, claimMemberProjection, claimMemberProjection, hc, hd] at hconditions

theorem count_cancelEqualConditions (partition : ClaimPartition) {before after : List (Option Condition)}
    (hbefore : ∀ c ∈ before, IsCanonicalOption c) (hafter : ∀ c ∈ after, IsCanonicalOption c)
    (m : ClaimMember) :
    let cancelled := cancelEqualConditions (sortConditions before) (sortConditions after)
    (cancelled.1.map (memberOf partition)).count m =
        (before.map (memberOf partition)).count m - (after.map (memberOf partition)).count m ∧
      (cancelled.2.map (memberOf partition)).count m =
        (after.map (memberOf partition)).count m - (before.map (memberOf partition)).count m := by
  have hkey : ∀ b ∈ sortConditions before, ∀ a ∈ sortConditions after,
      optionalConditionKey b = optionalConditionKey a → b = a := fun b hb a ha =>
    optionalConditionKey_inj (hbefore b ((sortConditions_perm before).mem_iff.mp hb))
      (hafter a ((sortConditions_perm after).mem_iff.mp ha))
  have hcount := count_cancelEqual (pairwise_sortConditions before) (pairwise_sortConditions after)
    hkey
  simp only [count_of_perm (sortConditions_perm _)] at hcount
  exact ⟨count_map_sub (fun c d hc hd => memberOf_inj partition hc hd) hbefore hafter
      (fun c => (hcount c).1) m,
    count_map_sub (fun c d hc hd => memberOf_inj partition hc hd) hafter hbefore
      (fun c => (hcount c).2) m⟩

/-! ### The claims of an owner -/

theorem map_memberOf_conditionsOf
    (hpartition : partitionKey partition.value partition.verification = key) :
    (conditionsOf key claims).map (memberOf partition) =
      (claims.filter (claimPartitionKey · = key)).map claimMember := by
  rw [conditionsOf, List.map_map]
  refine map_congr_left fun claim hclaim => ?_
  have hkey : claimPartitionKey claim = key := by simpa using (List.mem_filter.mp hclaim).2
  rw [← hpartition] at hkey
  obtain ⟨hvalue, hverification⟩ := partitionKey_inj.mp hkey
  have hcondition : (claim.condition.map canonicalCondition).map canonicalCondition =
      claim.condition.map canonicalCondition :=
    (isCanonical_claimMemberProjection claim.value claim.verification claim.condition).2
  rw [Function.comp_apply, memberOf, claimMember, claimMemberProjection, claimMemberProjection,
    hvalue, hverification, hcondition]

namespace Matching

theorem count_ofPartitions (oldClaims newClaims : List Claim) (key : String) (m : ClaimMember) :
    let matching := ofPartitions ((buildClaimPartitions oldClaims).get? key)
      ((buildClaimPartitions newClaims).get? key)
    let before := (oldClaims.filter (claimPartitionKey · = key)).map claimMember
    let after := (newClaims.filter (claimPartitionKey · = key)).map claimMember
    matching.beforeMembers.count m = before.count m - after.count m ∧
      matching.afterMembers.count m = after.count m - before.count m := by
  dsimp only
  rw [ofPartitions]
  split
  · next hnone =>
    rw [orElse_eq_none, get?_buildClaimPartitions, get?_buildClaimPartitions,
      map_eq_none_iff, map_eq_none_iff] at hnone
    rw [filter_eq_nil_of_find? hnone.1, filter_eq_nil_of_find? hnone.2]
    exact ⟨rfl, rfl⟩
  · next partition hsome =>
    have hpartition : partitionKey partition.value partition.verification = key := by
      cases hbase : (buildClaimPartitions oldClaims).get? key with
      | some stored =>
        rw [hbase] at hsome
        cases hsome
        exact partitionKey_of_get? hbase
      | none =>
        rw [hbase] at hsome
        exact partitionKey_of_get? hsome
    rw [members_get?_buildClaimPartitions, members_get?_buildClaimPartitions,
      count_beforeMembers_ofConditions, count_afterMembers_ofConditions,
      ← map_memberOf_conditionsOf hpartition, ← map_memberOf_conditionsOf hpartition]
    exact count_cancelEqualConditions partition (fun c hc => isCanonicalOption_of_mem hc)
      (fun c hc => isCanonicalOption_of_mem hc) m

theorem count_append (first second : Matching) (m : ClaimMember) :
    (first.append second).beforeMembers.count m =
        first.beforeMembers.count m + second.beforeMembers.count m ∧
      (first.append second).afterMembers.count m =
        first.afterMembers.count m + second.afterMembers.count m := by
  simp only [beforeMembers, afterMembers, append, map_append, List.count_append]
  omega

theorem count_foldl_append {α : Type*} (f : α → Matching) (keys : List α) (m : ClaimMember) :
    let matching := keys.foldl (fun (matching : Matching) key => matching.append (f key)) {}
    matching.beforeMembers.count m = (keys.map fun key => (f key).beforeMembers.count m).sum ∧
      matching.afterMembers.count m = (keys.map fun key => (f key).afterMembers.count m).sum := by
  induction keys using List.reverseRecOn with
  | nil => exact ⟨rfl, rfl⟩
  | append_singleton keys key ih =>
    simp only [foldl_append, foldl_cons, foldl_nil, map_append, map_cons, map_nil, sum_append,
      sum_cons, sum_nil, count_append, ih, add_zero, and_self]

theorem count_filter_claims (m : ClaimMember) :
    ((claims.filter (claimPartitionKey · = key)).map claimMember).count m =
      if partitionKey m.value m.verification = key then (claims.map claimMember).count m else 0 := by
  induction claims with
  | nil => simp
  | cons claim claims ih =>
    have hkey (hm : claimMember claim = m) :
        partitionKey m.value m.verification = claimPartitionKey claim := by
      rw [← hm]
      exact partitionKey_inj.mpr ⟨canon_canon claim.value, rfl⟩
    rw [filter_cons, map_cons, count_cons]
    by_cases hclaim : claimPartitionKey claim = key
    · rw [if_pos (decide_eq_true hclaim), map_cons, count_cons, ih]
      by_cases hm : claimMember claim = m
      · rw [if_pos ((hkey hm).trans hclaim), if_pos ((hkey hm).trans hclaim)]
      · simp [hm]
    · rw [if_neg (by simpa using hclaim), ih]
      by_cases hm : claimMember claim = m
      · rw [if_neg fun h => hclaim ((hkey hm).symm.trans h),
          if_neg fun h => hclaim ((hkey hm).symm.trans h)]
      · simp [hm]

theorem count_ofClaims (oldClaims newClaims : List Claim) (m : ClaimMember) :
    let before := oldClaims.map claimMember
    let after := newClaims.map claimMember
    (ofClaims oldClaims newClaims).beforeMembers.count m = before.count m - after.count m ∧
      (ofClaims oldClaims newClaims).afterMembers.count m = after.count m - before.count m := by
  set key := partitionKey m.value m.verification with hkey
  set keys := canonicalStrings ((buildClaimPartitions oldClaims).keys ++
    (buildClaimPartitions newClaims).keys) with hkeys
  -- only the partitions with the value and the verification of the member count
  have hother (f : String → ℕ) (hf : ∀ k, k ≠ key → f k = 0) (hnone : key ∉ keys → f key = 0) :
      (keys.map f).sum = f key := by
    rw [sum_map_eq_nsmul_single key f fun k hk _ => hf k hk]
    by_cases hmem : key ∈ keys
    · rw [count_eq_one_of_mem (nodup_canonicalStrings _) hmem, one_nsmul]
    · rw [hnone hmem, nsmul_zero]
  have hzero {claims : List Claim} (hclaims : key ∉ (buildClaimPartitions claims).keys) :
      (claims.map claimMember).count m = 0 := by
    refine List.count_eq_zero.mpr fun hmem => hclaims ?_
    obtain ⟨claim, hclaim, hm⟩ := List.mem_map.mp hmem
    rw [mem_keys_buildClaimPartitions, hkey, ← hm]
    exact List.mem_map.mpr ⟨claim, hclaim, partitionKey_inj.mpr ⟨(canon_canon claim.value).symm, rfl⟩⟩
  rw [ofClaims, (count_foldl_append _ _ m).1, (count_foldl_append _ _ m).2]
  simp only [count_ofPartitions, count_filter_claims]
  constructor
  · rw [hother _ (fun k hk => by simp [hk.symm, ← hkey]), ← hkey, if_pos rfl, if_pos rfl]
    intro hmem
    simp only [hkeys, mem_canonicalStrings, mem_append, not_or] at hmem
    rw [← hkey, if_pos rfl, if_pos rfl, hzero hmem.1, Nat.zero_sub]
  · rw [hother _ (fun k hk => by simp [hk.symm, ← hkey]), ← hkey, if_pos rfl, if_pos rfl]
    intro hmem
    simp only [hkeys, mem_canonicalStrings, mem_append, not_or] at hmem
    rw [← hkey, if_pos rfl, if_pos rfl, hzero hmem.2, Nat.zero_sub]

end Matching

end ApiTruth.Updates
