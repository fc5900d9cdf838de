import ApiTruth.Updates.ClaimMatching

/-!
# Differences of claims and their members

Every owner of claims has at most one difference of each kind.  The members of the base and of the
target are distributed over the sides of these differences: apart from what both have in common, an
occurrence of a member stands for one assignment or one leftover, and a side lists the members that
it stands for once each.

## Main definitions

* `beforeSide`, `afterSide` : the sides of the differences of some kinds.
* `Matching.Conserves` : a matching distributes the members of the two sides.
* `Reports` : the differences report a matching.

## Main results

* `addClaimDrafts_conserves` : the differences of an owner report a matching that distributes its
  members.
-/

namespace ApiTruth.Updates

open Json ApiTruth.Ir List

/-! ### Sides -/

def beforeSide (kinds : List ClaimDifferenceKind) (drafts : List DifferenceDraft) :
    List ClaimMember :=
  drafts.flatMap fun draft => if draft.kind ∈ kinds then draft.before.getD [] else []

def afterSide (kinds : List ClaimDifferenceKind) (drafts : List DifferenceDraft) :
    List ClaimMember :=
  drafts.flatMap fun draft => if draft.kind ∈ kinds then draft.after.getD [] else []

/-- A side lists these members, each of them once. -/
def Lists (side members : List ClaimMember) : Prop :=
  side.Nodup ∧ ∀ m, m ∈ side ↔ m ∈ members

theorem Lists.perm {side side' members : List ClaimMember} (h : Lists side members)
    (hperm : side.Perm side') : Lists side' members :=
  ⟨hperm.nodup_iff.mp h.1, fun m => hperm.mem_iff.symm.trans (h.2 m)⟩

theorem lists_nil : Lists [] [] := ⟨nodup_nil, fun _ => Iff.rfl⟩

theorem lists_canonicalClaimMembers (members : List ClaimMember)
    (h : ∀ m ∈ members, m.IsCanonical) : Lists (canonicalClaimMembers members) members :=
  ⟨nodup_canonicalClaimMembers members, fun _ => mem_canonicalClaimMembers h⟩

/-- The kinds of differences with leftovers of the base. -/
def leftoverKinds (incomplete : Bool) : List ClaimDifferenceKind :=
  [removalKind incomplete, .claimChanged]

/-- The differences report a matching: at most one of each kind, and their sides list what the
matching consists of.  The differences that add or remove conditions leave one side empty. -/
structure Reports (incomplete : Bool) (drafts : List DifferenceDraft) (matching : Matching) :
    Prop where
  kinds : (drafts.map DifferenceDraft.kind).Nodup
  known : ∀ draft ∈ drafts, draft.kind ∈ [.conditionAdded, .conditionRemoved, .conditionChanged,
    .claimAdded, .claimChanged, removalKind incomplete]
  addedBefore : Lists (beforeSide [.conditionAdded, .claimAdded] drafts) []
  addedAfter : Lists (afterSide [.conditionAdded] drafts) matching.addedAssignments
  removedBefore : Lists (beforeSide [.conditionRemoved] drafts) matching.removedAssignments
  removedAfter : Lists (afterSide [.conditionRemoved, removalKind incomplete] drafts) []
  changedBefore : Lists (beforeSide [.conditionChanged] drafts) matching.changedBeforeAssignments
  changedAfter : Lists (afterSide [.conditionChanged] drafts) matching.changedAfterAssignments
  remainingBefore : Lists (beforeSide (leftoverKinds incomplete) drafts) matching.remainingBefore
  remainingAfter : Lists (afterSide [.claimAdded, .claimChanged] drafts) matching.remainingAfter

variable {matching : Matching} {incomplete : Bool} {o o' : ClaimOwner} {draft : DifferenceDraft}

variable {drafts drafts' : List DifferenceDraft} {kinds : List ClaimDifferenceKind}

theorem Reports.perm (h : Reports incomplete drafts matching) (hperm : drafts.Perm drafts') :
    Reports incomplete drafts' matching where
  kinds := (hperm.map _).nodup_iff.mp h.kinds
  known := fun draft hdraft => h.known draft (hperm.mem_iff.mpr hdraft)
  addedBefore := h.addedBefore.perm (hperm.flatMap_right _)
  addedAfter := h.addedAfter.perm (hperm.flatMap_right _)
  removedBefore := h.removedBefore.perm (hperm.flatMap_right _)
  removedAfter := h.removedAfter.perm (hperm.flatMap_right _)
  changedBefore := h.changedBefore.perm (hperm.flatMap_right _)
  changedAfter := h.changedAfter.perm (hperm.flatMap_right _)
  remainingBefore := h.remainingBefore.perm (hperm.flatMap_right _)
  remainingAfter := h.remainingAfter.perm (hperm.flatMap_right _)

/-! ### Conservation -/

namespace Matching

/-- A matching distributes the members of the base and of the target, apart from the common ones:
every occurrence stands for one assignment or one leftover of its side, or for the unconditional
member that is matched with an assignment of the other side. -/
structure Conserves (common before after : Multiset ClaimMember) (matching : Matching) : Prop where
  before : before = common + (matching.addedAssignments.map ClaimMember.unconditional +
    matching.removedAssignments + matching.changedBeforeAssignments + matching.remainingBefore :
      Multiset ClaimMember)
  after : after = common + (matching.addedAssignments +
    matching.removedAssignments.map ClaimMember.unconditional + matching.changedAfterAssignments +
      matching.remainingAfter : Multiset ClaimMember)

theorem conserves_ofClaims (oldClaims newClaims : List Claim) :
    (ofClaims oldClaims newClaims).Conserves
      ((oldClaims.map claimMember : Multiset ClaimMember) ∩ newClaims.map claimMember)
      (oldClaims.map claimMember) (newClaims.map claimMember) := by
  constructor
  all_goals
    ext m
    have hcount := count_ofClaims oldClaims newClaims m
    simp only [beforeMembers, afterMembers, List.count_append] at hcount
    simp only [Multiset.count_add, Multiset.count_inter, Multiset.coe_count]
    omega

theorem length_changedBefore (oldClaims newClaims : List Claim) :
    (ofClaims oldClaims newClaims).changedBeforeAssignments.length =
      (ofClaims oldClaims newClaims).changedAfterAssignments.length := by
  have hpartition (basePartition targetPartition : Option ClaimPartition) :
      (ofPartitions basePartition targetPartition).changedBeforeAssignments.length =
        (ofPartitions basePartition targetPartition).changedAfterAssignments.length := by
    rw [ofPartitions]
    split
    · rfl
    · simp only [ofConditions, length_map, length_take]
      omega
  rw [ofClaims]
  induction canonicalStrings ((buildClaimPartitions oldClaims).keys ++
    (buildClaimPartitions newClaims).keys) using List.reverseRecOn with
  | nil => rfl
  | append_singleton keys key ih =>
    simp only [foldl_append, foldl_cons, foldl_nil]
    rw [append]
    simp only [length_append, ih, hpartition]

/-- All members of a matching are representatives. -/
structure IsCanonical (matching : Matching) : Prop where
  before : ∀ m ∈ matching.beforeMembers, m.IsCanonical
  after : ∀ m ∈ matching.afterMembers, m.IsCanonical

theorem isCanonical_ofClaims (oldClaims newClaims : List Claim) :
    (ofClaims oldClaims newClaims).IsCanonical := by
  have hclaims {claims : List Claim} {m : ClaimMember} (h : 0 < (claims.map claimMember).count m) :
      m.IsCanonical := by
    obtain ⟨claim, -, rfl⟩ := List.mem_map.mp (List.count_pos_iff.mp h)
    exact isCanonical_claimMemberProjection _ _ _
  constructor
  · intro m hm
    have hpos := List.count_pos_iff.mpr hm
    rw [(count_ofClaims oldClaims newClaims m).1] at hpos
    exact hclaims (by omega : 0 < (oldClaims.map claimMember).count m)
  · intro m hm
    have hpos := List.count_pos_iff.mpr hm
    rw [(count_ofClaims oldClaims newClaims m).2] at hpos
    exact hclaims (by omega : 0 < (newClaims.map claimMember).count m)

end Matching

/-! ### Reports -/

theorem beforeSide_append (kinds : List ClaimDifferenceKind) (drafts drafts' : List DifferenceDraft) :
    beforeSide kinds (drafts ++ drafts') = beforeSide kinds drafts ++ beforeSide kinds drafts' :=
  flatMap_append

theorem afterSide_append (kinds : List ClaimDifferenceKind) (drafts drafts' : List DifferenceDraft) :
    afterSide kinds (drafts ++ drafts') = afterSide kinds drafts ++ afterSide kinds drafts' :=
  flatMap_append

theorem beforeSide_eq_nil {drafts : List DifferenceDraft}
    (h : ∀ draft ∈ drafts, draft.kind ∉ kinds) : beforeSide kinds drafts = [] :=
  List.flatMap_eq_nil_iff.mpr fun draft hdraft => if_neg (h draft hdraft)

theorem afterSide_eq_nil {drafts : List DifferenceDraft}
    (h : ∀ draft ∈ drafts, draft.kind ∉ kinds) : afterSide kinds drafts = [] :=
  List.flatMap_eq_nil_iff.mpr fun draft hdraft => if_neg (h draft hdraft)

theorem ite_length_pos {α : Type*} (xs : List α) : (if xs.length > 0 then xs else []) = xs := by
  cases xs <;> simp

theorem afterSide_singleton (kinds : List ClaimDifferenceKind) (draft : DifferenceDraft) :
    afterSide kinds [draft] = if draft.kind ∈ kinds then draft.after.getD [] else [] :=
  flatMap_singleton _ _

theorem beforeSide_ite (kinds : List ClaimDifferenceKind) (condition : Prop) [Decidable condition]
    (draft : DifferenceDraft) : beforeSide kinds (if condition then [draft] else []) =
      if condition then if draft.kind ∈ kinds then draft.before.getD [] else [] else [] := by
  split_ifs <;> simp_all [beforeSide]

theorem afterSide_ite (kinds : List ClaimDifferenceKind) (condition : Prop) [Decidable condition]
    (draft : DifferenceDraft) : afterSide kinds (if condition then [draft] else []) =
      if condition then if draft.kind ∈ kinds then draft.after.getD [] else [] else [] := by
  split_ifs <;> simp_all [afterSide]

theorem removalKind_eq (incomplete : Bool) : removalKind incomplete = .claimRemoved ∨
    removalKind incomplete = .factAbsenceUnconfirmed := by
  cases incomplete
  · exact Or.inl rfl
  · exact Or.inr rfl

theorem kinds_conditionDrafts (owner : ClaimOwner) (matching : Matching) :
    ((matching.conditionDrafts owner).map DifferenceDraft.kind).Sublist
      [.conditionAdded, .conditionRemoved, .conditionChanged] := by
  have hchunk (condition : Prop) [Decidable condition] (draft : DifferenceDraft) :
      ((if condition then [draft] else []).map DifferenceDraft.kind).Sublist [draft.kind] := by
    split_ifs <;> simp
  rw [Matching.conditionDrafts, map_append, map_append]
  exact ((hchunk _ _).append (hchunk _ _)).append (hchunk _ _)

theorem kinds_claimDrafts (incomplete : Bool) (owner : ClaimOwner) (matching : Matching) :
    ∃ kind ∈ [.claimAdded, .claimChanged, removalKind incomplete],
      ((matching.claimDrafts incomplete owner).map DifferenceDraft.kind).Sublist [kind] := by
  unfold Matching.claimDrafts
  dsimp only
  split_ifs
  · exact ⟨_, mem_cons_self, List.Sublist.refl _⟩
  · exact ⟨removalKind incomplete, by simp, List.Sublist.refl _⟩
  · exact ⟨.claimChanged, by simp, List.Sublist.refl _⟩
  · exact ⟨.claimAdded, by simp, nil_sublist _⟩

theorem reports_conditionDrafts (hcanonical : matching.IsCanonical)
    (hchanged : matching.changedBeforeAssignments.length =
      matching.changedAfterAssignments.length) (incomplete : Bool) (owner : ClaimOwner) :
    Reports incomplete (matching.conditionDrafts owner)
      { matching with remainingBefore := [], remainingAfter := [] } := by
  have hadded := lists_canonicalClaimMembers matching.addedAssignments
    fun m hm => hcanonical.after m (by simp [Matching.afterMembers, hm])
  have hremoved := lists_canonicalClaimMembers matching.removedAssignments
    fun m hm => hcanonical.before m (by simp [Matching.beforeMembers, hm])
  have hbefore := lists_canonicalClaimMembers matching.changedBeforeAssignments
    fun m hm => hcanonical.before m (by simp [Matching.beforeMembers, hm])
  have hafter := lists_canonicalClaimMembers matching.changedAfterAssignments
    fun m hm => hcanonical.after m (by simp [Matching.afterMembers, hm])
  have hnil : canonicalClaimMembers matching.changedBeforeAssignments = [] →
      canonicalClaimMembers matching.changedAfterAssignments = [] := by
    intro h
    have hempty : matching.changedBeforeAssignments = [] :=
      List.eq_nil_iff_forall_not_mem.mpr fun m hm => by simpa [h] using (hbefore.2 m).mpr hm
    have hlength := hchanged.symm
    rw [hempty, length_nil, length_eq_zero_iff] at hlength
    rw [hlength]
    rfl
  have hkinds := kinds_conditionDrafts owner matching
  have hmem : ∀ draft ∈ matching.conditionDrafts owner,
      draft.kind ∈ [.conditionAdded, .conditionRemoved, .conditionChanged] := fun draft hdraft =>
    hkinds.subset (List.mem_map_of_mem hdraft)
  have hremoval := removalKind_eq incomplete
  constructor
  · exact hkinds.nodup (by decide)
  · intro draft hdraft
    exact mem_append_left [.claimAdded, .claimChanged, removalKind incomplete] (hmem draft hdraft)
  · convert lists_nil
    simp [Matching.conditionDrafts, beforeSide_append, beforeSide_ite]
  · convert hadded
    simp [Matching.conditionDrafts, afterSide_append, afterSide_ite, ite_length_pos]
  · convert hremoved
    simp [Matching.conditionDrafts, beforeSide_append, beforeSide_ite, ite_length_pos]
  · convert lists_nil
    rcases hremoval with hremoval | hremoval <;>
      simp [Matching.conditionDrafts, afterSide_append, afterSide_ite, hremoval]
  · convert hbefore
    simp [Matching.conditionDrafts, beforeSide_append, beforeSide_ite, ite_length_pos]
  · convert hafter
    cases hlist : canonicalClaimMembers matching.changedBeforeAssignments with
    | nil => simp [Matching.conditionDrafts, afterSide_append, afterSide_ite, hlist, hnil hlist]
    | cons =>
      simp [Matching.conditionDrafts, afterSide_append, afterSide_ite, afterSide_singleton, hlist]
  · convert lists_nil
    rcases hremoval with hremoval | hremoval <;>
      simp [Matching.conditionDrafts, beforeSide_append, beforeSide_ite, leftoverKinds, hremoval]
  · convert lists_nil
    simp [Matching.conditionDrafts, afterSide_append, afterSide_ite]

theorem reports_claimDrafts (hcanonical : matching.IsCanonical)
    (incomplete : Bool) (owner : ClaimOwner) :
    Reports incomplete (matching.claimDrafts incomplete owner)
      { remainingBefore := matching.remainingBefore
        remainingAfter := matching.remainingAfter } := by
  have hold := lists_canonicalClaimMembers matching.remainingBefore
    fun m hm => hcanonical.before m (by simp [Matching.beforeMembers, hm])
  have hnew := lists_canonicalClaimMembers matching.remainingAfter
    fun m hm => hcanonical.after m (by simp [Matching.afterMembers, hm])
  obtain ⟨kind, hkind, hkinds⟩ := kinds_claimDrafts incomplete owner matching
  have hmem : ∀ draft ∈ matching.claimDrafts incomplete owner,
      draft.kind ∈ [.claimAdded, .claimChanged, removalKind incomplete] := by
    intro draft hdraft
    rw [List.mem_singleton.mp (hkinds.subset (List.mem_map_of_mem hdraft))]
    exact hkind
  have hother {kinds : List ClaimDifferenceKind} (hremoval : removalKind incomplete ∉ kinds)
      (hclaim : .claimAdded ∉ kinds ∧ .claimChanged ∉ kinds) :
      Lists (beforeSide kinds (matching.claimDrafts incomplete owner)) [] ∧
        Lists (afterSide kinds (matching.claimDrafts incomplete owner)) [] := by
    have hnone : ∀ draft ∈ matching.claimDrafts incomplete owner, draft.kind ∉ kinds := by
      intro draft hdraft hin
      have hcases := hmem draft hdraft
      simp only [mem_cons, not_mem_nil, or_false] at hcases
      rcases hcases with heq | heq | heq <;> rw [heq] at hin
      exacts [hclaim.1 hin, hclaim.2 hin, hremoval hin]
    rw [beforeSide_eq_nil hnone, afterSide_eq_nil hnone]
    exact ⟨lists_nil, lists_nil⟩
  have hremoval := removalKind_eq incomplete
  have hsides :
      beforeSide [.conditionAdded, .claimAdded] (matching.claimDrafts incomplete owner) = [] ∧
      afterSide [.conditionRemoved, removalKind incomplete]
        (matching.claimDrafts incomplete owner) = [] ∧
      beforeSide (leftoverKinds incomplete) (matching.claimDrafts incomplete owner) =
        canonicalClaimMembers matching.remainingBefore ∧
      afterSide [.claimAdded, .claimChanged] (matching.claimDrafts incomplete owner) =
        canonicalClaimMembers matching.remainingAfter := by
    simp only [Matching.claimDrafts, leftoverKinds]
    cases canonicalClaimMembers matching.remainingBefore <;>
      cases canonicalClaimMembers matching.remainingAfter <;>
      rcases hremoval with h | h <;> simp [beforeSide, afterSide, h]
  constructor
  · exact hkinds.nodup (nodup_singleton kind)
  · intro draft hdraft
    exact mem_append_right [.conditionAdded, .conditionRemoved, .conditionChanged]
      (hmem draft hdraft)
  · exact hsides.1 ▸ lists_nil
  · exact (hother (by rcases hremoval with h | h <;> simp [h]) (by decide)).2
  · exact (hother (by rcases hremoval with h | h <;> simp [h]) (by decide)).1
  · exact hsides.2.1 ▸ lists_nil
  · exact (hother (by rcases hremoval with h | h <;> simp [h]) (by decide)).1
  · exact (hother (by rcases hremoval with h | h <;> simp [h]) (by decide)).2
  · exact hsides.2.2.1 ▸ hold
  · exact hsides.2.2.2 ▸ hnew

theorem Lists.append {side side' members members' : List ClaimMember} (h : Lists side members)
    (h' : Lists side' members') (hnil : members = [] ∨ members' = []) :
    Lists (side ++ side') (members ++ members') := by
  have hempty {xs : List ClaimMember} (h : Lists xs []) : xs = [] :=
    List.eq_nil_iff_forall_not_mem.mpr fun m hm => not_mem_nil ((h.2 m).mp hm)
  rcases hnil with rfl | rfl
  · rwa [hempty h, nil_append, nil_append]
  · rwa [hempty h', append_nil, append_nil]

/-- Of every list one of two matchings has nothing. -/
def Matching.Separate (first second : Matching) : Prop :=
  (first.addedAssignments = [] ∨ second.addedAssignments = []) ∧
    (first.removedAssignments = [] ∨ second.removedAssignments = []) ∧
    (first.changedBeforeAssignments = [] ∨ second.changedBeforeAssignments = []) ∧
    (first.changedAfterAssignments = [] ∨ second.changedAfterAssignments = []) ∧
    (first.remainingBefore = [] ∨ second.remainingBefore = []) ∧
    (first.remainingAfter = [] ∨ second.remainingAfter = [])

theorem Reports.append {matching matching' : Matching} (h : Reports incomplete drafts matching)
    (h' : Reports incomplete drafts' matching') (hseparate : matching.Separate matching')
    (hkinds : ((drafts ++ drafts').map DifferenceDraft.kind).Nodup) :
    Reports incomplete (drafts ++ drafts') (matching.append matching') where
  kinds := hkinds
  known draft hdraft := (List.mem_append.mp hdraft).elim (h.known draft) (h'.known draft)
  addedBefore := beforeSide_append _ _ _ ▸ h.addedBefore.append h'.addedBefore (Or.inl rfl)
  addedAfter := afterSide_append _ _ _ ▸ h.addedAfter.append h'.addedAfter hseparate.1
  removedBefore := beforeSide_append _ _ _ ▸
    h.removedBefore.append h'.removedBefore hseparate.2.1
  removedAfter := afterSide_append _ _ _ ▸ h.removedAfter.append h'.removedAfter (Or.inl rfl)
  changedBefore := beforeSide_append _ _ _ ▸
    h.changedBefore.append h'.changedBefore hseparate.2.2.1
  changedAfter := afterSide_append _ _ _ ▸
    h.changedAfter.append h'.changedAfter hseparate.2.2.2.1
  remainingBefore := beforeSide_append _ _ _ ▸
    h.remainingBefore.append h'.remainingBefore hseparate.2.2.2.2.1
  remainingAfter := afterSide_append _ _ _ ▸
    h.remainingAfter.append h'.remainingAfter hseparate.2.2.2.2.2

theorem reports_drafts (hcanonical : matching.IsCanonical)
    (hchanged : matching.changedBeforeAssignments.length =
      matching.changedAfterAssignments.length) (incomplete : Bool) (owner : ClaimOwner) :
    Reports incomplete (matching.drafts incomplete owner) matching := by
  have hkinds : ((matching.conditionDrafts owner ++ matching.claimDrafts incomplete owner).map
      DifferenceDraft.kind).Nodup := by
    obtain ⟨kind, hkind, hkinds⟩ := kinds_claimDrafts incomplete owner matching
    rw [map_append]
    refine ((kinds_conditionDrafts owner matching).append hkinds).nodup ?_
    rcases removalKind_eq incomplete with h | h <;> rw [h] at hkind <;> fin_cases hkind <;> decide
  have hreports := (reports_conditionDrafts hcanonical hchanged incomplete owner).append
    (reports_claimDrafts hcanonical incomplete owner) (by simp [Matching.Separate]) hkinds
  simpa [Matching.append, Matching.drafts] using hreports

/-! ### Groups -/

theorem canonicalClaimMembers_cons (member : ClaimMember) (members : List ClaimMember) :
    0 < (canonicalClaimMembers (member :: members)).length := by
  obtain ⟨w, hw, -⟩ := exists_mem_uniqueSorted ClaimMember.key
    (mem_cons_self : member ∈ member :: members)
  exact length_pos_of_mem hw

theorem canonicalClaimMembers_nil : canonicalClaimMembers [] = [] := rfl

theorem reports_nil (incomplete : Bool) : Reports incomplete [] {} := by
  constructor
  · exact nodup_nil
  · exact fun draft hdraft => absurd hdraft not_mem_nil
  all_goals exact lists_nil

theorem isCanonical_of_remaining (oldClaims newClaims : List Claim) :
    ({ remainingBefore := oldClaims.map claimMember
       remainingAfter := newClaims.map claimMember } : Matching).IsCanonical := by
  have hclaims {claims : List Claim} {m : ClaimMember} (h : m ∈ claims.map claimMember) :
      m.IsCanonical := by
    obtain ⟨claim, -, rfl⟩ := List.mem_map.mp h
    exact isCanonical_claimMemberProjection _ _ _
  constructor
  · exact fun m hm => hclaims (by simpa [Matching.beforeMembers] using hm)
  · exact fun m hm => hclaims (by simpa [Matching.afterMembers] using hm)

theorem reports_added (incomplete : Bool) (claims : List Claim) :
    Reports incomplete (groupDrafts incomplete [] claims)
      { remainingAfter := claims.map claimMember } := by
  cases claims with
  | nil => exact reports_nil incomplete
  | cons claim claims =>
    have hreports := reports_drafts (isCanonical_of_remaining [] (claim :: claims)) rfl incomplete
      (claimOwner claim)
    have hlength := canonicalClaimMembers_cons (claimMember claim) (claims.map claimMember)
    simpa [Matching.drafts, Matching.conditionDrafts, Matching.claimDrafts, hlength,
      canonicalClaimMembers_nil, groupDrafts, projectClaimGroup] using hreports

theorem reports_removed (incomplete : Bool) (claims : List Claim) :
    Reports incomplete (groupDrafts incomplete claims [])
      { remainingBefore := claims.map claimMember } := by
  cases claims with
  | nil => exact reports_nil incomplete
  | cons claim claims =>
    have hreports := reports_drafts (isCanonical_of_remaining (claim :: claims) []) rfl incomplete
      (claimOwner claim)
    have hlength := canonicalClaimMembers_cons (claimMember claim) (claims.map claimMember)
    simpa [Matching.drafts, Matching.conditionDrafts, Matching.claimDrafts, hlength, hlength.ne',
      canonicalClaimMembers_nil, groupDrafts, projectClaimGroup] using hreports

theorem kinds_added (incomplete : Bool) (claims : List Claim) :
    ((groupDrafts incomplete [] claims).map DifferenceDraft.kind).Sublist [.claimAdded] := by
  cases claims with
  | nil => exact nil_sublist _
  | cons claim claims => exact List.Sublist.refl _

theorem kinds_removed (incomplete : Bool) (claims : List Claim) :
    ((groupDrafts incomplete claims []).map DifferenceDraft.kind).Sublist
      [removalKind incomplete] := by
  cases claims with
  | nil => exact nil_sublist _
  | cons claim claims => exact List.Sublist.refl _

/-- The differences of two groups of claims of an owner report a matching of their members. -/
theorem exists_reports_groupDrafts (incomplete : Bool) (oldClaims newClaims : List Claim) :
    ∃ matching : Matching, matching.Conserves
        ((oldClaims.map claimMember : Multiset ClaimMember) ∩ newClaims.map claimMember)
        (oldClaims.map claimMember) (newClaims.map claimMember) ∧
      Reports incomplete (groupDrafts incomplete oldClaims newClaims) matching := by
  cases oldClaims with
  | nil => cases newClaims with
    | nil => exact ⟨{}, by constructor <;> simp, reports_nil incomplete⟩
    | cons claim claims =>
      exact ⟨_, by constructor <;> simp, reports_added incomplete (claim :: claims)⟩
  | cons claim claims => cases newClaims with
    | nil => exact ⟨_, by constructor <;> simp, reports_removed incomplete (claim :: claims)⟩
    | cons claim' claims' =>
      exact ⟨_, Matching.conserves_ofClaims _ _, reports_drafts (Matching.isCanonical_ofClaims _ _)
        (Matching.length_changedBefore _ _) incomplete (claimOwner claim)⟩

/-! ### Owners -/

def DifferenceDraft.Concerns (owner : ClaimOwner) (draft : DifferenceDraft) : Prop :=
  draft.subject = claimSubject owner ∨ draft.subject = conditionSubject owner

instance (owner : ClaimOwner) : DecidablePred (DifferenceDraft.Concerns owner) :=
  fun _ => inferInstanceAs (Decidable (_ ∨ _))

def ownerClaims (owner : ClaimOwner) (claims : List Claim) : List Claim :=
  claims.filter (claimOwner · = owner)

theorem nullable_canon_inj {a b : Option String} (h : canon (nullable a) = canon (nullable b)) :
    a = b := by
  cases a <;> cases b <;> simp_all [nullable]

theorem ClaimOwner.key_inj (h : o.key = o'.key) : o = o' := by
  obtain ⟨service, endpoint, pointer, predicate⟩ := o
  have hcanon := canonicalJson_inj.mp h
  simp only [canon_arr, map_cons, canon_str, Json.arr.injEq, List.cons.injEq, Json.str.injEq,
    map_nil, and_true] at hcanon
  rw [hcanon.1, nullable_canon_inj hcanon.2.1, nullable_canon_inj hcanon.2.2.1, hcanon.2.2.2]

theorem claimSubject_inj (h : claimSubject o = claimSubject o') : o = o' := by
  refine ClaimOwner.key_inj (canonicalJson_inj.mpr ?_)
  simp_all [claimSubject]

theorem conditionSubject_inj (h : conditionSubject o = conditionSubject o') :
    o = o' := by
  refine ClaimOwner.key_inj (canonicalJson_inj.mpr ?_)
  simp_all [conditionSubject]

theorem claimSubject_ne (o o' : ClaimOwner) : claimSubject o ≠ conditionSubject o' := by
  intro h
  have hkind : "claim" = "condition_group" := congrArg DifferenceSubject.factKind h
  exact absurd hkind (by decide)

theorem DifferenceDraft.Concerns.eq (h : draft.Concerns o) (h' : draft.Concerns o') : o = o' := by
  rcases h with h | h <;> rcases h' with h' | h'
  · exact claimSubject_inj (h.symm.trans h')
  · exact absurd (h.symm.trans h') (claimSubject_ne o o')
  · exact absurd (h'.symm.trans h) (claimSubject_ne o' o)
  · exact conditionSubject_inj (h.symm.trans h')

theorem concerns_of_mem_drafts {owner : ClaimOwner} (h : draft ∈ matching.drafts incomplete owner) :
    draft.Concerns owner := by
  rcases List.mem_append.mp h with h | h
  · unfold Matching.conditionDrafts at h
    refine Or.inr ?_
    rcases List.mem_append.mp h with h | h
    · rcases List.mem_append.mp h with h | h <;> split_ifs at h <;> simp_all
    · split_ifs at h <;> simp_all
  · unfold Matching.claimDrafts at h
    dsimp only at h
    refine Or.inl ?_
    split_ifs at h <;> simp_all

theorem exists_concerns_of_mem_groupDrafts {oldClaims newClaims : List Claim}
    (h : draft ∈ groupDrafts incomplete oldClaims newClaims) :
    ∃ claim, (claim ∈ oldClaims ∨ claim ∈ newClaims) ∧ draft.Concerns (claimOwner claim) := by
  cases oldClaims with
  | nil => cases newClaims with
    | nil => cases h
    | cons claim claims =>
      obtain rfl := List.mem_singleton.mp h
      exact ⟨claim, Or.inr mem_cons_self, Or.inl rfl⟩
  | cons claim claims =>
    refine ⟨claim, Or.inl mem_cons_self, ?_⟩
    cases newClaims with
    | nil =>
      obtain rfl := List.mem_singleton.mp h
      exact Or.inl rfl
    | cons claim' claims' => exact concerns_of_mem_drafts h

theorem groupKey_inj {base target : ContractSnapshot} {side side' : String}
    (h : groupKey base target side o = groupKey base target side' o') :
    o = o' ∧ (isDiscontinuous base target o.endpointId = true → side = side') := by
  unfold groupKey at h
  split_ifs at h with hleft hright hright
  · have hcanon := canonicalJson_inj.mp h
    simp only [canon_arr, map_cons, canon_str, Json.arr.injEq, List.cons.injEq,
      Json.str.injEq, map_nil, and_true] at hcanon
    exact ⟨ClaimOwner.key_inj hcanon.1, fun _ => hcanon.2⟩
  · have hcanon := canonicalJson_inj.mp h
    simp at hcanon
  · have hcanon := canonicalJson_inj.mp h
    simp at hcanon
  · exact ⟨ClaimOwner.key_inj h, fun hdiscontinuous => absurd hdiscontinuous hleft⟩

theorem filter_groupKey (base target : ContractSnapshot) (side : String) (owner : ClaimOwner)
    (claims : List Claim) :
    claims.filter (fun claim => groupKey base target side (claimOwner claim) =
      groupKey base target side owner) = ownerClaims owner claims := by
  refine filter_congr fun claim _ => decide_eq_decide.mpr ⟨fun h => (groupKey_inj h).1, ?_⟩
  rintro rfl
  rfl

theorem flatMap_perm_of_support {κ α : Type*} [DecidableEq κ] {keys support : List κ}
    (hkeys : keys.Nodup) (hsupport : support.Nodup) {g : κ → List α}
    (hg : ∀ k, k ∉ support → g k = []) (hg' : ∀ k, k ∉ keys → g k = []) :
    (keys.flatMap g).Perm (support.flatMap g) := by
  have hfilter (xs : List κ) (p : κ → Bool) (hp : ∀ k, p k = false → g k = []) :
      xs.flatMap g = (xs.filter p).flatMap g := by
    induction xs with
    | nil => rfl
    | cons x xs ih =>
      rw [flatMap_cons, filter_cons]
      split_ifs with hx
      · rw [flatMap_cons, ih]
      · rw [hp x (by simpa using hx), nil_append, ih]
  rw [hfilter keys (· ∈ support) fun k hk => hg k (by simpa using hk),
    hfilter support (· ∈ keys) fun k hk => hg' k (by simpa using hk)]
  refine Perm.flatMap_right _ ?_
  rw [perm_ext_iff_of_nodup (hkeys.filter _) (hsupport.filter _)]
  intro k
  simp [and_comm]

def keyDrafts (base target : ContractSnapshot) (key : String) : List DifferenceDraft :=
  groupDrafts target.coverage.isIncomplete
    (base.claims.filter fun claim => groupKey base target "base" (claimOwner claim) = key)
    (target.claims.filter fun claim => groupKey base target "target" (claimOwner claim) = key)

theorem filter_addClaimDrafts_perm (base target : ContractSnapshot) (owner : ClaimOwner)
    {keys : List String} (hkeys : keys.Nodup) (hmem : ∀ key, key ∈ keys ↔
      key = groupKey base target "base" owner ∨ key = groupKey base target "target" owner) :
    ((addClaimDrafts base target).filter (DifferenceDraft.Concerns owner)).Perm
      (keys.flatMap (keyDrafts base target)) := by
  have hdrafts : addClaimDrafts base target =
      (canonicalStrings ((groupClaims base target "base" base.claims).keys ++
        (groupClaims base target "target" target.claims).keys)).flatMap
          (keyDrafts base target) := by
    simp only [addClaimDrafts, groupClaims, OrderedMap.getD_get?_groupBy]
    rfl
  have howner {key : String} {draft : DifferenceDraft} (h : draft ∈ keyDrafts base target key) :
      ∃ side ∈ ["base", "target"], ∃ owner', groupKey base target side owner' = key ∧
        draft.Concerns owner' := by
    obtain ⟨claim, hclaim | hclaim, hconcerns⟩ := exists_concerns_of_mem_groupDrafts h
    · exact ⟨"base", by simp, _, of_decide_eq_true (List.mem_filter.mp hclaim).2, hconcerns⟩
    · exact ⟨"target", by simp, _, of_decide_eq_true (List.mem_filter.mp hclaim).2, hconcerns⟩
  have hconcerns (key : String) :
      (keyDrafts base target key).filter (DifferenceDraft.Concerns owner) =
        if key ∈ keys then keyDrafts base target key else [] := by
    split_ifs with hkey
    · refine List.filter_eq_self.mpr fun draft hdraft => decide_eq_true ?_
      obtain ⟨side, -, owner', heq, hconcerns⟩ := howner hdraft
      rcases (hmem key).mp hkey with hkey | hkey
      · exact (groupKey_inj (heq.trans hkey)).1 ▸ hconcerns
      · exact (groupKey_inj (heq.trans hkey)).1 ▸ hconcerns
    · refine List.filter_eq_nil_iff.mpr fun draft hdraft hmine => hkey ((hmem key).mpr ?_)
      obtain ⟨side, hside, owner', heq, hconcerns⟩ := howner hdraft
      obtain rfl := (of_decide_eq_true hmine : draft.Concerns owner).eq hconcerns
      simp only [mem_cons, not_mem_nil, or_false] at hside
      rcases hside with rfl | rfl
      · exact Or.inl heq.symm
      · exact Or.inr heq.symm
  rw [hdrafts, filter_flatMap]
  simp only [hconcerns]
  refine (flatMap_perm_of_support (nodup_canonicalStrings _) hkeys (fun key hkey => if_neg hkey)
    fun key hkey => ?_).trans (List.Perm.of_eq (flatMap_congr fun key hkey => if_pos hkey))
  simp only [groupClaims, mem_canonicalStrings, mem_append, OrderedMap.mem_keys_groupBy,
    List.mem_map, not_or, not_exists, not_and] at hkey
  have hnil : keyDrafts base target key = [] := by
    rw [keyDrafts, List.filter_eq_nil_iff.mpr fun claim hclaim h =>
        hkey.1 claim hclaim (of_decide_eq_true h),
      List.filter_eq_nil_iff.mpr fun claim hclaim h => hkey.2 claim hclaim (of_decide_eq_true h)]
    rfl
  rw [hnil, ite_self]

theorem Matching.Conserves.notMem_changedAfter {before after : Multiset ClaimMember}
    (h : matching.Conserves (before ∩ after) before after) {m : ClaimMember}
    (hm : m ∈ matching.changedBeforeAssignments) : m ∉ matching.changedAfterAssignments := by
  intro hm'
  have hbefore := congrArg (Multiset.count m) h.before
  have hafter := congrArg (Multiset.count m) h.after
  simp only [Multiset.count_add, Multiset.count_inter, Multiset.coe_count] at hbefore hafter
  have hpos := List.count_pos_iff.mpr hm
  have hpos' := List.count_pos_iff.mpr hm'
  omega

/-- The differences of an owner of claims: at most one of each kind, with the members of the base
and of the target that the other side does not have distributed over their sides.  The members of a
discontinuous endpoint have nothing in common. -/
theorem addClaimDrafts_conserves (base target : ContractSnapshot) (owner : ClaimOwner) :
    let before : Multiset ClaimMember := (ownerClaims owner base.claims).map claimMember
    let after : Multiset ClaimMember := (ownerClaims owner target.claims).map claimMember
    ∃ matching : Matching,
      matching.Conserves
        (if isDiscontinuous base target owner.endpointId then 0 else before ∩ after) before after ∧
      (∀ m ∈ matching.changedBeforeAssignments, m ∉ matching.changedAfterAssignments) ∧
      Reports target.coverage.isIncomplete
        ((addClaimDrafts base target).filter (DifferenceDraft.Concerns owner)) matching := by
  dsimp only
  by_cases hdiscontinuous : isDiscontinuous base target owner.endpointId = true
  · have hne : groupKey base target "base" owner ≠ groupKey base target "target" owner := fun h =>
      absurd ((groupKey_inj h).2 hdiscontinuous) (by decide)
    have hnone {side side' : String} (hside : side ≠ side') (claims : List Claim) :
        claims.filter (fun claim => groupKey base target side (claimOwner claim) =
          groupKey base target side' owner) = [] := by
      refine List.filter_eq_nil_iff.mpr fun claim _ hkey => hside ?_
      obtain ⟨howner, hsides⟩ := groupKey_inj (of_decide_eq_true hkey)
      exact hsides (howner ▸ hdiscontinuous)
    have hbase : keyDrafts base target (groupKey base target "base" owner) =
        groupDrafts target.coverage.isIncomplete (ownerClaims owner base.claims) [] := by
      rw [keyDrafts, filter_groupKey, hnone (by decide)]
    have htarget : keyDrafts base target (groupKey base target "target" owner) =
        groupDrafts target.coverage.isIncomplete [] (ownerClaims owner target.claims) := by
      rw [keyDrafts, filter_groupKey, hnone (by decide)]
    have hperm := filter_addClaimDrafts_perm base target owner
      (show [groupKey base target "base" owner, groupKey base target "target" owner].Nodup by
        simpa using hne) fun key => by simp
    rw [flatMap_cons, flatMap_singleton, hbase, htarget] at hperm
    rw [if_pos hdiscontinuous]
    refine ⟨_, ?_, ?_, Reports.perm ((reports_removed _ _).append (reports_added _ _) ?_ ?_)
      hperm.symm⟩
    · constructor <;> simp [Matching.append]
    · simp [Matching.append]
    · simp [Matching.Separate]
    · rw [map_append]
      refine ((kinds_removed _ _).append (kinds_added _ _)).nodup ?_
      rcases removalKind_eq target.coverage.isIncomplete with h | h <;> simp [h]
  · have hkey : groupKey base target "target" owner = groupKey base target "base" owner := by
      rw [groupKey, groupKey, if_neg hdiscontinuous, if_neg hdiscontinuous]
    have hgroup : keyDrafts base target (groupKey base target "base" owner) =
        groupDrafts target.coverage.isIncomplete (ownerClaims owner base.claims)
          (ownerClaims owner target.claims) := by
      rw [keyDrafts, filter_groupKey, ← hkey, filter_groupKey]
    obtain ⟨matching, hconserves, hreports⟩ := exists_reports_groupDrafts
      target.coverage.isIncomplete (ownerClaims owner base.claims) (ownerClaims owner target.claims)
    rw [if_neg hdiscontinuous]
    refine ⟨matching, hconserves, fun m => hconserves.notMem_changedAfter, ?_⟩
    have hperm := filter_addClaimDrafts_perm base target owner
      (nodup_singleton (groupKey base target "base" owner)) fun key => by simp [hkey]
    rw [flatMap_singleton, hgroup] at hperm
    exact hreports.perm hperm.symm

def sampleClaim (claimId : String) (condition : Option Condition) : Claim where
  claimId := claimId
  subject := { serviceId := "svc" }
  predicate := "p"
  value := .null
  verification := .declared
  condition := condition
  evidenceIds := ["ev"]

/-- The small snapshot with claims under these conditions. -/
def claimsSnapshot (conditions : List (Option Condition)) : ContractSnapshot :=
  { sampleSnapshot with
    claims := conditions.mapIdx fun index condition => sampleClaim (toString index) condition }

def sampleCondition (expression : String) : Option Condition :=
  some (.businessExpression expression "s" ["/"])

/-- An unconditional member takes the place of a condition and is on no after side; of a member
that occurs twice one occurrence is replaced and one removed; and where the target is incomplete, a
removed member is on no before side of a difference of claims or conditions. -/
theorem not_conserves_members :
    (∀ draft ∈ addClaimDrafts (claimsSnapshot [sampleCondition "a"]) (claimsSnapshot [none]),
      claimMember (sampleClaim "0" none) ∉ draft.after.getD []) ∧
    (addClaimDrafts (claimsSnapshot [sampleCondition "a", sampleCondition "a"])
        (claimsSnapshot [sampleCondition "b"])).map (fun draft => (draft.kind, draft.before)) =
      [(.conditionChanged, some [claimMember (sampleClaim "0" (sampleCondition "a"))]),
        (.claimRemoved, some [claimMember (sampleClaim "0" (sampleCondition "a"))])] ∧
    (addClaimDrafts (claimsSnapshot [none]) { claimsSnapshot [] with
      coverage := .incomplete ["."] ["lib"] "unsupported" [] }).map DifferenceDraft.kind =
        [.factAbsenceUnconfirmed] := by
  decide +kernel

end ApiTruth.Updates
