import ApiTruth.Environment.Views

/-!
# Resolutions of lists of rows

The inventory of an observation, the bindings, the snapshots and the deployment attempts come as
lists.  Their order does not decide what an environment serves, and attempts decide nothing about
it.  A view that asks for reconciliation shows neither a contract nor its absence.

## Main definitions

* `ResolutionLists` : what a resolution is made from.
* `ResolutionLists.ResolvesTo` : the rows by which one snapshot is resolved.
* `ResolutionLists.Reorders` : the same rows in another order.

## Main results

* `latestComparableAttempt_eq_some_iff` : the latest attempt is later than all others.
* `ResolutionLists.snapshotId_eq_some_iff` : when a snapshot is resolved.
* `ResolutionLists.resolve_reorders`, `ResolutionLists.resolve_attempts` : what the order of the
  rows and the attempts leave alone.
* `ResolutionLists.showsNoContract_getEnvironment` : what a view withholds.
-/

namespace ApiTruth.Environment

open Checked Ir List Option Decimal

/-! ### The latest attempt -/

/-- An attempt is listed before another that is not later. -/
def IsListedBefore (a b : DeploymentAttempt) : Prop :=
  compareDecimal a.effectiveOrder b.effectiveOrder ≠ .newer

instance : DecidableRel IsListedBefore := fun a b =>
  inferInstanceAs (Decidable (compareDecimal a.effectiveOrder b.effectiveOrder ≠ .newer))

theorem isListedBefore_iff {a b : DeploymentAttempt} :
    IsListedBefore a b ↔ ¬Decimal.Precedes a.effectiveOrder b.effectiveOrder :=
  not_congr compare_eq_newer_iff

theorem pairwise_isListedBefore (rows : List DeploymentAttempt) :
    (rows.insertionSort IsListedBefore).Pairwise IsListedBefore := by
  have htotal : Std.Total IsListedBefore := ⟨fun a b => by
    rw [isListedBefore_iff, isListedBefore_iff, ← not_and_or]
    exact fun h => Decimal.Precedes.irrefl _ (h.1.trans h.2)⟩
  have htrans : IsTrans _ IsListedBefore := ⟨fun a b c hab hbc => by
    rw [isListedBefore_iff] at hab hbc ⊢
    intro hac
    rcases precedes_trichotomy a.effectiveOrder b.effectiveOrder with h | h | h
    · exact hab h
    · exact hbc (h ▸ hac)
    · exact hbc (h.trans hac)⟩
  exact pairwise_insertionSort _ rows

/-- Attempts that one producer made, with canonical orders. -/
def AreComparable (rows : List DeploymentAttempt) : Prop :=
  (∀ row ∈ rows, canonicalDecimal row.effectiveOrder = true) ∧
    ∀ row ∈ rows, ∀ other ∈ rows, row.producerId = other.producerId

theorem any_eq_false_iff_areComparable {rows : List DeploymentAttempt} :
    (rows.any fun row => !canonicalDecimal row.effectiveOrder
      || some row.producerId != rows.head?.map DeploymentAttempt.producerId) = false ↔
      AreComparable rows := by
  cases rows with
  | nil => simp [AreComparable]
  | cons first rest =>
    simp only [List.any_eq_false, head?_cons, map_some, Bool.or_eq_true, Bool.not_eq_true',
      bne_iff_ne, ne_eq, Option.some.injEq, not_or, Bool.not_eq_false, not_not, AreComparable]
    constructor
    · intro h
      exact ⟨fun row hrow => (h row hrow).1,
        fun row hrow other hother => (h row hrow).2.trans (h other hother).2.symm⟩
    · rintro ⟨hcanonical, hproducer⟩ row hrow
      exact ⟨hcanonical row hrow, hproducer row hrow first mem_cons_self⟩

/-- The latest attempt is comparable with all others and later. -/
theorem latestComparableAttempt_eq_some_iff {rows : List DeploymentAttempt} {attempt : Attempt} :
    latestComparableAttempt rows = some attempt ↔ AreComparable rows ∧
      ∃ latest others, rows.Perm (latest :: others) ∧
        (∀ other ∈ others, Decimal.Precedes other.effectiveOrder latest.effectiveOrder) ∧
        ⟨latest.deploymentId, latest.attemptState⟩ = attempt := by
  have hperm := perm_insertionSort IsListedBefore rows
  have hsorted := pairwise_isListedBefore rows
  rw [latestComparableAttempt, ← any_eq_false_iff_areComparable]
  split_ifs with hany
  · simp [hany]
  rw [Bool.not_eq_true] at hany
  rw [and_iff_right hany]
  have hsort : rows.insertionSort (compareDecimal ·.effectiveOrder ·.effectiveOrder ≠ .newer) =
      rows.insertionSort IsListedBefore := rfl
  rw [hsort]
  constructor
  · intro h
    split at h
    · exact absurd h (some_ne_none _).symm
    · next only heq =>
      exact ⟨only, [], heq ▸ hperm.symm, fun _ hmem => absurd hmem not_mem_nil, Option.some.inj h⟩
    · next latest next rest heq =>
      split_ifs at h with hnext
      rw [heq] at hsorted hperm
      refine ⟨latest, next :: rest, hperm.symm, fun other hother => ?_, Option.some.inj h⟩
      obtain ⟨hlatest, hrest⟩ := List.pairwise_cons.mp hsorted
      have hlt : Decimal.Precedes next.effectiveOrder latest.effectiveOrder :=
        ((precedes_trichotomy _ _).resolve_left
          (isListedBefore_iff.mp (hlatest next mem_cons_self))).resolve_left (Ne.symm hnext)
      rcases List.mem_cons.mp hother with rfl | hother
      · exact hlt
      · rcases precedes_trichotomy next.effectiveOrder other.effectiveOrder with h | h | h
        · exact absurd h (isListedBefore_iff.mp ((List.pairwise_cons.mp hrest).1 other hother))
        · exact h ▸ hlt
        · exact h.trans hlt
  · rintro ⟨latest, others, hrows, hothers, rfl⟩
    have hall := hperm.trans hrows
    cases heq : rows.insertionSort IsListedBefore with
    | nil => exact absurd (heq ▸ hall) (List.nil_perm.not.mpr (cons_ne_nil _ _))
    | cons first rest =>
      rw [heq] at hall hsorted
      have hfirst : first = latest := by
        rcases List.mem_cons.mp (hall.mem_iff.mp mem_cons_self) with h | h
        · exact h
        · rcases List.mem_cons.mp (hall.mem_iff.mpr mem_cons_self) with h' | h'
          · exact h'.symm
          · exact absurd (hothers first h)
              (isListedBefore_iff.mp ((List.pairwise_cons.mp hsorted).1 latest h'))
      subst hfirst
      cases rest with
      | nil => rfl
      | cons next rest =>
        have hnext := hothers next ((perm_cons _).mp hall |>.mem_iff.mp mem_cons_self)
        simp only
        rw [if_neg]
        intro h
        exact Decimal.Precedes.irrefl _ (h ▸ hnext)

theorem latestComparableAttempt_perm {rows rows' : List DeploymentAttempt} (h : rows.Perm rows') :
    latestComparableAttempt rows = latestComparableAttempt rows' := by
  refine Option.ext fun attempt => ?_
  have hperm (others : List DeploymentAttempt) : rows.Perm others ↔ rows'.Perm others :=
    ⟨h.symm.trans, h.trans⟩
  simp only [latestComparableAttempt_eq_some_iff, AreComparable, h.mem_iff, hperm]

/-! ### Rows in another order -/

/-- A state of the same inventory or the same artifacts. -/
def ServingState.Reorders : ServingState → ServingState → Prop
  | .known inventory, .known inventory' => inventory.Perm inventory'
  | .unknown reason observed, .unknown reason' observed' =>
    reason = reason' ∧ Option.Rel List.Perm observed observed'
  | .known _, .unknown _ _ | .unknown _ _, .known _ => False

structure ServingReport.Reorders (report report' : ServingReport) : Prop where
  completeness : report.completeness = report'.completeness
  servingState : report.servingState.Reorders report'.servingState

structure ResolutionLists where
  observation : Option ServingReport
  artifactBindings : List ArtifactBinding
  revisionSnapshots : List SnapshotOfRevision
  attempts : List DeploymentAttempt

namespace ResolutionLists

def input (lists : ResolutionLists) : ResolutionInput where
  observation := lists.observation
  latestAttempt := latestComparableAttempt lists.attempts
  artifactBindings := lists.artifactBindings
  revisionSnapshots := lists.revisionSnapshots

def resolve (lists : ResolutionLists) : EnvironmentResolution := lists.input.resolveEnvironment

/-- The observation is complete and of one artifact, its one binding is to the observed revision and
the revision has one snapshot. -/
def ResolvesTo (lists : ResolutionLists) (snapshotId : String) : Prop :=
  ∃ artifactId revision,
    lists.observation = some ⟨.complete, .known [⟨artifactId, .known revision⟩]⟩ ∧
    lists.artifactBindings.filter (·.artifactId == artifactId) = [⟨artifactId, revision⟩] ∧
    lists.revisionSnapshots.filter (·.revision == revision) = [⟨revision, snapshotId⟩]

structure Reorders (lists lists' : ResolutionLists) : Prop where
  observation : Option.Rel ServingReport.Reorders lists.observation lists'.observation
  artifactBindings : lists.artifactBindings.Perm lists'.artifactBindings
  revisionSnapshots : lists.revisionSnapshots.Perm lists'.revisionSnapshots
  attempts : lists.attempts.Perm lists'.attempts

def HasDistinctArtifacts (lists : ResolutionLists) : Prop :=
  ∀ report, lists.observation = some report → report.servingState.artifactIds.Nodup

variable {lists lists' : ResolutionLists}

theorem deployed_of_resolved {input : ResolutionInput}
    (h : input.resolveEnvironment.contract = .resolved ∨
      input.resolveEnvironment.snapshotId.isSome = true) :
    input.resolveEnvironment.deployment = .deployed ∧
      input.resolveEnvironment.contract = .resolved := by
  unfold ResolutionInput.resolveEnvironment ResolutionInput.unavailable at *
  match hobservation : input.observation with
  | none => simp [hobservation] at h
  | some ⟨_, .unknown _ _⟩ => simp [hobservation] at h
  | some ⟨_, .known []⟩ => simp [hobservation] at h
  | some ⟨completeness, .known (item :: rest)⟩ =>
    simp only [hobservation, ResolutionInput.resolveInventory] at h ⊢
    split_ifs at h ⊢ <;> simp_all

/-- A snapshot is resolved exactly by its rows. -/
theorem snapshotId_eq_some_iff {snapshotId : String} :
    lists.resolve.snapshotId = some snapshotId ↔ lists.ResolvesTo snapshotId := by
  constructor
  · intro h
    obtain ⟨hdeployed, hresolved⟩ := deployed_of_resolved (.inr (isSome_of_eq_some h))
    obtain ⟨⟨artifactId, served⟩, revision, found, hobservation, hfound⟩ :=
      ResolutionInput.resolveEnvironment_resolved hdeployed hresolved
    obtain ⟨rfl, hbindings, hsnapshots⟩ := ResolutionInput.resolveItem_eq_found_iff.mp hfound
    rw [resolve, ResolutionInput.resolveEnvironment_of_found hobservation hfound] at h
    cases h
    exact ⟨artifactId, revision, hobservation, hbindings, hsnapshots⟩
  · rintro ⟨artifactId, revision, hobservation, hbindings, hsnapshots⟩
    rw [resolve, ResolutionInput.resolveEnvironment_of_found hobservation
      (ResolutionInput.resolveItem_eq_found_iff.mpr ⟨rfl, hbindings, hsnapshots⟩)]
    rfl

/-! ### The order of the rows -/

/-- What is read off the one row of a list, or off any other list. -/
def ofOne {α β : Type*} (single : α → β) (other : β) : List α → β
  | [row] => single row
  | _ => other

theorem ofOne_perm {α β : Type*} {rows rows' : List α} (h : rows.Perm rows') (single : α → β)
    (other : β) : ofOne single other rows = ofOne single other rows' := by
  match rows, rows', h.length_eq with
  | [], [], _ => rfl
  | [row], [row'], _ => rw [List.singleton_perm.mp h]
  | _ :: _ :: _, _ :: _ :: _, _ => rfl

variable (input : ResolutionInput)

theorem resolveRevision_eq_ofOne (revision : String) :
    input.resolveRevision revision =
      ofOne (fun snapshot => .found revision snapshot.snapshotId) (.missingAnalysis revision)
        (input.revisionSnapshots.filter (·.revision == revision)) := by
  unfold ResolutionInput.resolveRevision
  generalize input.revisionSnapshots.filter (·.revision == revision) = rows
  rcases rows with _ | ⟨_, _ | ⟨_, _⟩⟩ <;> rfl

theorem resolveItem_known_eq_ofOne (artifactId revision : String) :
    input.resolveItem ⟨artifactId, .known revision⟩ =
      ofOne (fun binding => if binding.revision = revision then input.resolveRevision revision
          else .missingBinding (some revision)) (.missingBinding (some revision))
        (input.artifactBindings.filter (·.artifactId == artifactId)) := by
  simp only [ResolutionInput.resolveItem]
  generalize input.artifactBindings.filter (·.artifactId == artifactId) = rows
  rcases rows with _ | ⟨_, _ | ⟨_, _⟩⟩ <;> rfl

/-- The order of bindings and snapshots does not decide what an artifact resolves to. -/
theorem Reorders.resolveItem (h : lists.Reorders lists') (item : InventoryItem) :
    lists.input.resolveItem item = lists'.input.resolveItem item := by
  obtain ⟨artifactId, revision | _⟩ := item
  case unknown => rfl
  have hrevision : lists.input.resolveRevision revision = lists'.input.resolveRevision revision := by
    rw [resolveRevision_eq_ofOne, resolveRevision_eq_ofOne]
    exact ofOne_perm (h.revisionSnapshots.filter _) _ _
  rw [resolveItem_known_eq_ofOne, resolveItem_known_eq_ofOne, hrevision]
  exact ofOne_perm (h.artifactBindings.filter _) _ _

/-- The artifacts of an inventory, as a resolution lists them before it sorts them. -/
def listed (lists : ResolutionLists) (inventory : List InventoryItem) : List ActiveArtifact :=
  inventory.map fun item => (lists.input.resolveItem item).active item.artifactId

def IsListedBy (a b : ActiveArtifact) : Prop := utf16 a.artifactId ≤ utf16 b.artifactId

instance : DecidableRel IsListedBy := fun a b =>
  inferInstanceAs (Decidable (utf16 a.artifactId ≤ utf16 b.artifactId))

theorem pairwise_isListedBy (active : List ActiveArtifact) :
    (active.insertionSort IsListedBy).Pairwise IsListedBy := by
  have htotal : Std.Total IsListedBy := ⟨fun a b => le_total _ _⟩
  have htrans : IsTrans _ IsListedBy := ⟨fun _ _ _ => le_trans⟩
  exact pairwise_insertionSort _ active

theorem map_artifactId_insertionSort {active active' : List ActiveArtifact}
    (h : active.Perm active') :
    (active.insertionSort IsListedBy).map ActiveArtifact.artifactId =
      (active'.insertionSort IsListedBy).map ActiveArtifact.artifactId := by
  have hperm := (perm_insertionSort IsListedBy active).trans
    (h.trans (perm_insertionSort IsListedBy active').symm)
  have hsorted (active : List ActiveArtifact) :
      ((active.insertionSort IsListedBy).map ActiveArtifact.artifactId).Pairwise
        fun a b => utf16 a ≤ utf16 b := List.pairwise_map.mpr (pairwise_isListedBy active)
  exact (hperm.map _).eq_of_pairwise (fun a b _ _ hab hba => utf16_injective (le_antisymm hab hba))
    (hsorted active) (hsorted active')

theorem Reorders.latestAttempt (h : lists.Reorders lists') :
    lists.input.latestAttempt = lists'.input.latestAttempt :=
  latestComparableAttempt_perm h.attempts

variable {inventory inventory' : List InventoryItem}

theorem Reorders.listed_perm (h : lists.Reorders lists') (hperm : inventory.Perm inventory') :
    (lists.listed inventory).Perm (lists'.listed inventory') := by
  have heq : lists.listed = lists'.listed := funext fun inventory =>
    map_congr_left fun item _ => congrArg (·.active item.artifactId) (h.resolveItem item)
  rw [heq]
  exact hperm.map _

theorem map_artifactId_listed (lists : ResolutionLists) (inventory : List InventoryItem) :
    (lists.listed inventory).map ActiveArtifact.artifactId =
      inventory.map InventoryItem.artifactId := by
  rw [listed, List.map_map]
  refine map_congr_left fun item _ => ?_
  simp only [Function.comp_apply]
  cases lists.input.resolveItem item <;> rfl

theorem map_active_items (lists : ResolutionLists) (inventory : List InventoryItem) :
    ((inventory.map fun item => (item.artifactId, lists.input.resolveItem item)).map
      fun item => item.2.active item.1) = lists.listed inventory := List.map_map

theorem active_resolveInventory (lists : ResolutionLists) (completeness : Completeness)
    (inventory : List InventoryItem) :
    (lists.input.resolveInventory completeness inventory).active =
      (lists.listed inventory).insertionSort IsListedBy := by
  unfold ResolutionInput.resolveInventory
  simp only [map_active_items]
  split_ifs <;> rfl

theorem resolveInventory_ambiguous {completeness : Completeness} {inventory : List InventoryItem}
    (h : completeness ≠ .complete ∨ inventory.length ≠ 1) :
    lists.input.resolveInventory completeness inventory =
      { deployment := .transitional, contract := .ambiguous,
        active := (lists.listed inventory).insertionSort IsListedBy,
        latestAttempt := lists.input.latestAttempt } := by
  unfold ResolutionInput.resolveInventory
  simp only [map_active_items]
  rw [if_pos]
  · rfl
  · rw [length_insertionSort, listed, length_map]
    exact h

/-- A resolution is another one, but for the order in which it lists artifacts of one id. -/
structure AgreesUpToOrder (resolution resolution' : EnvironmentResolution) : Prop where
  deployment : resolution.deployment = resolution'.deployment
  contract : resolution.contract = resolution'.contract
  latestAttempt : resolution.latestAttempt = resolution'.latestAttempt
  snapshotId : resolution.snapshotId = resolution'.snapshotId
  active : resolution.active.Perm resolution'.active
  sorted : resolution.active.map ActiveArtifact.artifactId =
    resolution'.active.map ActiveArtifact.artifactId

theorem AgreesUpToOrder.eq {resolution resolution' : EnvironmentResolution}
    (h : AgreesUpToOrder resolution resolution')
    (hdistinct : (resolution.active.map ActiveArtifact.artifactId).Nodup) :
    resolution = resolution' := by
  have hactive : resolution.active = resolution'.active := by
    refine ext_getElem h.active.length_eq fun index hindex hindex' => ?_
    have hid := congrArg (·[index]?) h.sorted
    simp only [getElem?_map, getElem?_eq_getElem hindex,
      getElem?_eq_getElem hindex', map_some, Option.some.injEq] at hid
    exact inj_on_of_nodup_map hdistinct (getElem_mem hindex)
      (h.active.mem_iff.mpr (getElem_mem hindex')) hid
  obtain ⟨hdeployment, hcontract, hattempt, hsnapshot, -, -⟩ := h
  cases resolution
  cases resolution'
  simp_all

theorem Reorders.resolveInventory (h : lists.Reorders lists') (completeness : Completeness)
    (hperm : inventory.Perm inventory') :
    AgreesUpToOrder (lists.input.resolveInventory completeness inventory)
      (lists'.input.resolveInventory completeness inventory') := by
  by_cases hone : completeness ≠ .complete ∨ inventory.length ≠ 1
  · rw [resolveInventory_ambiguous hone, resolveInventory_ambiguous (hperm.length_eq ▸ hone)]
    have hlisted := h.listed_perm hperm
    exact ⟨rfl, rfl, h.latestAttempt, rfl, (perm_insertionSort _ _).trans
      (hlisted.trans (perm_insertionSort _ _).symm), map_artifactId_insertionSort hlisted⟩
  · rw [not_or, not_not, not_not] at hone
    obtain ⟨item, rfl⟩ := List.length_eq_one_iff.mp hone.2
    obtain rfl := List.singleton_perm.mp hperm
    have heq : lists.input.resolveInventory completeness [item] =
        lists'.input.resolveInventory completeness [item] := by
      simp only [ResolutionInput.resolveInventory, map_cons, map_nil, h.resolveItem,
        h.latestAttempt]
    rw [heq]
    exact ⟨rfl, rfl, rfl, rfl, .refl _, rfl⟩

/-- The order of the rows does not decide a resolution. -/
theorem resolve_reorders (h : lists.Reorders lists') :
    AgreesUpToOrder lists.resolve lists'.resolve := by
  have hunavailable (deployment : Deployment) : AgreesUpToOrder
      (lists.input.unavailable deployment) (lists'.input.unavailable deployment) :=
    ⟨rfl, rfl, h.latestAttempt, rfl, .refl _, rfl⟩
  have hobservation := h.observation
  unfold resolve ResolutionInput.resolveEnvironment
  change Option.Rel _ lists.input.observation lists'.input.observation at hobservation
  generalize lists.input.observation = observation at hobservation ⊢
  generalize lists'.input.observation = observation' at hobservation ⊢
  cases hobservation with
  | none => exact hunavailable .unknown
  | @some report report' hreport =>
    obtain ⟨completeness, servingState⟩ := report
    obtain ⟨_, servingState'⟩ := report'
    obtain ⟨rfl, hserving⟩ := hreport
    cases servingState with
    | unknown =>
      cases servingState' with
      | unknown => exact hunavailable .unknown
      | known => exact hserving.elim
    | known inventory =>
      cases servingState' with
      | unknown => exact hserving.elim
      | known inventory' =>
        match inventory, inventory', Perm.length_eq hserving with
        | [], [], _ => exact hunavailable _
        | _ :: _, _ :: _, _ => exact h.resolveInventory completeness hserving

theorem nodup_active (hdistinct : lists.HasDistinctArtifacts) :
    (lists.resolve.active.map ActiveArtifact.artifactId).Nodup := by
  unfold resolve ResolutionInput.resolveEnvironment
  match hobservation : lists.observation with
  | none => simp [input, hobservation, ResolutionInput.unavailable]
  | some ⟨_, .unknown _ _⟩ => simp [input, hobservation, ResolutionInput.unavailable]
  | some ⟨_, .known []⟩ => simp [input, hobservation, ResolutionInput.unavailable]
  | some ⟨completeness, .known (item :: rest)⟩ =>
    have hids := hdistinct _ hobservation
    rw [show lists.input.observation = _ from hobservation]
    simp only [active_resolveInventory]
    rw [((perm_insertionSort IsListedBy _).map _).nodup_iff, map_artifactId_listed]
    exact hids

theorem resolve_eq_of_reorders (h : lists.Reorders lists') (hdistinct : lists.HasDistinctArtifacts) :
    lists.resolve = lists'.resolve :=
  (resolve_reorders h).eq (nodup_active hdistinct)

/-- Attempts decide nothing but the latest attempt. -/
theorem resolve_attempts (lists : ResolutionLists) (attempts : List DeploymentAttempt) :
    resolve { lists with attempts } =
      { lists.resolve with latestAttempt := latestComparableAttempt attempts } := by
  have hinventory (completeness : Completeness) (inventory : List InventoryItem) :
      (input { lists with attempts }).resolveInventory completeness inventory =
        { lists.input.resolveInventory completeness inventory with
          latestAttempt := latestComparableAttempt attempts } := by
    have hitem : (input { lists with attempts }).resolveItem = lists.input.resolveItem := rfl
    unfold ResolutionInput.resolveInventory
    simp only [hitem]
    split_ifs <;> rfl
  obtain ⟨observation, bindings, snapshots, previous⟩ := lists
  match observation with
  | none => rfl
  | some ⟨_, .unknown _ _⟩ => rfl
  | some ⟨_, .known []⟩ => rfl
  | some ⟨completeness, .known (item :: rest)⟩ => exact hinventory completeness (item :: rest)

/-! ### Views -/

/-- A resolution that shows neither a contract nor its absence. -/
structure ShowsNoContract (resolution : EnvironmentResolution) : Prop where
  contract : resolution.contract ≠ .resolved
  snapshotId : resolution.snapshotId = none
  deployed : resolution.deployment ≠ .deployed
  absent : resolution.deployment ≠ .confirmedNotDeployed

theorem showsNoContract_safe :
    ShowsNoContract (input.resolveEnvironment.safe true) := by
  unfold EnvironmentResolution.safe
  split_ifs with h
  · exact ⟨nofun, rfl, nofun, nofun⟩
  · simp only [Bool.true_and, Bool.or_eq_true, beq_iff_eq, not_or] at h
    refine ⟨fun hcontract => h.1 (deployed_of_resolved (.inl hcontract)).1, ?_, h.1, h.2⟩
    cases hsnapshot : input.resolveEnvironment.snapshotId with
    | none => rfl
    | some snapshotId => exact absurd (deployed_of_resolved (.inr (isSome_of_eq_some hsnapshot))).1 h.1

theorem exists_viewOf_of_getEnvironment {rows : TenantRows} {hash : InstallationConfig → String}
    {parses : ContractSnapshot → Bool} {principal : Principal} {key : EnvironmentKey}
    {view : EnvironmentView} (h : rows.getEnvironment hash parses principal key = .ok view) :
    ∃ fingerprint observation,
      view = rows.viewOf principal.principalId key fingerprint observation := by
  simp only [TenantRows.getEnvironment, require_bind_eq_ok, orRaise_bind_eq_ok] at h
  obtain ⟨-, -, current, -, document, -, found, -, -, -, h⟩ := h
  obtain ⟨observation, -, h⟩ := bind_eq_ok.mp h
  obtain ⟨-, h⟩ := require_bind_eq_ok.mp h
  exact ⟨_, observation, (pure_eq_ok.mp h).symm⟩

section View

variable {rows : TenantRows} {hash : InstallationConfig → String}
  {parses : ContractSnapshot → Bool} {principal : Principal} {key : EnvironmentKey}
  {view : EnvironmentView} (h : rows.getEnvironment hash parses principal key = .ok view)

include h

theorem showsNoContract_getEnvironment (hrequired : view.reconciliationRequired = true) :
    ShowsNoContract view.toEnvironmentResolution := by
  obtain ⟨fingerprint, observation, rfl⟩ := exists_viewOf_of_getEnvironment h
  simp only [TenantRows.viewOf] at hrequired ⊢
  rw [hrequired]
  exact showsNoContract_safe _

theorem reconciliationRequired_getEnvironment
    (hrequired : (rows.checkpoints.find? key).any (·.reconciliationRequired) = true) :
    view.reconciliationRequired = true := by
  obtain ⟨fingerprint, observation, rfl⟩ := exists_viewOf_of_getEnvironment h
  simp only [TenantRows.viewOf, hrequired, Bool.true_or]

end View

/-- A snapshot is resolved exactly by its rows; the order of the rows decides nothing but the order
in which artifacts of one id are listed; attempts decide nothing but the latest attempt; and a view
shows no contract while reconciliation is required. -/
theorem resolveEnvironment_exact :
    (∀ (lists : ResolutionLists) (snapshotId : String),
      lists.resolve.snapshotId = some snapshotId ↔ lists.ResolvesTo snapshotId) ∧
    (∀ lists lists' : ResolutionLists, lists.Reorders lists' →
      AgreesUpToOrder lists.resolve lists'.resolve ∧
        (lists.HasDistinctArtifacts → lists.resolve = lists'.resolve)) ∧
    (∀ (lists : ResolutionLists) (attempts : List DeploymentAttempt),
      resolve { lists with attempts } =
        { lists.resolve with latestAttempt := latestComparableAttempt attempts }) ∧
    ∀ (rows : TenantRows) (hash : InstallationConfig → String) (parses : ContractSnapshot → Bool)
      (principal : Principal) (key : EnvironmentKey) (view : EnvironmentView),
      rows.getEnvironment hash parses principal key = .ok view →
        ((rows.checkpoints.find? key).any (·.reconciliationRequired) = true →
          view.reconciliationRequired = true) ∧
        (view.reconciliationRequired = true → ShowsNoContract view.toEnvironmentResolution) :=
  ⟨fun _ _ => snapshotId_eq_some_iff,
    fun _ _ h => ⟨resolve_reorders h, resolve_eq_of_reorders h⟩,
    resolve_attempts,
    fun _ _ _ _ _ _ h => ⟨reconciliationRequired_getEnvironment h,
      showsNoContract_getEnvironment h⟩⟩

/-- An inventory that lists one artifact twice, with two revisions. -/
def sampleTwice (first second : String) : ResolutionLists where
  observation := some ⟨.complete, .known [⟨"image", .known first⟩, ⟨"image", .known second⟩]⟩
  artifactBindings := []
  revisionSnapshots := []
  attempts := []

/-- An artifact that is listed twice is shown in the order of the inventory. -/
theorem resolve_not_orderIndependent :
    ¬∀ lists lists' : ResolutionLists, lists.Reorders lists' → lists.resolve = lists'.resolve := by
  intro h
  have hreorders : (sampleTwice "one" "two").Reorders (sampleTwice "two" "one") :=
    ⟨.some ⟨rfl, .swap _ _ _⟩, .refl _, .refl _, .refl _⟩
  have hactive := congrArg (fun resolution : EnvironmentResolution =>
    resolution.active.map ActiveArtifact.revision) (h _ _ hreorders)
  revert hactive
  decide +kernel

end ResolutionLists

end ApiTruth.Environment
