import ApiTruth.Environment.Ordering
import ApiTruth.Ir.Identity

/-!
# What an environment serves

`resolveEnvironment` combines the current observation of an environment with the bindings of its
artifacts and the snapshots of their revisions.  A contract is resolved only for a complete
observation of one artifact whose revision is bound and has exactly one snapshot.

## Main definitions

* `EnvironmentResolution`, `ResolutionInput.resolveEnvironment` : the resolution and its inputs.
* `latestComparableAttempt` : the latest deployment attempt, if attempts can be ordered.

## Main results

* `ResolutionInput.resolveEnvironment_resolved`, `ResolutionInput.resolveEnvironment_of_found` :
  when a snapshot is served.
-/

namespace ApiTruth.Environment

open Ir List

/-- The `deployment` of a resolution. -/
inductive Deployment
  | unknown
  | confirmedNotDeployed
  | deployed
  | transitional
deriving DecidableEq, Repr

/-- The `contract` of a resolution. -/
inductive Contract
  | unavailable
  | pendingBinding
  | pendingAnalysis
  | resolved
  | ambiguous
deriving DecidableEq, Repr

/-- The `attempt_state` of a deployment attempt. -/
inductive AttemptState
  | pending
  | succeeded
  | failed
  | rollbackRequested
  | rolledBack
deriving DecidableEq, Repr

/-- The latest deployment attempt of a resolution. -/
structure Attempt where
  deploymentId : String
  state : AttemptState
deriving DecidableEq, Repr

/-- The columns of `environment_deployment_attempts` that order attempts. -/
structure DeploymentAttempt where
  producerId : String
  deploymentId : String
  attemptState : AttemptState
  effectiveOrder : String
deriving DecidableEq, Repr

/-- The latest attempt, if one producer made all of them, their orders are canonical and the
greatest order is not shared. -/
def latestComparableAttempt (rows : List DeploymentAttempt) : Option Attempt :=
  if rows.any fun row => !canonicalDecimal row.effectiveOrder
      || some row.producerId != rows.head?.map DeploymentAttempt.producerId then none
  else
    match rows.insertionSort (compareDecimal ·.effectiveOrder ·.effectiveOrder ≠ .newer) with
    | [] => none
    | [only] => some ⟨only.deploymentId, only.attemptState⟩
    | latest :: next :: _ =>
      if next.effectiveOrder = latest.effectiveOrder then none
      else some ⟨latest.deploymentId, latest.attemptState⟩

structure ServingReport where
  completeness : Completeness
  servingState : ServingState
deriving DecidableEq, Repr

/-- A row of `environment_artifact_bindings` of one service. -/
structure ArtifactBinding where
  artifactId : String
  revision : String
deriving DecidableEq, Repr

/-- A stored snapshot of a revision of one service. -/
structure SnapshotOfRevision where
  revision : String
  snapshotId : String
deriving DecidableEq, Repr

/-- The input of `resolveEnvironment`. -/
structure ResolutionInput where
  observation : Option ServingReport
  latestAttempt : Option Attempt
  artifactBindings : List ArtifactBinding
  revisionSnapshots : List SnapshotOfRevision

/-- An artifact of a resolution, with what is known about it. -/
structure ActiveArtifact where
  artifactId : String
  revision : Option String := none
  snapshotId : Option String := none
deriving DecidableEq, Repr

/-- The result of `resolveEnvironment`. -/
structure EnvironmentResolution where
  deployment : Deployment
  contract : Contract
  active : List ActiveArtifact
  latestAttempt : Option Attempt
  snapshotId : Option String := none
deriving DecidableEq, Repr

inductive ItemResolution
  | missingBinding (revision : Option String)
  | missingAnalysis (revision : String)
  | found (revision snapshotId : String)
deriving DecidableEq, Repr

namespace ItemResolution

/-- The artifact as a resolution lists it. -/
def active (artifactId : String) : ItemResolution → ActiveArtifact
  | missingBinding revision => { artifactId, revision }
  | missingAnalysis revision => { artifactId, revision := some revision }
  | found revision snapshotId =>
    { artifactId, revision := some revision, snapshotId := some snapshotId }

/-- The artifact sets the flag `missingBinding`. -/
def isMissingBinding : ItemResolution → Bool
  | missingBinding _ => true
  | _ => false

/-- The artifact sets the flag `missingAnalysis`. -/
def isMissingAnalysis : ItemResolution → Bool
  | missingAnalysis _ => true
  | _ => false

end ItemResolution

namespace ResolutionInput

variable (input : ResolutionInput)

def resolveRevision (revision : String) : ItemResolution :=
  match input.revisionSnapshots.filter (·.revision == revision) with
  | [snapshot] => .found revision snapshot.snapshotId
  | _ => .missingAnalysis revision

/-- A served artifact: its revision must be known and be the one the artifact is bound to. -/
def resolveItem (item : InventoryItem) : ItemResolution :=
  match item.revision with
  | .unknown _ => .missingBinding none
  | .known revision =>
    match input.artifactBindings.filter (·.artifactId == item.artifactId) with
    | [binding] =>
      if binding.revision = revision then input.resolveRevision revision
      else .missingBinding (some revision)
    | _ => .missingBinding (some revision)

def unavailable (deployment : Deployment) : EnvironmentResolution where
  deployment := deployment
  contract := .unavailable
  active := []
  latestAttempt := input.latestAttempt

/-- The resolution of an inventory that is not empty. -/
def resolveInventory (completeness : Completeness) (inventory : List InventoryItem) :
    EnvironmentResolution :=
  let items := inventory.map fun item => (item.artifactId, input.resolveItem item)
  let active := (items.map fun (artifactId, item) => item.active artifactId).insertionSort
    (utf16 ·.artifactId ≤ utf16 ·.artifactId)
  if completeness ≠ .complete ∨ active.length ≠ 1 then
    { deployment := .transitional, contract := .ambiguous, active,
      latestAttempt := input.latestAttempt }
  else
    let contract := if items.any (·.2.isMissingBinding) then .pendingBinding
      else if items.any (·.2.isMissingAnalysis) then .pendingAnalysis else .resolved
    { deployment := .deployed, contract, active, latestAttempt := input.latestAttempt,
      snapshotId := if contract = .resolved then active.head?.bind ActiveArtifact.snapshotId
        else none }

def resolveEnvironment : EnvironmentResolution :=
  match input.observation with
  | none => input.unavailable .unknown
  | some ⟨_, .unknown _ _⟩ => input.unavailable .unknown
  | some ⟨completeness, .known []⟩ =>
    input.unavailable (if completeness = .complete then .confirmedNotDeployed else .unknown)
  | some ⟨completeness, .known (item :: rest)⟩ => input.resolveInventory completeness (item :: rest)

def served (artifactId revision snapshotId : String) : EnvironmentResolution where
  deployment := .deployed
  contract := .resolved
  active := [{ artifactId, revision := some revision, snapshotId := some snapshotId }]
  latestAttempt := input.latestAttempt
  snapshotId := some snapshotId

variable {input}

theorem resolveRevision_eq_found_iff {revision revision' snapshotId : String} :
    input.resolveRevision revision = .found revision' snapshotId ↔
      revision = revision' ∧
        input.revisionSnapshots.filter (·.revision == revision) = [⟨revision, snapshotId⟩] := by
  unfold resolveRevision
  split
  · next snapshot hfilter =>
    have hmem : snapshot ∈ input.revisionSnapshots.filter (·.revision == revision) := by
      rw [hfilter]
      exact mem_singleton_self snapshot
    have hrevision : snapshot.revision = revision := by simpa using of_mem_filter hmem
    obtain ⟨_, id⟩ := snapshot
    obtain rfl := hrevision
    simp [hfilter]
  · next hnot =>
    simp only [reduceCtorEq, false_iff, not_and]
    intro _ hfilter
    exact hnot _ hfilter

variable {revision snapshotId : String} {item : InventoryItem}

theorem resolveItem_eq_found_iff :
    input.resolveItem item = .found revision snapshotId ↔
      item.revision = .known revision ∧
      input.artifactBindings.filter (·.artifactId == item.artifactId) =
        [⟨item.artifactId, revision⟩] ∧
      input.revisionSnapshots.filter (·.revision == revision) = [⟨revision, snapshotId⟩] := by
  obtain ⟨artifactId, _ | _⟩ := item
  case unknown => simp [resolveItem]
  case known served =>
    simp only [resolveItem, Revision.known.injEq]
    split
    · next binding hfilter =>
      have hmem : binding ∈ input.artifactBindings.filter (·.artifactId == artifactId) := by
        rw [hfilter]
        exact mem_singleton_self binding
      have hartifact : binding.artifactId = artifactId := by simpa using of_mem_filter hmem
      obtain ⟨_, bound⟩ := binding
      obtain rfl := hartifact
      by_cases hbound : bound = served
      · obtain rfl := hbound
        rw [if_pos rfl, resolveRevision_eq_found_iff, hfilter]
        constructor
        · rintro ⟨rfl, hsnapshots⟩
          exact ⟨rfl, rfl, hsnapshots⟩
        · rintro ⟨rfl, -, hsnapshots⟩
          exact ⟨rfl, hsnapshots⟩
      · rw [if_neg hbound, hfilter]
        simp only [reduceCtorEq, false_iff, not_and]
        rintro rfl hbinding
        exact absurd (by simpa using hbinding) hbound
    · next hnot =>
      simp only [reduceCtorEq, false_iff, not_and]
      rintro - hfilter
      exact absurd hfilter (hnot _)

/-- An inventory resolves to a contract only when it is complete and its one artifact does. -/
theorem resolveInventory_resolved {completeness : Completeness} {inventory : List InventoryItem}
    (hdeployed : (input.resolveInventory completeness inventory).deployment = .deployed)
    (hresolved : (input.resolveInventory completeness inventory).contract = .resolved) :
    completeness = .complete ∧ ∃ item revision snapshotId, inventory = [item] ∧
      input.resolveItem item = .found revision snapshotId := by
  by_cases hsingle : inventory.length = 1
  case neg => simp [resolveInventory, hsingle] at hdeployed
  obtain ⟨item, rfl⟩ := length_eq_one_iff.mp hsingle
  by_cases hcomplete : completeness = .complete
  case neg => simp [resolveInventory, hcomplete] at hdeployed
  refine ⟨hcomplete, item, ?_⟩
  simp only [resolveInventory, hcomplete] at hresolved
  cases hitem : input.resolveItem item with
  | missingBinding revision => simp [ItemResolution.isMissingBinding, hitem] at hresolved
  | missingAnalysis revision =>
    simp [ItemResolution.isMissingBinding, ItemResolution.isMissingAnalysis, hitem] at hresolved
  | found revision snapshotId => exact ⟨revision, snapshotId, rfl, rfl⟩

theorem resolveEnvironment_resolved (hdeployed : input.resolveEnvironment.deployment = .deployed)
    (hresolved : input.resolveEnvironment.contract = .resolved) :
    ∃ item revision snapshotId, input.observation = some ⟨.complete, .known [item]⟩ ∧
      input.resolveItem item = .found revision snapshotId := by
  unfold resolveEnvironment at hdeployed hresolved
  match hobservation : input.observation with
  | none => simp [hobservation, unavailable] at hresolved
  | some ⟨_, .unknown _ _⟩ => simp [hobservation, unavailable] at hresolved
  | some ⟨_, .known []⟩ => simp [hobservation, unavailable] at hresolved
  | some ⟨completeness, .known (item :: rest)⟩ =>
    simp only [hobservation] at hdeployed hresolved
    obtain ⟨hcomplete, found, revision, snapshotId, hinventory, hfound⟩ :=
      resolveInventory_resolved hdeployed hresolved
    exact ⟨found, revision, snapshotId, by rw [hcomplete, hinventory], hfound⟩

theorem resolveEnvironment_of_found
    (hobservation : input.observation = some ⟨.complete, .known [item]⟩)
    (hfound : input.resolveItem item = .found revision snapshotId) :
    input.resolveEnvironment = input.served item.artifactId revision snapshotId := by
  simp [resolveEnvironment, hobservation, resolveInventory, served, hfound,
    ItemResolution.active, ItemResolution.isMissingBinding, ItemResolution.isMissingAnalysis]

end ResolutionInput

end ApiTruth.Environment
