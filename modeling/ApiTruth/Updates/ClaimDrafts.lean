import ApiTruth.Foundation.Cancellation
import ApiTruth.Updates.CanonicalConditions

/-!
# Differences of claims

The claims of two snapshots are compared owner by owner.  The members of an owner are split into
partitions with one value and one verification.  In a partition, equal conditions cancel, then
unconditional members are matched with conditional ones, then conditional members with one another,
and what is left over is reported as claims that were added, removed or changed.

## Main definitions

* `ClaimMember`, `ClaimOwner`, `ClaimPartition` : what is compared.
* `buildClaimPartitions`, `cancelEqualConditions`, `Matching.ofPartitions` : the matching.
* `Matching.drafts`, `groupDrafts`, `addClaimDrafts` : the differences.
-/

namespace ApiTruth.Updates

open Json ApiTruth.Ir

/-! ### Members and owners -/

/-- `ClaimMemberProjection`, and with a condition also `ClaimConditionAssignment`. -/
structure ClaimMember where
  value : Json
  verification : Verification
  condition : Option Condition
deriving DecidableEq

namespace ClaimMember

def toJson (member : ClaimMember) : Json :=
  .obj ([("value", member.value), ("verification", .str member.verification.name)] ++
    optionalMember "condition" Condition.toJson member.condition)

/-- The text that members are compared by. -/
def key (member : ClaimMember) : String := member.toJson.canonicalJson

end ClaimMember

def claimMemberProjection (value : Json) (verification : Verification)
    (condition : Option Condition) : ClaimMember :=
  ⟨canon value, verification, condition.map canonicalCondition⟩

def claimMember (claim : Claim) : ClaimMember :=
  claimMemberProjection claim.value claim.verification claim.condition

/-- `canonicalClaimMembers` and `canonicalAssignments`. -/
def canonicalClaimMembers (members : List ClaimMember) : List ClaimMember :=
  uniqueSorted ClaimMember.key members

structure ClaimOwner where
  serviceId : String
  endpointId : Option String
  schemaPointer : Option String
  predicate : String
deriving DecidableEq

def claimOwner (claim : Claim) : ClaimOwner :=
  ⟨claim.subject.serviceId, claim.subject.endpointId, claim.subject.schemaPointer, claim.predicate⟩

/-- A string, or `null`. -/
def nullable (value : Option String) : Json := value.elim .null .str

/-- The text of an owner. -/
def ClaimOwner.key (owner : ClaimOwner) : String :=
  (Json.arr [.str owner.serviceId, nullable owner.endpointId, nullable owner.schemaPointer,
    .str owner.predicate]).canonicalJson

def claimOwnerKey (claim : Claim) : String := (claimOwner claim).key

def partitionKey (value : Json) (verification : Verification) : String :=
  (Json.obj [("value", value), ("verification", .str verification.name)]).canonicalJson

def claimPartitionKey (claim : Claim) : String := partitionKey claim.value claim.verification

/-! ### Matching -/

structure ClaimPartition where
  value : Json
  verification : Verification
  members : List (Option Condition)

/-- The text of a condition, or of `null`. -/
def optionalConditionKey (condition : Option Condition) : String :=
  (condition.elim .null Condition.toJson).canonicalJson

def conditionAssignment (partition : ClaimPartition) (condition : Condition) : ClaimMember :=
  ⟨canon partition.value, partition.verification, some (canonicalCondition condition)⟩

def addToPartition (partitions : OrderedMap String ClaimPartition) (candidate : Claim) :
    OrderedMap String ClaimPartition :=
  let partition := (partitions.get? (claimPartitionKey candidate)).getD
    ⟨canon candidate.value, candidate.verification, []⟩
  partitions.set (claimPartitionKey candidate)
    { partition with members := partition.members ++ [candidate.condition.map canonicalCondition] }

def sortConditions (members : List (Option Condition)) : List (Option Condition) :=
  members.insertionSort fun left right => optionalConditionKey left ≤ optionalConditionKey right

def buildClaimPartitions (claims : List Claim) : OrderedMap String ClaimPartition :=
  (claims.foldl addToPartition .empty).mapValues fun _ partition =>
    { partition with members := sortConditions partition.members }

def cancelEqualConditions (before after : List (Option Condition)) :
    List (Option Condition) × List (Option Condition) :=
  cancelEqual optionalConditionKey before after

/-- What the members of a partition are matched to, and what is left over. -/
structure Matching where
  addedAssignments : List ClaimMember := []
  removedAssignments : List ClaimMember := []
  changedBeforeAssignments : List ClaimMember := []
  changedAfterAssignments : List ClaimMember := []
  remainingBefore : List ClaimMember := []
  remainingAfter : List ClaimMember := []

namespace Matching

/-- Two matchings one after the other. -/
def append (first second : Matching) : Matching where
  addedAssignments := first.addedAssignments ++ second.addedAssignments
  removedAssignments := first.removedAssignments ++ second.removedAssignments
  changedBeforeAssignments := first.changedBeforeAssignments ++ second.changedBeforeAssignments
  changedAfterAssignments := first.changedAfterAssignments ++ second.changedAfterAssignments
  remainingBefore := first.remainingBefore ++ second.remainingBefore
  remainingAfter := first.remainingAfter ++ second.remainingAfter

def ofConditions (partition : ClaimPartition) (before after : List (Option Condition)) :
    Matching :=
  let cancelled := cancelEqualConditions before after
  let baseNulls := cancelled.1.filter Option.isNone
  let baseConditions := cancelled.1.filterMap id
  let targetNulls := cancelled.2.filter Option.isNone
  let targetConditions := cancelled.2.filterMap id
  let addedCount := min baseNulls.length targetConditions.length
  let removedCount := min baseConditions.length targetNulls.length
  let baseConditions' := baseConditions.drop removedCount
  let targetConditions' := targetConditions.drop addedCount
  let changedCount := min baseConditions'.length targetConditions'.length
  let projection := claimMemberProjection partition.value partition.verification
  { addedAssignments := (targetConditions.take addedCount).map (conditionAssignment partition)
    removedAssignments := (baseConditions.take removedCount).map (conditionAssignment partition)
    changedBeforeAssignments :=
      (baseConditions'.take changedCount).map (conditionAssignment partition)
    changedAfterAssignments :=
      (targetConditions'.take changedCount).map (conditionAssignment partition)
    remainingBefore := (baseNulls.drop addedCount).map (fun _ => projection none) ++
      (baseConditions'.drop changedCount).map fun condition => projection (some condition)
    remainingAfter := (targetNulls.drop removedCount).map (fun _ => projection none) ++
      (targetConditions'.drop changedCount).map fun condition => projection (some condition) }

/-- The matching of the partitions under one key. -/
def ofPartitions (basePartition targetPartition : Option ClaimPartition) : Matching :=
  match basePartition <|> targetPartition with
  | none => {}
  | some partition => ofConditions partition ((basePartition.map ClaimPartition.members).getD [])
      ((targetPartition.map ClaimPartition.members).getD [])

def ofClaims (oldClaims newClaims : List Claim) : Matching :=
  let basePartitions := buildClaimPartitions oldClaims
  let targetPartitions := buildClaimPartitions newClaims
  (canonicalStrings (basePartitions.keys ++ targetPartitions.keys)).foldl (fun matching key =>
    matching.append (ofPartitions (basePartitions.get? key) (targetPartitions.get? key))) {}

end Matching

/-! ### Differences -/

inductive ClaimDifferenceKind
  | claimAdded
  | claimRemoved
  | claimChanged
  | conditionAdded
  | conditionRemoved
  | conditionChanged
  | factAbsenceUnconfirmed
deriving DecidableEq, Repr

inductive CompatibilityLabel
  | nonBreaking
  | potentiallyBreaking
  | unknown
deriving DecidableEq, Repr

/-- `DifferenceSubject`, of a claim or a group of conditions. -/
structure DifferenceSubject where
  serviceId : String
  endpointId : Option String
  factKind : String
  factKey : String
deriving DecidableEq

structure DifferenceDraft where
  kind : ClaimDifferenceKind
  compatibility : CompatibilityLabel
  subject : DifferenceSubject
  before : Option (List ClaimMember) := none
  after : Option (List ClaimMember) := none
deriving DecidableEq

def claimSubject (owner : ClaimOwner) : DifferenceSubject where
  serviceId := owner.serviceId
  endpointId := owner.endpointId
  factKind := "claim"
  factKey := (Json.arr [.str "claim", nullable owner.endpointId, nullable owner.schemaPointer,
    .str owner.predicate]).canonicalJson

def conditionSubject (owner : ClaimOwner) : DifferenceSubject where
  serviceId := owner.serviceId
  endpointId := owner.endpointId
  factKind := "condition_group"
  factKey := (Json.arr [.str "condition_group", .str "claim", nullable owner.endpointId,
    nullable owner.schemaPointer, .str owner.predicate]).canonicalJson

/-- The members that say `optional`. -/
def optionalCount (members : List ClaimMember) : ℕ :=
  members.countP fun member => member.value = .str "optional"

/-- A member says `required` or `conditional`. -/
def isRestrictive (member : ClaimMember) : Bool :=
  member.value = .str "required" || member.value = .str "conditional"

def changedClaimCompatibility (owner : ClaimOwner) (before after : List ClaimMember) :
    CompatibilityLabel :=
  if owner.predicate ≠ "request.field.presence" then .unknown
  else if optionalCount after < optionalCount before ∧
      before.countP isRestrictive < after.countP isRestrictive then .potentiallyBreaking
  else match before, after with
    | [oldMember], [newMember] =>
      if oldMember.verification = newMember.verification ∧
          optionalConditionKey oldMember.condition = optionalConditionKey newMember.condition then
        if oldMember.value = .str "optional" ∧ isRestrictive newMember then .potentiallyBreaking
        else if isRestrictive oldMember ∧ newMember.value = .str "optional" then .nonBreaking
        else .unknown
      else .unknown
    | _, _ => .unknown

/-- The kind of a removal: nothing is known to be removed where the target is incomplete. -/
def removalKind (incomplete : Bool) : ClaimDifferenceKind :=
  if incomplete then .factAbsenceUnconfirmed else .claimRemoved

namespace Matching

def conditionDrafts (owner : ClaimOwner) (matching : Matching) : List DifferenceDraft :=
  let groupedAdded := canonicalClaimMembers matching.addedAssignments
  let groupedRemoved := canonicalClaimMembers matching.removedAssignments
  let groupedChangedBefore := canonicalClaimMembers matching.changedBeforeAssignments
  let groupedChangedAfter := canonicalClaimMembers matching.changedAfterAssignments
  let groupedSubject := conditionSubject owner
  (if groupedAdded.length > 0 then
    [⟨.conditionAdded, .potentiallyBreaking, groupedSubject, some [], some groupedAdded⟩]
  else []) ++
  (if groupedRemoved.length > 0 then
    [⟨.conditionRemoved, .unknown, groupedSubject, some groupedRemoved, some []⟩]
  else []) ++
  (if groupedChangedBefore.length > 0 then
    [⟨.conditionChanged, .potentiallyBreaking, groupedSubject, some groupedChangedBefore,
      some groupedChangedAfter⟩]
  else [])

def claimDrafts (incomplete : Bool) (owner : ClaimOwner) (matching : Matching) :
    List DifferenceDraft :=
  let subject := claimSubject owner
  let oldProjection := canonicalClaimMembers matching.remainingBefore
  let newProjection := canonicalClaimMembers matching.remainingAfter
  if oldProjection.length = 0 ∧ newProjection.length > 0 then
    [⟨.claimAdded, .unknown, subject, none, some newProjection⟩]
  else if oldProjection.length > 0 ∧ newProjection.length = 0 then
    [⟨removalKind incomplete, .unknown, subject, some oldProjection, none⟩]
  else if oldProjection.length > 0 ∧ newProjection.length > 0 then
    [⟨.claimChanged, changedClaimCompatibility owner matching.remainingBefore
      matching.remainingAfter, subject, some oldProjection, some newProjection⟩]
  else []

/-- The differences that a matching is reported as. -/
def drafts (incomplete : Bool) (owner : ClaimOwner) (matching : Matching) : List DifferenceDraft :=
  conditionDrafts owner matching ++ claimDrafts incomplete owner matching

end Matching

def projectClaimGroup (claims : List Claim) : List ClaimMember :=
  canonicalClaimMembers (claims.map claimMember)

/-- The differences of two groups of claims, as far as there are claims in one of them. -/
def groupDrafts (incomplete : Bool) (oldClaims newClaims : List Claim) : List DifferenceDraft :=
  match oldClaims.head? <|> newClaims.head? with
  | none => []
  | some sample =>
    if oldClaims.length = 0 then
      [⟨.claimAdded, .unknown, claimSubject (claimOwner sample), none,
        some (projectClaimGroup newClaims)⟩]
    else if newClaims.length = 0 then
      [⟨removalKind incomplete, .unknown, claimSubject (claimOwner sample),
        some (projectClaimGroup oldClaims), none⟩]
    else (Matching.ofClaims oldClaims newClaims).drafts incomplete (claimOwner sample)

def routeIdentityKey (endpoint : Endpoint) : String :=
  (Json.obj [("route_key", .str endpoint.identity.routeKey),
    ("service_id", .str endpoint.identity.serviceId), ("method", .str endpoint.identity.method),
    ("normalized_path_shape", .str endpoint.identity.normalizedPathShape),
    ("selectors", endpoint.identity.selectors.toJson)]).canonicalJson

/-- The endpoints by their identifiers; of several with one identifier the last counts. -/
def endpointsById (snapshot : ContractSnapshot) : OrderedMap String Endpoint :=
  .ofEntries (snapshot.endpoints.map fun endpoint => (endpoint.endpointId, endpoint))

/-- An endpoint of both snapshots whose route changed. -/
def isDiscontinuous (base target : ContractSnapshot) (endpointId : Option String) : Bool :=
  match endpointId.bind (endpointsById base).get?, endpointId.bind (endpointsById target).get? with
  | some before, some after => routeIdentityKey before != routeIdentityKey after
  | _, _ => false

/-- The key of the group of a claim: the claims of a discontinuous endpoint are not compared. -/
def groupKey (base target : ContractSnapshot) (side : String) (owner : ClaimOwner) : String :=
  if isDiscontinuous base target owner.endpointId then
    (Json.arr [.str owner.key, .str side]).canonicalJson
  else owner.key

def groupClaims (base target : ContractSnapshot) (side : String) (claims : List Claim) :
    OrderedMap String (List Claim) :=
  .groupBy (fun claim => groupKey base target side (claimOwner claim)) claims

def addClaimDrafts (base target : ContractSnapshot) : List DifferenceDraft :=
  let baseGroups := groupClaims base target "base" base.claims
  let targetGroups := groupClaims base target "target" target.claims
  (canonicalStrings (baseGroups.keys ++ targetGroups.keys)).flatMap fun ownerKey =>
    groupDrafts target.coverage.isIncomplete ((baseGroups.get? ownerKey).getD [])
      ((targetGroups.get? ownerKey).getD [])

end ApiTruth.Updates
