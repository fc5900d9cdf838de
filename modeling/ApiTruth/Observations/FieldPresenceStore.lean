import ApiTruth.Foundation.Checked
import ApiTruth.Foundation.Json.Value
import ApiTruth.Foundation.Patterns

/-!
# The store of field presence results

An owner policy has a head row, immutable revisions, results that expire, and tombstones of the
results that were deleted.  The rules of retention stand in row triggers, in a constraint trigger
that is checked at commit, and in the function that deletes one result; the stores of the owner, the
importer and the maintenance job call them.  A statement is a function of the rows of one policy;
what raises rolls the transaction back.

Imports, their records and the digests of their snapshots are read as `Lineage`.  Times are
microseconds; a timestamp that is not finite is `none`.

## Main definitions

* `insertGuard`, `insertResult` : the trigger of an insertion, and the insertion.
* `insertTombstone`, `deleteResult`, `observationFieldPresenceDelete`, `commitGuard` : deletion.
* `updateHead` : a change of the head row.
* `importObservation`, `cleanup`, `approve`, `disable` : the transactions of the stores.
-/

namespace ApiTruth.Observations

open Checked

/-- An environment of a service, to which imports belong. -/
structure EnvironmentScope where
  tenantId : String
  repositoryId : String
  serviceId : String
  environment : String
deriving DecidableEq, Repr

structure PolicyScope where
  environment : EnvironmentScope
  policyId : String
deriving DecidableEq, Repr

inductive Direction
  | request
  | response (statusCode : ℕ)
deriving DecidableEq, Repr

/-- A row of `observation_field_presence_policy_revisions`, with the checks of its bounds. -/
structure PolicyRevision where
  policyFingerprint : String
  configFingerprint : String
  configActivationCheckpoint : ℕ
  endpointId : String
  direction : Direction
  mediaType : String
  propertyPaths : List String
  ttlSeconds : ℕ
  maxLiveRecords : ℕ
  ownerAccessScopeId : String
  ttl_bounds : 60 ≤ ttlSeconds ∧ ttlSeconds ≤ 2592000
  max_bounds : 1 ≤ maxLiveRecords ∧ maxLiveRecords ≤ 10000
deriving DecidableEq

/-- A row of `observation_field_presence_policy_heads`. -/
structure PolicyHead where
  currentOwnerPolicyRevision : ℕ
  currentPolicyFingerprint : String
  enabled : Bool
deriving DecidableEq, Repr

structure ResultKey where
  ownerPolicyRevision : ℕ
  importId : String
  recordId : String
deriving DecidableEq, Repr

/-- A row of `observation_field_presence_results`. -/
structure PresenceResult where
  key : ResultKey
  policyFingerprint : String
  sourceDigest : String
  presenceFields : Json
  sourceWindowEnd : ℤ
  expiresAt : ℤ
  createdAt : ℤ

inductive TombstoneReason
  | deleted
  | expired
deriving DecidableEq, Repr

/-- A row of `observation_field_presence_tombstones`. -/
structure Tombstone where
  key : ResultKey
  reason : TombstoneReason
  deletedAt : ℤ
deriving DecidableEq, Repr

/-- A row of `observation_imports`. -/
structure ObservationImport where
  snapshotId : String
  revision : String
  configFingerprint : String
  windowStart : Option ℤ
  windowEnd : Option ℤ
  importedAt : Option ℤ
deriving DecidableEq, Repr

/-- A row of `observation_records`: a confirmed record has its endpoint and status code. -/
inductive ObservationRecord
  | confirmed (endpointId : String) (statusCode : ℕ)
  | unresolved
deriving DecidableEq, Repr

/-- The immutable rows that a result descends from: records by import and record, imports, and the
source digests of catalog snapshots by snapshot, revision and configuration. -/
structure Lineage where
  records : String → String → Option ObservationRecord
  imports : String → Option ObservationImport
  sourceDigests : String → String → String → Option String

structure PolicyState where
  head : Option PolicyHead
  revisions : List (ℕ × PolicyRevision)
  results : List PresenceResult
  tombstones : List Tombstone

/-- A raised exception, with its message, or a violated constraint. -/
inductive SqlError
  | raised (message : String)
  | noDataFound
  | violated (constraint : String)
deriving DecidableEq, Repr

namespace PolicyState

variable (s : PolicyState)

def empty : PolicyState := ⟨none, [], [], []⟩

def findResult (key : ResultKey) : Option PresenceResult :=
  s.results.find? fun row => decide (row.key = key)

def findTombstone (key : ResultKey) : Option Tombstone :=
  s.tombstones.find? fun row => decide (row.key = key)

/-- The results that have not expired, of every revision. -/
def liveCount (now : ℤ) : ℕ := s.results.countP fun row => decide (now < row.expiresAt)

end PolicyState

/-- The values of an insertion; the store leaves the two times to the trigger. -/
structure NewResult where
  key : ResultKey
  policyFingerprint : String
  sourceDigest : String
  presenceFields : Json
  sourceWindowEnd : Option ℤ
  expiresAt : Option ℤ

/-- `policy.direction='response' AND parent.status_code<>policy.status_code`, negated. -/
def Direction.admits (direction : Direction) (statusCode : ℕ) : Bool :=
  match direction with
  | .request => true
  | .response selected => statusCode == selected

/-- A presence state names a path and says `present` or `absent`. -/
def presencePath? : Json → Option String
  | .obj members =>
    match members.lookup "path", members.lookup "state" with
    | some (.str path), some (.str state) =>
      if members.length = 2 ∧ state ∈ ["present", "absent"] then some path else none
    | _, _ => none
  | _ => none

/-- The checks of the presence fields against the selected paths. -/
def checkPresenceFields (policy : PolicyRevision) (presenceFields : Json) :
    Except SqlError Unit :=
  match presenceFields with
  | .arr items => do
    require (items.length = policy.propertyPaths.length) (.raised "invalid field presence states")
    let paths ← orRaise (items.mapM presencePath?) (.raised "invalid field presence states")
    require (paths = policy.propertyPaths) (.raised "invalid field presence paths")
  | _ => .error (.raised "invalid field presence states")

/-- The lineage checks of an insertion; the end of the source window is finite. -/
def checkLineage (lineage : Lineage) (policy : PolicyRevision) (new : NewResult) (now : ℤ) :
    Except SqlError ℤ := do
  let parent ← orRaise (lineage.records new.key.importId new.key.recordId)
    (.raised "invalid field presence parent")
  match parent with
  | .unresolved => .error (.raised "invalid field presence parent")
  | .confirmed endpointId statusCode => do
    require (endpointId = policy.endpointId ∧ policy.direction.admits statusCode = true)
      (.raised "invalid field presence parent")
    let imported ← orRaise (lineage.imports new.key.importId) .noDataFound
    match imported.windowStart, imported.windowEnd, imported.importedAt with
    | some _, some windowEnd, some importedAt => do
      require (imported.configFingerprint = policy.configFingerprint ∧
        lineage.sourceDigests imported.snapshotId imported.revision imported.configFingerprint =
          some new.sourceDigest ∧ windowEnd ≤ importedAt ∧ windowEnd ≤ now)
        (.raised "invalid field presence lineage")
      return windowEnd
    | _, _, _ => .error (.raised "invalid field presence lineage")

/-- `make_interval(secs => ttl_seconds)`. -/
def PolicyRevision.ttl (policy : PolicyRevision) : ℤ := policy.ttlSeconds * 1000000

/-- `observation_field_presence_insert_guard`: the row that is to be inserted. -/
def insertGuard (lineage : Lineage) (now : ℤ) (s : PolicyState) (new : NewResult) :
    Except SqlError PresenceResult := do
  require (new.expiresAt = none ∧ new.sourceWindowEnd = none)
    (.raised "invalid field presence insertion")
  let head ← orRaise s.head (.raised "inactive field presence policy")
  require (head.enabled = true ∧
    head.currentOwnerPolicyRevision = new.key.ownerPolicyRevision ∧
    head.currentPolicyFingerprint = new.policyFingerprint)
    (.raised "inactive field presence policy")
  let policy ← orRaise (s.revisions.lookup new.key.ownerPolicyRevision) .noDataFound
  require (s.findTombstone new.key = none) (.raised "deleted field presence generation")
  let windowEnd ← checkLineage lineage policy new now
  require (now < windowEnd + policy.ttl) (.raised "expired field presence window")
  checkPresenceFields policy new.presenceFields
  match s.findResult new.key with
  | some existing =>
    require (Json.canon existing.presenceFields = Json.canon new.presenceFields ∧
      existing.sourceDigest = new.sourceDigest ∧
      existing.policyFingerprint = new.policyFingerprint ∧
      existing.expiresAt = windowEnd + policy.ttl) (.raised "conflicting field presence replay")
  | none =>
    -- The results of hidden generations count until they are removed.
    require (s.liveCount now < policy.maxLiveRecords)
      (.raised "field presence budget exhausted")
  return {
    key := new.key
    policyFingerprint := new.policyFingerprint
    sourceDigest := new.sourceDigest
    presenceFields := new.presenceFields
    sourceWindowEnd := windowEnd
    expiresAt := windowEnd + policy.ttl
    createdAt := now }

/-- `INSERT … ON CONFLICT DO NOTHING RETURNING 1`: whether a row was inserted. -/
def insertResult (lineage : Lineage) (now : ℤ) (s : PolicyState) (new : NewResult) :
    Except SqlError (PolicyState × Bool) := do
  let row ← insertGuard lineage now s new
  require (isSha256 row.sourceDigest = true ∧ row.sourceWindowEnd < row.expiresAt ∧
    row.createdAt < row.expiresAt) (.violated "observation_field_presence_results_check")
  match s.findResult new.key with
  | some _ => return (s, false)
  | none => return ({ s with results := s.results ++ [row] }, true)

/-- An insertion of a tombstone with its trigger, `ON CONFLICT DO NOTHING`. -/
def insertTombstone (now : ℤ) (s : PolicyState) (key : ResultKey) : Except SqlError PolicyState := do
  require (s.head.isSome = true) (.raised "invalid field presence tombstone")
  let result ← orRaise (s.findResult key)
    (.raised "field presence tombstone requires existing result")
  match s.findTombstone key with
  | some _ => return s
  | none => return { s with tombstones := s.tombstones ++ [{
      key
      reason := if result.expiresAt ≤ now then .expired else .deleted
      deletedAt := now }] }

/-- The tombstone of the key, selected from the results: without a result none is inserted. -/
def insertTombstones (now : ℤ) (s : PolicyState) (key : ResultKey) : Except SqlError PolicyState :=
  match s.findResult key with
  | some _ => insertTombstone now s key
  | none => .ok s

/-- `DELETE FROM observation_field_presence_results` by key, with its trigger: whether a row was
removed. -/
def deleteResult (s : PolicyState) (key : ResultKey) : Except SqlError (PolicyState × Bool) :=
  match s.findResult key with
  | none => .ok (s, false)
  | some _ => do
    require (s.findTombstone key ≠ none) (.raised "field presence deletion requires tombstone")
    return ({ s with results := s.results.filter fun row => decide (row.key ≠ key) }, true)

/-- `observation_field_presence_delete`. -/
def observationFieldPresenceDelete (now : ℤ) (s : PolicyState) (key : ResultKey) :
    Except SqlError (PolicyState × Bool) :=
  match s.head with
  | none => .ok (s, false)
  | some _ => do
    let marked ← insertTombstones now s key
    deleteResult marked key

/-- The constraint trigger on the tombstones that a transaction has inserted, at commit. -/
def commitGuard (before after : PolicyState) : Except SqlError Unit :=
  require (∀ row ∈ after.tombstones, row ∉ before.tombstones → after.findResult row.key = none)
    (.raised "field presence tombstone requires completed deletion")

/-- `observation_field_presence_policy_head_guard`, for an update of the head row. -/
def headGuard (old new : PolicyHead) : Except SqlError Unit :=
  require (old.currentOwnerPolicyRevision ≤ new.currentOwnerPolicyRevision ∧
    (new.currentOwnerPolicyRevision = old.currentOwnerPolicyRevision →
      new.currentPolicyFingerprint = old.currentPolicyFingerprint) ∧
    (new.currentOwnerPolicyRevision = old.currentOwnerPolicyRevision →
      old.enabled = false → new.enabled = false))
    (.raised "invalid field presence policy head transition")

/-- `UPDATE observation_field_presence_policy_heads`; the new head must refer to a revision. -/
def updateHead (s : PolicyState) (old new : PolicyHead) : Except SqlError PolicyState := do
  headGuard old new
  require (((s.revisions.lookup new.currentOwnerPolicyRevision).map (·.policyFingerprint)) =
    some new.currentPolicyFingerprint) (.violated "observation_field_presence_policy_heads_fkey")
  return { s with head := some new }

/-- The head row joined with the revision that it refers to. -/
def PolicyState.current? (s : PolicyState) : Option (PolicyHead × PolicyRevision) :=
  match s.head with
  | none => none
  | some head =>
    match s.revisions.lookup head.currentOwnerPolicyRevision with
    | none => none
    | some revision =>
      if revision.policyFingerprint = head.currentPolicyFingerprint then some (head, revision)
      else none

/-! ### The transactions of the stores -/

/-- The error codes of the stores, below the prefix of each of them. -/
inductive RetentionError
  | unauthorized
  | stale
  | conflict
  | unsupported
  | invalidRequest
  | parentInvalid
  | storageError
deriving DecidableEq, Repr

inductive RetentionOutcome
  | inserted
  | existing
  | removed (count : ℕ)
  | approved
  | disabled
deriving DecidableEq, Repr

/-- A database error that a store does not recognise. -/
def orStorageError {α : Type} : Except SqlError α → Except RetentionError α
  | .ok a => .ok a
  | .error _ => .error .storageError

/-- `policy_fingerprint=$7 AND source_digest=$10 AND presence_fields=$11`. -/
def NewResult.isSame (new : NewResult) (row : PresenceResult) : Bool :=
  decide (row.policyFingerprint = new.policyFingerprint ∧ row.sourceDigest = new.sourceDigest ∧
    Json.canon row.presenceFields = Json.canon new.presenceFields)

/-- The final transaction of `importObservation`.  What it loads, authorises and proposes before the
insertion is `loaded`. -/
def importObservation (lineage : Lineage) (now : ℤ) (loaded : Except RetentionError NewResult)
    (s : PolicyState) : Except RetentionError (PolicyState × RetentionOutcome) := do
  let new ← loaded
  match insertResult lineage now s new with
  | .ok (s', true) => return (s', .inserted)
  | .ok (s', false) =>
    match s'.findResult new.key with
    | some row => if new.isSame row = true then return (s', .existing) else .error .conflict
    | none => .error .conflict
  | .error (.raised _) =>
    -- After the rollback to the savepoint a conflicting replay is told from other refusals.
    match s.findResult new.key with
    | some row => if new.isSame row = true then .error .storageError else .error .conflict
    | none => .error .storageError
  | .error _ => .error .storageError

/-- `result.expires_at, result.owner_policy_revision, result.import_id, result.record_id`. -/
def cleanupOrder (a b : PresenceResult) : Bool :=
  decide (a.expiresAt < b.expiresAt ∨ (a.expiresAt = b.expiresAt ∧
    (a.key.ownerPolicyRevision < b.key.ownerPolicyRevision ∨
      (a.key.ownerPolicyRevision = b.key.ownerPolicyRevision ∧
        (a.key.importId < b.key.importId ∨ (a.key.importId = b.key.importId ∧
          a.key.recordId ≤ b.key.recordId))))))

/-- The results that a cleanup removes: expired, of a disabled policy or of an old generation, and
approved by the same owner.  The clock is read for each row. -/
def cleanupCandidates (s : PolicyState) (head : PolicyHead) (ownerAccessScopeId : String)
    (clock : PresenceResult → ℤ) (limit : ℕ) : List ResultKey :=
  let selected := s.results.filter fun row =>
    (match s.revisions.lookup row.key.ownerPolicyRevision with
      | some revision => decide (revision.policyFingerprint = row.policyFingerprint ∧
          revision.ownerAccessScopeId = ownerAccessScopeId)
      | none => false) &&
    decide (row.expiresAt ≤ clock row ∨ head.enabled = false ∨
      row.key.ownerPolicyRevision ≠ head.currentOwnerPolicyRevision ∨
      row.policyFingerprint ≠ head.currentPolicyFingerprint)
  ((selected.insertionSort fun a b => cleanupOrder a b = true).take limit).map (·.key)

/-- One deletion after the other, with the number of removed rows. -/
def deleteCandidates (now : ℤ) : PolicyState × ℕ → List ResultKey →
    Except SqlError (PolicyState × ℕ)
  | (s, removed), [] => .ok (s, removed)
  | (s, removed), key :: keys => do
    let (s', deleted) ← observationFieldPresenceDelete now s key
    deleteCandidates now (s', if deleted then removed + 1 else removed) keys

def cleanup (now : ℤ) (authorized : Bool) (ownerAccessScopeId : String)
    (clock : PresenceResult → ℤ) (limit : ℤ) (s : PolicyState) :
    Except RetentionError (PolicyState × RetentionOutcome) := do
  require (1 ≤ limit ∧ limit ≤ 100) .invalidRequest
  require (authorized = true) .unauthorized
  let (head, revision) ← orRaise s.current? .unauthorized
  require (revision.ownerAccessScopeId = ownerAccessScopeId) .unauthorized
  let candidates := cleanupCandidates s head ownerAccessScopeId clock limit.toNat
  let (s', removed) ← orStorageError (deleteCandidates now (s, 0) candidates)
  orStorageError (commitGuard s s')
  return (s', .removed removed)

/-- A transaction of one call of `observation_field_presence_delete`. -/
def deleteOne (now : ℤ) (key : ResultKey) (s : PolicyState) :
    Except RetentionError (PolicyState × RetentionOutcome) := do
  let (s', deleted) ← orStorageError (observationFieldPresenceDelete now s key)
  orStorageError (commitGuard s s')
  return (s', .removed (if deleted then 1 else 0))

/-- A compiled policy of a binding: its revision number and the row of that revision, which has the
owner scope of the binding. -/
structure CompiledPolicy where
  ownerPolicyRevision : ℕ
  revision : PolicyRevision

/-- The insertion of a revision, whose number must be new. -/
def insertRevision (s : PolicyState) (policy : CompiledPolicy) : Except SqlError PolicyState := do
  require (0 < policy.ownerPolicyRevision ∧ s.revisions.lookup policy.ownerPolicyRevision = none)
    (.violated "observation_field_presence_policy_revisions_pkey")
  return { s with revisions := s.revisions ++ [(policy.ownerPolicyRevision, policy.revision)] }

/-- The head of an approved policy. -/
def CompiledPolicy.head (policy : CompiledPolicy) : PolicyHead where
  currentOwnerPolicyRevision := policy.ownerPolicyRevision
  currentPolicyFingerprint := policy.revision.policyFingerprint
  enabled := true

/-- `approve`, after its pin, configuration and projection checks, whose outcome is `authorized`. -/
def approve (authorized : Except RetentionError Unit) (policy : CompiledPolicy) (expected : ℕ)
    (s : PolicyState) : Except RetentionError (PolicyState × RetentionOutcome) := do
  authorized
  match s.current? with
  | some (head, revision) => do
    require (revision.ownerAccessScopeId = policy.revision.ownerAccessScopeId) .conflict
    if head = policy.head ∧ expected + 1 = policy.ownerPolicyRevision ∧
        revision = policy.revision then
      return (s, .existing)
    else do
      require (head.currentOwnerPolicyRevision = expected ∧
        policy.ownerPolicyRevision = expected + 1) .conflict
      let s' ← orStorageError (insertRevision s policy)
      let s'' ← orStorageError (updateHead s' head policy.head)
      return (s'', .approved)
  | none => do
    require (s.revisions = [] ∧ expected = 0 ∧ policy.ownerPolicyRevision = 1) .conflict
    let s' ← orStorageError (insertRevision s policy)
    -- The head row has a primary key.
    require (s'.head = none) .storageError
    return ({ s' with head := some policy.head }, .approved)

def disable (authorized : Bool) (ownerAccessScopeId : String) (expected : ℕ) (s : PolicyState) :
    Except RetentionError (PolicyState × RetentionOutcome) := do
  require (authorized = true) .unauthorized
  let (head, revision) ← orRaise s.current? .conflict
  require (revision.ownerAccessScopeId = ownerAccessScopeId ∧
    head.currentOwnerPolicyRevision = expected) .conflict
  if head.enabled = true then do
    let s' ← orStorageError (updateHead s head { head with enabled := false })
    return (s', .disabled)
  else return (s, .disabled)

/-! ### The system -/

inductive RetentionTransaction
  | importObservation (loaded : Except RetentionError NewResult)
  | deleteOne (key : ResultKey)
  | cleanup (authorized : Bool) (ownerAccessScopeId : String) (clock : PresenceResult → ℤ)
      (limit : ℤ)
  | approve (authorized : Except RetentionError Unit) (policy : CompiledPolicy) (expected : ℕ)
  | disable (authorized : Bool) (ownerAccessScopeId : String) (expected : ℕ)

/-- A transaction that runs at a time. -/
def RetentionTransaction.perform (lineage : Lineage) (now : ℤ) (s : PolicyState) :
    RetentionTransaction → Except RetentionError (PolicyState × RetentionOutcome)
  | importObservation loaded => Observations.importObservation lineage now loaded s
  | deleteOne key => Observations.deleteOne now key s
  | cleanup authorized ownerAccessScopeId clock limit =>
    Observations.cleanup now authorized ownerAccessScopeId clock limit s
  | approve authorized policy expected => Observations.approve authorized policy expected s
  | disable authorized ownerAccessScopeId expected =>
    Observations.disable authorized ownerAccessScopeId expected s

/-- The clock, the imported rows of each environment, and the committed rows of each policy. -/
structure RetentionState where
  clock : ℤ
  lineage : EnvironmentScope → Lineage
  policies : PolicyScope → PolicyState

/-- What happens: a transaction commits or is rolled back, time passes, or rows are imported. -/
inductive RetentionAction
  | commit (scope : PolicyScope) (transaction : RetentionTransaction) (outcome : RetentionOutcome)
  | rollback (scope : PolicyScope) (transaction : RetentionTransaction) (error : RetentionError)
  | tick
  | extend

/-- Imports are immutable, so an extension keeps every import that is there. -/
def Lineage.Extends (old new : Lineage) : Prop :=
  ∀ importId imported, old.imports importId = some imported →
    new.imports importId = some imported

/-- One step.  The head row serialises the transactions of a policy. -/
inductive RetentionStep : RetentionState → RetentionAction → RetentionState → Prop
  | commit {s : RetentionState} {scope : PolicyScope} {transaction : RetentionTransaction}
      {after : PolicyState} {outcome : RetentionOutcome}
      (h : transaction.perform (s.lineage scope.environment) s.clock (s.policies scope) =
        .ok (after, outcome)) :
      RetentionStep s (.commit scope transaction outcome)
        { s with policies := Function.update s.policies scope after }
  | rollback {s : RetentionState} {scope : PolicyScope} {transaction : RetentionTransaction}
      {error : RetentionError}
      (h : transaction.perform (s.lineage scope.environment) s.clock (s.policies scope) =
        .error error) :
      RetentionStep s (.rollback scope transaction error) s
  | tick {s : RetentionState} {clock : ℤ} (h : s.clock ≤ clock) :
      RetentionStep s .tick { s with clock }
  | extend {s : RetentionState} {lineage : EnvironmentScope → Lineage}
      (h : ∀ scope, (s.lineage scope).Extends (lineage scope)) :
      RetentionStep s .extend { s with lineage }

def RetentionState.IsInitial (s : RetentionState) : Prop := s.policies = fun _ => .empty

end ApiTruth.Observations
