import ApiTruth.Foundation.Tables
import ApiTruth.Ir.Host
import ApiTruth.Orchestration.Worker

/-!
# The outbox

A transaction that has something to announce stores a row in the outbox of its tenant, and workers
deliver the rows under leases.  A claim first discovers candidates, then takes the configuration
locks of their tenants and reads the rows again; a row that another transaction has locked is
skipped.  The locks of a tenant are held until commit, so that the transactions of one tenant take
effect one after the other, and each tenant has its own latest clock reading.

The dedupe key and the id of a row are both written from the digest of the message's identity, so
that a conflict in one is a conflict in the other.

## Main definitions

* `reduceOutboxState` : the states of a row.
* `OutboxRow`, `OutboxRow.Checks` : a row of `orchestration_outbox` and the checks of the table.
* `OutboxStore.insertOutbox`, `OutboxStore.outboxDiscovery`, `OutboxStore.claimOutbox`,
  `OutboxStore.acknowledgeOutbox`, `OutboxStore.failOutbox`.
-/

namespace ApiTruth.Orchestration

open Checked

/-! ### Rows -/

/-- The errors that the delivery operations raise. -/
inductive OutboxError
  | workerUnauthorized
  | invalidOrchestrationInput
  | outboxLeaseConflict
  | orchestrationStorageError
deriving DecidableEq, Repr

/-- The `state` of an outbox row. -/
inductive OutboxState
  | pending
  | leased
  | retryWait
  | delivered
  | exhausted
deriving DecidableEq, Repr

inductive OutboxTransition
  | lease
  | deliver
  | retry
  | exhaust
deriving DecidableEq, Repr

/-- `reduceOutboxState`: the state after a transition, which leaves alone what is over. -/
def reduceOutboxState (state : OutboxState) (transition : OutboxTransition) :
    Except OutboxError OutboxState :=
  if state = .delivered ∨ state = .exhausted then .ok state
  else if transition = .lease ∧ (state = .pending ∨ state = .retryWait) then .ok .leased
  else if state = .leased ∧ transition = .deliver then .ok .delivered
  else if state = .leased ∧ transition = .retry then .ok .retryWait
  else if state = .leased ∧ transition = .exhaust then .ok .exhausted
  else .error .outboxLeaseConflict

/-- The `message_kind` of the rows that are written. -/
inductive MessageKind
  | eventDisposition
  | configurationActivated
  | jobStateChanged
deriving DecidableEq, Repr

/-- The primary key of `orchestration_outbox`. -/
structure OutboxKey where
  tenantId : String
  outboxId : String
deriving DecidableEq, Repr

/-- A row of `orchestration_outbox`. -/
structure OutboxRow where
  tenantId : String
  outboxId : String
  messageKind : MessageKind
  payload : Json
  state : OutboxState := .pending
  attemptCount : ℕ := 0
  maxAttempts : ℕ
  availableAt : ℕ
  createdAt : ℕ
  lease : Option LeaseColumns := none
  safeLastErrorCode : Option String := none
  deliveredAt : Option ℕ := none

inductive OutboxMessage
  | eventDisposition (eventId disposition : String)
  | configurationActivated (fingerprint serviceId : String)
  | jobStateChanged (jobId state : String)
deriving DecidableEq, Repr

namespace OutboxMessage

/-- The `message_kind` of a message. -/
def kind : OutboxMessage → MessageKind
  | eventDisposition .. => .eventDisposition
  | configurationActivated .. => .configurationActivated
  | jobStateChanged .. => .jobStateChanged

/-- The `payload` of a message. -/
def payload : OutboxMessage → Json
  | eventDisposition eventId disposition =>
    .obj [("eventId", .str eventId), ("disposition", .str disposition)]
  | configurationActivated fingerprint serviceId =>
    .obj [("fingerprint", .str fingerprint), ("serviceId", .str serviceId)]
  | jobStateChanged jobId state => .obj [("jobId", .str jobId), ("state", .str state)]

end OutboxMessage

namespace OutboxRow

variable (row : OutboxRow)

/-- The primary key of the row. -/
def key : OutboxKey := ⟨row.tenantId, row.outboxId⟩

/-- The columns that no update writes. -/
def content : MessageKind × Json × ℕ × ℕ :=
  (row.messageKind, row.payload, row.maxAttempts, row.createdAt)

def Checks : Prop :=
  (∃ members, row.payload = .obj members) ∧ 0 < row.maxAttempts ∧
    row.attemptCount ≤ row.maxAttempts ∧
    (row.state = .leased ↔ row.lease.isSome = true) ∧
    (row.state = .delivered ↔ row.deliveredAt.isSome = true) ∧
    (row.safeLastErrorCode = none ∨ row.state = .retryWait ∨ row.state = .exhausted)

instance : Decidable row.Checks :=
  haveI : Decidable (∃ members, row.payload = .obj members) :=
    match row.payload with
    | .obj members => isTrue ⟨members, rfl⟩
    | .null | .bool _ | .num _ | .str _ | .arr _ =>
      isFalse (by rintro ⟨_, h⟩; exact Json.noConfusion h)
  inferInstanceAs (Decidable (_ ∧ _ ∧ _ ∧ _ ∧ _ ∧ _))

/-- The state of a row whose latest attempt has not delivered it. -/
def stateAfterAttempt : OutboxState :=
  if row.maxAttempts ≤ row.attemptCount then .exhausted else .retryWait

/-- How long the row waits for its next attempt, with the check of `computeRetryDelayMs`. -/
def retryDelay : Except OutboxError ℕ :=
  if row.maxAttempts ≤ row.attemptCount then .ok 0
  else do
    require (1 ≤ row.attemptCount) .invalidOrchestrationInput
    return computeRetryDelayMs row.attemptCount

/-- The row after its lease has run out. -/
def recover (now delay : ℕ) : OutboxRow :=
  { row with state := row.stateAfterAttempt, lease := none, availableAt := now + delay }

/-- The row after a worker has reported that it could not deliver it. -/
def failDelivery (now delay : ℕ) : OutboxRow :=
  { row.recover now delay with safeLastErrorCode := some "OUTBOX_DELIVERY_FAILED" }

def deliver (now : ℕ) : OutboxRow :=
  { row with state := .delivered, lease := none, deliveredAt := some now }

def grant (worker : WorkerIdentity) (token : String) (now : ℕ) : OutboxRow :=
  { row with
    state := .leased
    attemptCount := row.attemptCount + 1
    lease := some ⟨worker.workerId, worker.instanceId, token, now + leaseDurationMs⟩
    safeLastErrorCode := none }

def isExpired (now : ℕ) : Bool :=
  row.state = .leased && row.lease.any fun columns => columns.expiresAt ≤ now

/-- The row waits for an attempt that may be made now. -/
def isDue (now : ℕ) : Bool :=
  (row.state = .pending || row.state = .retryWait) && decide (row.availableAt ≤ now)

/-- `ORDER BY available_at, created_at` and the columns of `names`, which collate by bytes. -/
def isQueuedBefore (names : OutboxRow → List String) (other : OutboxRow) : Bool :=
  decide (row.availableAt < other.availableAt) ||
    (row.availableAt == other.availableAt && (decide (row.createdAt < other.createdAt) ||
      (row.createdAt == other.createdAt &&
        decide ((names row).map Ir.Host.utf8 ≤ (names other).map Ir.Host.utf8))))

end OutboxRow

/-! ### Workers and leases -/

inductive WorkerCapability
  | jobsExecute
  | outboxDeliver
deriving DecidableEq, Repr

structure AuthenticatedWorker where
  identity : WorkerIdentity
  capabilities : List WorkerCapability
deriving DecidableEq, Repr

def requireWorkerCapability (worker : AuthenticatedWorker) (capability : WorkerCapability) :
    Except OutboxError WorkerIdentity := do
  require (capability ∈ worker.capabilities) .workerUnauthorized
  return worker.identity

structure OutboxLease where
  tenantId : String
  outboxId : String
  leaseToken : String
deriving DecidableEq, Repr

def OutboxLease.key (lease : OutboxLease) : OutboxKey := ⟨lease.tenantId, lease.outboxId⟩

/-- What a worker is told about a row that it has leased. -/
structure LeasedOutboxRecord where
  tenantId : String
  outboxId : String
  messageKind : MessageKind
  payload : List (String × String)
  attemptCount : ℕ
  maxAttempts : ℕ
  leaseExpiresAt : ℕ
  lease : OutboxLease

/-- `CANDIDATE_LIMIT`. -/
def candidateLimit : ℕ := 128

/-- `MAX_CLAIM_BATCH`. -/
def maxClaimBatch : ℕ := 32

def parseClaimLimit : Option ℕ → Except OutboxError ℕ
  | none => .ok maxClaimBatch
  | some limit => do
    require (1 ≤ limit ∧ limit ≤ maxClaimBatch) .invalidOrchestrationInput
    return limit

def outboxPayloadKeys : List String :=
  ["eventId", "disposition", "jobId", "state", "serviceId", "repositoryId", "scopeKey",
    "fingerprint"]

def payloadText (member : String × Json) : Except OutboxError (String × String) :=
  match member.2 with
  | .str text => .ok (member.1, text)
  | .null | .bool _ | .num _ | .arr _ | .obj _ => .error .orchestrationStorageError

def outboxPayload : Json → Except OutboxError (List (String × String))
  | .obj members => do
    require (∀ member ∈ members, member.1 ∈ outboxPayloadKeys) .invalidOrchestrationInput
    members.mapM payloadText
  | .null | .bool _ | .num _ | .str _ | .arr _ => .error .invalidOrchestrationInput

/-- What a claim meets at a row: whether the row is locked by another transaction, how long it
takes until the row is tested and until it is written, and the token that is drawn for it. -/
structure RowCircumstances where
  skipped : Bool
  beforeTest : ℕ
  beforeUpdate : ℕ
  token : String

/-! ### The store -/

/-- The rows of the outbox, with the latest clock reading under the lock of each tenant. -/
structure OutboxStore where
  rows : Table OutboxRow.key
  clock : String → ℕ

/-- A claim between its discovery and its locks. -/
structure ClaimBatch where
  worker : WorkerIdentity
  limit : ℕ
  discovered : List OutboxKey

structure ClaimProgress where
  store : OutboxStore
  claimed : List LeasedOutboxRecord

namespace OutboxStore

variable (store : OutboxStore)

/-- Time passes for a tenant. -/
def wait (tenantId : String) (ms : ℕ) : OutboxStore :=
  { store with clock := Function.update store.clock tenantId (store.clock tenantId + ms) }

/-- Write the row of a key; a row that violates a check of the table rolls the transaction back. -/
def write (key : OutboxKey) (f : OutboxRow → OutboxRow) (hf : ∀ row, (f row).key = row.key) :
    Except OutboxError OutboxStore := do
  let rows := store.rows.update key f hf
  require (∀ row ∈ rows.rows, row.Checks) .orchestrationStorageError
  return { store with rows }

/-- `insertOutbox`: the row of a message whose identity has the given digest. -/
def insertOutbox (tenantId digest : String) (message : OutboxMessage)
    (availableAt createdAt : ℕ) : OutboxStore :=
  { store with
    rows := store.rows.insert
      { tenantId
        outboxId := "outbox-" ++ digest
        messageKind := message.kind
        payload := message.payload
        maxAttempts := 8
        availableAt
        createdAt } }

/-- `outboxDiscovery`: the first candidates in the order of the queue, read before any lock. -/
def outboxDiscovery : List OutboxKey :=
  let candidates := store.rows.rows.filter fun row =>
    row.isDue (store.clock row.tenantId) || row.isExpired (store.clock row.tenantId)
  let ordered := candidates.insertionSort fun left right =>
    left.isQueuedBefore (fun row => [row.outboxId]) right = true
  (ordered.take candidateLimit).map OutboxRow.key

/-- The discovered rows that no other transaction has locked, in the order of the queue. -/
def lockedRows (batch : ClaimBatch) (circumstances : OutboxKey → RowCircumstances) :
    List OutboxRow :=
  (store.rows.select batch.discovered fun row => !(circumstances row.key).skipped).insertionSort
    fun left right => left.isQueuedBefore (fun row => [row.tenantId, row.outboxId]) right = true

/-- One locked row of a claim: a lease that has run out is settled, and a row that is due is leased
while the batch has room. -/
def claimRow (batch : ClaimBatch) (circumstances : OutboxKey → RowCircumstances)
    (progress : ClaimProgress) (row : OutboxRow) : Except OutboxError ClaimProgress :=
  let chance := circumstances row.key
  let tested := progress.store.wait row.tenantId chance.beforeTest
  if row.isExpired (tested.clock row.tenantId) then do
    let delay ← row.retryDelay
    let waited := tested.wait row.tenantId chance.beforeUpdate
    let written ← waited.write row.key (·.recover (waited.clock row.tenantId) delay)
      fun _ => rfl
    return { progress with store := written }
  else if progress.claimed.length < batch.limit ∧ row.isDue (tested.clock row.tenantId) = true then do
    let waited := tested.wait row.tenantId chance.beforeUpdate
    let now := waited.clock row.tenantId
    let written ← waited.write row.key (·.grant batch.worker chance.token now) fun _ => rfl
    let payload ← outboxPayload row.payload
    return {
      store := written
      claimed := progress.claimed ++ [{
        tenantId := row.tenantId
        outboxId := row.outboxId
        messageKind := row.messageKind
        payload
        attemptCount := row.attemptCount + 1
        maxAttempts := row.maxAttempts
        leaseExpiresAt := now + leaseDurationMs
        lease := ⟨row.tenantId, row.outboxId, chance.token⟩ }] }
  else .ok { progress with store := tested }

/-- The locked part of `claimOutbox`. -/
def claimOutbox (batch : ClaimBatch) (circumstances : OutboxKey → RowCircumstances) :
    Except OutboxError ClaimProgress :=
  (store.lockedRows batch circumstances).foldlM (claimRow batch circumstances) ⟨store, []⟩

def validateLiveOutboxLease (worker : WorkerIdentity) (lease : OutboxLease) :
    Except OutboxError OutboxRow := do
  let row ← orRaise (store.rows.find? lease.key) .outboxLeaseConflict
  require (row.state = .leased ∧ row.lease.any (fun columns =>
    columns.isHeldBy worker lease.leaseToken
      && store.clock lease.tenantId < columns.expiresAt) = true) .outboxLeaseConflict
  return row

/-- `acknowledgeOutbox`, with the row as it was. -/
def acknowledgeOutbox (workerInput : AuthenticatedWorker) (lease : OutboxLease)
    (beforeUpdate : ℕ) : Except OutboxError (OutboxStore × OutboxRow) := do
  let worker ← requireWorkerCapability workerInput .outboxDeliver
  let row ← store.validateLiveOutboxLease worker lease
  let waited := store.wait lease.tenantId beforeUpdate
  let written ← waited.write lease.key (·.deliver (waited.clock lease.tenantId)) fun _ => rfl
  return (written, row)

/-- `failOutbox`, with the row as it was. -/
def failOutbox (workerInput : AuthenticatedWorker) (lease : OutboxLease) (beforeUpdate : ℕ) :
    Except OutboxError (OutboxStore × OutboxRow) := do
  let worker ← requireWorkerCapability workerInput .outboxDeliver
  let row ← store.validateLiveOutboxLease worker lease
  let delay ← row.retryDelay
  let waited := store.wait lease.tenantId beforeUpdate
  let written ← waited.write lease.key (·.failDelivery (waited.clock lease.tenantId) delay)
    fun _ => rfl
  return (written, row)

end OutboxStore

end ApiTruth.Orchestration
