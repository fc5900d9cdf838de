import ApiTruth.Environment.Ordering
import Mathlib.Logic.Function.Basic

/-!
# The serving checkpoint of one environment

The environment repository keeps one checkpoint row for a tenant, repository, service and
environment, and an immutable ledger of the serving observations recorded for it.  Five writers
touch the row: the trigger of an explicit request, the delivery of an observation, the
confirmation of an exact reconciliation, and the seeding and refreshing of the reconciliation
worker.  Each operation is one database transaction and is modelled as one function on the rows
it reads and writes; an operation that raises leaves the rows unchanged.

## Main definitions

* `Checkpoint`, `Database` : the rows of one scope.
* `Database.recordServingObservation`, `Database.confirmServingReconciliation` : delivery and
  confirmation of an observation.
* `Database.getPendingServingReconciliation` : the ticket a reconciler starts from.
* `World.perform` : one action of any of the processes.
-/

namespace ApiTruth.Environment

/-- The key of an ingested event within one tenant. -/
structure EventIdentity where
  producerId : String
  eventId : String
deriving DecidableEq, Repr

/-- The `disposition` of a recorded observation. -/
inductive Disposition
  | applied
  | stale
  | replay
  | reconciliationRequired
deriving DecidableEq, Repr

/-- A row of `environment_serving_observations`: its disposition and the configuration of the
event.  The other columns copy the payload of the event. -/
structure Observation where
  disposition : Disposition
  activeConfigFingerprint : String
deriving DecidableEq, Repr

/-- A row of `environment_serving_checkpoints`. -/
structure Checkpoint where
  current : Option EventIdentity := none
  pending : Option EventIdentity := none
  reconciliationRequired : Bool := false
  explicitReconciliationRequested : Bool := false
  requestGeneration : ℕ := 0
  version : ℕ := 1
  updatedAt : ℕ
deriving DecidableEq, Repr

/-- The rows that the serving operations of one scope read and write. -/
structure Database where
  /-- The database clock, in milliseconds. -/
  clock : ℕ
  /-- The active configuration of the tenant. -/
  activeConfig : Option String
  /-- The configuration with this fingerprint lists the environment of the scope. -/
  configured : String → Bool
  /-- The ingested serving observations of the scope. -/
  events : EventIdentity → Option ServingEvent
  observations : EventIdentity → Option Observation
  checkpoint : Option Checkpoint

/-- The errors raised by the serving operations. -/
inductive EnvironmentError
  | notFoundOrDenied
  | storageError
deriving DecidableEq, Repr

/-- `outcome` of recording: a new ledger row or an existing one. -/
inductive RecordOutcome
  | inserted
  | existing
deriving DecidableEq, Repr

/-- The result of `recordServingObservation`. -/
structure RecordServingResult where
  outcome : RecordOutcome
  disposition : Disposition
deriving DecidableEq, Repr

/-- The result of `confirmServingReconciliation`. -/
inductive ConfirmOutcome
  | applied
  | pending
  | superseded
deriving DecidableEq, Repr

/-- What a reconciler remembers of the checkpoint while it asks the provider. -/
structure ServingReconciliationTicket where
  pending : Option EventIdentity
  version : ℕ
  configFingerprint : String
deriving DecidableEq, Repr

namespace ServingObservationClassification

/-- The disposition stored for a classification. -/
def disposition : ServingObservationClassification → Disposition
  | apply => .applied
  | stale => .stale
  | replay => .replay
  | reconcile => .reconciliationRequired

end ServingObservationClassification

namespace Database

variable (db : Database) (stateHash : HashedState → String)

/-- Insert a row into the ledger of observations. -/
def insertServingObservation (id : EventIdentity) (event : ServingEvent)
    (disposition : Disposition) : Database :=
  { db with
    observations := Function.update db.observations id
      (some ⟨disposition, event.activeConfigFingerprint⟩) }

/-- The document of the current observation, joined with its ledger row.  A checkpoint that names
an observation without both rows is a storage error. -/
def currentEvent : Except EnvironmentError (Option ServingEvent) :=
  match db.checkpoint.bind Checkpoint.current with
  | none => .ok none
  | some id =>
    match db.events id, db.observations id with
    | some event, some _ => .ok (some event)
    | _, _ => .error .storageError

/-- The upsert of an applied observation: it becomes current, it stays pending while it is
incomplete, and an explicit request keeps the reconciliation required. -/
def applyObservation (id : EventIdentity) (needsReconciliation : Bool) : Database :=
  let pending := if needsReconciliation then some id else none
  { db with checkpoint := some <| match db.checkpoint with
      | none => { current := some id, pending := pending,
                  reconciliationRequired := needsReconciliation, updatedAt := db.clock }
      | some checkpoint => { checkpoint with
          current := some id, pending := pending,
          reconciliationRequired :=
            needsReconciliation || checkpoint.explicitReconciliationRequested,
          version := checkpoint.version + 1, updatedAt := db.clock } }

/-- The upsert of an observation that cannot be placed: it only becomes pending. -/
def requireReconciliation (id : EventIdentity) : Database :=
  { db with checkpoint := some <| match db.checkpoint with
      | none => { pending := some id, reconciliationRequired := true, updatedAt := db.clock }
      | some checkpoint => { checkpoint with
          pending := some id, reconciliationRequired := true,
          version := checkpoint.version + 1, updatedAt := db.clock } }

/-- The classification used when an event is recorded: an observation of another configuration is
never compared with the current one. -/
def classification (fingerprint : String) (current : Option ServingEvent)
    (event : ServingEvent) : ServingObservationClassification :=
  if fingerprint = event.activeConfigFingerprint
  then classifyServingObservation stateHash current event else .reconcile

/-- The rows after an observation is recorded under its classification. -/
def recordClassified (id : EventIdentity) (event : ServingEvent)
    (classified : ServingObservationClassification) : Database :=
  let recorded := db.insertServingObservation id event classified.disposition
  match classified with
  | .apply => recorded.applyObservation id !event.isComplete
  | .reconcile => recorded.requireReconciliation id
  | .stale | .replay => recorded

/-- Deliver an ingested observation to the checkpoint. -/
def recordServingObservation (id : EventIdentity) :
    Except EnvironmentError (Database × RecordServingResult) :=
  match db.events id with
  | none => .error .notFoundOrDenied
  | some event =>
    match db.observations id with
    | some prior => .ok (db, ⟨.existing, prior.disposition⟩)
    | none =>
      match db.activeConfig with
      | none => .error .storageError
      | some fingerprint =>
        match db.currentEvent with
        | .error error => .error error
        | .ok current =>
          let classified := classification stateHash fingerprint current event
          .ok (db.recordClassified id event classified, ⟨.inserted, classified.disposition⟩)

/-- The ticket of the scope, when its reconciliation is required and the active configuration
lists it. -/
def getPendingServingReconciliation : Option ServingReconciliationTicket :=
  match db.checkpoint, db.activeConfig with
  | some checkpoint, some fingerprint =>
    if checkpoint.reconciliationRequired && db.configured fingerprint
    then some ⟨checkpoint.pending, checkpoint.version, fingerprint⟩ else none
  | _, _ => none

/-- The ticket still matches the version and pending observation of the checkpoint, the active
configuration and the configuration of the event. -/
def ticketIsValid (ticket : ServingReconciliationTicket) (event : ServingEvent) : Bool :=
  match db.checkpoint with
  | none => false
  | some checkpoint => checkpoint.version == ticket.version
      && checkpoint.pending == ticket.pending
      && db.activeConfig == some ticket.configFingerprint
      && event.activeConfigFingerprint == ticket.configFingerprint

/-- The rows after a confirmed observation: it becomes current, it stays pending while it is
incomplete, and the explicit request is cleared. -/
def applyConfirmation (id : EventIdentity) (event : ServingEvent) (checkpoint : Checkpoint) :
    Database :=
  { db.insertServingObservation id event
      (if event.isComplete then .applied else .reconciliationRequired) with
    checkpoint := some { checkpoint with
      current := some id
      pending := if event.isComplete then none else some id
      reconciliationRequired := !event.isComplete
      explicitReconciliationRequested := false
      version := checkpoint.version + 1
      updatedAt := db.clock } }

/-- Confirm an exact reconciliation with an ingested observation. -/
def confirmServingReconciliation (ticket : ServingReconciliationTicket) (id : EventIdentity) :
    Except EnvironmentError (Database × ConfirmOutcome) :=
  match db.events id with
  | none => .error .notFoundOrDenied
  | some event =>
    match db.checkpoint with
    | none => .ok (db, .superseded)
    | some checkpoint =>
      if !db.ticketIsValid ticket event then .ok (db, .superseded)
      else match db.observations id with
        | some _ =>
          .ok (db, if checkpoint.current = some id ∧ checkpoint.pending = some id
            then .pending else .superseded)
        | none =>
          .ok (db.applyConfirmation id event checkpoint,
            if event.isComplete then .applied else .pending)

/-! ### The other writers -/

/-- The active configuration lists the environment of the scope. -/
def isConfigured : Bool :=
  db.activeConfig.any db.configured

/-- The trigger of a `reconciliation.requested` event that names the scope. -/
def requestReconciliation : Database :=
  if db.isConfigured then
    { db with checkpoint := some <| match db.checkpoint with
        | none => { reconciliationRequired := true, explicitReconciliationRequested := true,
                    requestGeneration := 1, updatedAt := db.clock }
        | some checkpoint => { checkpoint with
            reconciliationRequired := true, explicitReconciliationRequested := true,
            requestGeneration := checkpoint.requestGeneration + 1,
            version := checkpoint.version + 1, updatedAt := db.clock } }
  else db

/-- The worker seeds a checkpoint for a configured scope without one. -/
def seedCheckpoint : Database :=
  match db.checkpoint with
  | some _ => db
  | none =>
    if db.isConfigured
    then { db with checkpoint := some { reconciliationRequired := true, updatedAt := db.clock } }
    else db

/-- The configuration under which the current observation was recorded. -/
def currentFingerprint (checkpoint : Checkpoint) : Option String :=
  (checkpoint.current.bind db.observations).map Observation.activeConfigFingerprint

/-- The worker requires a new reconciliation when the serving evidence is old or was recorded
under another configuration. -/
def refreshCheckpoint (reconcileAfterMs : ℕ) : Database :=
  match db.checkpoint with
  | none => db
  | some checkpoint =>
    if db.isConfigured && !checkpoint.reconciliationRequired
        && (db.currentFingerprint checkpoint != db.activeConfig
          || checkpoint.updatedAt + reconcileAfterMs ≤ db.clock)
    then { db with checkpoint := some { checkpoint with
        reconciliationRequired := true, version := checkpoint.version + 1,
        updatedAt := db.clock } }
    else db

/-- `ingestEvent` stores a valid observation once, with the active configuration. -/
def ingestEvent (id : EventIdentity) (event : ServingEvent) : Database :=
  match db.events id, db.activeConfig with
  | none, some fingerprint =>
    if event.isValid then
      { db with
        events := Function.update db.events id
          (some { event with activeConfigFingerprint := fingerprint }) }
    else db
  | _, _ => db

end Database

/-! ### Actions of the processes -/

/-- One transaction of one of the processes that share the scope. -/
inductive Action
  | tick (milliseconds : ℕ)
  | activate (fingerprint : String)
  | ingest (id : EventIdentity) (event : ServingEvent)
  | request
  | record (id : EventIdentity)
  | getPending
  | confirm (ticket : ServingReconciliationTicket) (id : EventIdentity)
  | seed
  | refresh (reconcileAfterMs : ℕ)

/-- The rows of the scope together with the tickets handed out to reconcilers so far. -/
structure World where
  db : Database
  tickets : List ServingReconciliationTicket

namespace World

variable (stateHash : HashedState → String) (world : World)

/-- The rows after an operation; an operation that raises is rolled back. -/
def commit {ρ : Type} (result : Except EnvironmentError (Database × ρ)) : World :=
  match result with
  | .ok (db, _) => { world with db := db }
  | .error _ => world

/-- The effect of one action.  A reconciler confirms only with a ticket it was handed. -/
def perform : Action → World
  | .tick milliseconds => { world with
      db := { world.db with clock := world.db.clock + milliseconds } }
  | .activate fingerprint => { world with
      db := { world.db with activeConfig := some fingerprint } }
  | .ingest id event => { world with db := world.db.ingestEvent id event }
  | .request => { world with db := world.db.requestReconciliation }
  | .record id => world.commit (world.db.recordServingObservation stateHash id)
  | .getPending => { world with
      tickets := world.db.getPendingServingReconciliation.toList ++ world.tickets }
  | .confirm ticket id =>
    if ticket ∈ world.tickets
    then world.commit (world.db.confirmServingReconciliation ticket id) else world
  | .seed => { world with db := world.db.seedCheckpoint }
  | .refresh reconcileAfterMs => { world with
      db := world.db.refreshCheckpoint reconcileAfterMs }

/-- One step of the environment: any process performs one action. -/
def Step (world : World) (action : Action) (next : World) : Prop :=
  next = world.perform stateHash action

/-- The scope before its first event: no checkpoint, an empty ledger and no ticket. -/
def IsInitial (world : World) : Prop :=
  world.db.checkpoint = none ∧ (∀ id, world.db.observations id = none)
    ∧ (∀ id, world.db.events id = none) ∧ world.tickets = []

end World

end ApiTruth.Environment
