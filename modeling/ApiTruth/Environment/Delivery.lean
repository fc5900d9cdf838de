import ApiTruth.Environment.ExplicitRequest

/-!
# Delivery and confirmation of the same observation

A reconciler ingests the answer of its provider before it confirms it, and the ingested event also
enters the deployment inbox.  The inbox worker may therefore record the event before or after the
reconciler confirms it.  This file compares the two orders for a complete and known observation
under a valid outstanding ticket.

After the confirmation the observation is current and nothing is pending, and recording it again
changes nothing.  In the other order the confirmation finds the event recorded already, or a
newer checkpoint version, and gives up; the result then is whatever the recording made of the
event.  The orders agree exactly when recording alone already applies the event and no explicit
request is outstanding, or when the confirmation has no effect in either order.

## Main definitions

* `Database.ForeignKeys` : the referential constraints of the checkpoint row.
* `Database.servingView` : current observation, pending observation and requirement.

## Main results

* `Database.foreignKeys_of_reachable` : every reachable scope satisfies its constraints.
* `Database.record_confirm_comm_iff` : when the two orders agree.
-/

namespace ApiTruth.Environment

open TransitionSystem Option

namespace Database

/-! ### Referential constraints -/

/-- The foreign keys of the rows: the current observation is in the ledger, and the ledger holds
ingested events only. -/
structure ForeignKeys (db : Database) : Prop where
  current_recorded : ∀ checkpoint id, db.checkpoint = some checkpoint →
    checkpoint.current = some id → db.observations id ≠ none
  recorded_ingested : ∀ id, db.observations id ≠ none → db.events id ≠ none

variable {db : Database} {id : EventIdentity} {event : ServingEvent}

section

variable (h : db.ForeignKeys)
include h

theorem ForeignKeys.insertServingObservation
    (hevent : db.events id = some event) (disposition : Disposition) :
    (db.insertServingObservation id event disposition).ForeignKeys where
  current_recorded checkpoint other hcp hcurrent := by
    by_cases hid : other = id
    · simp [Database.insertServingObservation, hid]
    · simpa [Database.insertServingObservation, hid] using
        h.current_recorded checkpoint other hcp hcurrent
  recorded_ingested other hother := by
    by_cases hid : other = id
    · change db.events other ≠ none
      simp [hid, hevent]
    · exact h.recorded_ingested other
        (by simpa [Database.insertServingObservation, hid] using hother)

/-- Replacing the checkpoint keeps the constraints when the new current observation is in the
ledger. -/
theorem ForeignKeys.setCheckpoint (checkpoint : Checkpoint)
    (hcurrent : ∀ id, checkpoint.current = some id → db.observations id ≠ none) :
    ({ db with checkpoint := some checkpoint } : Database).ForeignKeys where
  current_recorded other id hother hid := by
    obtain rfl : checkpoint = other := Option.some.inj hother
    exact hcurrent id hid
  recorded_ingested := h.recorded_ingested

theorem ForeignKeys.recordClassified (hevent : db.events id = some event)
    (classified : ServingObservationClassification) :
    (db.recordClassified id event classified).ForeignKeys := by
  have hrecorded : (db.insertServingObservation id event
      classified.disposition).observations id ≠ none := by
    simp [Database.insertServingObservation]
  have hfk := h.insertServingObservation hevent classified.disposition
  cases classified with
  | apply =>
    refine hfk.setCheckpoint _ fun other hother => ?_
    split at hother <;>
    · cases hother
      exact hrecorded
  | reconcile =>
    refine hfk.setCheckpoint _ fun other hother => ?_
    split at hother
    · simp at hother
    · rename_i checkpoint hcp
      exact hfk.current_recorded checkpoint other hcp hother
  | stale => exact hfk
  | replay => exact hfk

theorem ForeignKeys.applyConfirmation (hevent : db.events id = some event)
    (checkpoint : Checkpoint) : (db.applyConfirmation id event checkpoint).ForeignKeys := by
  refine (h.insertServingObservation hevent _).setCheckpoint _ fun other hother => ?_
  cases hother
  simp [Database.insertServingObservation]

theorem ForeignKeys.requestReconciliation :
    db.requestReconciliation.ForeignKeys := by
  unfold Database.requestReconciliation
  split
  · refine h.setCheckpoint _ fun id hid => ?_
    split at hid
    · simp at hid
    · rename_i checkpoint hcp
      exact h.current_recorded checkpoint id hcp hid
  · exact h

theorem ForeignKeys.seedCheckpoint : db.seedCheckpoint.ForeignKeys := by
  unfold Database.seedCheckpoint
  split
  · exact h
  · split
    · exact h.setCheckpoint _ fun id hid => by simp at hid
    · exact h

theorem ForeignKeys.refreshCheckpoint (reconcileAfterMs : ℕ) :
    (db.refreshCheckpoint reconcileAfterMs).ForeignKeys := by
  unfold Database.refreshCheckpoint
  split
  · exact h
  · rename_i checkpoint hcp
    split
    · exact h.setCheckpoint _ fun id hid => h.current_recorded checkpoint id hcp hid
    · exact h

theorem ForeignKeys.ingestEvent (id : EventIdentity)
    (event : ServingEvent) : (db.ingestEvent id event).ForeignKeys := by
  unfold Database.ingestEvent
  split
  · split
    · refine ⟨h.current_recorded, fun other hother => ?_⟩
      by_cases hid : other = id
      · simp [hid]
      · simpa [hid] using h.recorded_ingested other hother
    · exact h
  · exact h

end

variable (stateHash : HashedState → String)

theorem foreignKeys_perform (world : World) (action : Action) (h : world.db.ForeignKeys) :
    (world.perform stateHash action).db.ForeignKeys := by
  cases action with
  | tick milliseconds => exact ⟨h.current_recorded, h.recorded_ingested⟩
  | activate fingerprint => exact ⟨h.current_recorded, h.recorded_ingested⟩
  | ingest id event => exact h.ingestEvent id event
  | request => exact h.requestReconciliation
  | record id =>
    simp only [World.perform, World.commit]
    split
    · rename_i db result hrecord
      rcases recordServingObservation_cases hrecord with
        ⟨prior, -, rfl⟩ | ⟨event, fingerprint, current, hevent, -, -, -, rfl⟩
      · exact h
      · exact h.recordClassified hevent _
    · exact h
  | getPending => exact h
  | confirm ticket id =>
    simp only [World.perform, World.commit]
    split
    · split
      · rename_i db result hconfirm
        rcases confirmServingReconciliation_cases hconfirm with
          ⟨rfl, -⟩ | ⟨event, checkpoint, hevent, -, -, -, rfl, -⟩
        · exact h
        · exact h.applyConfirmation hevent checkpoint
      · exact h
    · exact h
  | seed => exact h.seedCheckpoint
  | refresh reconcileAfterMs => exact h.refreshCheckpoint reconcileAfterMs

/-- Every reachable scope satisfies its referential constraints. -/
theorem foreignKeys_of_reachable {world : World}
    (h : Reachable (World.Step stateHash) World.IsInitial world) : world.db.ForeignKeys := by
  refine h.invariant (I := fun w => w.db.ForeignKeys) (fun w hw => ?_) fun w a w' hw hstep => ?_
  · exact ⟨fun checkpoint id hcp => by simp [hw.1] at hcp, fun id hid => (hid (hw.2.1 id)).elim⟩
  · subst hstep
    exact foreignKeys_perform stateHash w a hw

theorem ForeignKeys.currentEvent_ok (h : db.ForeignKeys) :
    ∃ current, db.currentEvent = .ok current := by
  unfold Database.currentEvent
  cases hcurrent : db.checkpoint.bind Checkpoint.current with
  | none => exact ⟨none, rfl⟩
  | some id =>
    obtain ⟨checkpoint, hcp, hid⟩ := bind_eq_some_iff.mp hcurrent
    have hrecorded := h.current_recorded checkpoint id hcp hid
    obtain ⟨row, hrow⟩ := ne_none_iff_exists'.mp hrecorded
    obtain ⟨event, hevent⟩ := ne_none_iff_exists'.mp (h.recorded_ingested id hrecorded)
    exact ⟨some event, by simp only [hevent, hrow]⟩

/-! ### The two orders -/

variable (stateHash : HashedState → String) (db : Database)

/-- The rows after the inbox delivers an event; a delivery that raises is rolled back. -/
def afterRecord (id : EventIdentity) : Database :=
  match db.recordServingObservation stateHash id with
  | .ok (next, _) => next
  | .error _ => db

/-- The rows after a reconciler confirms an event. -/
def afterConfirm (ticket : ServingReconciliationTicket) (id : EventIdentity) : Database :=
  match db.confirmServingReconciliation ticket id with
  | .ok (next, _) => next
  | .error _ => db

/-- What readers see of the checkpoint: the current observation, the pending observation and
whether a reconciliation is required. -/
def servingView : Option (Option EventIdentity × Option EventIdentity × Bool) :=
  db.checkpoint.map fun checkpoint =>
    (checkpoint.current, checkpoint.pending, checkpoint.reconciliationRequired)

def AppliesOnRecord (event : ServingEvent) : Prop :=
  ∃ current, db.currentEvent = .ok current ∧
    classifyServingObservation stateHash current event = .apply

variable {db} {stateHash} {id : EventIdentity} {event : ServingEvent}
  {ticket : ServingReconciliationTicket}

theorem afterRecord_of_recorded (h : db.observations id ≠ none) :
    db.afterRecord stateHash id = db := by
  unfold afterRecord
  split
  · rename_i next result hrecord
    rcases recordServingObservation_cases hrecord with
      ⟨prior, -, rfl⟩ | ⟨event, fingerprint, current, -, hnone, -⟩
    · rfl
    · exact absurd hnone h
  · rfl

theorem afterConfirm_of_recorded (h : db.observations id ≠ none) :
    db.afterConfirm ticket id = db := by
  unfold afterConfirm
  split
  · rename_i next result hconfirm
    rcases confirmServingReconciliation_cases hconfirm with
      ⟨rfl, -⟩ | ⟨event, checkpoint, -, -, -, hnone, -⟩
    · rfl
    · exact absurd hnone h
  · rfl

variable (hevent : db.events id = some event)

include hevent in
theorem afterConfirm_of_invalid (h : db.ticketIsValid ticket event = false) :
    db.afterConfirm ticket id = db := by
  unfold afterConfirm
  split
  · rename_i next result hconfirm
    rcases confirmServingReconciliation_cases hconfirm with
      ⟨rfl, -⟩ | ⟨event', checkpoint, hevent', -, hvalid, -⟩
    · rfl
    · cases hevent.symm.trans hevent'
      simp [h] at hvalid
  · rfl

variable {current : Option ServingEvent} {fingerprint : String}

include hevent in
theorem afterRecord_of_unrecorded (hnone : db.observations id = none)
    (hactive : db.activeConfig = some fingerprint) (hcurrent : db.currentEvent = .ok current) :
    db.afterRecord stateHash id =
      db.recordClassified id event (classification stateHash fingerprint current event) := by
  simp only [afterRecord, recordServingObservation, hevent, hnone, hactive, hcurrent]

include hevent in
theorem afterConfirm_of_unrecorded {checkpoint : Checkpoint} (hnone : db.observations id = none)
    (hcp : db.checkpoint = some checkpoint) (hvalid : db.ticketIsValid ticket event = true) :
    db.afterConfirm ticket id = db.applyConfirmation id event checkpoint := by
  simp [afterConfirm, confirmServingReconciliation, hevent, hnone, hcp, hvalid]

theorem observations_applyConfirmation (checkpoint : Checkpoint) :
    (db.applyConfirmation id event checkpoint).observations id ≠ none := by
  simp [applyConfirmation, insertServingObservation]

theorem observations_recordClassified (classified : ServingObservationClassification) :
    (db.recordClassified id event classified).observations id ≠ none := by
  cases classified <;>
    simp [recordClassified, applyObservation, requireReconciliation, insertServingObservation]

/-- An outstanding ticket names the checkpoint it was read from and the active configuration. -/
theorem getPending_cases (h : db.getPendingServingReconciliation = some ticket) :
    ∃ checkpoint, db.checkpoint = some checkpoint ∧
      checkpoint.reconciliationRequired = true ∧
      db.activeConfig = some ticket.configFingerprint ∧
      ticket.version = checkpoint.version ∧ ticket.pending = checkpoint.pending := by
  unfold getPendingServingReconciliation at h
  split at h
  · rename_i checkpoint fingerprint hcp hactive
    split at h
    · rename_i hreq
      cases h
      simp only [Bool.and_eq_true] at hreq
      exact ⟨checkpoint, hcp, hreq.1, hactive, rfl, rfl⟩
    · simp at h
  · simp at h

include hevent in
/-- Delivering first makes the later confirmation give up: the event is recorded by then. -/
theorem confirm_after_record (hnone : db.observations id = none)
    (hactive : db.activeConfig = some fingerprint) (hcurrent : db.currentEvent = .ok current) :
    (db.afterRecord stateHash id).afterConfirm ticket id =
      db.recordClassified id event (classification stateHash fingerprint current event) := by
  rw [afterRecord_of_unrecorded hevent hnone hactive hcurrent]
  exact afterConfirm_of_recorded (observations_recordClassified _)

/-- For a complete observation under a valid outstanding ticket, delivery before confirmation and
confirmation before delivery leave the same checkpoint exactly when the event was recorded
before, or was ingested under another configuration, or is applied by delivery alone while no
explicit request is outstanding. -/
theorem record_confirm_comm_iff (hfk : db.ForeignKeys)
    (hticket : db.getPendingServingReconciliation = some ticket)
    (hevent : db.events id = some event) (hcomplete : event.isComplete = true) :
    ((db.afterRecord stateHash id).afterConfirm ticket id).servingView =
        ((db.afterConfirm ticket id).afterRecord stateHash id).servingView ↔
      db.observations id ≠ none ∨
      event.activeConfigFingerprint ≠ ticket.configFingerprint ∨
      (db.AppliesOnRecord stateHash event ∧
        ∀ checkpoint, db.checkpoint = some checkpoint →
          checkpoint.explicitReconciliationRequested = false) := by
  obtain ⟨checkpoint, hcp, hreq, hactive, hversion, hpending⟩ := getPending_cases hticket
  obtain ⟨current, hcurrent⟩ := hfk.currentEvent_ok
  by_cases hrecorded : db.observations id ≠ none
  · simp only [afterRecord_of_recorded hrecorded, afterConfirm_of_recorded hrecorded, hrecorded,
      ne_eq, not_false_eq_true, true_or]
  have hnone : db.observations id = none := not_not.mp hrecorded
  rw [confirm_after_record hevent hnone hactive hcurrent]
  by_cases hconfig : event.activeConfigFingerprint = ticket.configFingerprint
  · have hvalid : db.ticketIsValid ticket event = true := by
      simp [ticketIsValid, hcp, hversion, hpending, hactive, hconfig]
    rw [afterConfirm_of_unrecorded hevent hnone hcp hvalid,
      afterRecord_of_recorded (observations_applyConfirmation checkpoint)]
    simp only [hrecorded, hconfig, ne_eq, not_true_eq_false, false_or, classification,
      ↓reduceIte, AppliesOnRecord, hcurrent, Except.ok.injEq, exists_eq_left',
      hcp, Option.some.injEq, forall_eq']
    -- after the confirmation nothing is required; only an applied delivery reaches that
    cases classifyServingObservation stateHash current event <;>
      simp [servingView, applyConfirmation, recordClassified, applyObservation,
        requireReconciliation, insertServingObservation, hcp, hreq, hcomplete]
  · have hinvalid : db.ticketIsValid ticket event = false := by
      simp [ticketIsValid, hcp, hversion, hpending, hactive, hconfig]
    rw [afterConfirm_of_invalid hevent hinvalid,
      afterRecord_of_unrecorded hevent hnone hactive hcurrent]
    simp [hconfig]

/-- A scope seeded by the worker, with an ingested answer whose order is an opaque cursor. -/
def seededScope : Database :=
  ((World.unobservedScope.perform reprStr .seed).perform reprStr <|
    .ingest World.passiveId (World.deployObservation .complete (.known []) "cursor-new")).db

theorem seededScope_foreignKeys : seededScope.ForeignKeys :=
  foreignKeys_of_reachable reprStr ⟨World.unobservedScope, _,
    ⟨rfl, fun _ => rfl, fun _ => rfl, rfl⟩, .cons rfl (.cons rfl (.nil _))⟩

/-- The two orders differ: an opaque complete answer resolves the scope when it is confirmed
first, and leaves it pending when the inbox delivers it first. -/
theorem record_confirm_not_comm :
    ¬ ∀ (db : Database) (ticket : ServingReconciliationTicket) (id : EventIdentity)
        (event : ServingEvent), db.ForeignKeys →
      db.getPendingServingReconciliation = some ticket → db.events id = some event →
      event.isComplete = true →
      ((db.afterRecord reprStr id).afterConfirm ticket id).servingView =
        ((db.afterConfirm ticket id).afterRecord reprStr id).servingView := by
  intro h
  exact absurd (h seededScope ⟨none, 1, "config-a"⟩ World.passiveId _ seededScope_foreignKeys
    rfl rfl rfl) (by decide)

/-- The same scope with an ordered answer: here both orders agree. -/
theorem record_confirm_comm_ordered :
    let db := ((World.unobservedScope.perform reprStr .seed).perform reprStr <|
      .ingest World.passiveId (World.deployObservation .complete (.known []) "6")).db
    ((db.afterRecord reprStr World.passiveId).afterConfirm ⟨none, 1, "config-a"⟩
        World.passiveId).servingView =
      ((db.afterConfirm ⟨none, 1, "config-a"⟩ World.passiveId).afterRecord reprStr
        World.passiveId).servingView :=
  (record_confirm_comm_iff
    (foreignKeys_of_reachable reprStr ⟨World.unobservedScope, _,
      ⟨rfl, fun _ => rfl, fun _ => rfl, rfl⟩, .cons rfl (.cons rfl (.nil _))⟩)
    rfl rfl rfl).mpr (.inr (.inr ⟨⟨none, rfl, by decide⟩, by
      rintro checkpoint hcp
      cases hcp
      rfl⟩))

end Database

end ApiTruth.Environment
