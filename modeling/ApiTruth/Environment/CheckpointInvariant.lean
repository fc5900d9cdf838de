import ApiTruth.Environment.Delivery

/-!
# The invariant of the serving checkpoint

Five writers share the checkpoint row and each of them writes a part of it.  This file says once
what a transaction can do to the row, `Database.CheckpointEffect`, and derives from it what holds
of the row in every reachable state.

A caller of `confirmServingReconciliation` may bring any ticket, so the transactions here are
those of `World.perform` without its list of tickets handed out.

## Main definitions

* `Database.transact` : the rows after one transaction of any process.
* `Database.CheckpointEffect` : what a transaction can do to the checkpoint.
* `Database.BecomesCurrent` : an observation is recorded and becomes current.
* `Database.TicketMatches` : a ticket agrees with the checkpoint and the active configuration.
* `Database.RecordedWithin` : an observation was recorded and became current within a run.

## Main results

* `Database.checkpointEffect_transact` : every transaction has one of these effects.
* `Database.serving_checkpoint_invariant` : the invariant of every reachable state.
-/

namespace ApiTruth.Environment

open TransitionSystem Bool Function

/-- The ticket that an action brings. -/
def Action.tickets : Action → List ServingReconciliationTicket
  | .confirm ticket _ => [ticket]
  | _ => []

namespace Database

variable (stateHash : HashedState → String) (db : Database)

/-- The rows after one transaction of any process. -/
def transact (action : Action) : Database :=
  (World.perform stateHash ⟨db, action.tickets⟩ action).db

/-- One step of the rows: any process runs one transaction. -/
def Step (db : Database) (action : Action) (next : Database) : Prop :=
  next = db.transact stateHash action

/-- The rows before the first event: no checkpoint, an empty ledger and no event. -/
def IsInitial (db : Database) : Prop :=
  db.checkpoint = none ∧ (∀ id, db.observations id = none) ∧ ∀ id, db.events id = none

def current : Option EventIdentity := db.checkpoint.bind Checkpoint.current

/-- The pending observation of the checkpoint. -/
def pending : Option EventIdentity := db.checkpoint.bind Checkpoint.pending

/-- The ticket agrees with the checkpoint and with the active configuration. -/
def TicketMatches (ticket : ServingReconciliationTicket) : Prop :=
  ∃ checkpoint, db.checkpoint = some checkpoint ∧ checkpoint.version = ticket.version ∧
    checkpoint.pending = ticket.pending ∧ db.activeConfig = some ticket.configFingerprint

/-- The event is recorded under the active configuration and becomes current; it stays pending
while it is incomplete. -/
structure BecomesCurrent (next : Database) (id : EventIdentity) (event : ServingEvent) : Prop where
  ingested : db.events id = some event
  unrecorded : db.observations id = none
  active : db.activeConfig = some event.activeConfigFingerprint
  recorded : ∃ disposition,
    next.observations id = some ⟨disposition, event.activeConfigFingerprint⟩
  checkpoint : ∃ checkpoint, next.checkpoint = some checkpoint ∧ checkpoint.current = some id ∧
    checkpoint.pending = (if event.isComplete then none else some id) ∧
    (event.isComplete = false → checkpoint.reconciliationRequired = true)

/-- What a transaction can do to the checkpoint row: whatever it writes has a new version. -/
inductive CheckpointEffect (next : Database) : Prop
  | unchanged (same : next.checkpoint = db.checkpoint)
  | required (later : db.checkpointVersion < next.checkpointVersion)
      (checkpoint : Checkpoint) (written : next.checkpoint = some checkpoint)
      (isRequired : checkpoint.reconciliationRequired = true)
      (sameCurrent : checkpoint.current = db.current)
      (samePending : checkpoint.pending = db.pending)
  | deferred (later : db.checkpointVersion < next.checkpointVersion)
      (id : EventIdentity) (checkpoint : Checkpoint)
      (written : next.checkpoint = some checkpoint)
      (isRequired : checkpoint.reconciliationRequired = true)
      (sameCurrent : checkpoint.current = db.current)
      (isPending : checkpoint.pending = some id)
  | applied (later : db.checkpointVersion < next.checkpointVersion)
      (id : EventIdentity) (event : ServingEvent) (becomes : db.BecomesCurrent next id event)

variable {stateHash db}

/-! ### What one transaction does -/

@[simp] theorem transact_record (id : EventIdentity) :
    db.transact stateHash (.record id) = db.afterRecord stateHash id := by
  simp only [transact, World.perform, World.commit, afterRecord]
  split <;> simp_all

@[simp] theorem transact_confirm (ticket : ServingReconciliationTicket) (id : EventIdentity) :
    db.transact stateHash (.confirm ticket id) = db.afterConfirm ticket id := by
  simp only [transact, World.perform, World.commit, Action.tickets, List.mem_singleton,
    ↓reduceIte, afterConfirm]
  split <;> simp_all

/-- A world performs an action as a transaction, or drops a confirmation without a ticket. -/
theorem perform_db (stateHash : HashedState → String) (world : World) (action : Action) :
    (world.perform stateHash action).db = world.db.transact stateHash action ∨
      (world.perform stateHash action).db = world.db := by
  cases action with
  | record id =>
    left
    simp only [transact, World.perform, World.commit]
    split <;> rfl
  | confirm ticket id =>
    by_cases hticket : ticket ∈ world.tickets
    · left
      simp only [transact, World.perform, World.commit, hticket, Action.tickets,
        List.mem_singleton, ↓reduceIte]
      split <;> rfl
    · exact .inr (by simp only [World.perform, hticket, ↓reduceIte])
  | tick milliseconds => exact .inl rfl
  | activate fingerprint => exact .inl rfl
  | ingest id event => exact .inl rfl
  | request => exact .inl rfl
  | getPending => exact .inl rfl
  | seed => exact .inl rfl
  | refresh reconcileAfterMs => exact .inl rfl

theorem checkpointVersion_transact (action : Action) :
    db.checkpointVersion ≤ (db.transact stateHash action).checkpointVersion :=
  World.checkpointVersion_perform stateHash ⟨db, action.tickets⟩ action

variable {ticket : ServingReconciliationTicket} {id : EventIdentity} {event : ServingEvent}
  {checkpoint : Checkpoint} {actions : List Action} {start final : Database}

theorem BecomesCurrent.applyConfirmation
    (hevent : db.events id = some event) (hnone : db.observations id = none)
    (hvalid : db.ticketIsValid ticket event = true) :
    db.BecomesCurrent (db.applyConfirmation id event checkpoint) id event where
  ingested := hevent
  unrecorded := hnone
  active := by
    unfold ticketIsValid at hvalid
    split at hvalid
    · simp at hvalid
    · simp only [and_eq_true, beq_iff_eq] at hvalid
      rw [hvalid.1.2, hvalid.2]
  recorded := ⟨_, update_self id _ db.observations⟩
  checkpoint := ⟨_, rfl, rfl, rfl, fun h => by simp [h]⟩

variable {current : Option ServingEvent} {fingerprint : String} {action : Action}

theorem classification_eq_apply (h : classification stateHash fingerprint current event = .apply) :
    fingerprint = event.activeConfigFingerprint ∧
      classifyServingObservation stateHash current event = .apply := by
  unfold classification at h
  split at h
  · exact ⟨‹_›, h⟩
  · simp at h

theorem BecomesCurrent.recordApplied
    (hevent : db.events id = some event) (hnone : db.observations id = none)
    (hactive : db.activeConfig = some event.activeConfigFingerprint) :
    db.BecomesCurrent (db.recordClassified id event .apply) id event where
  ingested := hevent
  unrecorded := hnone
  active := hactive
  recorded := ⟨_, update_self id _ db.observations⟩
  checkpoint := by
    cases hcp : db.checkpoint <;> cases hcomplete : event.isComplete <;>
      simp [recordClassified, applyObservation, hcp, hcomplete]

theorem checkpointEffect_recordClassified
    (hevent : db.events id = some event) (hnone : db.observations id = none)
    (hactive : db.activeConfig = some fingerprint) :
    db.CheckpointEffect
      (db.recordClassified id event (classification stateHash fingerprint current event)) := by
  cases hclass : classification stateHash fingerprint current event with
  | apply =>
    have hfingerprint := (classification_eq_apply hclass).1
    exact .applied (checkpointVersion_applyObservation _ _ _) id event
      (.recordApplied hevent hnone (hfingerprint ▸ hactive))
  | reconcile =>
    refine .deferred (checkpointVersion_requireReconciliation _ _) id _ rfl ?_ ?_ ?_ <;>
      cases hcp : db.checkpoint <;> simp [Database.current, hcp]
  | stale => exact .unchanged rfl
  | replay => exact .unchanged rfl

theorem checkpointEffect_requestReconciliation : db.CheckpointEffect db.requestReconciliation := by
  by_cases h : db.isConfigured = true
  · have hlater := db.checkpointVersion_requestReconciliation h
    simp only [requestReconciliation, h, ↓reduceIte] at hlater ⊢
    refine .required hlater _ rfl ?_ ?_ ?_ <;>
      cases hcp : db.checkpoint <;> simp [Database.current, Database.pending, hcp]
  · exact .unchanged (by simp [requestReconciliation, h])

theorem checkpointEffect_seedCheckpoint : db.CheckpointEffect db.seedCheckpoint := by
  cases hcp : db.checkpoint with
  | some checkpoint => exact .unchanged (by simp only [seedCheckpoint, hcp])
  | none =>
    by_cases h : db.isConfigured = true
    · simp only [seedCheckpoint, hcp, h, ↓reduceIte]
      refine .required ?_ _ rfl rfl ?_ ?_ <;>
        simp [checkpointVersion, Database.current, Database.pending, hcp]
    · exact .unchanged (by simp [seedCheckpoint, hcp, h])

theorem checkpointEffect_refreshCheckpoint (reconcileAfterMs : ℕ) :
    db.CheckpointEffect (db.refreshCheckpoint reconcileAfterMs) := by
  cases hcp : db.checkpoint with
  | none => exact .unchanged (by simp only [refreshCheckpoint, hcp])
  | some checkpoint =>
    simp only [refreshCheckpoint, hcp]
    split
    · refine .required ?_ _ rfl rfl ?_ ?_ <;>
        simp [checkpointVersion, Database.current, Database.pending, hcp]
    · exact .unchanged rfl

theorem checkpointEffect_transact (stateHash : HashedState → String) (db : Database)
    (action : Action) :
    db.CheckpointEffect (db.transact stateHash action) := by
  cases action with
  | tick milliseconds => exact .unchanged rfl
  | activate fingerprint => exact .unchanged rfl
  | ingest id event => exact .unchanged (db.checkpoint_ingestEvent id event)
  | request => exact checkpointEffect_requestReconciliation
  | record id =>
    rw [transact_record]
    unfold afterRecord
    split
    · rename_i next result hrecord
      rcases recordServingObservation_cases hrecord with
        ⟨prior, -, rfl⟩ | ⟨event, fingerprint, current, hevent, hnone, hactive, -, rfl⟩
      · exact .unchanged rfl
      · exact checkpointEffect_recordClassified hevent hnone hactive
    · exact .unchanged rfl
  | getPending => exact .unchanged rfl
  | confirm ticket id =>
    rw [transact_confirm]
    unfold afterConfirm
    split
    · rename_i next result hconfirm
      rcases confirmServingReconciliation_cases hconfirm with
        ⟨rfl, -⟩ | ⟨event, checkpoint, hevent, hcp, hvalid, hnone, rfl, -⟩
      · exact .unchanged rfl
      · have hlater : db.checkpointVersion
            < (db.applyConfirmation id event checkpoint).checkpointVersion := by
          simp [checkpointVersion, applyConfirmation, hcp]
        exact .applied hlater id event (.applyConfirmation hevent hnone hvalid)
    · exact .unchanged rfl
  | seed => exact checkpointEffect_seedCheckpoint
  | refresh reconcileAfterMs => exact checkpointEffect_refreshCheckpoint reconcileAfterMs

theorem events_transact (h : db.events id = some event) (action : Action) :
    (db.transact stateHash action).events id = some event := by
  cases action with
  | ingest other observed =>
    simp only [transact, World.perform, ingestEvent]
    split
    · rename_i hnone _
      split
      · have hne : id ≠ other := by
          rintro rfl
          simp [h] at hnone
        simpa [update_of_ne hne] using h
      · exact h
    · exact h
  | request =>
    simp only [transact, World.perform, requestReconciliation]
    split <;> exact h
  | record other =>
    rw [transact_record]
    unfold afterRecord
    split
    · rename_i next result hrecord
      rcases recordServingObservation_cases hrecord with
        ⟨prior, -, rfl⟩ | ⟨event', fingerprint, current, -, -, -, -, rfl⟩
      · exact h
      · cases classification stateHash fingerprint current event' <;> exact h
    · exact h
  | confirm ticket other =>
    rw [transact_confirm]
    unfold afterConfirm
    split
    · rename_i next result hconfirm
      rcases confirmServingReconciliation_cases hconfirm with
        ⟨rfl, -⟩ | ⟨event', checkpoint, -, -, -, -, rfl, -⟩ <;> exact h
    · exact h
  | seed =>
    simp only [transact, World.perform, seedCheckpoint]
    split
    · exact h
    · split <;> exact h
  | refresh reconcileAfterMs =>
    simp only [transact, World.perform, refreshCheckpoint]
    split
    · exact h
    · split <;> exact h
  | tick milliseconds => exact h
  | activate fingerprint => exact h
  | getPending => exact h

/-! ### Reachable checkpoints -/

variable (stateHash)

theorem exists_run_of_world {start final : World}
    (hrun : Run (World.Step stateHash) start actions final) :
    ∃ performed : List Action, performed.Sublist actions ∧
      Run (Step stateHash) start.db performed final.db := by
  induction hrun with
  | nil world => exact ⟨[], .slnil, .nil world.db⟩
  | @cons world next final action actions hstep _ ih =>
    obtain ⟨performed, hsublist, hperformed⟩ := ih
    rcases perform_db stateHash world action with hdb | hdb <;>
      rw [← show next = world.perform stateHash action from hstep] at hdb
    · exact ⟨action :: performed, hsublist.cons_cons action, .cons hdb hperformed⟩
    · exact ⟨performed, hsublist.cons action, hdb ▸ hperformed⟩

/-- Within the run the observation was recorded and became current, under the active configuration
of that moment. -/
def RecordedWithin (start : Database) (actions : List Action) (id : EventIdentity)
    (event : ServingEvent) : Prop :=
  ∃ before action after db, actions = before ++ action :: after ∧
    Run (Step stateHash) start before db ∧
    db.BecomesCurrent (db.transact stateHash action) id event

variable {stateHash}

theorem current_of_checkpoint (h : db.checkpoint = some checkpoint) :
    db.current = checkpoint.current := by
  simp [current, h]

theorem becomesCurrent_of_transact
    (hnot : db.current ≠ some id) (h : (db.transact stateHash action).current = some id) :
    ∃ event, db.BecomesCurrent (db.transact stateHash action) id event := by
  cases checkpointEffect_transact stateHash db action with
  | unchanged same => exact absurd (by rw [← h, current, current, same]) hnot
  | required _ checkpoint written _ sameCurrent _ =>
    exact absurd (sameCurrent.symm.trans ((current_of_checkpoint written).symm.trans h)) hnot
  | deferred _ other checkpoint written _ sameCurrent _ =>
    exact absurd (sameCurrent.symm.trans ((current_of_checkpoint written).symm.trans h)) hnot
  | applied _ other event becomes =>
    obtain ⟨checkpoint, hcp, hcurrent, -⟩ := becomes.checkpoint
    rw [current_of_checkpoint hcp, hcurrent] at h
    exact Option.some.inj h ▸ ⟨event, becomes⟩

theorem checkpointVersion_lt_of_ne (h : (db.transact stateHash action).current ≠ db.current ∨
      (db.transact stateHash action).pending ≠ db.pending) :
    db.checkpointVersion < (db.transact stateHash action).checkpointVersion := by
  cases checkpointEffect_transact stateHash db action with
  | unchanged same => simp [current, pending, same] at h
  | required later => exact later
  | deferred later => exact later
  | applied later => exact later

/-- The invariant of the checkpoint row: without a required reconciliation the current observation
is complete, and a pending observation requires one. -/
structure SoundCheckpoint (db : Database) : Prop where
  current_complete : ∀ checkpoint, db.checkpoint = some checkpoint →
    checkpoint.reconciliationRequired = false →
    ∃ id event, checkpoint.current = some id ∧ db.events id = some event ∧
      event.isComplete = true
  pending_required : ∀ checkpoint, db.checkpoint = some checkpoint →
    checkpoint.pending ≠ none → checkpoint.reconciliationRequired = true

theorem soundCheckpoint_transact (h : db.SoundCheckpoint) (action : Action) :
    (db.transact stateHash action).SoundCheckpoint := by
  cases checkpointEffect_transact stateHash db action with
  | unchanged same =>
    refine ⟨fun checkpoint hcp hreq => ?_, fun checkpoint hcp => ?_⟩
    · obtain ⟨id, event, hcurrent, hevent, hcomplete⟩ :=
        h.current_complete checkpoint (same ▸ hcp) hreq
      exact ⟨id, event, hcurrent, events_transact hevent action, hcomplete⟩
    · exact h.pending_required checkpoint (same ▸ hcp)
  | required _ written hwritten hreq =>
    refine ⟨fun checkpoint hcp hfalse => ?_, fun checkpoint hcp _ => ?_⟩ <;>
      cases hwritten.symm.trans hcp
    · simp [hreq] at hfalse
    · exact hreq
  | deferred _ id written hwritten hreq =>
    refine ⟨fun checkpoint hcp hfalse => ?_, fun checkpoint hcp _ => ?_⟩ <;>
      cases hwritten.symm.trans hcp
    · simp [hreq] at hfalse
    · exact hreq
  | applied _ id event becomes =>
    obtain ⟨written, hwritten, hcurrent, hpending, hincomplete⟩ := becomes.checkpoint
    refine ⟨fun checkpoint hcp hfalse => ?_, fun checkpoint hcp hpend => ?_⟩ <;>
      cases hwritten.symm.trans hcp
    · have hcomplete : event.isComplete = true := by
        by_contra hne
        simp [hincomplete (not_eq_true _ ▸ hne)] at hfalse
      exact ⟨id, event, hcurrent, events_transact becomes.ingested action, hcomplete⟩
    · by_contra hne
      cases hcomplete : event.isComplete with
      | true => simp [hpending, hcomplete] at hpend
      | false => exact hne (hincomplete hcomplete)

theorem IsInitial.soundCheckpoint (h : db.IsInitial) : db.SoundCheckpoint where
  current_complete checkpoint hcp := by simp [h.1] at hcp
  pending_required checkpoint hcp := by simp [h.1] at hcp

theorem events_run (hrun : Run (Step stateHash) start actions final)
    (h : start.events id = some event) : final.events id = some event :=
  hrun.invariant (I := fun db => db.events id = some event)
    (fun _ action _ h hstep => hstep ▸ events_transact h action) h

theorem checkpointVersion_run (hrun : Run (Step stateHash) start actions final) :
    start.checkpointVersion ≤ final.checkpointVersion :=
  hrun.invariant (I := fun db => start.checkpointVersion ≤ db.checkpointVersion)
    (fun _ action _ h hstep => h.trans (hstep ▸ checkpointVersion_transact action)) le_rfl

/-- The current observation of a run was recorded within the run, under the configuration that was
active then. -/
theorem recordedWithin_of_current (hstart : start.IsInitial)
    (hrun : Run (Step stateHash) start actions final) (hcurrent : final.current = some id)
    (hevent : final.events id = some event) : RecordedWithin stateHash start actions id event := by
  rcases hrun.exists_crossing (P := fun db => db.current = some id) hcurrent with
    hinit | ⟨before, action, after, db, next, rfl, hbefore, hnot, rfl, hbecomes, hafter⟩
  · simp [current, hstart.1] at hinit
  · obtain ⟨recorded, hrecorded⟩ := becomesCurrent_of_transact hnot hbecomes
    have hsame := events_run hafter (events_transact hrecorded.ingested action)
    cases hsame.symm.trans hevent
    exact ⟨before, action, after, db, rfl, hbefore, hrecorded⟩

/-! ### Tickets -/

theorem TicketMatches.version_eq
    (h : db.TicketMatches ticket) : db.checkpointVersion = ticket.version := by
  obtain ⟨checkpoint, hcp, hversion, -⟩ := h
  simp [checkpointVersion, hcp, hversion]

theorem transact_confirm_of_not_ticketMatches (h : ¬ db.TicketMatches ticket) (id : EventIdentity) :
    db.transact stateHash (.confirm ticket id) = db := by
  rw [transact_confirm]
  cases hevent : db.events id with
  | none => simp [afterConfirm, confirmServingReconciliation, hevent]
  | some event =>
    refine afterConfirm_of_invalid hevent ?_
    unfold ticketIsValid
    split
    · rfl
    · rename_i checkpoint hcp
      rw [eq_false_iff]
      intro hvalid
      simp only [and_eq_true, beq_iff_eq] at hvalid
      exact h ⟨checkpoint, hcp, hvalid.1.1.1, hvalid.1.1.2, hvalid.1.2⟩

theorem lt_checkpointVersion_of_confirm (h : db.transact stateHash (.confirm ticket id) ≠ db) :
    ticket.version < (db.transact stateHash (.confirm ticket id)).checkpointVersion := by
  have hmatches : db.TicketMatches ticket := by
    by_contra hnot
    exact h (transact_confirm_of_not_ticketMatches hnot id)
  rw [← hmatches.version_eq]
  cases hconfirm : db.confirmServingReconciliation ticket id with
  | error e => simp [afterConfirm, hconfirm] at h
  | ok result =>
    obtain ⟨next, outcome⟩ := result
    rcases confirmServingReconciliation_cases hconfirm with
      ⟨rfl, -⟩ | ⟨event, checkpoint, -, hcp, -, -, rfl, -⟩
    · simp [afterConfirm, hconfirm] at h
    · simp [afterConfirm, hconfirm, checkpointVersion, applyConfirmation, hcp]

/-- Of two confirmations with one ticket at most one takes effect, whatever happens in between. -/
theorem confirm_at_most_once {id id' : EventIdentity} {between : List Action} {later : Database}
    (h : db.transact stateHash (.confirm ticket id) ≠ db)
    (hrun : Run (Step stateHash) (db.transact stateHash (.confirm ticket id)) between later) :
    later.transact stateHash (.confirm ticket id') = later := by
  refine transact_confirm_of_not_ticketMatches (fun hmatches => ?_) id'
  have hraised := lt_checkpointVersion_of_confirm h
  have hmono := checkpointVersion_run hrun
  rw [hmatches.version_eq] at hmono
  exact absurd hraised (not_lt.mpr hmono)

/-- In every reachable state of the checkpoint row: without a required reconciliation a complete
and known observation is current, recorded under the configuration active at that time; a pending
observation requires a reconciliation; every change of the two raises the version; and a
confirmation takes effect only with a ticket that matches, at most once for each ticket. -/
theorem serving_checkpoint_invariant (stateHash : HashedState → String) {start db : Database}
    {actions : List Action} (hstart : start.IsInitial)
    (hrun : Run (Step stateHash) start actions db) :
    (∀ checkpoint, db.checkpoint = some checkpoint → checkpoint.reconciliationRequired = false →
      ∃ id event, checkpoint.current = some id ∧ db.events id = some event ∧
        event.isComplete = true ∧ RecordedWithin stateHash start actions id event) ∧
    (∀ checkpoint, db.checkpoint = some checkpoint → checkpoint.pending ≠ none →
      checkpoint.reconciliationRequired = true) ∧
    (∀ action, (db.transact stateHash action).current ≠ db.current ∨
      (db.transact stateHash action).pending ≠ db.pending →
        db.checkpointVersion < (db.transact stateHash action).checkpointVersion) ∧
    (∀ ticket id, ¬ db.TicketMatches ticket →
      db.transact stateHash (.confirm ticket id) = db) ∧
    ∀ ticket id id' between later, db.transact stateHash (.confirm ticket id) ≠ db →
      Run (Step stateHash) (db.transact stateHash (.confirm ticket id)) between later →
        later.transact stateHash (.confirm ticket id') = later := by
  have hsound : db.SoundCheckpoint :=
    hrun.invariant (fun _ action _ h hstep => hstep ▸ soundCheckpoint_transact h action)
      hstart.soundCheckpoint
  refine ⟨fun checkpoint hcp hreq => ?_, hsound.pending_required, fun _ =>
    checkpointVersion_lt_of_ne, fun _ id hnot => transact_confirm_of_not_ticketMatches hnot id, fun
    _ _ _ _ _ => confirm_at_most_once⟩
  obtain ⟨id, event, hcurrent, hevent, hcomplete⟩ := hsound.current_complete checkpoint hcp hreq
  have hdb : db.current = some id := (current_of_checkpoint hcp).trans hcurrent
  exact ⟨id, event, hcurrent, hevent, hcomplete, recordedWithin_of_current hstart hrun hdb hevent⟩

/-- The rows after a complete observation was ingested and recorded. -/
def passiveScope : Database :=
  (World.unobservedScope.db.transact reprStr
    (.ingest World.passiveId (World.deployObservation .complete (.known []) "6"))).transact reprStr
      (.record World.passiveId)

/-- The invariant at work: the observation was recorded under the active configuration. -/
theorem serving_checkpoint_invariant_passive :
    RecordedWithin reprStr World.unobservedScope.db
      [.ingest World.passiveId (World.deployObservation .complete (.known []) "6"),
        .record World.passiveId] World.passiveId
      (World.deployObservation .complete (.known []) "6") := by
  have hcp : passiveScope.checkpoint = some { current := some World.passiveId, updatedAt := 0 } :=
    by decide
  have hevent : passiveScope.events World.passiveId =
      some (World.deployObservation .complete (.known []) "6") := by decide
  obtain ⟨id, event, hcurrent, hingested, -, hrecorded⟩ :=
    (serving_checkpoint_invariant reprStr ⟨rfl, fun _ => rfl, fun _ => rfl⟩
      (.cons rfl (.cons rfl (.nil passiveScope)))).1 _ hcp rfl
  cases hcurrent
  cases hingested.symm.trans hevent
  exact hrecorded

end Database

end ApiTruth.Environment
