import ApiTruth.Environment.Serving
import ApiTruth.Foundation.Runs

/-!
# Survival of an explicit reconciliation request

An explicit request sets two flags of the serving checkpoint.  The request is served by a
confirmation with a complete observation under a ticket handed out after the request.  This file
follows both flags through every action of the five writers.

A confirmation with an incomplete observation clears the explicit flag as well, so a later
passive observation may drop the requirement although no complete confirmation took place.  That
is the only way to lose a request: it survives every run in which no incomplete observation is
confirmed while the flag is set.

## Main definitions

* `World.RequestPending` : the two flags of an outstanding request.
* `World.Serves` : a confirmation that answers the request.
* `World.KeepsRequest` : no incomplete observation is confirmed while a request is outstanding.

## Main results

* `World.request_survives_or_served` : along guarded runs the request stays until it is served.
* `World.explicitRequest_lost` : a run that loses a request.
-/

namespace ApiTruth.Environment

open TransitionSystem List Except

/-! ### What the operations can do to the rows -/

namespace Database

variable {db db' : Database} {stateHash : HashedState → String} {id : EventIdentity}

/-- Recording finds an earlier row, or inserts one under the classification of the event. -/
theorem recordServingObservation_cases {result : RecordServingResult}
    (h : db.recordServingObservation stateHash id = .ok (db', result)) :
    (∃ prior, db.observations id = some prior ∧ db' = db) ∨
    ∃ event fingerprint current, db.events id = some event ∧ db.observations id = none ∧
      db.activeConfig = some fingerprint ∧ db.currentEvent = .ok current ∧
      db' = db.recordClassified id event (classification stateHash fingerprint current event) := by
  unfold recordServingObservation at h
  cases hevent : db.events id with
  | none => simp only [hevent, reduceCtorEq] at h
  | some event =>
    cases hprior : db.observations id with
    | some prior =>
      simp only [hevent, hprior, ok.injEq, Prod.mk.injEq] at h
      exact .inl ⟨prior, rfl, h.1.symm⟩
    | none =>
      cases hactive : db.activeConfig with
      | none => simp only [hevent, hprior, hactive, reduceCtorEq] at h
      | some fingerprint =>
        cases hcurrent : db.currentEvent with
        | error e => simp only [hevent, hprior, hactive, hcurrent, reduceCtorEq] at h
        | ok current =>
          simp only [hevent, hprior, hactive, hcurrent, ok.injEq, Prod.mk.injEq] at h
          exact .inr ⟨event, fingerprint, current, rfl, rfl, rfl, rfl, h.1.symm⟩

variable {ticket : ServingReconciliationTicket}

/-- Confirming leaves the rows alone, or applies an unrecorded event under a valid ticket. -/
theorem confirmServingReconciliation_cases {outcome : ConfirmOutcome}
    (h : db.confirmServingReconciliation ticket id = .ok (db', outcome)) :
    (db' = db ∧ outcome ≠ .applied) ∨
    ∃ event checkpoint, db.events id = some event ∧ db.checkpoint = some checkpoint ∧
      db.ticketIsValid ticket event = true ∧ db.observations id = none ∧
      db' = db.applyConfirmation id event checkpoint ∧
      outcome = if event.isComplete then .applied else .pending := by
  unfold confirmServingReconciliation at h
  cases hevent : db.events id with
  | none => simp only [hevent, reduceCtorEq] at h
  | some event =>
    cases hcheckpoint : db.checkpoint with
    | none =>
      simp only [hevent, hcheckpoint, ok.injEq, Prod.mk.injEq] at h
      exact .inl ⟨h.1.symm, by simp [← h.2]⟩
    | some checkpoint =>
      cases hvalid : db.ticketIsValid ticket event with
      | false =>
        simp only [hevent, hcheckpoint, hvalid, Bool.not_false, ↓reduceIte, ok.injEq,
          Prod.mk.injEq] at h
        exact .inl ⟨h.1.symm, by simp [← h.2]⟩
      | true =>
        cases hprior : db.observations id with
        | some prior =>
          simp only [hevent, hcheckpoint, hvalid, hprior, Bool.not_true, Bool.false_eq_true,
            ↓reduceIte, ok.injEq, Prod.mk.injEq] at h
          refine .inl ⟨h.1.symm, ?_⟩
          rw [← h.2]
          split <;> simp
        | none =>
          simp only [hevent, hcheckpoint, hvalid, hprior, Bool.not_true, Bool.false_eq_true,
            ↓reduceIte, ok.injEq, Prod.mk.injEq] at h
          exact .inr ⟨event, checkpoint, rfl, rfl, hvalid, rfl, h.1.symm, h.2.symm⟩

@[simp] theorem checkpoint_insertServingObservation (event : ServingEvent)
    (disposition : Disposition) :
    (db.insertServingObservation id event disposition).checkpoint = db.checkpoint := rfl

end Database

/-! ### The checkpoint version -/

namespace Database

variable (db : Database)

/-- The version of the checkpoint row, zero while there is none. -/
def checkpointVersion : ℕ := (db.checkpoint.map Checkpoint.version).getD 0

/-- The scope has a checkpoint whose reconciliation is required. -/
def reconciliationRequired : Bool := db.checkpoint.any Checkpoint.reconciliationRequired

variable (id : EventIdentity)

theorem checkpointVersion_applyObservation (needs : Bool) :
    db.checkpointVersion < (db.applyObservation id needs).checkpointVersion := by
  cases h : db.checkpoint <;> simp [checkpointVersion, applyObservation, h]

theorem checkpointVersion_requireReconciliation :
    db.checkpointVersion < (db.requireReconciliation id).checkpointVersion := by
  cases h : db.checkpoint <;> simp [checkpointVersion, requireReconciliation, h]

variable (event : ServingEvent)

theorem checkpointVersion_recordClassified (classified : ServingObservationClassification) :
    db.checkpointVersion ≤ (db.recordClassified id event classified).checkpointVersion := by
  cases classified with
  | apply => exact (checkpointVersion_applyObservation _ _ _).le
  | reconcile => exact (checkpointVersion_requireReconciliation _ _).le
  | stale => exact le_rfl
  | replay => exact le_rfl

theorem checkpointVersion_applyConfirmation {checkpoint : Checkpoint}
    (h : db.checkpoint = some checkpoint) (id : EventIdentity) (event : ServingEvent) :
    db.checkpointVersion ≤ (db.applyConfirmation id event checkpoint).checkpointVersion := by
  simp [checkpointVersion, applyConfirmation, h]

theorem checkpointVersion_requestReconciliation (h : db.isConfigured = true) :
    db.checkpointVersion < db.requestReconciliation.checkpointVersion := by
  cases hcp : db.checkpoint <;> simp [checkpointVersion, requestReconciliation, h, hcp]

theorem checkpointVersion_seedCheckpoint :
    db.checkpointVersion ≤ db.seedCheckpoint.checkpointVersion := by
  cases hcp : db.checkpoint with
  | none => simp [checkpointVersion, hcp]
  | some checkpoint => simp [checkpointVersion, seedCheckpoint, hcp]

theorem checkpointVersion_refreshCheckpoint (reconcileAfterMs : ℕ) :
    db.checkpointVersion ≤ (db.refreshCheckpoint reconcileAfterMs).checkpointVersion := by
  cases hcp : db.checkpoint with
  | none => simp [checkpointVersion, hcp]
  | some checkpoint =>
    simp only [refreshCheckpoint, hcp]
    split <;> simp [checkpointVersion, hcp]

theorem checkpoint_ingestEvent :
    (db.ingestEvent id event).checkpoint = db.checkpoint := by
  unfold ingestEvent
  split
  · split <;> rfl
  · rfl

theorem version_of_getPending (h : db.getPendingServingReconciliation = some ticket) :
    ticket.version = db.checkpointVersion := by
  unfold getPendingServingReconciliation at h
  split at h
  · rename_i checkpoint fingerprint hcp hactive
    split at h
    · simp only [Option.some.injEq] at h
      simp [← h, checkpointVersion, hcp]
    · simp at h
  · simp at h

end Database

namespace World

variable (stateHash : HashedState → String)

variable (world : World)

variable (action : Action)

theorem checkpointVersion_perform :
    world.db.checkpointVersion ≤ (world.perform stateHash action).db.checkpointVersion := by
  cases action with
  | tick milliseconds => exact le_rfl
  | activate fingerprint => exact le_rfl
  | ingest id event =>
    simp only [perform, Database.checkpointVersion, Database.checkpoint_ingestEvent, le_refl]
  | request =>
    by_cases h : world.db.isConfigured = true
    · exact (world.db.checkpointVersion_requestReconciliation h).le
    · simp [perform, Database.requestReconciliation, h]
  | record id =>
    simp only [perform, commit]
    split
    · rename_i db result h
      rcases Database.recordServingObservation_cases h with
        ⟨prior, -, rfl⟩ | ⟨event, fingerprint, current, -, -, -, -, rfl⟩
      · exact le_rfl
      · exact Database.checkpointVersion_recordClassified _ _ _ _
    · exact le_rfl
  | getPending => exact le_rfl
  | confirm ticket id =>
    simp only [perform, commit]
    split
    · split
      · rename_i db result h
        rcases Database.confirmServingReconciliation_cases h with
          ⟨rfl, -⟩ | ⟨event, checkpoint, -, hcp, -, -, rfl, -⟩
        · exact le_rfl
        · exact Database.checkpointVersion_applyConfirmation _ hcp _ _
      · exact le_rfl
    · exact le_rfl
  | seed => exact world.db.checkpointVersion_seedCheckpoint
  | refresh reconcileAfterMs => exact world.db.checkpointVersion_refreshCheckpoint _

theorem tickets_perform (h : ticket ∈ (world.perform stateHash action).tickets) :
    ticket ∈ world.tickets ∨
      action = .getPending ∧ world.db.getPendingServingReconciliation = some ticket := by
  cases action with
  | getPending =>
    simp only [perform, mem_append, Option.mem_toList] at h
    exact h.symm.imp id fun h => ⟨rfl, h⟩
  | record id =>
    simp only [perform, commit] at h
    split at h <;> exact .inl h
  | confirm other id =>
    simp only [perform, commit] at h
    split at h
    · split at h <;> exact .inl h
    · exact .inl h
  | tick milliseconds => exact .inl h
  | activate fingerprint => exact .inl h
  | ingest id event => exact .inl h
  | request => exact .inl h
  | seed => exact .inl h
  | refresh reconcileAfterMs => exact .inl h

/-- Every ticket handed out so far carries a version the checkpoint has reached. -/
def TicketsBounded (world : World) : Prop :=
  ∀ ticket ∈ world.tickets, ticket.version ≤ world.db.checkpointVersion

theorem ticketsBounded_step (next : World) (h : world.TicketsBounded)
    (hstep : Step stateHash world action next) :
    next.TicketsBounded := by
  subst hstep
  intro ticket hticket
  have hmono := world.checkpointVersion_perform stateHash action
  rcases world.tickets_perform stateHash action hticket with hold | ⟨-, hnew⟩
  · exact (h ticket hold).trans hmono
  · exact (world.db.version_of_getPending hnew).le.trans hmono

theorem ticketsBounded_of_reachable {world : World}
    (h : Reachable (Step stateHash) IsInitial world) : world.TicketsBounded := by
  refine h.invariant (fun w hw => ?_) (ticketsBounded_step stateHash)
  intro ticket hticket
  rw [hw.2.2.2] at hticket
  simp at hticket

end World

/-! ### An outstanding request -/

def Checkpoint.RequestPending (checkpoint : Checkpoint) : Prop :=
  checkpoint.reconciliationRequired = true ∧ checkpoint.explicitReconciliationRequested = true

/-- The scope has a checkpoint with an outstanding explicit request. -/
def Database.RequestPending (db : Database) : Prop :=
  ∃ checkpoint, db.checkpoint = some checkpoint ∧ checkpoint.RequestPending

namespace Database

theorem RequestPending.required {db : Database} (h : db.RequestPending) :
    db.reconciliationRequired = true := by
  obtain ⟨checkpoint, hcp, hreq, -⟩ := h
  simp [reconciliationRequired, hcp, hreq]

theorem requestPending_requestReconciliation {db : Database} (h : db.isConfigured = true) :
    db.requestReconciliation.RequestPending := by
  cases hcp : db.checkpoint <;>
    simp [RequestPending, Checkpoint.RequestPending, requestReconciliation, h, hcp]

theorem RequestPending.recordClassified {db : Database} (h : db.RequestPending)
    (id : EventIdentity) (event : ServingEvent)
    (classified : ServingObservationClassification) :
    (db.recordClassified id event classified).RequestPending := by
  obtain ⟨checkpoint, hcp, hreq, hexplicit⟩ := h
  cases classified <;>
    simp [RequestPending, Checkpoint.RequestPending, Database.recordClassified,
      applyObservation, requireReconciliation, insertServingObservation, hcp, hreq, hexplicit]

end Database

namespace World

variable (stateHash : HashedState → String)

/-- The action is a confirmation that answers a request: its ticket was handed out, its event is
complete and known, and it is applied. -/
def Serves (world : World) (action : Action) : Prop :=
  ∃ ticket id event db, action = .confirm ticket id ∧ ticket ∈ world.tickets ∧
    world.db.events id = some event ∧ event.isComplete = true ∧
    world.db.confirmServingReconciliation ticket id = .ok (db, .applied)

/-- No incomplete observation is confirmed under a valid ticket while an explicit request is
outstanding. -/
def KeepsRequest (world : World) (action : Action) : Prop :=
  ∀ ticket id event checkpoint, action = .confirm ticket id → world.db.events id = some event →
    world.db.checkpoint = some checkpoint → world.db.ticketIsValid ticket event = true →
    checkpoint.explicitReconciliationRequested = true → event.isComplete = true

/-- The run contains a confirmation that answers a request, under a ticket handed out earlier in
the same run. -/
def ServedWithin (world : World) (actions : List Action) : Prop :=
  ∃ before between ticket id after issuing confirming,
    actions = before ++ .getPending :: between ++ .confirm ticket id :: after ∧
    Run (Step stateHash) world before issuing ∧
    issuing.db.getPendingServingReconciliation = some ticket ∧
    Run (Step stateHash) issuing (.getPending :: between) confirming ∧
    confirming.Serves (.confirm ticket id)

theorem requestPending_step (world : World) (action : Action) (next : World)
    (h : world.db.RequestPending)
    (hstep : Guarded (Step stateHash) KeepsRequest world action next) :
    next.db.RequestPending ∨ world.Serves action := by
  obtain ⟨rfl, hkeep⟩ := hstep
  obtain ⟨checkpoint, hcp, hreq, hexplicit⟩ := id h
  cases action with
  | tick milliseconds => exact .inl h
  | activate fingerprint => exact .inl h
  | getPending => exact .inl h
  | ingest id event =>
    refine .inl ⟨checkpoint, ?_, hreq, hexplicit⟩
    simpa only [perform, Database.checkpoint_ingestEvent] using hcp
  | request =>
    by_cases hconf : world.db.isConfigured = true
    · exact .inl (Database.requestPending_requestReconciliation hconf)
    · exact .inl (by simpa [perform, Database.requestReconciliation, hconf] using h)
  | record id =>
    refine .inl ?_
    simp only [perform, commit]
    split
    · rename_i db result hrecord
      rcases Database.recordServingObservation_cases hrecord with
        ⟨prior, -, rfl⟩ | ⟨event, fingerprint, current, -, -, -, -, rfl⟩
      · exact h
      · exact h.recordClassified _ _ _
    · exact h
  | confirm ticket id =>
    by_cases hticket : ticket ∈ world.tickets
    · simp only [perform, hticket, ↓reduceIte, commit]
      split
      · rename_i db result hconfirm
        rcases Database.confirmServingReconciliation_cases hconfirm with
          ⟨rfl, -⟩ | ⟨event, cp, hevent, hcp', hvalid, -, rfl, hresult⟩
        · exact .inl h
        · -- the guard leaves only complete observations here, and these serve the request
          have heq : cp = checkpoint := Option.some.inj (hcp'.symm.trans hcp)
          have hcomplete := hkeep ticket id event cp rfl hevent hcp' hvalid (heq ▸ hexplicit)
          rw [hcomplete, if_pos rfl] at hresult
          exact .inr ⟨ticket, id, event, _, rfl, hticket, hevent, hcomplete, hresult ▸ hconfirm⟩
      · exact .inl h
    · exact .inl (by simpa only [perform, hticket, ↓reduceIte] using h)
  | seed => exact .inl (by simpa only [perform, Database.seedCheckpoint, hcp] using h)
  | refresh reconcileAfterMs =>
    exact .inl (by simpa [perform, Database.refreshCheckpoint, hcp, hreq] using h)

theorem ticketIsValid_of_serves {world : World} {id : EventIdentity}
    (h : world.Serves (.confirm ticket id)) :
    ticket ∈ world.tickets ∧ ticket.version = world.db.checkpointVersion := by
  obtain ⟨ticket', id', event, db, heq, hticket, hevent, -, hconfirm⟩ := h
  cases heq
  refine ⟨hticket, ?_⟩
  rcases Database.confirmServingReconciliation_cases hconfirm with
    ⟨-, hne⟩ | ⟨event', checkpoint, -, hcp, hvalid, -, -, -⟩
  · exact absurd rfl hne
  · simp only [Database.ticketIsValid, hcp, Bool.and_eq_true, beq_iff_eq] at hvalid
    simp [Database.checkpointVersion, hcp, hvalid.1.1.1]

/-- An explicit request is never lost along a run that confirms no incomplete observation while
the request is outstanding: the reconciliation stays required until a complete and known
observation is confirmed under a ticket handed out after the request. -/
theorem request_survives_or_served {start final : World} {actions : List Action}
    (hreach : Reachable (Step stateHash) IsInitial start)
    (hconfigured : start.db.isConfigured = true)
    (hrun : Run (Guarded (Step stateHash) KeepsRequest)
      (start.perform stateHash .request) actions final) :
    final.db.reconciliationRequired = true ∨
      (start.perform stateHash .request).ServedWithin stateHash actions := by
  have hpending : (start.perform stateHash .request).db.RequestPending :=
    Database.requestPending_requestReconciliation hconfigured
  rcases hrun.holds_or_escapes (requestPending_step stateHash) hpending with
    hfinal | ⟨pre, action, post, confirming, rfl, hpre, -, hserves⟩
  · exact .inl hfinal.required
  obtain ⟨ticket, id, event, db, rfl, -⟩ := id hserves
  obtain ⟨hticket, hversion⟩ := ticketIsValid_of_serves hserves
  -- the ticket is newer than every ticket handed out before the request
  have hpre' := hpre.of_guarded
  have hnew : ticket ∉ (start.perform stateHash .request).tickets := by
    intro hold
    have hbound := ticketsBounded_of_reachable stateHash hreach ticket hold
    have hlt := start.db.checkpointVersion_requestReconciliation hconfigured
    have hle := hpre'.invariant (I := fun w =>
        (start.perform stateHash .request).db.checkpointVersion ≤ w.db.checkpointVersion)
      (fun w a w' h hs => h.trans (hs ▸ w.checkpointVersion_perform stateHash a)) le_rfl
    exact absurd (hversion ▸ hbound) (not_le.mpr (hlt.trans_le hle))
  rcases hpre'.exists_crossing (P := fun w => ticket ∈ w.tickets) hticket with
    hold | ⟨before, issue, between, issuing, issued, rfl, hbefore, hnot, hissue, hin, hbetween⟩
  · exact absurd hold hnew
  · have hissued := hissue ▸ hin
    rcases issuing.tickets_perform stateHash issue hissued with hold | ⟨rfl, hget⟩
    · exact absurd hold hnot
    · exact .inr ⟨before, between, ticket, id, post, issuing, confirming,
        by simp, hbefore, hget, .cons hissue hbetween, hserves⟩

/-! ### A run that loses a request -/

def unobservedScope : World where
  db := { clock := 0, activeConfig := some "config-a", configured := (· == "config-a"),
          events := fun _ => none, observations := fun _ => none, checkpoint := none }
  tickets := []

/-- An observation of provider `deploy` with the given completeness, state and order. -/
def deployObservation (completeness : Completeness) (servingState : ServingState)
    (effectiveOrder : String) : ServingEvent where
  provider := "deploy"
  source := ⟨"cluster", "reference", "internal"⟩
  completeness := completeness
  effectiveOrder := effectiveOrder
  rollbackRequestId := none
  servingState := servingState
  activeConfigFingerprint := "config-a"

def incompleteId : EventIdentity := ⟨"deploy", "incomplete-5"⟩

/-- A later complete observation, delivered without any ticket. -/
def passiveId : EventIdentity := ⟨"deploy", "passive-6"⟩

/-- The scope after the incomplete answer was ingested. -/
def observedScope : World :=
  unobservedScope.perform reprStr <|
    .ingest incompleteId (deployObservation .incomplete (.unknown "unavailable" none) "5")

/-- The incomplete answer is confirmed, then a passive observation is recorded. -/
def losingActions : List Action :=
  [.getPending, .confirm ⟨none, 1, "config-a"⟩ incompleteId,
    .ingest passiveId (deployObservation .complete (.known []) "6"), .record passiveId]

theorem run_foldl (world : World) (actions : List Action) :
    Run (Step stateHash) world actions (actions.foldl (perform stateHash) world) := by
  induction actions generalizing world with
  | nil => exact .nil world
  | cons action actions ih => exact .cons rfl (ih _)

theorem observedScope_reachable : Reachable (Step reprStr) IsInitial observedScope :=
  ⟨unobservedScope, _, ⟨rfl, fun _ => rfl, fun _ => rfl, rfl⟩, .cons rfl (.nil _)⟩

theorem losingActions_not_servedWithin :
    ¬ (observedScope.perform reprStr .request).ServedWithin reprStr losingActions := by
  rintro ⟨before, between, ticket, id, after, issuing, confirming, hactions, hbefore, -,
    hbetween, hserves⟩
  -- the only ticket is issued by the first action and the only confirmation is the second
  have hnil : before = [] := by
    cases before with
    | nil => rfl
    | cons first before => simp [losingActions, cons_eq_append_iff] at hactions
  subst hnil
  have hbetween_nil : between = [] := by
    cases between with
    | nil => rfl
    | cons first between => simp [losingActions, cons_eq_append_iff] at hactions
  subst hbetween_nil
  simp only [losingActions, nil_append, cons_append, cons.injEq,
    Action.confirm.injEq, true_and] at hactions
  cases hbefore
  cases hbetween with
  | cons hstep hrest =>
    cases hrest
    subst hstep
    obtain ⟨ticket', id', event, db, heq, -, hevent, hcomplete, -⟩ := hserves
    cases heq
    rw [← hactions.1.2] at hevent
    have hincomplete : event.isComplete = false := by
      rw [← Option.some.inj hevent]
      rfl
    simp [hincomplete] at hcomplete

/-- A request can be lost: the incomplete answer clears the explicit flag, and a passive
observation then drops the requirement without any complete confirmation. -/
theorem explicitRequest_lost :
    ¬ ∀ (start final : World) (actions : List Action),
      Reachable (Step reprStr) IsInitial start → start.db.isConfigured = true →
      Run (Step reprStr) (start.perform reprStr .request) actions final →
      final.db.reconciliationRequired = true ∨
        (start.perform reprStr .request).ServedWithin reprStr actions := by
  intro h
  rcases h observedScope _ losingActions observedScope_reachable (by decide)
    (run_foldl reprStr _ losingActions) with hrequired | hserved
  · exact absurd hrequired (by decide)
  · exact losingActions_not_servedWithin hserved

/-- The guarantee at work: a request outlives the delivery of an observation. -/
theorem request_survives_passive_observation :
    ((observedScope.perform reprStr .request).perform reprStr
        (.record incompleteId)).db.reconciliationRequired = true ∨
      (observedScope.perform reprStr .request).ServedWithin reprStr [.record incompleteId] :=
  request_survives_or_served reprStr observedScope_reachable (by decide)
    (.cons ⟨rfl, by rintro _ _ _ _ ⟨⟩⟩ (.nil _))

end World

end ApiTruth.Environment
