import ApiTruth.Environment.CheckpointInvariant
import Mathlib.Data.Finset.Basic

/-!
# Convergence of serving observations

Observations of one provider and authority, ingested under the active configuration, are compared
by their canonical effective orders.  This file shows that it does not matter in which order and
how often complete observations are recorded: the checkpoint follows the greatest order recorded
so far, so it ends with the greatest one.

## Main definitions

* `Database.Comparable` : a set of observations that are compared by their orders alone.
* `Action.DeliversFrom` : the actions of a delivery, with those of the other writers that record
  nothing.
* `Database.FollowsGreatest` : the invariant, the current observation is the greatest one recorded.

## Main results

* `Database.followsGreatest_transact` : the step lemma.
* `Database.serving_observations_converge` : the checkpoint ends with the greatest observation.
-/

namespace ApiTruth.Environment

open TransitionSystem List Decimal

/-- The action records one of the observations, or records none and neither confirms nor changes
the configuration. -/
def Action.DeliversFrom (ids : Finset EventIdentity) : Action → Prop
  | .record id => id ∈ ids
  | .confirm _ _ | .activate _ => False
  | _ => True

namespace Database

/-- The numeric order of an ingested observation. -/
def orderOf (db : Database) (id : EventIdentity) : ℕ :=
  (db.events id).elim 0 fun event => Decimal.value event.effectiveOrder

/-- The observations are complete, come from one provider and authority, were ingested under the
active configuration and have pairwise distinct canonical orders. -/
structure Comparable (db : Database) (ids : Finset EventIdentity) (provider authorityId : String) :
    Prop where
  ingested : ∀ id ∈ ids, ∃ event, db.events id = some event ∧ event.isComplete = true ∧
    event.provider = provider ∧ event.source.authorityId = authorityId ∧
    canonicalDecimal event.effectiveOrder = true ∧
    db.activeConfig = some event.activeConfigFingerprint
  distinct : ∀ id ∈ ids, ∀ other ∈ ids, db.orderOf id = db.orderOf other → id = other

/-- None of the observations is recorded and no observation is current: there is no checkpoint
yet, or it was only seeded or requested. -/
structure Unobserved (db : Database) (ids : Finset EventIdentity) : Prop where
  current : db.current = none
  unrecorded : ∀ id ∈ ids, db.observations id = none

/-- The current observation is the greatest one of the set that is recorded. -/
structure FollowsGreatest (db : Database) (ids : Finset EventIdentity) : Prop where
  unobserved : db.current = none → ∀ id ∈ ids, db.observations id = none
  greatest : ∀ current, db.current = some current → current ∈ ids ∧
    db.observations current ≠ none ∧
    ∀ id ∈ ids, db.observations id ≠ none → db.orderOf id ≤ db.orderOf current

variable {stateHash : HashedState → String} {db : Database} {ids : Finset EventIdentity}
  {provider authorityId : String}

theorem Unobserved.followsGreatest (h : db.Unobserved ids) : db.FollowsGreatest ids where
  unobserved _ := h.unrecorded
  greatest current hcurrent := by simp [h.current] at hcurrent

/-! ### Actions that record nothing -/

/-- Nothing that the delivery depends on has changed. -/
structure SameServing (db next : Database) : Prop where
  current : next.current = db.current
  observations : next.observations = db.observations
  activeConfig : next.activeConfig = db.activeConfig

variable {action : Action} {id : EventIdentity}

theorem sameServing_of_not_record (stateHash : HashedState → String) (db : Database)
    (hdelivers : action.DeliversFrom ids) (hrecord : ∀ id, action ≠ .record id) :
    db.SameServing (db.transact stateHash action) := by
  cases action with
  | record id => exact absurd rfl (hrecord id)
  | confirm ticket id => exact hdelivers.elim
  | activate fingerprint => exact hdelivers.elim
  | tick milliseconds => exact ⟨rfl, rfl, rfl⟩
  | getPending => exact ⟨rfl, rfl, rfl⟩
  | ingest id event =>
    simp only [transact, World.perform, ingestEvent]
    split
    · split <;> exact ⟨rfl, rfl, rfl⟩
    · exact ⟨rfl, rfl, rfl⟩
  | request =>
    simp only [transact, World.perform, requestReconciliation]
    split
    · refine ⟨?_, rfl, rfl⟩
      cases hcp : db.checkpoint <;> simp [Database.current, hcp]
    · exact ⟨rfl, rfl, rfl⟩
  | seed =>
    simp only [transact, World.perform, seedCheckpoint]
    split
    · exact ⟨rfl, rfl, rfl⟩
    · rename_i hcp
      split
      · exact ⟨by simp [Database.current, hcp], rfl, rfl⟩
      · exact ⟨rfl, rfl, rfl⟩
  | refresh reconcileAfterMs =>
    simp only [transact, World.perform, refreshCheckpoint]
    split
    · exact ⟨rfl, rfl, rfl⟩
    · rename_i checkpoint hcp
      split
      · exact ⟨by simp [Database.current, hcp], rfl, rfl⟩
      · exact ⟨rfl, rfl, rfl⟩

/-! ### Recording one observation -/

theorem Comparable.classify (h : db.Comparable ids provider authorityId) {id other : EventIdentity}
    (hid : id ∈ ids) (hother : other ∈ ids) (hne : other ≠ id) {current event : ServingEvent}
    (hcurrent : db.events other = some current) (hevent : db.events id = some event) :
    classifyServingObservation stateHash (some current) event =
      if db.orderOf other < db.orderOf id then .apply else .stale := by
  obtain ⟨_, hevent', -, hprovider, hauthority, hcanonical, -⟩ := h.ingested id hid
  cases hevent.symm.trans hevent'
  obtain ⟨_, hcurrent', -, hprovider', hauthority', hcanonical', -⟩ := h.ingested other hother
  cases hcurrent.symm.trans hcurrent'
  have horder : db.orderOf id = value event.effectiveOrder := by simp [orderOf, hevent]
  have horder' : db.orderOf other = value current.effectiveOrder := by
    simp [orderOf, hcurrent]
  have hdistinct : db.orderOf other ≠ db.orderOf id := fun heq =>
    hne (h.distinct other hother id hid heq)
  unfold classifyServingObservation
  simp only [hcanonical, hcanonical', hprovider, hprovider', hauthority, hauthority', Bool.not_true,
    Bool.false_eq_true, ne_eq, not_true_eq_false, or_self, ↓reduceIte, compareDecimal]
  cases hcompare : Decimal.compare current.effectiveOrder event.effectiveOrder with
  | newer =>
    have hlt := value_lt_of_precedes hcanonical' hcanonical (compare_eq_newer_iff.mp hcompare)
    simp only [horder, horder', hlt, ↓reduceIte]
  | older =>
    have hlt := value_lt_of_precedes hcanonical hcanonical' (compare_eq_older_iff.mp hcompare)
    simp only [horder, horder', not_lt.mpr hlt.le, ↓reduceIte]
  | equal =>
    refine absurd ?_ hdistinct
    rw [horder, horder', compare_eq_equal_iff.mp hcompare]

theorem transact_record_cases (stateHash : HashedState → String)
    (hcomparable : db.Comparable ids provider authorityId)
    (h : db.FollowsGreatest ids) (hid : id ∈ ids) (hnone : db.observations id = none) :
    ∃ event, db.events id = some event ∧
      ((db.transact stateHash (.record id) = db.recordClassified id event .apply ∧
          ∀ current, db.current = some current → db.orderOf current < db.orderOf id) ∨
        (db.transact stateHash (.record id) = db.recordClassified id event .stale ∧
          ∃ current, db.current = some current ∧ db.orderOf id < db.orderOf current)) := by
  obtain ⟨event, hevent, -, -, -, hcanonical, hactive⟩ := hcomparable.ingested id hid
  refine ⟨event, hevent, ?_⟩
  rw [transact_record]
  cases hcurrent : db.current with
  | none =>
    have hread : db.currentEvent = .ok none := by
      simp only [currentEvent, show db.checkpoint.bind Checkpoint.current = none from hcurrent]
    left
    refine ⟨?_, fun current hsome => by simp at hsome⟩
    rw [afterRecord_of_unrecorded hevent hnone hactive hread]
    simp [classification, classifyServingObservation, hcanonical]
  | some current =>
    obtain ⟨hmem, hrecorded, -⟩ := h.greatest current hcurrent
    obtain ⟨currentEvent, hcurrentEvent, -⟩ := hcomparable.ingested current hmem
    obtain ⟨row, hrow⟩ := Option.ne_none_iff_exists'.mp hrecorded
    have hread : db.currentEvent = .ok (some currentEvent) := by
      simp only [Database.currentEvent, show db.checkpoint.bind Checkpoint.current = some current
        from hcurrent, hcurrentEvent, hrow]
    have hne : current ≠ id := by
      rintro rfl
      exact hrecorded hnone
    have hdistinct : db.orderOf current ≠ db.orderOf id := fun heq =>
      hne (hcomparable.distinct current hmem id hid heq)
    rw [afterRecord_of_unrecorded hevent hnone hactive hread]
    simp only [classification, ↓reduceIte, hcomparable.classify hid hmem hne hcurrentEvent hevent,
      Option.some.injEq, forall_eq', exists_eq_left']
    by_cases hlt : db.orderOf current < db.orderOf id
    · exact .inl ⟨by rw [if_pos hlt], hlt⟩
    · exact .inr ⟨by rw [if_neg hlt], lt_of_le_of_ne (not_lt.mp hlt) hdistinct.symm⟩

/-! ### One action of a delivery -/

theorem orderOf_transact (hcomparable : db.Comparable ids provider authorityId)
    (hid : id ∈ ids) (action : Action) :
    (db.transact stateHash action).orderOf id = db.orderOf id := by
  obtain ⟨event, hevent, -⟩ := hcomparable.ingested id hid
  rw [orderOf, orderOf, events_transact hevent action, hevent]

@[simp] theorem activeConfig_recordClassified (id : EventIdentity) (event : ServingEvent)
    (classified : ServingObservationClassification) :
    (db.recordClassified id event classified).activeConfig = db.activeConfig := by
  cases classified <;> rfl

theorem activeConfig_transact (hdelivers : action.DeliversFrom ids) :
    (db.transact stateHash action).activeConfig = db.activeConfig := by
  by_cases hrecord : ∃ id, action = .record id
  · obtain ⟨id, rfl⟩ := hrecord
    rw [transact_record]
    unfold afterRecord
    split
    · rename_i next result hresult
      rcases recordServingObservation_cases hresult with
        ⟨prior, -, rfl⟩ | ⟨event, fingerprint, current, -, -, -, -, rfl⟩
      · rfl
      · exact activeConfig_recordClassified _ _ _
    · rfl
  · exact (sameServing_of_not_record stateHash db hdelivers fun id heq => hrecord ⟨id, heq⟩).activeConfig

theorem Comparable.transact (h : db.Comparable ids provider authorityId)
    (hdelivers : action.DeliversFrom ids) :
    (db.transact stateHash action).Comparable ids provider authorityId where
  ingested id hid := by
    obtain ⟨event, hevent, hrest⟩ := h.ingested id hid
    rw [activeConfig_transact hdelivers]
    exact ⟨event, events_transact hevent action, hrest⟩
  distinct id hid other hother := by
    rw [orderOf_transact h hid, orderOf_transact h hother]
    exact h.distinct id hid other hother

@[simp] theorem current_recordClassified_apply (id : EventIdentity) (event : ServingEvent) :
    (db.recordClassified id event .apply).current = some id := by
  cases hcp : db.checkpoint <;>
    simp [Database.current, recordClassified, applyObservation, hcp]

@[simp] theorem current_recordClassified_stale (id : EventIdentity) (event : ServingEvent) :
    (db.recordClassified id event .stale).current = db.current := rfl

theorem observations_recordClassified_iff {id other : EventIdentity} {event : ServingEvent}
    (classified : ServingObservationClassification) :
    (db.recordClassified id event classified).observations other ≠ none ↔
      other = id ∨ db.observations other ≠ none := by
  have hupdate : (db.recordClassified id event classified).observations =
      Function.update db.observations id
        (some ⟨classified.disposition, event.activeConfigFingerprint⟩) := by
    cases classified <;> rfl
  rw [hupdate]
  by_cases heq : other = id
  · simp [heq]
  · simp [heq]

theorem recorded_transact (hcomparable : db.Comparable ids provider authorityId)
    (h : db.FollowsGreatest ids) (hdelivers : action.DeliversFrom ids)
    (hid : db.observations id ≠ none ∨ action = .record id) :
    (db.transact stateHash action).observations id ≠ none := by
  by_cases hrecord : ∃ other, action = .record other
  · obtain ⟨other, rfl⟩ := hrecord
    by_cases hnone : db.observations other = none
    · have hmem : id = other ∨ db.observations id ≠ none := by
        rcases hid with hrecorded | heq
        · exact .inr hrecorded
        · exact .inl (Action.record.inj heq).symm
      obtain ⟨event, -, ⟨hnext, -⟩ | ⟨hnext, -⟩⟩ :=
        transact_record_cases stateHash hcomparable h hdelivers hnone <;>
      · rw [hnext, observations_recordClassified_iff]
        exact hmem
    · rw [transact_record, afterRecord_of_recorded hnone]
      rcases hid with hrecorded | heq
      · exact hrecorded
      · exact Action.record.inj heq ▸ hnone
  · rw [(sameServing_of_not_record stateHash db hdelivers fun other heq => hrecord ⟨other, heq⟩).observations]
    exact hid.resolve_right fun heq => hrecord ⟨id, heq⟩

variable {next : Database} {start final : Database} {actions : List Action}

theorem FollowsGreatest.advance (h : db.FollowsGreatest ids)
    (hid : id ∈ ids) (hcurrent : next.current = some id)
    (hrecorded : ∀ other, next.observations other ≠ none ↔
      other = id ∨ db.observations other ≠ none)
    (horder : ∀ other ∈ ids, next.orderOf other = db.orderOf other)
    (hgreater : ∀ current, db.current = some current → db.orderOf current < db.orderOf id) :
    next.FollowsGreatest ids := by
  refine ⟨fun hnone => by simp [hcurrent] at hnone, fun current hsome => ?_⟩
  cases hcurrent.symm.trans hsome
  refine ⟨hid, (hrecorded id).mpr (.inl rfl), fun other hother hother' => ?_⟩
  rw [horder other hother, horder id hid]
  rcases (hrecorded other).mp hother' with rfl | hbefore
  · exact le_rfl
  · -- what was recorded before is at most the former current observation
    cases hformer : db.current with
    | none => exact absurd (h.unobserved hformer other hother) hbefore
    | some former =>
      exact ((h.greatest former hformer).2.2 other hother hbefore).trans (hgreater former hformer).le

/-- The invariant after the current observation stayed and at most a smaller one was recorded. -/
theorem FollowsGreatest.keep (h : db.FollowsGreatest ids) (hcurrent : next.current = db.current)
    (hkept : ∀ other, db.observations other ≠ none → next.observations other ≠ none)
    (hrecorded : ∀ other ∈ ids, next.observations other ≠ none → db.observations other ≠ none ∨
      ∃ current, db.current = some current ∧ db.orderOf other < db.orderOf current)
    (horder : ∀ other ∈ ids, next.orderOf other = db.orderOf other) :
    next.FollowsGreatest ids := by
  refine ⟨fun hnone other hother => ?_, fun current hsome => ?_⟩
  · by_contra hother'
    have hnone' : db.current = none := hcurrent ▸ hnone
    rcases hrecorded other hother hother' with hbefore | ⟨current, hsome, -⟩
    · exact hbefore (h.unobserved hnone' other hother)
    · simp [hnone'] at hsome
  · have hsome' : db.current = some current := hcurrent ▸ hsome
    obtain ⟨hmem, hin, hgreatest⟩ := h.greatest current hsome'
    refine ⟨hmem, hkept current hin, fun other hother hother' => ?_⟩
    rw [horder other hother, horder current hmem]
    rcases hrecorded other hother hother' with hbefore | ⟨former, hformer, hless⟩
    · exact hgreatest other hother hbefore
    · cases hformer.symm.trans hsome'
      exact hless.le

/-- The current observation stays the greatest one recorded. -/
theorem followsGreatest_transact (hcomparable : db.Comparable ids provider authorityId)
    (h : db.FollowsGreatest ids) (hdelivers : action.DeliversFrom ids) :
    (db.transact stateHash action).FollowsGreatest ids := by
  have horder : ∀ other ∈ ids, (db.transact stateHash action).orderOf other = db.orderOf other :=
    fun other hother => orderOf_transact hcomparable hother action
  by_cases hrecord : ∃ id, action = .record id
  · obtain ⟨id, rfl⟩ := hrecord
    by_cases hnone : db.observations id = none
    · obtain ⟨event, -, ⟨hnext, hgreater⟩ | ⟨hnext, current, hcurrent, hless⟩⟩ :=
        transact_record_cases stateHash hcomparable h hdelivers hnone <;>
        rw [hnext] at horder ⊢
      · exact h.advance hdelivers (current_recordClassified_apply id event)
          (fun other => observations_recordClassified_iff _) horder hgreater
      · refine h.keep rfl (fun other hother => ?_) (fun other _ hother => ?_) horder
        · exact (observations_recordClassified_iff _).mpr (.inr hother)
        · rcases (observations_recordClassified_iff _).mp hother with rfl | hbefore
          · exact .inr ⟨current, hcurrent, hless⟩
          · exact .inl hbefore
    · rw [transact_record, afterRecord_of_recorded hnone]
      exact h
  · have hsame := sameServing_of_not_record stateHash db hdelivers fun id heq => hrecord ⟨id, heq⟩
    refine h.keep hsame.current (fun other hother => ?_) (fun other _ hother => .inl ?_) horder
    · rwa [hsame.observations]
    · rwa [hsame.observations] at hother

theorem current_transact (hcomparable : db.Comparable ids provider authorityId)
    (h : db.FollowsGreatest ids) (hdelivers : action.DeliversFrom ids)
    {current : EventIdentity} (hcurrent : db.current = some current) :
    (db.transact stateHash action).current = some current ∨
      ∃ id ∈ ids, (db.transact stateHash action).current = some id ∧
        db.orderOf current < db.orderOf id := by
  by_cases hrecord : ∃ id, action = .record id
  · obtain ⟨id, rfl⟩ := hrecord
    by_cases hnone : db.observations id = none
    · obtain ⟨event, -, ⟨hnext, hgreater⟩ | ⟨hnext, -⟩⟩ :=
        transact_record_cases stateHash hcomparable h hdelivers hnone
      · refine .inr ⟨id, hdelivers, ?_, hgreater current hcurrent⟩
        rw [hnext, current_recordClassified_apply]
      · left
        rw [hnext, current_recordClassified_stale, hcurrent]
    · left
      rw [transact_record, afterRecord_of_recorded hnone, hcurrent]
  · left
    rw [(sameServing_of_not_record stateHash db hdelivers fun id heq => hrecord ⟨id, heq⟩).current, hcurrent]

/-! ### Deliveries -/

section

variable (hcomparable : start.Comparable ids provider authorityId) (h : start.FollowsGreatest ids)
  (hdelivers : ∀ action ∈ actions, action.DeliversFrom ids)
include hcomparable h hdelivers

theorem followsGreatest_run (hrun : Run (Step stateHash) start actions final) :
    final.Comparable ids provider authorityId ∧ final.FollowsGreatest ids ∧
      (∀ id ∈ ids, final.orderOf id = start.orderOf id) ∧
      ∀ id, start.observations id ≠ none → final.observations id ≠ none := by
  refine (hrun.guarded hdelivers).invariant
    (I := fun db => db.Comparable ids provider authorityId ∧ db.FollowsGreatest ids ∧
      (∀ id ∈ ids, db.orderOf id = start.orderOf id) ∧
      ∀ id, start.observations id ≠ none → db.observations id ≠ none) ?_
    ⟨hcomparable, h, fun _ _ => rfl, fun _ hid => hid⟩
  rintro db action _ ⟨hdb, hfollows, horder, hrecorded⟩ ⟨rfl, haction⟩
  refine ⟨hdb.transact haction, followsGreatest_transact hdb hfollows haction,
    fun id hid => (orderOf_transact hdb hid action).trans (horder id hid), fun id hid => ?_⟩
  exact recorded_transact hdb hfollows haction (.inl (hrecorded id hid))

theorem recorded_of_mem (hrun : Run (Step stateHash) start actions final) {id : EventIdentity}
    (hid : .record id ∈ actions) : final.observations id ≠ none := by
  obtain ⟨before, after, rfl⟩ := append_of_mem hid
  rw [forall_mem_append, forall_mem_cons] at hdelivers
  obtain ⟨hbefore, hrecord, hafter⟩ := hdelivers
  obtain ⟨db, hrunBefore, hrunAfter⟩ := hrun.split
  obtain ⟨hdb, hfollows, -⟩ := followsGreatest_run hcomparable h hbefore hrunBefore
  cases hrunAfter with
  | cons hstep hrest =>
    subst hstep
    exact (followsGreatest_run (hdb.transact hrecord) (followsGreatest_transact hdb hfollows hrecord)
      hafter hrest).2.2.2 id (recorded_transact hdb hfollows hrecord (.inr rfl))

end

/-- Complete observations of one provider, authority and configuration with distinct canonical
orders, recorded in any order and any number of times, leave the one of greatest order current.
On the way the version never decreases, and a current observation is only replaced by one of
greater order. -/
theorem serving_observations_converge (stateHash : HashedState → String) {start final : Database}
    {actions : List Action} (hcomparable : start.Comparable ids provider authorityId)
    (hunobserved : start.Unobserved ids) (hdelivers : ∀ action ∈ actions, action.DeliversFrom ids)
    (hrun : Run (Step stateHash) start actions final) :
    (∀ greatest ∈ ids, (∀ id ∈ ids, .record id ∈ actions) →
      (∀ id ∈ ids, start.orderOf id ≤ start.orderOf greatest) →
        final.current = some greatest) ∧
    ∀ before action after db, actions = before ++ action :: after →
      Run (Step stateHash) start before db →
      db.checkpointVersion ≤ (db.transact stateHash action).checkpointVersion ∧
      ∀ current, db.current = some current →
        (db.transact stateHash action).current = some current ∨
        ∃ id ∈ ids, (db.transact stateHash action).current = some id ∧
          start.orderOf current < start.orderOf id := by
  have hstart := hunobserved.followsGreatest
  constructor
  · intro greatest hmem hall hgreatest
    obtain ⟨-, hfollows, horder, -⟩ := followsGreatest_run hcomparable hstart hdelivers hrun
    have hrecorded := recorded_of_mem hcomparable hstart hdelivers hrun (hall greatest hmem)
    cases hcurrent : final.current with
    | none => exact absurd (hfollows.unobserved hcurrent greatest hmem) hrecorded
    | some current =>
      -- the current observation is at least and at most the greatest one
      obtain ⟨hcurrentMem, -, hle⟩ := hfollows.greatest current hcurrent
      have hge := hle greatest hmem hrecorded
      rw [horder greatest hmem, horder current hcurrentMem] at hge
      rw [hcomparable.distinct current hcurrentMem greatest hmem
        (le_antisymm (hgreatest current hcurrentMem) hge)]
  · rintro before action after db rfl hbefore
    rw [forall_mem_append, forall_mem_cons] at hdelivers
    obtain ⟨hdb, hfollows, horder, -⟩ :=
      followsGreatest_run hcomparable hstart hdelivers.1 hbefore
    refine ⟨checkpointVersion_transact action, fun current hcurrent => ?_⟩
    refine (current_transact hdb hfollows hdelivers.2.1 hcurrent).imp_right ?_
    rintro ⟨id, hid, hnext, hlt⟩
    rw [horder current (hfollows.greatest current hcurrent).1, horder id hid] at hlt
    exact ⟨id, hid, hnext, hlt⟩

def ninthId : EventIdentity := ⟨"deploy", "observation-9"⟩

/-- The observation of greater order, although its order is the smaller text. -/
def tenthId : EventIdentity := ⟨"deploy", "observation-10"⟩

def orderedScope : Database :=
  { World.unobservedScope.db with
    events := fun id =>
      if id = ninthId then some (World.deployObservation .complete (.known []) "9")
      else if id = tenthId then some (World.deployObservation .complete (.known []) "10")
      else none }

/-- Convergence at work: late and repeated deliveries do not displace the greatest order. -/
theorem serving_observations_converge_ninth_tenth :
    (((orderedScope.transact reprStr (.record tenthId)).transact reprStr
      (.record ninthId)).transact reprStr (.record tenthId)).current = some tenthId := by
  have hcomparable : orderedScope.Comparable {ninthId, tenthId} "deploy" "cluster" := by
    constructor
    · simp only [Finset.mem_insert, Finset.mem_singleton, forall_eq_or_imp, forall_eq]
      exact ⟨⟨_, rfl, by decide, rfl, rfl, by decide, rfl⟩, _, rfl, by decide, rfl, rfl,
        by decide, rfl⟩
    · simp only [Finset.mem_insert, Finset.mem_singleton, forall_eq_or_imp, forall_eq]
      decide
  refine (serving_observations_converge reprStr hcomparable ⟨rfl, fun _ _ => rfl⟩ (fun action h => ?_)
    (.cons rfl (.cons rfl (.cons rfl (.nil _))))).1 tenthId (by decide) ?_ ?_
  · simp only [mem_cons, not_mem_nil, or_false] at h
    rcases h with rfl | rfl | rfl <;> simp [Action.DeliversFrom]
  · simp [ninthId, tenthId]
  · simp only [Finset.mem_insert, Finset.mem_singleton, forall_eq_or_imp, forall_eq]
    decide

end Database

end ApiTruth.Environment
