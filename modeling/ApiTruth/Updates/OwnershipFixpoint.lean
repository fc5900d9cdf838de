import ApiTruth.Updates.EndpointOwnership
import Mathlib.Data.Finset.Prod
import Mathlib.Logic.Relation

/-!
# Building the ownership index

Every step of the planner adds attributions to its state and reports whether one of them was new.
What a dependency adds depends on what its target owns at that time, so that the dependencies are
swept until they add nothing.

## Main definitions

* `Attribution`, `OwnershipState.Has` : what a state says about an endpoint.
* `Adds` : a step has added these attributions.
* `Local`, `DependencyFacts` : what an endpoint has of its own, and what a dependency gives it.

## Main results

* `exists_initialOwnership` : the planner starts from what the endpoints have of their own.
* `Swept` : what a sweep over dependencies adds.
-/

namespace ApiTruth.Updates

open Json ApiTruth.Ir List OrderedMap

inductive Attribution
  | evidence (id : String)
  | schema (id : String)
  | route (id : String) (route : OwnershipRoute)
deriving DecidableEq, Repr

/-- The flag of the loop watches the two sets, not the routes. -/
def Attribution.IsOwned : Attribution → Prop
  | .route _ _ => False
  | _ => True

def OwnershipState.Has (state : OwnershipState) (endpointId : String) : Attribution → Prop
  | .evidence id => ∃ ownership, state.endpointOwnership.get? endpointId = some ownership ∧
      id ∈ ownership.evidenceIds
  | .schema id => ∃ ownership, state.endpointOwnership.get? endpointId = some ownership ∧
      id ∈ ownership.schemaIds
  | .route id route => (id, endpointId, route) ∈ state.evidenceOwnerRoutes

def OwnershipState.Registers (state : OwnershipState) (endpointIds : List String) : Prop :=
  ∀ id ∈ endpointIds, (state.endpointOwnership.get? id).isSome = true

/-! ### Steps -/

/-- A step has added attributions to a state, and has set the flag if an owned one was new. -/
structure Adds (added : String → Attribution → Prop) (state state' : OwnershipState) : Prop where
  endpoints : ∀ id, (state'.endpointOwnership.get? id).isSome =
    (state.endpointOwnership.get? id).isSome
  has : ∀ id x, state'.Has id x ↔ state.Has id x ∨ added id x
  changed : state'.changed = true ↔
    state.changed = true ∨ ∃ id x, x.IsOwned ∧ added id x ∧ ¬ state.Has id x

namespace Adds

variable {added added' : String → Attribution → Prop} {state state' state'' : OwnershipState}

theorem refl (state : OwnershipState) : Adds (fun _ _ => False) state state where
  endpoints _ := rfl
  has _ _ := by rw [or_false]
  changed := by simp

theorem congr (h : Adds added state state') (heq : ∀ id x, added id x ↔ added' id x) :
    Adds added' state state' := by
  obtain rfl : added = added' := funext₂ fun id x => propext (heq id x)
  exact h

theorem trans (h : Adds added state state') (h' : Adds added' state' state'') :
    Adds (fun id x => added id x ∨ added' id x) state state'' where
  endpoints id := (h'.endpoints id).trans (h.endpoints id)
  has id x := by rw [h'.has, h.has, or_assoc]
  changed := by
    rw [h'.changed, h.changed, or_assoc]
    refine or_congr_right ⟨?_, ?_⟩
    · rintro (⟨id, x, hx, hadded, hnew⟩ | ⟨id, x, hx, hadded, hnew⟩)
      · exact ⟨id, x, hx, .inl hadded, hnew⟩
      · exact ⟨id, x, hx, .inr hadded, fun hold => hnew ((h.has id x).mpr (.inl hold))⟩
    · rintro ⟨id, x, hx, hadded, hnew⟩
      by_cases hfirst : added id x
      · exact .inl ⟨id, x, hx, hfirst, hnew⟩
      · refine .inr ⟨id, x, hx, hadded.resolve_left hfirst, fun hhas => ?_⟩
        exact ((h.has id x).mp hhas).elim hnew hfirst

variable {endpointIds : List String}

theorem registers (h : Adds added state state') (hstate : state.Registers endpointIds) :
    state'.Registers endpointIds :=
  fun id hid => (h.endpoints id).trans (hstate id hid)

end Adds

theorem adds_foldlM {α : Type*} {added : α → String → Attribution → Prop}
    {step : OwnershipState → α → Option OwnershipState} (values : List α)
    (hstep : ∀ value ∈ values, ∀ state : OwnershipState, state.Registers endpointIds → ∃ state', step state value = some state' ∧ Adds (added value) state state')
    {state : OwnershipState} (hstate : state.Registers endpointIds) :
    ∃ state', values.foldlM step state = some state' ∧
      Adds (fun id x => ∃ value ∈ values, added value id x) state state' := by
  induction values generalizing state with
  | nil => exact ⟨state, rfl, (Adds.refl state).congr (by simp)⟩
  | cons value values ih =>
    obtain ⟨state₁, hfirst, hadds₁⟩ := hstep value mem_cons_self state hstate
    obtain ⟨state₂, hrest, hadds₂⟩ :=
      ih (fun v hv => hstep v (mem_cons_of_mem _ hv)) (hadds₁.registers hstate)
    refine ⟨state₂, ?_, (hadds₁.trans hadds₂).congr (by simp)⟩
    rw [foldlM_cons, hfirst]
    exact hrest

/-! ### Attributions of the steps -/

def Evidenced (evidenceIds : List String) (route : OwnershipRoute) (x : Attribution) : Prop :=
  ∃ id ∈ evidenceIds, x = .evidence id ∨ x = .route id route

/-- The components that the given ones reach, with their evidence. -/
def Composed (schemas : List (String × SchemaComponent)) (schemaIds : List String)
    (route : OwnershipRoute) (x : Attribution) : Prop :=
  ∃ id ∈ componentClosure schemaIds schemas, x = .schema id ∨
    ∃ component, schemas.lookup id = some component ∧ Evidenced component.evidenceIds route x

/-- What an endpoint inherits from the target of a dependency. -/
def Inherited (owned : Attribution → Prop) : Attribution → Prop
  | .evidence id => owned (.evidence id)
  | .schema id => owned (.schema id)
  | .route id route => route = .dependencyEndpoint ∧ owned (.evidence id)

variable {state : OwnershipState} {endpointId : String}

namespace OwnershipState

theorem isSome_get?_set {ownership : EndpointOwnership}
    (hown : state.endpointOwnership.get? endpointId = some ownership) (own : EndpointOwnership)
    (id : String) : ((state.endpointOwnership.set endpointId own).get? id).isSome =
      (state.endpointOwnership.get? id).isSome := by
  rw [get?_set]
  split_ifs with hid
  · rw [hid, hown]
    rfl
  · rfl

variable {endpointIds : List String}

section

variable (hstate : state.Registers endpointIds) (hid : endpointId ∈ endpointIds)
include hstate hid

theorem adds_addEvidence (route : OwnershipRoute) (evidenceId : String) :
    ∃ state', state.addEvidence endpointId route evidenceId = some state' ∧
      Adds (fun id x => id = endpointId ∧ Evidenced [evidenceId] route x) state state' := by
  obtain ⟨ownership, hown⟩ := Option.isSome_iff_exists.mp (hstate endpointId hid)
  refine ⟨_, by rw [addEvidence, hown]; rfl, isSome_get?_set hown _, fun id x => ?_, ?_⟩
  · cases x with
    | evidence other =>
      by_cases heq : id = endpointId
      · subst heq
        simp [Has, get?_set, hown, Evidenced]
      · simp [Has, get?_set, heq]
    | schema other =>
      by_cases heq : id = endpointId
      · subst heq
        simp [Has, get?_set, hown, Evidenced]
      · simp [Has, get?_set, heq]
    | route other route' =>
      simp only [Has, addRoute, mem_setAdd, Prod.mk.injEq, Evidenced, mem_singleton]
      simp
      tauto
  · simp only [Bool.or_eq_true, decide_eq_true_eq]
    refine or_congr_right ⟨fun hnew => ⟨endpointId, .evidence evidenceId, trivial,
      ⟨rfl, evidenceId, mem_singleton_self _, .inl rfl⟩, ?_⟩, ?_⟩
    · rintro ⟨own, hget, hmem⟩
      rw [hown, Option.some.injEq] at hget
      exact hnew (hget ▸ hmem)
    · rintro ⟨id, x, hx, ⟨rfl, other, hother, rfl | rfl⟩, hnew⟩ hmem
      · rw [List.mem_singleton.mp hother] at hnew
        exact hnew ⟨ownership, hown, hmem⟩
      · exact hx

theorem adds_addSchema (schemaId : String) :
    ∃ state', state.addSchema endpointId schemaId = some state' ∧
      Adds (fun id x => id = endpointId ∧ x = .schema schemaId) state state' := by
  obtain ⟨ownership, hown⟩ := Option.isSome_iff_exists.mp (hstate endpointId hid)
  refine ⟨_, by rw [addSchema, hown]; rfl, isSome_get?_set hown _, fun id x => ?_, ?_⟩
  · cases x with
    | evidence other =>
      by_cases heq : id = endpointId
      · subst heq
        simp [Has, get?_set, hown]
      · simp [Has, get?_set, heq]
    | schema other =>
      by_cases heq : id = endpointId
      · subst heq
        simp [Has, get?_set, hown]
      · simp [Has, get?_set, heq]
    | route other route' => simp [Has]
  · simp only [Bool.or_eq_true, decide_eq_true_eq]
    refine or_congr_right ⟨fun hnew => ⟨endpointId, .schema schemaId, trivial, ⟨rfl, rfl⟩, ?_⟩, ?_⟩
    · rintro ⟨own, hget, hmem⟩
      rw [hown, Option.some.injEq] at hget
      exact hnew (hget ▸ hmem)
    · rintro ⟨id, x, hx, ⟨rfl, rfl⟩, hnew⟩ hmem
      exact hnew ⟨ownership, hown, hmem⟩

theorem adds_addEvidences (route : OwnershipRoute) (evidenceIds : List String) :
    ∃ state', state.addEvidences endpointId route evidenceIds = some state' ∧
      Adds (fun id x => id = endpointId ∧ Evidenced evidenceIds route x) state state' := by
  obtain ⟨state', hstate', hadds⟩ := adds_foldlM evidenceIds
    (fun evidenceId _ st hst => adds_addEvidence hst hid route evidenceId) hstate
  refine ⟨state', hstate', hadds.congr fun id x => ?_⟩
  simp only [Evidenced, mem_singleton]
  constructor
  · rintro ⟨_, hmem, hid, evidenceId, rfl, hx⟩
    exact ⟨hid, evidenceId, hmem, hx⟩
  · rintro ⟨hid, evidenceId, hmem, hx⟩
    exact ⟨evidenceId, hmem, hid, evidenceId, rfl, hx⟩

theorem adds_addSchemas (schemas : List (String × SchemaComponent))
    (route : OwnershipRoute) (schemaIds : List String) :
    ∃ state', state.addSchemas schemas endpointId route schemaIds = some state' ∧
      Adds (fun id x => id = endpointId ∧ Composed schemas schemaIds route x) state state' := by
  have hstep : ∀ schemaId ∈ componentClosure schemaIds schemas, ∀ st : OwnershipState,
      st.Registers endpointIds → ∃ st', (do
        let st ← st.addSchema endpointId schemaId
        let component ← schemas.lookup schemaId
        st.addEvidences endpointId route component.evidenceIds) = some st' ∧
      Adds (fun id x => id = endpointId ∧ (x = .schema schemaId ∨
        ∃ component, schemas.lookup schemaId = some component ∧
          Evidenced component.evidenceIds route x)) st st' := by
    intro schemaId hschema st hst
    obtain ⟨component, hcomponent⟩ :=
      exists_lookup_of_mem_keys (mem_componentClosure.mp hschema).2
    obtain ⟨st₁, hfirst, hadds₁⟩ := adds_addSchema hst hid schemaId
    obtain ⟨st₂, hsecond, hadds₂⟩ :=
      adds_addEvidences (hadds₁.registers hst) hid route component.evidenceIds
    refine ⟨st₂, ?_, (hadds₁.trans hadds₂).congr fun id x => ?_⟩
    · rw [Option.bind_eq_bind, hfirst, Option.bind_some, Option.bind_eq_bind, hcomponent]
      exact hsecond
    · simp only [hcomponent, Option.some.injEq, exists_eq_left', and_or_left]
  obtain ⟨state', hstate', hadds⟩ := adds_foldlM _ hstep hstate
  refine ⟨state', hstate', hadds.congr fun id x => ?_⟩
  exact ⟨fun ⟨schemaId, hmem, hid, hx⟩ => ⟨hid, schemaId, hmem, hx⟩,
    fun ⟨hid, schemaId, hmem, hx⟩ => ⟨schemaId, hmem, hid, hx⟩⟩

end

end OwnershipState

/-! ### What an endpoint has of its own -/

def EndpointFacts (schemas : List (String × SchemaComponent)) (endpoint : Endpoint)
    (x : Attribution) : Prop :=
  Evidenced endpoint.evidenceIds .endpoint x ∨
    (∃ parameter ∈ endpoint.parameters,
      Evidenced parameter.presence.evidenceIds .parameterPresence x) ∨
    (∃ body ∈ endpoint.requestBodies,
      Evidenced body.presence.evidenceIds .requestBodyPresence x) ∨
    Composed schemas (endpointSchemaReferences endpoint).dedup .schema x

def ClaimFacts (eligibilities : List ExportEligibility) (claim : Claim) (endpointId : String)
    (x : Attribution) : Prop :=
  claim.subject.endpointId = some endpointId ∧ (Evidenced claim.evidenceIds .claim x ∨
    ∃ eligibility ∈ eligibilities, eligibility.claimId = claim.claimId ∧
      ∃ kind ids, eligibility.status = .eligible kind ids ∧ Evidenced ids .eligibility x)

/-- What the scope of a piece of evidence names. -/
def ScopeFacts (evidence : Evidence) (endpointId : String) (x : Attribution) : Prop :=
  evidence.scope.endpointId = some endpointId ∧ Evidenced [evidence.evidenceId] .evidenceScope x

/-- What a dependency gives to its endpoint, whatever other endpoints own. -/
def TargetFacts (schemas : List (String × SchemaComponent)) (dependency : Dependency)
    (x : Attribution) : Prop :=
  Evidenced dependency.evidenceIds .dependencyEvidence x ∨
    (∃ id, dependency.target = .evidence id ∧ Evidenced [id] .dependencyEvidence x) ∨
    ∃ id, dependency.target = .schema id ∧ Composed schemas [id] .dependencySchema x

/-- What a dependency gives to its endpoint, with what its target owns; an endpoint that depends on
itself inherits what the dependency has just given it. -/
def DependencyFacts (schemas : List (String × SchemaComponent)) (dependency : Dependency)
    (owned : String → Attribution → Prop) (endpointId : String) (x : Attribution) : Prop :=
  endpointId = dependency.fromEndpointId ∧ (TargetFacts schemas dependency x ∨
    ∃ id, dependency.target = .endpoint id ∧ Inherited (fun y => owned id y ∨
      id = dependency.fromEndpointId ∧ TargetFacts schemas dependency y) x)

namespace OwnershipState

variable (schemas : List (String × SchemaComponent))

theorem adds_addEndpoint {endpoint : Endpoint}
    (hnew : state.endpointOwnership.get? endpoint.endpointId = none) :
    ∃ state', state.addEndpoint schemas endpoint = some state' ∧
      (∀ id, (state'.endpointOwnership.get? id).isSome =
        ((state.endpointOwnership.get? id).isSome || decide (id = endpoint.endpointId))) ∧
      ∀ id x, state'.Has id x ↔ state.Has id x ∨
        id = endpoint.endpointId ∧ EndpointFacts schemas endpoint x := by
  set registered : OwnershipState := { state with
    endpointOwnership := state.endpointOwnership.set endpoint.endpointId {} } with hregistered
  have hget (id : String) : registered.endpointOwnership.get? id =
      if id = endpoint.endpointId then some {} else state.endpointOwnership.get? id :=
    get?_set _ _ _ _
  have hids : registered.Registers [endpoint.endpointId] := by
    intro id hid
    rw [hget, if_pos (List.mem_singleton.mp hid)]
    rfl
  have hhas (id : String) (x : Attribution) : registered.Has id x ↔ state.Has id x := by
    cases x with
    | route other route => rfl
    | evidence other =>
      simp only [Has, hget]
      split_ifs with hid
      · rw [hid, hnew]
        simp
      · rfl
    | schema other =>
      simp only [Has, hget]
      split_ifs with hid
      · rw [hid, hnew]
        simp
      · rfl
  have hmem := mem_singleton_self endpoint.endpointId
  obtain ⟨st₁, h₁, hadds₁⟩ := adds_addEvidences hids hmem .endpoint endpoint.evidenceIds
  obtain ⟨st₂, h₂, hadds₂⟩ := adds_foldlM endpoint.parameters
    (fun parameter _ st hst =>
      adds_addEvidences hst hmem .parameterPresence parameter.presence.evidenceIds)
    (hadds₁.registers hids)
  obtain ⟨st₃, h₃, hadds₃⟩ := adds_foldlM endpoint.requestBodies
    (fun body _ st hst =>
      adds_addEvidences hst hmem .requestBodyPresence body.presence.evidenceIds)
    ((hadds₁.trans hadds₂).registers hids)
  obtain ⟨st₄, h₄, hadds₄⟩ := adds_addSchemas (((hadds₁.trans hadds₂).trans hadds₃).registers hids)
    hmem schemas .schema (endpointSchemaReferences endpoint).dedup
  have hadds := ((hadds₁.trans hadds₂).trans hadds₃).trans hadds₄
  refine ⟨st₄, ?_, fun id => ?_, fun id x => ?_⟩
  · simp only [addEndpoint, ← hregistered, Option.bind_eq_bind, h₁, h₂, h₃, Option.bind_some]
    exact h₄
  · rw [hadds.endpoints, hget]
    split_ifs with hid
    · simp [hid]
    · simp [hid]
  · rw [hadds.has, hhas, EndpointFacts]
    refine or_congr_right ⟨?_, ?_⟩
    · rintro (((⟨rfl, h⟩ | ⟨parameter, hparameter, rfl, h⟩) | ⟨body, hbody, rfl, h⟩) | ⟨rfl, h⟩)
      · exact ⟨rfl, .inl h⟩
      · exact ⟨rfl, .inr (.inl ⟨parameter, hparameter, h⟩)⟩
      · exact ⟨rfl, .inr (.inr (.inl ⟨body, hbody, h⟩))⟩
      · exact ⟨rfl, .inr (.inr (.inr h))⟩
    · rintro ⟨rfl, h | ⟨parameter, hparameter, h⟩ | ⟨body, hbody, h⟩ | h⟩
      · exact .inl (.inl (.inl ⟨rfl, h⟩))
      · exact .inl (.inl (.inr ⟨parameter, hparameter, rfl, h⟩))
      · exact .inl (.inr ⟨body, hbody, rfl, h⟩)
      · exact .inr ⟨rfl, h⟩

theorem exists_addEndpoints {endpoints : List Endpoint}
    (hnodup : (endpoints.map Endpoint.endpointId).Nodup)
    (hnew : ∀ endpoint ∈ endpoints, state.endpointOwnership.get? endpoint.endpointId = none) :
    ∃ state', endpoints.foldlM (fun state endpoint => state.addEndpoint schemas endpoint) state =
        some state' ∧
      (∀ id, (state'.endpointOwnership.get? id).isSome =
        ((state.endpointOwnership.get? id).isSome ||
          decide (id ∈ endpoints.map Endpoint.endpointId))) ∧
      ∀ id x, state'.Has id x ↔ state.Has id x ∨
        ∃ endpoint ∈ endpoints, id = endpoint.endpointId ∧ EndpointFacts schemas endpoint x := by
  induction endpoints generalizing state with
  | nil => exact ⟨state, rfl, by simp, by simp⟩
  | cons endpoint endpoints ih =>
    rw [map_cons, nodup_cons] at hnodup
    obtain ⟨st₁, h₁, hids₁, hhas₁⟩ := adds_addEndpoint schemas (hnew endpoint mem_cons_self)
    obtain ⟨st₂, h₂, hids₂, hhas₂⟩ := ih hnodup.2 fun other hother => by
      have hne : other.endpointId ≠ endpoint.endpointId := fun heq =>
        hnodup.1 (heq ▸ List.mem_map_of_mem hother)
      have h := hids₁ other.endpointId
      rw [hnew other (mem_cons_of_mem _ hother)] at h
      simpa [hne] using h
    refine ⟨st₂, ?_, fun id => ?_, fun id x => ?_⟩
    · rw [foldlM_cons, h₁]
      exact h₂
    · rw [hids₂, hids₁, map_cons, Bool.or_assoc]
      simp only [mem_cons, Bool.decide_or]
    · rw [hhas₂, hhas₁, exists_mem_cons_iff, or_assoc]

/-- The evidence of an eligibility, if it is one of the claim's. -/
def addEligibility (state : OwnershipState) (endpointId claimId : String)
    (eligibility : ExportEligibility) : Option OwnershipState :=
  match eligibility.status with
  | .eligible _ evidenceIds =>
    if eligibility.claimId = claimId then
      state.addEvidences endpointId .eligibility evidenceIds
    else some state
  | .ineligible _ => some state

section

variable {endpointIds : List String} (hstate : state.Registers endpointIds)
include hstate

theorem adds_addEligibility
    {endpointId : String} (hid : endpointId ∈ endpointIds) (claimId : String)
    (eligibility : ExportEligibility) :
    ∃ state', state.addEligibility endpointId claimId eligibility = some state' ∧
      Adds (fun id x => id = endpointId ∧ eligibility.claimId = claimId ∧
        ∃ kind ids, eligibility.status = .eligible kind ids ∧ Evidenced ids .eligibility x)
        state state' := by
  unfold addEligibility
  cases hstatus : eligibility.status with
  | ineligible reason => exact ⟨state, rfl, (Adds.refl state).congr (by simp)⟩
  | eligible kind ids =>
    by_cases heq : eligibility.claimId = claimId
    · obtain ⟨state', hstate', hadds⟩ := adds_addEvidences hstate hid .eligibility ids
      refine ⟨state', by simpa [heq] using hstate', hadds.congr fun id x => ?_⟩
      simp [heq]
    · exact ⟨state, by simp [heq], (Adds.refl state).congr (by simp [heq])⟩

theorem adds_addClaim (eligibilities : List ExportEligibility) {claim : Claim}
    (hclaim : ∀ id, claim.subject.endpointId = some id → id ∈ endpointIds) :
    ∃ state', state.addClaim eligibilities claim = some state' ∧
      Adds (ClaimFacts eligibilities claim) state state' := by
  unfold addClaim
  cases hsubject : claim.subject.endpointId with
  | none => exact ⟨state, rfl, (Adds.refl state).congr (by simp [ClaimFacts, hsubject])⟩
  | some endpointId =>
    have hid := hclaim endpointId hsubject
    obtain ⟨st₁, h₁, hadds₁⟩ := adds_addEvidences hstate hid .claim claim.evidenceIds
    obtain ⟨st₂, h₂, hadds₂⟩ := adds_foldlM eligibilities (fun eligibility _ st hst =>
      adds_addEligibility hst hid claim.claimId eligibility) (hadds₁.registers hstate)
    refine ⟨st₂, ?_, (hadds₁.trans hadds₂).congr fun id x => ?_⟩
    · simp only [Option.bind_eq_bind, h₁, Option.bind_some]
      exact h₂
    · rw [ClaimFacts, hsubject, Option.some.injEq]
      constructor
      · rintro (⟨rfl, h⟩ | ⟨eligibility, hmem, rfl, h⟩)
        · exact ⟨rfl, .inl h⟩
        · exact ⟨rfl, .inr ⟨eligibility, hmem, h⟩⟩
      · rintro ⟨rfl, h | ⟨eligibility, hmem, h⟩⟩
        · exact .inl ⟨rfl, h⟩
        · exact .inr ⟨eligibility, hmem, rfl, h⟩

theorem adds_addScope
    {evidence : Evidence} (hscope : ∀ id, evidence.scope.endpointId = some id → id ∈ endpointIds) :
    ∃ state', state.addScope evidence = some state' ∧ Adds (ScopeFacts evidence) state state' := by
  unfold addScope
  cases hid : evidence.scope.endpointId with
  | none => exact ⟨state, rfl, (Adds.refl state).congr (by simp [ScopeFacts, hid])⟩
  | some endpointId =>
    obtain ⟨state', hstate', hadds⟩ :=
      adds_addEvidence hstate (hscope endpointId hid) .evidenceScope evidence.evidenceId
    refine ⟨state', hstate', hadds.congr fun id x => ?_⟩
    rw [ScopeFacts, hid, Option.some.injEq, eq_comm]

end

end OwnershipState

/-- What the endpoints, the claims and the scopes of a snapshot name. -/
inductive InitialFacts (snapshot : ContractSnapshot) : String → Attribution → Prop
  | endpoint {endpoint : Endpoint} {x : Attribution} (mem : endpoint ∈ snapshot.endpoints)
      (facts : EndpointFacts snapshot.schemas endpoint x) :
      InitialFacts snapshot endpoint.endpointId x
  | claim {claim : Claim} {id : String} {x : Attribution} (mem : claim ∈ snapshot.claims)
      (facts : ClaimFacts snapshot.exportEligibility claim id x) : InitialFacts snapshot id x
  | scope {evidence : Evidence} {id : String} {x : Attribution} (mem : evidence ∈ snapshot.evidence)
      (facts : ScopeFacts evidence id x) : InitialFacts snapshot id x

/-- The planner starts from what the endpoints have of their own. -/
theorem exists_initialOwnership {snapshot : ContractSnapshot}
    (hnodup : snapshot.endpointIds.Nodup)
    (hclaims : ∀ claim ∈ snapshot.claims, ∀ id, claim.subject.endpointId = some id →
      id ∈ snapshot.endpointIds)
    (hscopes : ∀ evidence ∈ snapshot.evidence, ∀ id, evidence.scope.endpointId = some id →
      id ∈ snapshot.endpointIds) :
    ∃ state, initialOwnership snapshot = some state ∧
      (∀ id, (state.endpointOwnership.get? id).isSome = decide (id ∈ snapshot.endpointIds)) ∧
      ∀ id x, state.Has id x ↔ InitialFacts snapshot id x := by
  obtain ⟨st₁, h₁, hids₁, hhas₁⟩ := @OwnershipState.exists_addEndpoints {}
    snapshot.schemas _ hnodup fun _ _ => rfl
  have hregisters : st₁.Registers snapshot.endpointIds := by
    intro id hid
    rw [hids₁]
    exact decide_eq_true hid
  obtain ⟨st₂, h₂, hadds₂⟩ := adds_foldlM snapshot.claims
    (fun claim hclaim st hst =>
      @OwnershipState.adds_addClaim st _ hst snapshot.exportEligibility claim (hclaims claim hclaim))
    hregisters
  obtain ⟨st₃, h₃, hadds₃⟩ := adds_foldlM snapshot.evidence
    (fun evidence hevidence st hst =>
      @OwnershipState.adds_addScope st _ hst evidence (hscopes evidence hevidence))
    (hadds₂.registers hregisters)
  refine ⟨st₃, ?_, fun id => ?_, fun id x => ?_⟩
  · rw [initialOwnership, h₁, Option.bind_eq_bind, Option.bind_some, h₂]
    exact h₃
  · rw [hadds₃.endpoints, hadds₂.endpoints, hids₁]
    rfl
  · have hempty : ¬ ({} : OwnershipState).Has id x := by
      cases x <;> simp [OwnershipState.Has]
    rw [hadds₃.has, hadds₂.has, hhas₁, or_iff_right hempty]
    constructor
    · rintro ((⟨endpoint, hmem, rfl, h⟩ | ⟨claim, hmem, h⟩) | ⟨evidence, hmem, h⟩)
      · exact .endpoint hmem h
      · exact .claim hmem h
      · exact .scope hmem h
    · rintro (⟨hmem, h⟩ | ⟨hmem, h⟩ | ⟨hmem, h⟩)
      · exact .inl (.inl ⟨_, hmem, rfl, h⟩)
      · exact .inl (.inr ⟨_, hmem, h⟩)
      · exact .inr ⟨_, hmem, h⟩

/-! ### Dependencies -/

variable {x : Attribution} {owned owned' : String → Attribution → Prop}
  {schemas : List (String × SchemaComponent)}

theorem Inherited.mono {owned owned' : Attribution → Prop}
    (hle : ∀ y, owned y → owned' y) (h : Inherited owned x) : Inherited owned' x := by
  cases x with
  | evidence id => exact hle _ h
  | schema id => exact hle _ h
  | route id route => exact ⟨h.1, hle _ h.2⟩

variable {dependency : Dependency}

theorem DependencyFacts.mono {id : String}
    (hle : ∀ id y, owned id y → owned' id y) (h : DependencyFacts schemas dependency owned id x) :
    DependencyFacts schemas dependency owned' id x :=
  ⟨h.1, h.2.imp_right fun ⟨target, htarget, hx⟩ =>
    ⟨target, htarget, hx.mono fun y => Or.imp_left (hle target y)⟩⟩

/-- The endpoints that a dependency joins are among these. -/
def Dependency.Joins (dependency : Dependency) (endpointIds : List String) : Prop :=
  dependency.fromEndpointId ∈ endpointIds ∧
    ∀ id, dependency.target = .endpoint id → id ∈ endpointIds

namespace OwnershipState

variable {endpointIds : List String}

theorem adds_inherited (hstate : state.Registers endpointIds)
    (hid : endpointId ∈ endpointIds) {targetId : String} {target : EndpointOwnership}
    (htarget : state.endpointOwnership.get? targetId = some target) :
    ∃ state', (do
        let state ← state.addEvidences endpointId .dependencyEndpoint target.evidenceIds
        target.schemaIds.foldlM (fun state schemaId => state.addSchema endpointId schemaId)
          state) = some state' ∧
      Adds (fun id x => id = endpointId ∧ Inherited (state.Has targetId) x) state state' := by
  obtain ⟨st₁, h₁, hadds₁⟩ := adds_addEvidences hstate hid .dependencyEndpoint target.evidenceIds
  obtain ⟨st₂, h₂, hadds₂⟩ := adds_foldlM target.schemaIds
    (fun schemaId _ st hst => adds_addSchema hst hid schemaId) (hadds₁.registers hstate)
  refine ⟨st₂, ?_, (hadds₁.trans hadds₂).congr fun id x => ?_⟩
  · rw [h₁, Option.bind_eq_bind]
    exact h₂
  · cases x with
    | evidence other => simp [Evidenced, Inherited, Has, htarget]
    | schema other => simp [Evidenced, Inherited, Has, htarget, and_comm]
    | route other route => simp [Evidenced, Inherited, Has, htarget, and_comm]

theorem adds_addDependency (hstate : state.Registers endpointIds)
    (schemas : List (String × SchemaComponent)) (hjoins : Dependency.Joins dependency endpointIds) :
    ∃ state', state.addDependency schemas dependency = some state' ∧
      Adds (DependencyFacts schemas dependency state.Has) state state' := by
  obtain ⟨hid, htargets⟩ := hjoins
  obtain ⟨st₁, h₁, hadds₁⟩ :=
    adds_addEvidences hstate hid .dependencyEvidence dependency.evidenceIds
  have hregisters := hadds₁.registers hstate
  unfold addDependency
  simp only [h₁, Option.bind_eq_bind, Option.bind_some]
  cases htarget : dependency.target with
  | evidence evidenceId =>
    obtain ⟨st₂, h₂, hadds₂⟩ := adds_addEvidence hregisters hid .dependencyEvidence evidenceId
    refine ⟨st₂, h₂, (hadds₁.trans hadds₂).congr fun id x => ?_⟩
    simp [DependencyFacts, TargetFacts, htarget, and_or_left]
  | schema schemaId =>
    obtain ⟨st₂, h₂, hadds₂⟩ := adds_addSchemas hregisters hid schemas .dependencySchema [schemaId]
    refine ⟨st₂, h₂, (hadds₁.trans hadds₂).congr fun id x => ?_⟩
    simp [DependencyFacts, TargetFacts, htarget, and_or_left]
  | endpoint targetId =>
    obtain ⟨target, htargetOwn⟩ :=
      Option.isSome_iff_exists.mp (hregisters targetId (htargets targetId htarget))
    obtain ⟨st₂, h₂, hadds₂⟩ := adds_inherited hregisters hid htargetOwn
    refine ⟨st₂, by simpa [htargetOwn] using h₂, (hadds₁.trans hadds₂).congr fun id x => ?_⟩
    have htarget' (y : Attribution) : TargetFacts schemas dependency y ↔
        Evidenced dependency.evidenceIds .dependencyEvidence y := by
      simp [TargetFacts, htarget]
    have hown : st₁.Has targetId = fun y => state.Has targetId y ∨
        targetId = dependency.fromEndpointId ∧
          Evidenced dependency.evidenceIds .dependencyEvidence y :=
      funext fun y => propext (hadds₁.has targetId y)
    simp only [DependencyFacts, htarget', htarget, DependencyTarget.endpoint.injEq,
      exists_eq_left', and_or_left, hown]

end OwnershipState

/-! ### Sweeps -/

/-- What a sweep over dependencies has done: it has kept everything and stayed in every set that
the dependencies do not leave; when it reports no change it has given all dependencies their due. -/
structure Swept (schemas : List (String × SchemaComponent)) (dependencies : List Dependency)
    (state state' : OwnershipState) : Prop where
  endpoints : ∀ id, (state'.endpointOwnership.get? id).isSome =
    (state.endpointOwnership.get? id).isSome
  keeps : ∀ id x, state.Has id x → state'.Has id x
  sound : ∀ owned : String → Attribution → Prop, (∀ dependency ∈ dependencies, ∀ id x,
    DependencyFacts schemas dependency owned id x → owned id x) →
    (∀ id x, state.Has id x → owned id x) → ∀ id x, state'.Has id x → owned id x
  grows : state'.changed = true → state.changed = true ∨
    ∃ id x, x.IsOwned ∧ state'.Has id x ∧ ¬ state.Has id x
  settles : state'.changed = false → state.changed = false ∧
    (∀ id x, x.IsOwned → state'.Has id x → state.Has id x) ∧ ∀ dependency ∈ dependencies,
      ∀ id x, DependencyFacts schemas dependency state.Has id x → state'.Has id x

theorem Inherited.congr {owned owned' : Attribution → Prop}
    (heq : ∀ y, y.IsOwned → (owned y ↔ owned' y)) : Inherited owned x ↔ Inherited owned' x := by
  cases x with
  | evidence id => exact heq _ trivial
  | schema id => exact heq _ trivial
  | route id route => exact and_congr_right fun _ => heq (.evidence id) trivial

theorem DependencyFacts.congr
    (heq : ∀ id y, y.IsOwned → (owned id y ↔ owned' id y)) {id : String} {x : Attribution} :
    DependencyFacts schemas dependency owned id x ↔
      DependencyFacts schemas dependency owned' id x :=
  and_congr_right fun _ => or_congr_right <| exists_congr fun target =>
    and_congr_right fun _ => Inherited.congr fun y hy => or_congr_left (heq target y hy)

variable (schemas : List (String × SchemaComponent))

theorem swept_nil (state : OwnershipState) :
    Swept schemas [] state state where
  endpoints _ := rfl
  keeps _ _ := id
  sound _ _ hstate := hstate
  grows := Or.inl
  settles h := ⟨h, fun _ _ _ => id, fun _ hmem => absurd hmem not_mem_nil⟩

theorem Swept.cons {schemas : List (String × SchemaComponent)} {dependency : Dependency}
    {dependencies : List Dependency} {state state' state'' : OwnershipState}
    (hfirst : Adds (DependencyFacts schemas dependency state.Has) state state')
    (hrest : Swept schemas dependencies state' state'') :
    Swept schemas (dependency :: dependencies) state state'' where
  endpoints id := (hrest.endpoints id).trans (hfirst.endpoints id)
  keeps id x hhas := hrest.keeps id x ((hfirst.has id x).mpr (.inl hhas))
  sound owned hclosed hstate := by
    refine hrest.sound owned (fun d hd => hclosed d (mem_cons_of_mem _ hd)) fun id x hx => ?_
    refine ((hfirst.has id x).mp hx).elim (hstate id x) fun hadded => ?_
    exact hclosed dependency mem_cons_self id x (hadded.mono hstate)
  grows hchanged := by
    refine (hrest.grows hchanged).elim (fun hchanged' => ?_) fun ⟨id, x, hx, hhas, hnew⟩ => ?_
    · refine (hfirst.changed.mp hchanged').imp_right fun ⟨id, x, hx, hadded, hnew⟩ => ?_
      exact ⟨id, x, hx, hrest.keeps id x ((hfirst.has id x).mpr (.inr hadded)), hnew⟩
    · exact .inr ⟨id, x, hx, hhas, fun hold => hnew ((hfirst.has id x).mpr (.inl hold))⟩
  settles hchanged := by
    obtain ⟨hchanged', hsame, hgiven⟩ := hrest.settles hchanged
    have hnone : ¬ (state.changed = true ∨ ∃ id x, x.IsOwned ∧
        DependencyFacts schemas dependency state.Has id x ∧ ¬ state.Has id x) :=
      fun h => by simp [hfirst.changed.mpr h] at hchanged'
    have hsame' (id : String) (x : Attribution) (hx : x.IsOwned) :
        state'.Has id x ↔ state.Has id x := by
      refine ⟨fun hhas => ?_, fun hhas => (hfirst.has id x).mpr (.inl hhas)⟩
      refine ((hfirst.has id x).mp hhas).elim (fun h => h) fun hadded => ?_
      by_contra hnew
      exact hnone (.inr ⟨id, x, hx, hadded, hnew⟩)
    refine ⟨by simpa using fun h => hnone (.inl h),
      fun id x hx hhas => (hsame' id x hx).mp (hsame id x hx hhas), ?_⟩
    intro d hd id x hx
    rcases List.mem_cons.mp hd with rfl | hd
    · exact hrest.keeps id x ((hfirst.has id x).mpr (.inr hx))
    · exact hgiven d hd id x ((DependencyFacts.congr fun id y hy => hsame' id y hy).mpr hx)

theorem exists_swept {dependencies : List Dependency}
    (hjoins : ∀ dependency ∈ dependencies, Dependency.Joins dependency endpointIds)
    {state : OwnershipState} (hstate : state.Registers endpointIds) :
    ∃ state', dependencies.foldlM (fun state dependency =>
        state.addDependency schemas dependency) state = some state' ∧
      Swept schemas dependencies state state' := by
  induction dependencies generalizing state with
  | nil => exact ⟨state, rfl, swept_nil schemas state⟩
  | cons dependency dependencies ih =>
    obtain ⟨st₁, h₁, hadds₁⟩ := OwnershipState.adds_addDependency hstate schemas
      (hjoins dependency mem_cons_self)
    obtain ⟨st₂, h₂, hswept⟩ := ih (fun d hd => hjoins d (mem_cons_of_mem _ hd))
      (hadds₁.registers hstate)
    refine ⟨st₂, ?_, .cons hadds₁ hswept⟩
    rw [foldlM_cons, h₁]
    exact h₂

end ApiTruth.Updates
