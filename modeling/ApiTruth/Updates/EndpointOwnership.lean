import ApiTruth.Foundation.Saturation
import ApiTruth.Updates.Ownership

/-!
# The ownership index of the update planner

The planner attributes evidence and schema components to endpoints.  It first records what the
endpoints, the claims and the scopes of evidence name themselves, and then sweeps over the
dependencies until a sweep records nothing new.

## Main definitions

* `OwnershipState` : the maps while the index is built, and the flag of the loop.
* `buildEndpointOwnershipIndex` : the index.
-/

namespace ApiTruth.Updates

open Json ApiTruth.Ir

inductive OwnershipRoute
  | endpoint
  | parameterPresence
  | requestBodyPresence
  | claim
  | eligibility
  | schema
  | evidenceScope
  | dependencyEvidence
  | dependencySchema
  | dependencyEndpoint
deriving DecidableEq, Repr

/-- `MutableEndpointOwnership`: two sets in the order of their insertions. -/
structure EndpointOwnership where
  evidenceIds : List String := []
  schemaIds : List String := []
deriving DecidableEq, Repr

/-- `Set.add`. -/
def setAdd {α : Type*} [DecidableEq α] (values : List α) (value : α) : List α :=
  if value ∈ values then values else values ++ [value]

@[simp] theorem mem_setAdd {α : Type*} [DecidableEq α] {values : List α} {value x : α} :
    x ∈ setAdd values value ↔ x ∈ values ∨ x = value := by
  unfold setAdd
  split_ifs with h
  · exact ⟨Or.inl, fun hx => hx.elim id fun heq => heq ▸ h⟩
  · rw [List.mem_append, List.mem_singleton]

/-- The maps while the index is built, and whether the current sweep has changed the sets. -/
structure OwnershipState where
  endpointOwnership : OrderedMap String EndpointOwnership := .empty
  evidenceOwnerRoutes : List (String × String × OwnershipRoute) := []
  changed : Bool := false

structure EndpointOwnershipIndex where
  endpointIds : List String
  evidenceOwners : OrderedMap String (List String)
  schemaOwners : OrderedMap String (List String)
  evidenceOwnerRoutes : List (String × String × OwnershipRoute)
  endpointOwnership : OrderedMap String EndpointOwnership

namespace OwnershipState

variable (state : OwnershipState)

def addRoute (evidenceId endpointId : String) (route : OwnershipRoute) : OwnershipState :=
  { state with
    evidenceOwnerRoutes := setAdd state.evidenceOwnerRoutes (evidenceId, endpointId, route) }

/-- `addEvidence`; there is an ownership of the endpoint. -/
def addEvidence (endpointId : String) (route : OwnershipRoute) (evidenceId : String) :
    Option OwnershipState :=
  (state.endpointOwnership.get? endpointId).map fun ownership =>
    { state.addRoute evidenceId endpointId route with
      endpointOwnership := state.endpointOwnership.set endpointId
        { ownership with evidenceIds := setAdd ownership.evidenceIds evidenceId }
      changed := state.changed || decide (evidenceId ∉ ownership.evidenceIds) }

/-- `ownership.schemaIds.add`, with the flag for a new component. -/
def addSchema (endpointId schemaId : String) : Option OwnershipState :=
  (state.endpointOwnership.get? endpointId).map fun ownership =>
    { state with
      endpointOwnership := state.endpointOwnership.set endpointId
        { ownership with schemaIds := setAdd ownership.schemaIds schemaId }
      changed := state.changed || decide (schemaId ∉ ownership.schemaIds) }

/-- `addEvidence` for several pieces of evidence. -/
def addEvidences (endpointId : String) (route : OwnershipRoute) (evidenceIds : List String) :
    Option OwnershipState :=
  evidenceIds.foldlM (fun state evidenceId => state.addEvidence endpointId route evidenceId) state

/-- `addSchemas`: the components that are reached, each with its evidence. -/
def addSchemas (schemas : List (String × SchemaComponent)) (endpointId : String)
    (route : OwnershipRoute) (schemaIds : List String) : Option OwnershipState :=
  (componentClosure schemaIds schemas).foldlM (fun state schemaId => do
    let state ← state.addSchema endpointId schemaId
    let component ← schemas.lookup schemaId
    state.addEvidences endpointId route component.evidenceIds) state

def addEndpoint (schemas : List (String × SchemaComponent)) (endpoint : Endpoint) :
    Option OwnershipState := do
  let id := endpoint.endpointId
  let state : OwnershipState :=
    { state with endpointOwnership := state.endpointOwnership.set id {} }
  let state ← state.addEvidences id .endpoint endpoint.evidenceIds
  let state ← endpoint.parameters.foldlM (fun state parameter =>
    state.addEvidences id .parameterPresence parameter.presence.evidenceIds) state
  let state ← endpoint.requestBodies.foldlM (fun state body =>
    state.addEvidences id .requestBodyPresence body.presence.evidenceIds) state
  state.addSchemas schemas id .schema (endpointSchemaReferences endpoint).dedup

/-- The evidence of a claim about an endpoint, and of its eligibilities. -/
def addClaim (eligibilities : List ExportEligibility) (claim : Claim) : Option OwnershipState :=
  match claim.subject.endpointId with
  | none => some state
  | some endpointId => do
    let state ← state.addEvidences endpointId .claim claim.evidenceIds
    eligibilities.foldlM (fun state eligibility =>
      match eligibility.status with
      | .eligible _ evidenceIds =>
        if eligibility.claimId = claim.claimId then
          state.addEvidences endpointId .eligibility evidenceIds
        else some state
      | .ineligible _ => some state) state

def addScope (evidence : Evidence) : Option OwnershipState :=
  match evidence.scope.endpointId with
  | none => some state
  | some endpointId => state.addEvidence endpointId .evidenceScope evidence.evidenceId

/-- What a dependency gives to its endpoint in the present state. -/
def addDependency (schemas : List (String × SchemaComponent)) (dependency : Dependency) :
    Option OwnershipState := do
  let id := dependency.fromEndpointId
  let state ← state.addEvidences id .dependencyEvidence dependency.evidenceIds
  match dependency.target with
  | .evidence evidenceId => state.addEvidence id .dependencyEvidence evidenceId
  | .schema schemaId => state.addSchemas schemas id .dependencySchema [schemaId]
  | .endpoint endpointId =>
    let target ← state.endpointOwnership.get? endpointId
    let state ← state.addEvidences id .dependencyEndpoint target.evidenceIds
    target.schemaIds.foldlM (fun state schemaId => state.addSchema id schemaId) state

def sweep (snapshot : ContractSnapshot) : Option OwnershipState :=
  snapshot.dependencies.foldlM (fun state dependency =>
    state.addDependency snapshot.schemas dependency) { state with changed := false }

/-- The owners of each identifier. -/
def owners (ids : EndpointOwnership → List String) : OrderedMap String (List String) :=
  state.endpointOwnership.entries.foldl (fun owners entry =>
    (ids entry.2).foldl (fun owners id =>
      owners.set id (setAdd ((owners.get? id).getD []) entry.1)) owners) .empty

/-- The index of the final maps. -/
def index : EndpointOwnershipIndex where
  endpointIds := state.endpointOwnership.keys.insertionSort (· ≤ ·)
  evidenceOwners := state.owners EndpointOwnership.evidenceIds
  schemaOwners := state.owners EndpointOwnership.schemaIds
  evidenceOwnerRoutes := state.evidenceOwnerRoutes
  endpointOwnership := state.endpointOwnership

end OwnershipState

/-- The state before the dependencies are swept. -/
def initialOwnership (snapshot : ContractSnapshot) : Option OwnershipState := do
  let state ← snapshot.endpoints.foldlM (fun state endpoint =>
    state.addEndpoint snapshot.schemas endpoint) ({} : OwnershipState)
  let state ← snapshot.claims.foldlM (fun state claim =>
    state.addClaim snapshot.exportEligibility claim) state
  snapshot.evidence.foldlM OwnershipState.addScope state

/-- `buildEndpointOwnershipIndex`, where the dependencies are swept at most `rounds` times. -/
def buildEndpointOwnershipIndex (rounds : ℕ) (snapshot : ContractSnapshot) :
    Option EndpointOwnershipIndex := do
  let state ← initialOwnership snapshot
  let state ← saturate (OwnershipState.sweep · snapshot) OwnershipState.changed rounds state
  return state.index

end ApiTruth.Updates
