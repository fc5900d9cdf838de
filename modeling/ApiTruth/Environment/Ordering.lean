import ApiTruth.Foundation.Decimal
import Mathlib.Data.List.Sort

/-!
# Classification of serving observations

A deployment adapter reports what an environment serves as a `serving_observation` event.  This
file models such events and `classifyServingObservation`, which places an incoming observation
with respect to the current one of the same repository, service and environment.

The hash of the observed state is a parameter: the code compares two digests, so the model only
needs the value that is hashed, `HashedState`.

## Main definitions

* `ServingEvent` : a stored serving observation with the configuration it was ingested under.
* `classifyServingObservation` : apply, stale, replay or reconcile.
-/

namespace ApiTruth.Environment

/-- A revision reference of a deployment payload. -/
inductive Revision
  | known (revision : String)
  | unknown (reason : String)
deriving DecidableEq, Repr

/-- One served artifact with the revision it was built from. -/
structure InventoryItem where
  artifactId : String
  revision : Revision
deriving DecidableEq, Repr

/-- The `serving_state` of an observation. -/
inductive ServingState
  | known (inventory : List InventoryItem)
  | unknown (reason : String) (observedArtifactIds : Option (List String))
deriving DecidableEq, Repr

/-- The `completeness` of an observation. -/
inductive Completeness
  | complete
  | incomplete
  | transitional
deriving DecidableEq, Repr

/-- The `source` of an observation. -/
structure ObservationSource where
  authorityId : String
  reference : String
  accessLabel : String
deriving DecidableEq, Repr

/-- A `deployment.changed` event of kind `serving_observation`, as stored for one repository,
service and environment, with the configuration that was active when it was ingested. -/
structure ServingEvent where
  provider : String
  source : ObservationSource
  completeness : Completeness
  effectiveOrder : String
  rollbackRequestId : Option String
  servingState : ServingState
  activeConfigFingerprint : String
deriving DecidableEq, Repr

namespace ServingState

/-- The state is `known`. -/
def isKnown : ServingState → Bool
  | known _ => true
  | unknown _ _ => false

/-- The artifact ids of a known inventory, in the order of the payload. -/
def artifactIds : ServingState → List String
  | known inventory => inventory.map InventoryItem.artifactId
  | unknown _ _ => []

end ServingState

namespace ServingEvent

/-- The semantic part of `parseEvent` for serving observations: only a complete inventory may be
empty, a complete observation is known, and an artifact appears once. -/
def isValid (event : ServingEvent) : Bool :=
  (!(event.servingState == .known []) || event.completeness == .complete)
    && (event.servingState.isKnown || event.completeness != .complete)
    && decide event.servingState.artifactIds.Nodup

/-- The observation is complete and its serving state is known. -/
def isComplete (event : ServingEvent) : Bool :=
  event.completeness == .complete && event.servingState.isKnown

end ServingEvent

/-! ### Order of observations -/

/-- `/^(0|[1-9][0-9]*)$/`. -/
def canonicalDecimal (text : String) : Bool := Decimal.isCanonical text

/-- Orders two canonical decimals: digit count first, then digit order. -/
def compareDecimal (current incoming : String) : Decimal.Order :=
  Decimal.compare current incoming

/-- The value hashed by `stateHash`: everything of the payload that a replay must repeat. -/
structure HashedState where
  completeness : Completeness
  sourceAccessLabel : String
  servingState : ServingState
  rollbackRequestId : Option String
deriving DecidableEq, Repr

/-- The value hashed by `stateHash`, with a known inventory sorted by artifact id. -/
def hashedState (event : ServingEvent) : HashedState where
  completeness := event.completeness
  sourceAccessLabel := event.source.accessLabel
  servingState := match event.servingState with
    | .known inventory => .known (inventory.insertionSort (·.artifactId ≤ ·.artifactId))
    | .unknown reason observed => .unknown reason observed
  rollbackRequestId := event.rollbackRequestId

/-- The outcome of `classifyServingObservation`. -/
inductive ServingObservationClassification
  | apply
  | stale
  | replay
  | reconcile
deriving DecidableEq, Repr

/-- Places an incoming observation with respect to the current one.  Both belong to one
repository, service and environment, which the code checks first. -/
def classifyServingObservation (stateHash : HashedState → String)
    (current : Option ServingEvent) (incoming : ServingEvent) :
    ServingObservationClassification :=
  if !canonicalDecimal incoming.effectiveOrder then .reconcile
  else match current with
    | none => .apply
    | some current =>
      if current.provider ≠ incoming.provider
          ∨ current.source.authorityId ≠ incoming.source.authorityId
          ∨ !canonicalDecimal current.effectiveOrder then .reconcile
      else match compareDecimal current.effectiveOrder incoming.effectiveOrder with
        | .newer => .apply
        | .older => .stale
        | .equal =>
          if current.source.reference = incoming.source.reference
              ∧ stateHash (hashedState current) = stateHash (hashedState incoming)
          then .replay else .reconcile

end ApiTruth.Environment
