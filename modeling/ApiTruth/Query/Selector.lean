import ApiTruth.Ir.SnapshotJson

/-!
# Query selections

A query selects an environment, a branch or a revision of a service, and is answered with the pin
of the snapshot that the selection resolves to.

## Main definitions

* `QuerySelector`, `QuerySelection`, `QueryPin`.
* `isQuerySelection` : what `parseQuerySelection` accepts.
-/

namespace ApiTruth.Query

open Ir (optionalMember)

/-! ### Selections -/

inductive QuerySelector
  | environment (environment : String) (expectedCheckpointVersion : Option String)
  | branch (branch : String) (expectedPointerVersion : Option String)
  | revision (revision : String)
deriving DecidableEq, Repr

/-- `QuerySelection`, of version `1`. -/
structure QuerySelection where
  tenantId : String
  repositoryId : String
  serviceId : String
  selector : QuerySelector
deriving DecidableEq, Repr

/-- `identifier`: `/^[^\u0000-\u001f\u007f]{1,512}$/`. -/
def isIdentifier (value : String) : Bool :=
  decide (0 < unitLength value) && decide (unitLength value ≤ 512) &&
    value.toList.all fun c => !isControl c

/-- `version`: `/^[1-9][0-9]{0,18}$/`, at most 2⁶³ - 1. -/
def isVersion (value : String) : Bool :=
  Decimal.isCanonical value && value != "0" && decide (value.length ≤ 19) &&
    decide (Decimal.value value ≤ 9223372036854775807)

def QuerySelector.isValid : QuerySelector → Bool
  | environment name version => isIdentifier name && version.all isVersion
  | branch name version => isIdentifier name && version.all isVersion
  | revision value => isIdentifier value

/-- `parseQuerySelection` accepts the selection. -/
def isQuerySelection (selection : QuerySelection) : Bool :=
  isIdentifier selection.tenantId && isIdentifier selection.repositoryId &&
    isIdentifier selection.serviceId && selection.selector.isValid

def QuerySelector.toJson : QuerySelector → Json
  | environment name version =>
    .obj ([("kind", .str "environment"), ("environment", .str name)] ++
      optionalMember "expectedCheckpointVersion" .str version)
  | branch name version =>
    .obj ([("kind", .str "branch"), ("branch", .str name)] ++
      optionalMember "expectedPointerVersion" .str version)
  | revision value => .obj [("kind", .str "revision"), ("revision", .str value)]

def QuerySelection.toJson (selection : QuerySelection) : Json :=
  .obj [("version", .str "1"), ("tenantId", .str selection.tenantId),
    ("repositoryId", .str selection.repositoryId), ("serviceId", .str selection.serviceId),
    ("selector", selection.selector.toJson)]

/-! ### Pins -/

structure QueryPin where
  snapshotId : String
  revision : String
  configFingerprint : String
  pointerVersion : Option String := none
  checkpointVersion : Option String := none
  selectedRevision : Option String := none
deriving DecidableEq, Repr

def QueryPin.toJson (pin : QueryPin) : Json :=
  .obj ([("snapshotId", .str pin.snapshotId), ("revision", .str pin.revision),
    ("configFingerprint", .str pin.configFingerprint)] ++
    optionalMember "pointerVersion" .str pin.pointerVersion ++
    optionalMember "checkpointVersion" .str pin.checkpointVersion ++
    optionalMember "selectedRevision" .str pin.selectedRevision)

end ApiTruth.Query
