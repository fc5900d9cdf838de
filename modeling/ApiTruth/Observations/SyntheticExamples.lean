import ApiTruth.Foundation.Checked
import ApiTruth.Foundation.Js.Documents
import Mathlib.Algebra.Order.Round
import Mathlib.Data.List.Infix
import Mathlib.Data.Rat.Floor

/-!
# Synthetic examples

`buildSyntheticExample` builds a placeholder value for a body of an endpoint from its schema.  A
policy lists the paths of the properties that may occur in it.  The schema and the selection of
paths are walked together; anything that the walk does not understand withholds the example.

Values are JSON trees, with rational numbers for the finite numbers of JavaScript.  `none` stands
for `undefined`, and for values that are neither JSON values nor plain objects.

## Main definitions

* `isBounded` : the values that `cloneBounded` copies.
* `ExamplePolicy`, `getPolicy`, `decodePropertyPath` : policies and their paths.
* `Trie`, `buildTrie` : the selection of paths.
* `generateValue` : the value for a schema and a selection.
* `buildSyntheticExample` : the example of an endpoint.
-/

namespace ApiTruth.Observations

open Checked JsonDocument

abbrev Tree := JsonTree ℚ

structure ExampleHost where
  toLowerCase : JsString → JsString
  localeLe : JsString → JsString → Bool
  /-- The digest of the canonical JSON text. -/
  digest : Tree → JsString

/-! ### Values -/

/-- A property of an object. -/
def get (value : Tree) (name : String) : Option Tree :=
  match value with
  | .obj members => members.lookup (JsString.ofString name)
  | _ => none

def stringOf : Tree → Option JsString
  | .str s => some s
  | _ => none

/-- `plain`, of a copied value. -/
def plain : Tree → Bool
  | .obj _ => true
  | _ => false

/-- `/[\u0000-\u001f\u007f]/`. -/
def isControl (unit : UInt16) : Bool := decide (unit.toNat ≤ 0x1f) || unit.toNat == 0x7f

/-- `boundedText`, with a bound. -/
def boundedTextUpTo (max : ℕ) : Option Tree → Option JsString
  | some (.str s) => if 0 < s.length ∧ s.length ≤ max ∧ ¬s.any isControl then some s else none
  | _ => none

def boundedText (value : Option Tree) : Option JsString := boundedTextUpTo 512 value

/-- The number of bytes of a string in UTF-8; surrogates without a partner are replaced. -/
def byteLength (s : JsString) : ℕ :=
  (s.codePoints.map fun point =>
    if point < 0x80 then 1 else if point < 0x800 then 2 else if point < 0x10000 then 3 else 4).sum

mutual

/-- The strings of a value. -/
def strings : Tree → List JsString
  | .str s => [s]
  | .arr items => stringsItems items
  | .obj members => stringsMembers members
  | .null | .bool _ | .num _ => []

def stringsItems : List Tree → List JsString
  | [] => []
  | item :: items => strings item ++ stringsItems items

def stringsMembers : List (JsString × Tree) → List JsString
  | [] => []
  | (_, member) :: members => strings member ++ stringsMembers members

end

mutual

def propertyNames : Tree → List JsString
  | .arr items => propertyNamesItems items
  | .obj members => propertyNamesMembers members
  | .null | .bool _ | .num _ | .str _ => []

def propertyNamesItems : List Tree → List JsString
  | [] => []
  | item :: items => propertyNames item ++ propertyNamesItems items

def propertyNamesMembers : List (JsString × Tree) → List JsString
  | [] => []
  | (name, member) :: members => name :: propertyNames member ++ propertyNamesMembers members

end

/-- `cloneBounded` copies the value. -/
def isBounded (value : Tree) : Bool :=
  decide (nodeCount value ≤ 12000) && decide (nesting value ≤ 64)
    && (strings value).all (fun s => decide (s.length ≤ 16384))
    && (propertyNames value).all (fun name => decide (name.length ≤ 1024))
    && decide (((strings value ++ propertyNames value).map byteLength).sum ≤ 512 * 1024)

def validInteger (value : Tree) (max : ℕ) : Option ℕ :=
  match value with
  | .num x => if x.den = 1 ∧ 0 ≤ x ∧ x ≤ max then some x.num.toNat else none
  | _ => none

/-! ### Policies -/

inductive SyntheticExampleError
  | invalidSyntheticExampleInput
deriving DecidableEq, Repr

inductive ExampleRule
  | qualifiedRevisionUnsupported
  | noPropertiesOptedIn
  | endpointNotFound
  | endpointAmbiguous
  | requestBodyNotUnambiguous
  | responseNotUnambiguous
  | responseMediaNotUnambiguous
  | schemaDepthLimit
  | schemaShapeUnsupported
  | schemaReferenceUnsupported
  | schemaReferenceCycleOrMissing
  | schemaUnsupported
  | schemaTypeUnsupported
  | schemaTypeConstraintMismatch
  | schemaConstraintUnsupported
  | schemaItemsMissing
  | sensitivePropertyName
  | requiredPropertyNotOptedIn
  | requiredPropertySchemaMissing
  | policyPathTypeMismatch
  | propertyNotOptedIn
deriving DecidableEq, Repr

inductive ExampleDirection
  | request
  | response (statusCode : ℕ)
deriving DecidableEq, Repr

/-- `SyntheticExamplePolicy`, with its paths also as they are decoded. -/
structure ExamplePolicy where
  endpointId : JsString
  direction : ExampleDirection
  mediaType : JsString
  propertyPaths : List JsString
  decodedPaths : List (List JsString)
deriving DecidableEq

/-- A segment of a path: `~1` stands for a slash and `~0` for a tilde. -/
def decodeSegment : JsString → Option JsString
  | [] => some []
  | unit :: rest =>
    if charOf unit = '~' then
      match rest with
      | [] => none
      | code :: rest =>
        if charOf code = '1' then (decodeSegment rest).map (JsString.ofString "/" ++ ·)
        else if charOf code = '0' then (decodeSegment rest).map (JsString.ofString "~" ++ ·)
        else none
    else (decodeSegment rest).map (unit :: ·)

def decodePropertyPath (path : JsString) : Option (List JsString) :=
  if 2 ≤ path.length ∧ path.length ≤ 1024 ∧ path.head?.map charOf = some '/' then
    ((path.drop 1).splitOnP (charOf · = '/')).mapM fun segment => do
      let decoded ← decodeSegment segment
      if decoded ≠ [] ∧ decoded.length ≤ 256 ∧ ¬decoded.any isControl then some decoded else none
  else none

def lowerUnit (unit : UInt16) : UInt16 :=
  if 0x41 ≤ unit.toNat ∧ unit.toNat ≤ 0x5a then unit + 0x20 else unit

/-- `/^application\/(?:[a-z0-9.+-]+\+)?json$/i`. -/
def isJsonMediaType (mediaType : JsString) : Bool :=
  let lower := mediaType.map lowerUnit
  let start := JsString.ofString "application/"
  let suffix := JsString.ofString "+json"
  let subtype := lower.drop start.length
  start.isPrefixOf lower && (subtype == JsString.ofString "json" ||
    (suffix.isSuffixOf subtype && decide (suffix.length < subtype.length)
      && (subtype.take (subtype.length - suffix.length)).all fun unit =>
        (charOf unit).isLower || (charOf unit).isDigit || ['.', '+', '-'].contains (charOf unit)))

def getPolicy (value : Tree) : Option ExamplePolicy := do
  if ¬isBounded value then none
  let members ← match value with
    | .obj members => some members
    | _ => none
  let status := get value "statusCode"
  let expected := ["version", "endpointId", "direction", "mediaType", "propertyPaths"]
    ++ if status.isSome then ["statusCode"] else []
  if ¬(members.map Prod.fst).isPerm (expected.map JsString.ofString) then none
  if (boundedText (get value "version")) ≠ some (JsString.ofString "synthetic-examples-1") then none
  let endpointId ← boundedText (get value "endpointId")
  let mediaType ← boundedTextUpTo 128 (get value "mediaType")
  if ¬isJsonMediaType mediaType then none
  let direction ← match get value "direction", status with
    | some (.str direction), none =>
      if direction = JsString.ofString "request" then some .request else none
    | some (.str direction), some status =>
      if direction = JsString.ofString "response" then do
        let code ← validInteger status 599
        if 100 ≤ code then some (.response code) else none
      else none
    | _, _ => none
  let paths ← match get value "propertyPaths" with
    | some (.arr paths) => if paths.length ≤ 64 then some paths else none
    | _ => none
  let propertyPaths ← paths.mapM stringOf
  let decodedPaths ← propertyPaths.mapM decodePropertyPath
  if ¬propertyPaths.Nodup ∨ decodedPaths.any (fun path => decide (16 < path.length)) then none
  return ({ endpointId := endpointId, direction := direction, mediaType := mediaType
            propertyPaths := propertyPaths, decodedPaths := decodedPaths } : ExamplePolicy)

/-! ### Selections -/

/-- `Trie` : the selection of paths below a property. -/
inductive Trie
  | node (terminal : Bool) (children : List (JsString × Trie))

namespace Trie

/-- A selection of nothing. -/
def empty : Trie := .node false []

/-- The property itself is selected. -/
def terminal : Trie → Bool
  | .node terminal _ => terminal

/-- The selections below the property. -/
def children : Trie → List (JsString × Trie)
  | .node _ children => children

/-- The selection below a child. -/
def child (node : Trie) (segment : JsString) : Option Trie := node.children.lookup segment

/-- A path is added. -/
def insert : List JsString → Trie → Trie
  | [], .node _ children => .node true children
  | segment :: path, .node terminal children =>
    .node terminal <| match children.lookup segment with
      | some child => children.map fun entry =>
        if entry.1 = segment then (segment, insert path child) else entry
      | none => children ++ [(segment, insert path empty)]

end Trie

def buildTrie (paths : List (List JsString)) : Trie :=
  paths.foldl (fun node path => node.insert path) .empty

/-- The words of `sensitiveKey`. -/
def sensitiveWords : List String :=
  ["password", "passwd", "secret", "token", "authorization", "cookie", "credential", "apikey",
    "accesskey", "privatekey", "bearer", "jwt", "sessionid", "email", "phone", "mobile", "ssn",
    "socialsecurity", "creditcard", "cardnumber", "dateofbirth", "birthdate", "firstname",
    "lastname", "givenname", "familyname", "postalcode", "streetaddress"]

section Host

variable (host : ExampleHost)

/-- `key.replace(/([a-z0-9])([A-Z])/g, "$1 $2")`. -/
def spaceCamelCase : JsString → JsString
  | first :: second :: rest =>
    if ((charOf first).isLower || (charOf first).isDigit) && (charOf second).isUpper then
      first :: 0x20 :: second :: spaceCamelCase rest
    else first :: spaceCamelCase (second :: rest)
  | key => key

def sensitiveKey (key : JsString) : Bool :=
  let normalized := (host.toLowerCase (spaceCamelCase key)).filter fun unit =>
    (charOf unit).isLower || (charOf unit).isDigit
  sensitiveWords.any fun word => decide (JsString.ofString word <:+: normalized)

/-! ### Values for schemas -/

def schemaKeys : List JsString :=
  ["$ref", "type", "properties", "required", "items", "minItems", "maxItems", "minLength",
    "maxLength", "minimum", "maximum"].map JsString.ofString

/-- The properties that plain objects inherit: methods, and the prototype, which is a plain object
without properties of a schema. -/
def inheritedProperty (key : JsString) : Option (Option Tree) :=
  if key = JsString.ofString "__proto__" then some (some (.obj []))
  else if (["constructor", "__defineGetter__", "__defineSetter__", "hasOwnProperty",
      "__lookupGetter__", "__lookupSetter__", "isPrototypeOf", "propertyIsEnumerable", "toString",
      "valueOf", "toLocaleString"].map JsString.ofString).contains key then some none
  else none

/-- `properties[key]`. -/
def propertySchema (properties : List (JsString × Tree)) (key : JsString) : Option (Option Tree) :=
  match properties.lookup key with
  | some schema => some (some schema)
  | none => inheritedProperty key

def hasAny (schema : Tree) (names : List String) : Bool :=
  names.any fun name => (get schema name).isSome

/-- The schemas of `properties`. -/
def declaredProperties (schema : Tree) : Option (List (JsString × Tree)) :=
  match get schema "properties" with
  | none => some []
  | some (.obj properties) => some properties
  | some _ => none

/-- The names of `required`. -/
def requiredNames (schema : Tree) : Option (List JsString) :=
  match get schema "required" with
  | none | some .null => some []
  | some (.arr items) =>
    if 128 < items.length then none
    else (items.mapM stringOf).filter fun names => decide names.Nodup
  | _ => none

def selectedKeys (node : Trie) (required : List JsString) : List JsString :=
  let selected := node.children.map Prod.fst
  selected ++ required.filter fun name => !selected.contains name

/-- The integer of a member between zero and a bound, or a default. -/
def boundOf (schema : Tree) (name : String) (default max : ℕ) : Option ℕ :=
  match get schema name with
  | none => some default
  | some value => validInteger value max

/-- The value of an `object` schema. -/
def objectValue (generate : Trie → Option Tree → Except ExampleRule Tree) (node : Trie)
    (schema : Tree) : Except ExampleRule Tree := do
  require (¬hasAny schema
    ["items", "minItems", "maxItems", "minimum", "maximum", "minLength", "maxLength"])
    .schemaTypeConstraintMismatch
  let properties ← orRaise (declaredProperties schema) .schemaShapeUnsupported
  let required ← orRaise (requiredNames schema) .schemaShapeUnsupported
  let keys := selectedKeys node required
  require (∀ key ∈ keys, sensitiveKey host key = false) .sensitivePropertyName
  let members ← keys.mapM fun key => do
    let childNode ← orRaise (node.child key) .requiredPropertyNotOptedIn
    let childSchema ← orRaise (propertySchema properties key) .requiredPropertySchemaMissing
    let value ← generate childNode childSchema
    return (key, value)
  return .obj members

def arrayLength (node : Trie) (minItems : ℕ) : ℕ :=
  max minItems (if node.children ≠ [] then 1 else 0)

/-- The value of an `array` schema. -/
def arrayValue (generate : Trie → Option Tree → Except ExampleRule Tree) (node : Trie)
    (schema : Tree) : Except ExampleRule Tree := do
  require (¬hasAny schema ["properties", "required", "minLength", "maxLength"])
    .schemaTypeConstraintMismatch
  require (¬hasAny schema ["minimum", "maximum"]) .schemaConstraintUnsupported
  let min ← orRaise (boundOf schema "minItems" 0 32) .schemaConstraintUnsupported
  let max ← orRaise (boundOf schema "maxItems" 32 32) .schemaConstraintUnsupported
  require (min ≤ max) .schemaConstraintUnsupported
  let length := arrayLength node min
  require (length ≤ max) .schemaConstraintUnsupported
  if length = 0 then return .arr []
  else do
    let items ← orRaise (get schema "items") .schemaItemsMissing
    let values ← (List.replicate length items).mapM fun items => generate node (some items)
    return .arr values

/-- The value of a `string` schema. -/
def stringValue (schema : Tree) : Except ExampleRule Tree := do
  require (¬hasAny schema
    ["minimum", "maximum", "properties", "required", "items", "minItems", "maxItems"])
    .schemaTypeConstraintMismatch
  let min ← orRaise (boundOf schema "minLength" 0 128) .schemaConstraintUnsupported
  let max ← orRaise (boundOf schema "maxLength" 128 128) .schemaConstraintUnsupported
  require (min ≤ max) .schemaConstraintUnsupported
  let base := JsString.ofString "string"
  let value := if min ≤ base.length then base else List.replicate min 0x78
  require (value.length ≤ max) .schemaConstraintUnsupported
  return .str value

/-- A bound of a number: not there, a number, or something else. -/
def numberBound (schema : Tree) (name : String) : Option (Option ℚ) :=
  match get schema name with
  | none => some none
  | some (.num x) => some (some x)
  | some _ => none

/-- The number that is chosen between two bounds. -/
def chosenNumber (isInteger : Bool) (low high : Option ℚ) : ℚ :=
  match low, high with
  | some low, high =>
    if 0 < low then if isInteger then ⌈low⌉ else low
    else match high with
      | some high => if high < 0 then if isInteger then ⌊high⌋ else high else 0
      | none => 0
  | none, some high => if high < 0 then if isInteger then ⌊high⌋ else high else 0
  | none, none => 0

/-- The value of an `integer` or `number` schema. -/
def numberValue (isInteger : Bool) (schema : Tree) : Except ExampleRule Tree := do
  require (¬hasAny schema
    ["minLength", "maxLength", "properties", "required", "items", "minItems", "maxItems"])
    .schemaConstraintUnsupported
  let low ← orRaise (numberBound schema "minimum") .schemaConstraintUnsupported
  let high ← orRaise (numberBound schema "maximum") .schemaConstraintUnsupported
  require (∀ l ∈ low, ∀ h ∈ high, l ≤ h) .schemaConstraintUnsupported
  let value := chosenNumber isInteger low high
  require (∀ h ∈ high, value ≤ h) .schemaConstraintUnsupported
  require (isInteger = true → |value| ≤ 9007199254740991) .schemaConstraintUnsupported
  return .num value

/-- No other member than `type`. -/
def hasOnlyType : Tree → Bool
  | .obj members => members.all fun member => member.1 == JsString.ofString "type"
  | _ => false

def scalarValue (node : Trie) (type : JsString) (schema : Tree) : Except ExampleRule Tree := do
  require (node.children = []) .policyPathTypeMismatch
  require (node.terminal = true) .propertyNotOptedIn
  if type = JsString.ofString "string" then stringValue schema
  else if type = JsString.ofString "integer" then numberValue true schema
  else if type = JsString.ofString "number" then numberValue false schema
  else if type = JsString.ofString "boolean" then do
    require (hasOnlyType schema) .schemaTypeConstraintMismatch
    return .bool false
  else if type = JsString.ofString "null" then do
    require (hasOnlyType schema) .schemaConstraintUnsupported
    return .null
  else .error .schemaTypeUnsupported

/-- `#/schemas/`. -/
def referencePrefix : JsString := JsString.ofString "#/schemas/"

def referenceId (reference : JsString) : Option JsString :=
  if referencePrefix.isPrefixOf reference then some (reference.drop referencePrefix.length) else none

def componentOf (schemas : List (JsString × Tree)) (id : JsString) : Option Tree :=
  (schemas.lookup id).filter fun
    | .null | .bool false => false
    | .num x => decide (x ≠ 0)
    | .str s => decide (s ≠ [])
    | _ => true

/-- `generateValue`, with the number of levels below the limit of the depth. -/
def generateValue (schemas : List (JsString × Tree)) :
    ℕ → List JsString → Trie → Option Tree → Except ExampleRule Tree
  | 0, _, _, _ => .error .schemaDepthLimit
  | levels + 1, stack, node, some (.obj members) =>
    match members.lookup (JsString.ofString "$ref") with
    | some (.str reference) =>
      if members.length ≠ 1 then .error .schemaReferenceUnsupported
      else do
        let id ← orRaise (referenceId reference) .schemaReferenceUnsupported
        require (id ≠ [] ∧ id ∉ stack) .schemaReferenceCycleOrMissing
        let component ← orRaise (componentOf schemas id) .schemaReferenceCycleOrMissing
        generateValue schemas levels (id :: stack) node (get component "schema")
    | some _ => .error .schemaReferenceUnsupported
    | none =>
      if ¬members.all (fun member => schemaKeys.contains member.1) then .error .schemaUnsupported
      else match members.lookup (JsString.ofString "type") with
        | some (.str type) =>
          if type = JsString.ofString "object" then
            objectValue host (generateValue schemas levels stack) node (.obj members)
          else if type = JsString.ofString "array" then
            arrayValue (generateValue schemas levels stack) node (.obj members)
          else scalarValue node type (.obj members)
        | _ => .error .schemaTypeUnsupported
  | _ + 1, _, _, _ => .error .schemaShapeUnsupported

/-! ### Fingerprints -/

/-- The state of `walk`: the components that were found, and the number of visits. -/
structure WalkState where
  found : OrderedMap JsString (Option Tree) := .empty
  seen : List JsString := []
  visits : ℕ := 0

def subschemas (members : List (JsString × Tree)) : List Tree :=
  let schema : Tree := .obj members
  let below (name : String) : List Tree :=
    match get schema name with
    | some (.obj members) => [.obj members]
    | _ => []
  let listed (name : String) : List Tree :=
    match get schema name with
    | some (.arr items) => items
    | _ => []
  (match get schema "properties" with
    | some (.obj properties) => properties.map Prod.snd
    | _ => []) ++
  ["items", "additionalProperties", "not"].flatMap below ++
  ["allOf", "anyOf", "oneOf", "prefixItems"].flatMap listed

/-- `walk`, with a bound that the number of visits does not reach. -/
def walk (schemas : List (JsString × Tree)) : ℕ → WalkState → Option Tree → WalkState
  | 0, state, _ => { state with visits := state.visits + 1 }
  | bound + 1, state, schema =>
    let state := { state with visits := state.visits + 1 }
    match schema with
    | some (.obj members) =>
      if 2048 < state.visits then state
      else
        let id := match members.lookup (JsString.ofString "$ref") with
          | some (.str reference) => referenceId reference
          | _ => none
        let state := match id with
          | some id =>
            if id ≠ [] ∧ id ∉ state.seen ∧ (schemas.lookup id).isSome then
              let state := { state with seen := id :: state.seen }
              match componentOf schemas id with
              | some component =>
                walk schemas bound
                  { state with found := state.found.set id (get component "schema") }
                  (get component "schema")
              | none => state
            else state
          | none => state
        (subschemas members).foldl (fun state schema => walk schemas bound state (some schema)) state
    | _ => state

def schemaFingerprintMaterial (root : Option Tree) (schemas : List (JsString × Tree)) : Tree :=
  let found := (walk schemas 2049 {} root).found.entries.insertionSort fun a b =>
    host.localeLe a.1 b.1 = true
  .obj ((root.map fun schema => (JsString.ofString "schema", schema)).toList ++
    [(JsString.ofString "components", .obj (found.filterMap fun entry =>
      entry.2.map fun schema => (entry.1, schema)))])

def ExamplePolicy.toTree (policy : ExamplePolicy) : Tree :=
  let text (s : String) : Tree := .str (JsString.ofString s)
  let member (name : String) (value : Tree) : JsString × Tree := (JsString.ofString name, value)
  .obj ([member "version" (text "synthetic-examples-1"), member "endpointId" (.str policy.endpointId),
    member "direction" (match policy.direction with
      | .request => text "request"
      | .response _ => text "response"),
    member "mediaType" (.str policy.mediaType),
    member "propertyPaths" (.arr (policy.propertyPaths.map .str))] ++
    match policy.direction with
    | .request => []
    | .response code => [member "statusCode" (.num code)])

/-! ### Examples -/

/-- What is read of a resolved view for an endpoint. -/
structure ExampleView where
  tenantId : JsString
  repositoryId : JsString
  serviceId : JsString
  environment : JsString
  revision : JsString
  snapshotId : JsString
  sourceDigest : JsString
  configFingerprint : JsString
  checkpointVersion : JsString
  endpointId : JsString
  isQualified : Bool
  endpoints : List Tree
  schemas : List (JsString × Tree)
deriving DecidableEq

def isText (value : Option Tree) (text : JsString) : Bool :=
  match value with
  | some (.str s) => s == text
  | _ => false

def readView (view : Tree) (selectedEndpointId : Tree) : Option ExampleView := do
  if ¬isBounded view then none
  if ¬isText (get view "status") (JsString.ofString "resolved") then none
  let selection ← (get view "selector").filter plain
  let selector ← (get selection "selector").filter plain
  let pin ← (get view "pin").filter plain
  let snapshot ← (get view "snapshot").filter plain
  let endpointId ← boundedText (some selectedEndpointId)
  let tenantId ← boundedText (get selection "tenantId")
  let repositoryId ← boundedText (get selection "repositoryId")
  let serviceId ← boundedText (get selection "serviceId")
  let environment ← boundedText (get selector "environment")
  if ¬isText (get selection "version") (JsString.ofString "1") then none
  if ¬isText (get selector "kind") (JsString.ofString "environment") then none
  let snapshotId ← boundedText (get pin "snapshotId")
  let revision ← boundedText (get pin "revision")
  let configFingerprint ← boundedText (get pin "configFingerprint")
  let checkpointVersion ← boundedText (get pin "checkpointVersion")
  if (get selector "expectedCheckpointVersion").isSome
    ∧ ¬isText (get selector "expectedCheckpointVersion") checkpointVersion then none
  let endpoints ← match get snapshot "endpoints" with
    | some (.arr endpoints) => some endpoints
    | _ => none
  let schemas ← match get snapshot "schemas" with
    | some (.obj schemas) => some schemas
    | _ => none
  let service ← (get snapshot "service").filter plain
  let source ← (get snapshot "source").filter plain
  let config ← (get snapshot "config").filter plain
  let sourceDigest ← boundedText (get source "source_digest")
  if ¬isText (get snapshot "snapshot_id") snapshotId
    ∨ ¬isText (get source "immutable_revision") revision
    ∨ ¬isText (get source "repository_id") repositoryId
    ∨ ¬isText (get config "config_fingerprint") configFingerprint
    ∨ ¬isText (get service "service_id") serviceId
    ∨ ¬isText (get service "repository_id") repositoryId then none
  let isQualified := (get pin "selectedRevision").isSome
  return ({ tenantId := tenantId, repositoryId := repositoryId, serviceId := serviceId
            environment := environment, revision := revision, snapshotId := snapshotId
            sourceDigest := sourceDigest, configFingerprint := configFingerprint
            checkpointVersion := checkpointVersion, endpointId := endpointId
            isQualified := isQualified, endpoints := endpoints, schemas := schemas } : ExampleView)

def itemsOf (value : Option Tree) : Option (List Tree) :=
  match value with
  | some (.arr items) => some items
  | _ => none

/-- The `state` of the presence of a body. -/
def presenceOf (body : Tree) : Option Tree :=
  ((get body "presence").filter plain).bind (get · "state")

/-- The body has a media type and says whether it is there. -/
def isRequestBody (body : Tree) : Bool :=
  plain body && (boundedText (get body "media_type")).isSome
    && ["required", "optional", "unknown"].any fun state =>
      isText (presenceOf body) (JsString.ofString state)

/-- The response has a status and contents with media types. -/
def isResponse (response : Tree) : Bool :=
  ((get response "status").filter plain).isSome
    && (itemsOf (get response "content")).any fun contents =>
      contents.all fun content => plain content && (boundedText (get content "media_type")).isSome

/-- The endpoint that is selected: nothing where the source throws, or the rule that withholds it. -/
def selectEndpoint (view : ExampleView) : Option (Except ExampleRule Tree) :=
  if view.endpoints.any fun item => !plain item || (boundedText (get item "endpoint_id")).isNone then
    none
  else match view.endpoints.filter fun item => isText (get item "endpoint_id") view.endpointId with
    | [] => some (.error .endpointNotFound)
    | [endpoint] =>
      if (itemsOf (get endpoint "request_bodies")).any (·.all isRequestBody)
        && (itemsOf (get endpoint "responses")).any (·.all isResponse) then some (.ok endpoint)
      else none
    | _ :: _ :: _ => some (.error .endpointAmbiguous)

/-- The schema of the body that the policy names. -/
def selectSchema (endpoint : Tree) (policy : ExamplePolicy) : Except ExampleRule (Option Tree) :=
  let hasMediaType (content : Tree) := isText (get content "media_type") policy.mediaType
  match policy.direction with
  | .request =>
    match ((itemsOf (get endpoint "request_bodies")).getD []).filter hasMediaType with
    | [body] =>
      if isText (presenceOf body) (JsString.ofString "required")
        || isText (presenceOf body) (JsString.ofString "optional") then .ok (get body "schema")
      else .error .requestBodyNotUnambiguous
    | _ => .error .requestBodyNotUnambiguous
  | .response statusCode =>
    let isSelected (response : Tree) : Bool :=
      match get response "status" with
      | some status => isText (get status "kind") (JsString.ofString "exact")
        && match get status "code" with
          | some (.num code) => decide (code = statusCode)
          | _ => false
      | none => false
    match ((itemsOf (get endpoint "responses")).getD []).filter isSelected with
    | [response] =>
      match ((itemsOf (get response "content")).getD []).filter hasMediaType with
      | [content] => .ok (get content "schema")
      | _ => .error .responseMediaNotUnambiguous
    | _ => .error .responseNotUnambiguous

/-- The schema of the selected body of the selected endpoint: nothing where the source throws, or
the rule that withholds the example. -/
def exampleSchema (view : ExampleView) (policy : ExamplePolicy) :
    Option (Except ExampleRule (Option Tree)) :=
  (selectEndpoint view).map (·.bind fun endpoint => selectSchema endpoint policy)

structure GeneratedExample where
  scope : ExampleView
  policy : ExamplePolicy
  schemaSha256 : JsString
  policySha256 : JsString
  value : Tree
deriving DecidableEq

/-- `SyntheticExampleResult`; a withheld example has one diagnostic, and a generated one none. -/
inductive SyntheticExampleResult
  | generated (result : GeneratedExample)
  | withheld (rule : ExampleRule)
deriving DecidableEq

def buildSyntheticExample (resolvedView selectedEndpointId policyInput : Tree) :
    Except SyntheticExampleError SyntheticExampleResult :=
  match readView resolvedView selectedEndpointId with
  | none => .error .invalidSyntheticExampleInput
  | some view =>
    if view.isQualified then .ok (.withheld .qualifiedRevisionUnsupported)
    else match getPolicy policyInput with
      | none => .error .invalidSyntheticExampleInput
      | some policy =>
        if policy.endpointId ≠ view.endpointId then .error .invalidSyntheticExampleInput
        else if policy.propertyPaths = [] then .ok (.withheld .noPropertiesOptedIn)
        else match exampleSchema view policy with
          | none => .error .invalidSyntheticExampleInput
          | some (.error rule) => .ok (.withheld rule)
          | some (.ok schema) =>
            match generateValue host view.schemas 17 [] (buildTrie policy.decodedPaths) schema with
            | .error rule => .ok (.withheld rule)
            | .ok value => .ok (.generated
              { scope := view
                policy := policy
                schemaSha256 := host.digest (schemaFingerprintMaterial host schema view.schemas)
                policySha256 := host.digest policy.toTree
                value := value })

end Host

end ApiTruth.Observations
