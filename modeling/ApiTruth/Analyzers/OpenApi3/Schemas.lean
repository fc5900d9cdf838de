import ApiTruth.Analyzers.OpenApi3.Documents
import ApiTruth.Foundation.Reported

/-!
# Conversion of OpenAPI schemas

The analyzer converts the schema objects of a document keyword by keyword into API schemas.  What
it does not support it reports and leaves out.  Of a document of version 3.1 a schema is stored only
if a first pass finds nothing unsupported in it and behind its references.

## Main definitions

* `Event` : an object that is read as a schema, parameter, body, response or header; a diagnostic.
* `schema` : the conversion.
* `Stored` : a stored schema and the place that it was converted from.
* `schemaCanProject`, `projectSchema`.
-/

namespace ApiTruth.Analyzers.OpenApi3

open Json ApiTruth.Ir

variable {document : Json}

/-- What an extraction does on the way: it reads an object, or it reports a diagnostic. -/
inductive Event (document : Json)
  | read (place : Located document)
  | found (diagnostic : Diagnostic)

def warn (code at_ : String) : Reported (Event document) PUnit :=
  .report (.found { code, pointer := at_ })

/-! ### Components -/

def componentMap (document : Json) (category : String) : Option (Located document) :=
  (((Located.root document).member? "components").bind (·.member? category)).filter fun place =>
    isObject place.value

def component? (document : Json) (category name : String) : Option (Located document) :=
  (componentMap document category).bind (·.member? name)

/-- The id under which the schema of a component is stored. -/
def schemaId (host : Host) (name : String) : String :=
  "schema-" ++ String.ofList ((host.sha256Hex name).toList.take 24)

/-- `Object.entries(…).sort(([a], [b]) => a.localeCompare(b))`. -/
def sortedEntries (host : Host) (place : Located document) : List (String × Located document) :=
  place.members.insertionSort fun a b => host.localeLe a.1 b.1 = true

/-! ### Keywords -/

def supportedKeywords : Profile → List String
  | .v30 => ["$ref", "type", "format", "title", "description", "properties", "required", "items",
      "additionalProperties", "enum", "oneOf", "anyOf", "allOf", "not", "pattern", "minimum",
      "maximum", "minLength", "maxLength", "minItems", "maxItems", "nullable", "readOnly",
      "writeOnly", "deprecated", "example", "default", "externalDocs"]
  | .v31 => ["$ref", "type", "format", "title", "description", "properties", "required", "items",
      "additionalProperties", "enum", "oneOf", "anyOf", "allOf", "not", "pattern", "minimum",
      "maximum", "minLength", "maxLength", "minItems", "maxItems", "const", "prefixItems"]

/-- The names that `type` may have. -/
def typeNames : Profile → List String
  | .v30 => ["string", "integer", "number", "boolean", "object", "array"]
  | .v31 => ["null", "string", "integer", "number", "boolean", "object", "array"]

/-- The value of a keyword without schemas below it is supported. -/
def isSupported (profile : Profile) (key : String) (value : Json) : Bool :=
  match key, value with
  | "type", .arr _ => profile == .v31
  | "type", .str name => (typeNames profile).contains name
  | "format", .str s => s != ""
  | "title", .str _ => true
  | "description", .str _ => true
  | "pattern", .str _ => true
  | "minimum", .num _ => true
  | "maximum", .num _ => true
  | "minLength", value => isCount value
  | "maxLength", value => isCount value
  | "minItems", value => isCount value
  | "maxItems", value => isCount value
  | "required", .arr names => names.all Ir.isNonEmptyString && decide names.Nodup
  | "enum", .arr members => !members.isEmpty
  | _, _ => false

/-- The diagnostic of a keyword whose value is not supported. -/
def unsupportedCode : String → String
  | "type" => "schema_type_unsupported"
  | "required" => "schema_required_unsupported"
  | "enum" => "schema_enum_unsupported"
  | _ => "schema_keyword_unsupported"

/-- The keywords in the order in which they are converted. -/
def convertedKeywords : List String :=
  ["type", "format", "title", "description", "pattern", "minimum", "maximum", "minLength",
    "maxLength", "minItems", "maxItems", "required", "enum", "const", "properties", "items",
    "prefixItems", "additionalProperties", "oneOf", "anyOf", "allOf", "not"]

section Keywords

variable (host : Host) (profile : Profile)
  (convert : Located document → Reported (Event document) Json) (place : Located document)

/-- A keyword whose value is copied if it is supported. -/
def convertLeaf (key : String) : Reported (Event document) (List (String × Json)) :=
  match place.value.members.lookup key with
  | none => pure []
  | some value =>
    if isSupported profile key value then pure [(key, value)]
    else do
      warn (unsupportedCode key) (pointer place ++ "/" ++ key)
      pure []

def convertOne (key : String) : Reported (Event document) (List (String × Json)) :=
  match place.member? key with
  | none => pure []
  | some child => do pure [(key, ← convert child)]

def convertItems (key : String) (child : Located document) :
    Reported (Event document) (List (String × Json)) := do
  pure [(key, .arr (← .each child.items convert))]

/-- `oneOf`, `anyOf` and `allOf`. -/
def convertSeveral (key : String) : Reported (Event document) (List (String × Json)) :=
  match place.member? key with
  | none => pure []
  | some child =>
    if isArray child.value && 0 < child.value.items.length && child.value.items.length ≤ 32 then
      convertItems convert key child
    else do
      warn "schema_composition_unsupported" (pointer place ++ "/" ++ key)
      pure []

/-- `properties`. -/
def convertProperties : Reported (Event document) (List (String × Json)) :=
  match place.member? "properties" with
  | none => pure []
  | some child =>
    if isObject child.value then do
      let properties ← .each (sortedEntries host child) fun entry => do
        pure (entry.1, ← convert entry.2)
      pure [("properties", .obj properties)]
    else do
      warn "schema_properties_unsupported" (pointer place ++ "/properties")
      pure []

/-- `additionalProperties`, which may be a boolean. -/
def convertAdditional : Reported (Event document) (List (String × Json)) :=
  match place.value.members.lookup "additionalProperties" with
  | some (.bool b) => pure [("additionalProperties", .bool b)]
  | _ => convertOne convert place "additionalProperties"

/-- `prefixItems`, of version 3.1 only. -/
def convertPrefixItems : Reported (Event document) (List (String × Json)) :=
  match place.member? "prefixItems" with
  | some child =>
    if profile = .v31 ∧ isArray child.value then convertItems convert "prefixItems" child
    else pure []
  | none => pure []

/-- `const`, of version 3.1 only. -/
def convertConst : Reported (Event document) (List (String × Json)) :=
  match place.value.members.lookup "const" with
  | some value => pure (if profile = .v31 then [("const", value)] else [])
  | none => pure []

def convertKeyword (key : String) : Reported (Event document) (List (String × Json)) :=
  match key with
  | "properties" => convertProperties host convert place
  | "items" => convertOne convert place "items"
  | "not" => convertOne convert place "not"
  | "additionalProperties" => convertAdditional convert place
  | "prefixItems" => convertPrefixItems profile convert place
  | "const" => convertConst profile place
  | "oneOf" => convertSeveral convert place "oneOf"
  | "anyOf" => convertSeveral convert place "anyOf"
  | "allOf" => convertSeveral convert place "allOf"
  | key => convertLeaf profile place key

/-- `nullable` : the type of the output is extended by `null`. -/
def convertNullable (output : List (String × Json)) :
    Reported (Event document) (List (String × Json)) :=
  match place.value.members.lookup "nullable" with
  | none => pure output
  | some (.bool false) => pure output
  | some (.bool true) =>
    match output.lookup "type" with
    | some (.str name) =>
      pure (OrderedMap.setEntries "type" (.arr [.str name, .str "null"]) output)
    | _ => do
      warn "schema_nullable_unsupported" (pointer place ++ "/nullable")
      pure output
  | some _ => do
    warn "schema_nullable_unsupported" (pointer place ++ "/nullable")
    pure output

/-- The conversion of a schema object without a string under `$ref`. -/
def schemaObject : Reported (Event document) Json := do
  let keywords ← .each convertedKeywords (convertKeyword host profile convert place)
  let output ← convertNullable place keywords.flatten
  let _ ← Reported.each place.value.members fun m =>
    if (supportedKeywords profile).contains m.1 then pure .unit
    else warn "schema_keyword_unsupported" (pointer place ++ "/" ++ jsonPointerSegment m.1)
  if (place.value.members.lookup "readOnly").isSome ∨
      (place.value.members.lookup "writeOnly").isSome then
    warn "schema_direction_unsupported" (pointer place)
  pure (.obj output)

end Keywords

/-- The conversion of a schema object with a string under `$ref`. -/
def schemaReference (host : Host) (place : Located document) (ref : String) :
    Reported (Event document) Json :=
  match (componentName "schemas" ref).filter fun name =>
      (component? document "schemas" name).isSome && !hasSiblings place.value with
  | some name => pure (.obj [("$ref", .str ("#/schemas/" ++ schemaId host name))])
  | none => do
    warn "schema_ref_unsupported" (pointer place)
    pure (.obj [])

/-- `schema`, with the number of levels that may still be opened. -/
def schema (host : Host) (profile : Profile) :
    ℕ → Located document → Reported (Event document) Json
  | 0, place => do
    warn "schema_unsupported" (pointer place)
    pure (.obj [])
  | levels + 1, place =>
    if isObject place.value then do
      Reported.report (.read place)
      match referenceOf place.value with
      | some ref => schemaReference host place ref
      | none => schemaObject host profile (schema host profile levels) place
    else do
      warn "schema_unsupported" (pointer place)
      pure (.obj [])

/-- The levels of a schema that are opened: those of depth at most 32. -/
def schemaLevels : ℕ := 33

/-- A stored schema: the conversion of a schema of the document, or the empty schema where the
document gives none. -/
structure Stored (host : Host) (profile : Profile) (document : Json) where
  origin : Option (Located document)
  schema : Json
  schema_eq : schema = origin.elim (.obj []) fun place =>
    (OpenApi3.schema host profile schemaLevels place).value

namespace Stored

variable (host : Host) (profile : Profile)

def empty : Stored host profile document := ⟨none, .obj [], rfl⟩

def convert (place : Located document) : Stored host profile document :=
  ⟨some place, (OpenApi3.schema host profile schemaLevels place).value, rfl⟩

end Stored

end ApiTruth.Analyzers.OpenApi3
