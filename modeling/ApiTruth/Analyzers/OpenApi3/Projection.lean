import ApiTruth.Analyzers.OpenApi3.Schemas

/-!
# Projection of OpenAPI schemas

The extraction threads the diagnostics, the objects that it has read and the number of nodes that
the first pass over schemas has opened.  A schema of a document of version 3.1 is stored only if
that pass and the conversion itself find nothing unsupported.

## Main definitions

* `Extraction`, `Extract` : the state and the steps of the extraction.
* `schemaCanProject` : the first pass over a schema of version 3.1.
* `projectSchema` : the stored schema of a schema of the document, if any.
* `resolveLocal` : the object behind a chain of local references.
-/

namespace ApiTruth.Analyzers.OpenApi3

open Json ApiTruth.Ir

variable {document : Json}

/-- What the extraction has reported, read and counted. -/
structure Extraction (document : Json) where
  diagnostics : List Diagnostic
  reads : List (Located document) := []
  schemaProjectionNodes : ℕ := 0

abbrev Extract (document : Json) := StateM (Extraction document)

namespace Extraction

/-- The state after an event. -/
def after (s : Extraction document) : Event document → Extraction document
  | .read place => { s with reads := s.reads ++ [place] }
  | .found d => { s with diagnostics := record s.diagnostics d }

end Extraction

namespace Extract

/-- The value of a conversion, with its events. -/
def emit {α : Type} (x : Reported (Event document) α) : Extract document α := fun s =>
  (x.value, x.diagnostics.foldl Extraction.after s)

def noteAbout (endpointId : Option String) (code at_ : String) : Extract document Unit :=
  modify fun s => s.after (.found { code, pointer := at_, endpointId })

/-- Report a warning. -/
def note (code at_ : String) : Extract document Unit := noteAbout none code at_

/-- Read an object. -/
def read (place : Located document) : Extract document Unit :=
  modify fun s => s.after (.read place)

/-- Report a warning unless a check holds. -/
def check (ok : Bool) (code at_ : String) : Extract document Bool := do
  if !ok then note code at_
  pure ok

end Extract

open Extract

def noteUnknown (allowed : List String) (place : Located document) : Extract document Unit :=
  place.value.members.forM fun m => do
    if !allowed.contains m.1 then
      note "unsupported_field" (pointer place ++ "/" ++ jsonPointerSegment m.1)

/-! ### The first pass -/

/-- `jsonValue`, with the number of levels that may still be opened. -/
def jsonValue : ℕ → Json → Bool
  | 0, _ => false
  | levels + 1, .arr xs => xs.length ≤ 1000 && xs.all (jsonValue levels)
  | levels + 1, .obj ms => ms.length ≤ 1000 && ms.all fun m => jsonValue levels m.2
  | _ + 1, _ => true

/-- The value under `type` in version 3.1. -/
def isProjectedType : Json → Bool
  | .str name => (typeNames .v31).contains name
  | .arr names => 0 < names.length && names.length ≤ 7 && decide names.Nodup && names.all isApiTypeName
  | _ => false

/-- The value under `enum` in version 3.1. -/
def isProjectedEnum (host : Host) : Json → Bool
  | .arr xs => !xs.isEmpty && xs.all (jsonValue 65) &&
      decide (xs.map (Ir.canonicalJson host.localeCompare)).Nodup
  | _ => false

/-- The diagnostic of a keyword that version 3.1 does not support. -/
def keywordCode (key : String) : String :=
  if ["$id", "$anchor", "$dynamicRef", "$dynamicAnchor", "$schema"].contains key
  then "schema_resource_keyword_unsupported" else "schema_keyword_unsupported"

/-- The value of a keyword, if it is there, passes the check. -/
def memberPasses (place : Located document) (key : String) (passes : Json → Bool) : Bool :=
  (place.value.members.lookup key).all passes

/-- The checks of the keywords without schemas below them: what holds, its code and its place. -/
def leafChecks (host : Host) (place : Located document) : List (Bool × String × String) :=
  place.value.members.map (fun m => ((supportedKeywords .v31).contains m.1, keywordCode m.1,
    pointer place ++ "/" ++ jsonPointerSegment m.1)) ++
  [(memberPasses place "type" isProjectedType, "schema_type_unsupported",
      pointer place ++ "/type"),
    (memberPasses place "const" (jsonValue 65), "schema_const_unsupported",
      pointer place ++ "/const")] ++
  ["title", "description", "pattern", "format", "minimum", "maximum", "minLength", "maxLength",
    "minItems", "maxItems", "required"].map (fun key =>
      (memberPasses place key (isSupported .v31 key), unsupportedCode key,
        pointer place ++ "/" ++ key)) ++
  [(memberPasses place "enum" (isProjectedEnum host), "schema_enum_unsupported",
    pointer place ++ "/enum")]

/-- The keywords with schemas below them, in the order of the first pass. -/
def projectionKeywords : List String :=
  ["properties", "items", "additionalProperties", "prefixItems", "oneOf", "anyOf", "allOf", "not"]

/-- The value of a keyword with schemas below it has the kind and the number of items asked for. -/
def hasProjectedShape (key : String) (value : Json) : Bool :=
  match key with
  | "properties" => isObject value
  | "prefixItems" => isArray value && value.items.length ≤ 32
  | "oneOf" => isArray value && 0 < value.items.length && value.items.length ≤ 32
  | "anyOf" => isArray value && 0 < value.items.length && value.items.length ≤ 32
  | "allOf" => isArray value && 0 < value.items.length && value.items.length ≤ 32
  | _ => true

/-- The diagnostic of a value without that shape. -/
def shapeCode (key : String) : String :=
  if key = "properties" then "schema_properties_unsupported" else "schema_composition_unsupported"

/-- The first of the items that `indexOf` takes for the item: objects and arrays are identified by
their places, other values by themselves. -/
def firstOf (child item : Located document) : Located document :=
  if isObject item.value || isArray item.value then item
  else (child.items.find? (·.value == item.value)).getD item

/-- The schemas that the first pass looks for below a keyword.  An array under `properties` is taken
for an entry, whose second item may be missing. -/
def projectionChildren (key : String) (child : Located document) :
    List (Option (Located document)) :=
  if key = "properties" then
    if isObject child.value then child.members.map (some ·.2)
    else if isArray child.value then [child.child? (.index 1)]
    else [some child]
  else if ["prefixItems", "oneOf", "anyOf", "allOf"].contains key && isArray child.value then
    child.items.map fun item => some (firstOf child item)
  else [some child]

def countNode (at_ : String) : Extract document Bool := do
  modify fun s => { s with schemaProjectionNodes := s.schemaProjectionNodes + 1 }
  check ((← get).schemaProjectionNodes ≤ 50000) "schema_projection_limit_exceeded" at_

/-- A value that the first pass refuses. -/
def refuse (code at_ : String) : Extract document Bool := check false code at_

/-- The first pass over the schemas below a keyword. -/
def projectChildren (visit : Located document → Extract document Bool) (place : Located document)
    (key : String) : Extract document Bool :=
  match place.member? key with
  | none => pure true
  | some child => do
    let shape ← check (hasProjectedShape key child.value) (shapeCode key)
      (pointer place ++ "/" ++ key)
    let below ← (projectionChildren key child).mapM fun
      | none => do
        if ← countNode (pointer child) then refuse "schema_projection_unsupported" (pointer child)
        else pure false
      | some schema =>
        match key, schema.value with
        | "additionalProperties", .bool _ => refuse "boolean_schema_unsupported" (pointer schema)
        | _, _ => visit schema
    pure (shape && below.all id)

/-- The first pass over a schema object without a string under `$ref`. -/
def projectObject (host : Host) (visit : Located document → Extract document Bool)
    (place : Located document) : Extract document Bool := do
  let leaves ← (leafChecks host place).mapM fun c => check c.1 c.2.1 c.2.2
  let below ← projectionKeywords.mapM (projectChildren visit place)
  pure (leaves.all id && below.all id)

/-- The first pass over a schema object with a string under `$ref`; the components that are being
visited are given. -/
def projectReference (visit : List String → Located document → Extract document Bool)
    (active : List String) (place : Located document) (ref : String) : Extract document Bool :=
  match (componentName "schemas" ref).filter fun _ => !hasSiblings place.value with
  | none => refuse "schema_ref_unsupported" (pointer place)
  | some name =>
    if active.contains name then pure true
    else
      match component? document "schemas" name with
      | none => refuse "schema_ref_unsupported" (pointer place)
      | some target => visit (name :: active) target

/-- `schemaCanProject` of version 3.1 with the default dialect, with the number of levels that may
still be opened. -/
def schemaCanProject (host : Host) : ℕ → List String → Located document → Extract document Bool
  | 0, _, place => do
    if ← countNode (pointer place) then refuse "schema_projection_unsupported" (pointer place)
    else pure false
  | levels + 1, active, place => do
    if ← countNode (pointer place) then
      if isObject place.value then
        read place
        match referenceOf place.value with
        | some ref => projectReference (schemaCanProject host levels) active place ref
        | none => projectObject host (schemaCanProject host levels active) place
      else refuse "schema_projection_unsupported" (pointer place)
    else pure false

/-- The dialect of a document of version 3.1 is not the default one. -/
def customDialect (profile : Profile) (document : Json) : Bool :=
  profile == .v31 && (document.members.lookup "jsonSchemaDialect").any
    (· != .str "https://spec.openapis.org/oas/3.1/dialect/base")

section Project

variable (host : Host) (profile : Profile)

/-- The conversion of a schema, with its events. -/
def convertSchema (place : Located document) : Extract document (Stored host profile document) := do
  let _ ← emit (schema host profile schemaLevels place)
  pure (.convert host profile place)

def projectSchema (place : Located document) :
    Extract document (Option (Stored host profile document)) := do
  if profile = .v30 then return some (← convertSchema host profile place)
  if customDialect profile document then return none
  if !(← schemaCanProject host schemaLevels [] place) then return none
  let before := (← get).diagnostics.length
  let projected ← convertSchema host profile place
  return if (← get).diagnostics.length = before then some projected else none

end Project

/-! ### Local references -/

/-- `local` : the object behind a chain of references to components of a category, with the number
of references that may still be followed and the names that were. -/
def resolveLocal (profile : Profile) (category : String) :
    ℕ → List String → Option (Located document) → String → Extract document (Option (Located document))
  | remaining, followed, place?, at_ =>
    match place?.filter fun place => isObject place.value with
    | none => do
      note "referenced_object_unresolved" at_
      pure none
    | some place => do
      read place
      match referenceOf place.value, remaining with
      | none, _ => pure (some place)
      | some _, 0 => do
        note "local_ref_chain_limit_exceeded" at_
        pure none
      | some ref, remaining + 1 => do
        if hasSiblings place.value then note "reference_siblings_unsupported" at_
        if hasSiblings place.value ∧ profile = .v31 then pure none
        else
          match (componentName category ref).filter (!followed.contains ·) with
          | none => do
            note "local_ref_unsupported" (at_ ++ "/$ref")
            pure none
          | some name =>
            resolveLocal profile category remaining (name :: followed)
              (component? document category name)
              ("/components/" ++ category ++ "/" ++ jsonPointerSegment name)

/-- `local` of a place in the document. -/
def localObject (profile : Profile) (category : String) (place : Located document) :
    Extract document (Option (Located document)) :=
  resolveLocal profile category 32 [] (some place) (pointer place)

end ApiTruth.Analyzers.OpenApi3
