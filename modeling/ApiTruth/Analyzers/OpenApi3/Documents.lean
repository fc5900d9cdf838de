import ApiTruth.Foundation.Json.Locations
import ApiTruth.Ir.SchemaMeaning
import ApiTruth.Updates.Ownership

/-!
# OpenAPI documents before their extraction

The analyzer of OpenAPI documents checks the outline of a document and then inspects it: the
inspection counts nodes, follows every string under `$ref` and refuses member names that JavaScript
objects treat specially.  It leaves out members that hold literal data, which it knows by their
names.

## Main definitions

* `Profile`, `Diagnostic`, `record` : versions of the format and what is reported.
* `referenceOf`, `componentName` : the string under `$ref` and the component it names.
* `isDocument` : the outline of a document.
* `inspect`, `inspection` : the pass over the whole document.
-/

namespace ApiTruth.Analyzers.OpenApi3

open Json ApiTruth.Ir ApiTruth.Updates

/-- `OpenApiDocumentProfile`. -/
inductive Profile
  | v30
  | v31
deriving DecidableEq, Repr

/-! ### Diagnostics -/

/-- A diagnostic.  Its id is a digest of code, pointer and endpoint, which stand for the id. -/
structure Diagnostic where
  code : String
  pointer : String
  severity : Severity := .warning
  endpointId : Option String := none
deriving DecidableEq, Repr

namespace Diagnostic

/-- What the id of a diagnostic is a digest of. -/
def key (d : Diagnostic) : String × String × Option String := (d.code, d.pointer, d.endpointId)

end Diagnostic

/-- `diagnostic` : a diagnostic is added unless there is one of its id. -/
def record (diagnostics : List Diagnostic) (d : Diagnostic) : List Diagnostic :=
  if diagnostics.any fun other => other.key == d.key then diagnostics else diagnostics ++ [d]

def hasError (diagnostics : List Diagnostic) : Bool := diagnostics.any (·.severity == .error)

def pointerOf (path : List Token) : String :=
  path.foldl (fun pointer token =>
    pointer ++ "/" ++ match token with
      | .name key => jsonPointerSegment key
      | .index i => toString i) ""

def pointer {document : Json} (place : Located document) : String := pointerOf place.path

/-! ### References -/

/-- The string under `$ref`. -/
def referenceOf (j : Json) : Option String :=
  match j.members.lookup "$ref" with
  | some (.str ref) => some ref
  | _ => none

/-- There are members beside `$ref`. -/
def hasSiblings (j : Json) : Bool := j.members.any (·.1 != "$ref")

/-- The decoded segment behind `#/components/<category>/`. -/
def componentName (category ref : String) : Option String :=
  let start := ("#/components/" ++ category ++ "/").toList
  let token := ref.toList.drop start.length
  if start.isPrefixOf ref.toList && !token.isEmpty && !token.contains '/' && !hasInvalidEscape token
  then some (String.ofList (decodeSegment token))
  else none

/-- The reference refers to a place in the document itself. -/
def isLocalReference (ref : String) : Bool := "#/".toList.isPrefixOf ref.toList

/-- The value that the segments of a reference lead to, through objects only. -/
def resolveSegments (document : Json) (segments : List (List Char)) : Option Json :=
  segments.foldlM (fun target segment =>
    if hasInvalidEscape segment then none
    else target.members.lookup (String.ofList (decodeSegment segment))) document

example : componentName "schemas" "#/components/schemas/a~1b" = some "a/b" := by decide

/-! ### The outline -/

def isString : Json → Bool
  | .str _ => true
  | _ => false

def isArray : Json → Bool
  | .arr _ => true
  | _ => false

/-- `/^3\.0\.[0-9]+$/` or `/^3\.1\.[01]$/` matches the version. -/
def isVersion (profile : Profile) (version : String) : Bool :=
  match profile with
  | .v30 => "3.0.".toList.isPrefixOf version.toList && !(version.toList.drop 4).isEmpty &&
      (version.toList.drop 4).all Char.isDigit
  | .v31 => version == "3.1.0" || version == "3.1.1"

/-- A string of the version, with `info` and `paths`. -/
def isDocument (profile : Profile) (document : Json) : Bool :=
  let info := (document.members.lookup "info").getD .null
  (match document.members.lookup "openapi" with
    | some (.str version) => isVersion profile version
    | _ => false) &&
  isString ((info.members.lookup "title").getD .null) &&
  isString ((info.members.lookup "version").getD .null) &&
  isObject ((document.members.lookup "paths").getD .null)

def outlineDiagnostic (profile : Profile) (document : Json) : Diagnostic :=
  let code := match profile, document.members.lookup "openapi" with
    | .v30, some (.str version) =>
      if "3.1".toList.isPrefixOf version.toList then "openapi31_unsupported"
      else "invalid_openapi30_document"
    | .v30, _ => "invalid_openapi30_document"
    | .v31, _ => "invalid_openapi31_document"
  { code, pointer := "", severity := .error }

/-! ### The inspection -/

/-- What the inspection has counted and reported. -/
structure Inspection where
  nodes : ℕ := 0
  diagnostics : List Diagnostic := []

abbrev Inspect := ExceptT String (StateM Inspection)

namespace Inspect

/-- Count a value at a depth. -/
def count (depth : ℕ) : Inspect Unit := do
  modify fun s => { s with nodes := s.nodes + 1 }
  if (← get).nodes > 50000 ∨ depth > 128 then throw "document_structure_limit_exceeded"

def report (code pointer : String) (severity : Severity) : Inspect Unit :=
  modify fun s => { s with diagnostics := record s.diagnostics { code, pointer, severity } }

end Inspect

/-- Member names that JavaScript objects treat specially. -/
def prototypeNames : List String := ["__proto__", "prototype", "constructor"]

/-- The member holds literal data, going by its name. -/
def isLiteralData (profile : Profile) (key : String) : Bool :=
  (["example", "examples", "enum", "default", "value"] ++
    if profile = .v31 then ["const"] else []).contains key || "x-".toList.isPrefixOf key.toList

/-- The inspection of the string under `$ref`. -/
def inspectReference (profile : Profile) (document : Json) (ref pointer : String) : Inspect Unit :=
  if profile = .v31 ∧ ref.toList.contains '%' then
    Inspect.report "percent_encoded_reference_unsupported" pointer .error
  else if !isLocalReference ref then
    Inspect.report "external_ref" pointer .error
  else if (resolveSegments document ((ref.toList.drop 2).splitOn '/')).isNone then
    Inspect.report "missing_local_ref" pointer .warning
  else pure ()

mutual

def inspect (profile : Profile) (document : Json) : Json → String → ℕ → Inspect Unit
  | .arr xs, pointer, depth => do
    Inspect.count depth
    inspectItems profile document xs 0 pointer (depth + 1)
  | .obj ms, pointer, depth => do
    Inspect.count depth
    -- beside a string under `$ref` other members are not looked at
    match referenceOf (.obj ms) with
    | some ref => inspectReference profile document ref (pointer ++ "/$ref")
    | none => inspectMembers profile document ms pointer (depth + 1)
  | _, _, depth => Inspect.count depth

/-- `inspect` of the items of an array. -/
def inspectItems (profile : Profile) (document : Json) : List Json → ℕ → String → ℕ → Inspect Unit
  | [], _, _, _ => pure ()
  | x :: xs, i, pointer, depth => do
    inspect profile document x (pointer ++ "/" ++ toString i) depth
    inspectItems profile document xs (i + 1) pointer depth

/-- `inspect` of the members of an object. -/
def inspectMembers (profile : Profile) (document : Json) :
    List (String × Json) → String → ℕ → Inspect Unit
  | [], _, _ => pure ()
  | (key, child) :: ms, pointer, depth => do
    if prototypeNames.contains key then throw "prototype_key_unsupported"
    if key = "$ref" ∧ !isString child then
      Inspect.report "invalid_ref" (pointer ++ "/" ++ jsonPointerSegment key) .error
    if !isLiteralData profile key then
      inspect profile document child (pointer ++ "/" ++ jsonPointerSegment key) depth
    inspectMembers profile document ms pointer depth

end

/-- The diagnostics of a document that passes the inspection, or those of one that does not. -/
def inspection (profile : Profile) (document : Json) :
    Except (List Diagnostic) (List Diagnostic) :=
  match inspect profile document document "" 0 {} with
  | (.error _, s) =>
    .error (record s.diagnostics
      { code := "document_structure_limit_exceeded", pointer := "", severity := .error })
  | (.ok _, s) => if hasError s.diagnostics then .error s.diagnostics else .ok s.diagnostics

end ApiTruth.Analyzers.OpenApi3
