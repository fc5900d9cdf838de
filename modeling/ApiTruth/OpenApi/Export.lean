import ApiTruth.Foundation.Reported
import ApiTruth.Ir.SchemaMeaning
import ApiTruth.OpenApi.Projection
import ApiTruth.OpenApi.References

/-!
# The export of schemas

The compiler renders a schema of the snapshot into a schema of the document.  References become
links into the components of the document, the members of `required` and the `format` of a schema
need an eligible claim about the field they stand under, every other constraint is dropped and
reported.  The compiler reports in passing and sorts what it reported when the document is
complete, so that the order in which the members of an object are exported does not matter.

## Main definitions

* `CompileDiagnostic`, `hasQualifyingEvidence`, `eligibleField`.
* `exportSchema` : the exported schema, with the diagnostics of the export.
-/

namespace ApiTruth.OpenApi

open Json ApiTruth.Ir List

/-- `OpenApiCompileDiagnostic`. -/
structure CompileDiagnostic where
  code : String
  path : String
  endpointIds : List String
deriving DecidableEq, Repr

/-- `add`. -/
def diagnostic (code path : String) (endpointIds : List String) : CompileDiagnostic :=
  ⟨code, path, sorted id endpointIds⟩

/-! ### Evidence -/

section Evidence

variable (snapshot : ContractSnapshot)

/-- `evidence.get(id)`. -/
def evidenceOf (id : String) : Option Evidence :=
  (OrderedMap.ofEntries (snapshot.evidence.map fun item => (item.evidenceId, item))).get? id

def hasQualifyingEvidence (ids : List String) (endpointId : Option String)
    (exactEndpoint : Bool) : Bool :=
  ids.any fun id =>
    match evidenceOf snapshot id with
    | none => false
    | some fact =>
      fact.method.isQualifying && fact.limitations.isEmpty &&
      fact.scope.serviceId == snapshot.service.serviceId &&
      fact.scope.snapshotId == some snapshot.snapshotId &&
      match endpointId with
      | none => fact.scope.endpointId.isNone
      | some endpointId =>
        if exactEndpoint then fact.scope.endpointId == some endpointId
        else fact.scope.endpointId.isNone || fact.scope.endpointId == some endpointId

/-- `\d+`. -/
def isDigits (cs : List Char) : Bool := !cs.isEmpty && cs.all Char.isDigit

/-- `directFormField`. -/
def isDirectFormField (pointer : String) : Bool :=
  match pointer.toList.splitOn '/' with
  | [root, endpoints, endpointIndex, bodies, bodyIndex, schema, properties, name] =>
    root.isEmpty && endpoints == "endpoints".toList && isDigits endpointIndex &&
      bodies == "request_bodies".toList && isDigits bodyIndex && schema == "schema".toList &&
      properties == "properties".toList && !name.isEmpty
  | _ => false

/-- `fullPointer.startsWith("/schemas/")`. -/
def isComponentPointer (pointer : String) : Bool := "/schemas/".toList.isPrefixOf pointer.toList

/-- An eligible record of an unconditional claim of the endpoint that gives the predicate at the
pointer this value, on evidence for that endpoint. -/
def establishesField (endpointId fullPointer predicate value : String)
    (eligibility : ExportEligibility) : Bool :=
  match eligibility.status with
  | .ineligible _ => false
  | .eligible _ evidenceIds =>
    eligibility.scope.endpointIds.contains endpointId &&
    match snapshot.claims.find? (·.claimId == eligibility.claimId) with
    | none => false
    | some claim =>
      claim.condition.isNone && claim.subject.endpointId == some endpointId &&
      claim.subject.schemaPointer == some fullPointer && claim.predicate == predicate &&
      decide (claim.value = .str value) &&
      hasQualifyingEvidence snapshot evidenceIds (some endpointId) true

def eligibleField (endpointIds : List String) (fullPointer predicate value : String)
    (allowComponent : Bool) : Bool :=
  match endpointIds with
  | [endpointId] =>
    (allowComponent && isComponentPointer fullPointer || isDirectFormField fullPointer) &&
      snapshot.exportEligibility.any
        (establishesField snapshot endpointId fullPointer predicate value)
  | _ => false

end Evidence

/-! ### Schemas -/

def constraintKeys : List String :=
  ["enum", "const", "format", "pattern", "minimum", "maximum", "minLength", "maxLength",
    "minItems", "maxItems", "additionalProperties"]

/-- The scalar types whose `format` can be exported. -/
def hasScalarType (schema : List (String × Json)) : Bool :=
  match schema.lookup "type" with
  | some (.str name) => ["string", "integer", "number"].contains name
  | _ => false

def stringOf : Json → Option String
  | .str s => some s
  | _ => none

section Export

variable (snapshot : ContractSnapshot) (endpointIds : List String)

/-- The members of `required` that an eligible claim establishes. -/
def acceptedNames (factPath : String) (names : List Json) : List String :=
  (names.filterMap stringOf).filter fun name =>
    eligibleField snapshot endpointIds (factPath ++ "/properties/" ++ pointer name)
      "field_presence" "required" true

/-- The export of `required`. -/
def exportRequired (path factPath : String) (names : List Json) :
    Reported CompileDiagnostic (Option Json) := do
  let accepted := acceptedNames snapshot endpointIds factPath names
  Reported.reportIf (accepted.length ≠ names.length)
    (diagnostic "UNVERIFIED_SCHEMA_CONSTRAINT" (path ++ "/required") endpointIds)
  pure (if accepted.isEmpty then none else some (stringArray (sorted id accepted)))

/-- The format is established by an eligible claim. -/
def keepsFormat (schema : List (String × Json)) (factPath : String) (value : Json) : Bool :=
  match value with
  | .str format =>
    hasScalarType schema &&
      eligibleField snapshot endpointIds factPath "field_format" format false
  | _ => false

/-- The export of a keyword without schemas below it. -/
def exportLeaf (schema : List (String × Json)) (path factPath key : String) (value : Json) :
    Reported CompileDiagnostic (Option Json) :=
  match key, value with
  | "$ref", .str ref => pure (some (.str (exportedRef ref)))
  | "required", .arr names => exportRequired snapshot endpointIds path factPath names
  | key, value =>
    if key = "format" ∧ keepsFormat snapshot endpointIds schema factPath value then
      pure (some value)
    else if constraintKeys.contains key then do
      Reported.report
        (diagnostic "UNVERIFIED_SCHEMA_CONSTRAINT" (path ++ "/" ++ pointer key) endpointIds)
      pure none
    else pure (some value)

mutual

def exportSchema (path factPath : String) : Json → Reported CompileDiagnostic Json
  | .obj schema =>
    (fun members => Json.obj (sorted Prod.fst members)) <$>
      exportKeywords schema path factPath schema
  | _ => pure (.obj [])
termination_by structural schema => schema

def exportKeywords (schema : List (String × Json)) (path factPath : String) :
    List (String × Json) → Reported CompileDiagnostic (List (String × Json))
  | [] => pure []
  | (key, value) :: rest => do
    let exported ← (match key, value with
      | "properties", .obj properties =>
        (fun members => some (Json.obj (sorted Prod.fst members))) <$>
          exportProperties (path ++ "/properties") (factPath ++ "/properties") properties
      | "items", s => some <$> exportSchema (path ++ "/items") (factPath ++ "/items") s
      | "not", s => some <$> exportSchema (path ++ "/not") (factPath ++ "/not") s
      | "prefixItems", .arr schemas =>
        (some ∘ Json.arr) <$>
          exportItems (path ++ "/prefixItems") (factPath ++ "/prefixItems") 0 schemas
      | "oneOf", .arr schemas =>
        (some ∘ Json.arr) <$> exportItems (path ++ "/oneOf") (factPath ++ "/oneOf") 0 schemas
      | "anyOf", .arr schemas =>
        (some ∘ Json.arr) <$> exportItems (path ++ "/anyOf") (factPath ++ "/anyOf") 0 schemas
      | "allOf", .arr schemas =>
        (some ∘ Json.arr) <$> exportItems (path ++ "/allOf") (factPath ++ "/allOf") 0 schemas
      | key, value => exportLeaf snapshot endpointIds schema path factPath key value)
    let others ← exportKeywords schema path factPath rest
    pure ((exported.map (key, ·)).toList ++ others)
termination_by structural keywords => keywords

def exportProperties (path factPath : String) :
    List (String × Json) → Reported CompileDiagnostic (List (String × Json))
  | [] => pure []
  | (name, s) :: rest => do
    let exported ← exportSchema (path ++ "/" ++ pointer name) (factPath ++ "/" ++ pointer name) s
    let others ← exportProperties path factPath rest
    pure ((name, exported) :: others)
termination_by structural properties => properties

def exportItems (path factPath : String) (index : ℕ) :
    List Json → Reported CompileDiagnostic (List Json)
  | [] => pure []
  | s :: rest => do
    let exported ←
      exportSchema (path ++ "/" ++ toString index) (factPath ++ "/" ++ toString index) s
    let others ← exportItems path factPath (index + 1) rest
    pure (exported :: others)
termination_by structural schemas => schemas

end

/-! ### The export, keyword by keyword -/

variable (schema : List (String × Json)) (path factPath : String)

def exportKeyword (key : String) (value : Json) : Reported CompileDiagnostic (Option Json) :=
  (fun members => members.head?.map Prod.snd) <$>
    exportKeywords snapshot endpointIds schema path factPath [(key, value)]

theorem exportKeywords_cons (key : String) (value : Json) (rest : List (String × Json)) :
    exportKeywords snapshot endpointIds schema path factPath ((key, value) :: rest) = (do
      let exported ← exportKeyword snapshot endpointIds schema path factPath key value
      let others ← exportKeywords snapshot endpointIds schema path factPath rest
      pure ((exported.map (key, ·)).toList ++ others)) := by
  rw [exportKeyword, exportKeywords.eq_def, exportKeywords.eq_def _ _ _ _ _ [_]]
  have hhead (exported : Option Json) :
      ((exported.map (key, ·)).toList ++ []).head?.map Prod.snd = exported := by
    cases exported <;> rfl
  apply Reported.ext
  · simp only [Reported.value_bind, Reported.value_map, Reported.value_pure,
      exportKeywords.eq_def _ _ _ _ _ [], hhead]
  · simp only [Reported.diagnostics_bind, Reported.value_map, Reported.value_bind,
      Reported.diagnostics_map, Reported.diagnostics_pure, exportKeywords.eq_def _ _ _ _ _ [],
      append_nil]

theorem value_exportKeywords (members : List (String × Json)) :
    (exportKeywords snapshot endpointIds schema path factPath members).value =
      members.filterMap fun m =>
        (exportKeyword snapshot endpointIds schema path factPath m.1 m.2).value.map (m.1, ·) := by
  induction members with
  | nil => rfl
  | cons m members ih =>
    rw [exportKeywords_cons, Reported.value_bind, Reported.value_bind, Reported.value_pure, ih,
      filterMap_cons]
    cases (exportKeyword snapshot endpointIds schema path factPath m.1 m.2).value <;> rfl

theorem diagnostics_exportKeywords (members : List (String × Json)) :
    (exportKeywords snapshot endpointIds schema path factPath members).diagnostics =
      members.flatMap fun m =>
        (exportKeyword snapshot endpointIds schema path factPath m.1 m.2).diagnostics := by
  induction members with
  | nil => rfl
  | cons m members ih =>
    rw [exportKeywords_cons, Reported.diagnostics_bind, Reported.diagnostics_bind,
      Reported.diagnostics_pure, append_nil, ih, flatMap_cons]

theorem exportKeyword_eq (key : String) (value : Json) :
    exportKeyword snapshot endpointIds schema path factPath key value =
      match key, value with
      | "properties", .obj properties =>
        (fun members => some (Json.obj (sorted Prod.fst members))) <$>
          exportProperties snapshot endpointIds (path ++ "/properties") (factPath ++ "/properties")
            properties
      | "items", s =>
        some <$> exportSchema snapshot endpointIds (path ++ "/items") (factPath ++ "/items") s
      | "not", s =>
        some <$> exportSchema snapshot endpointIds (path ++ "/not") (factPath ++ "/not") s
      | "prefixItems", .arr schemas =>
        (some ∘ Json.arr) <$> exportItems snapshot endpointIds (path ++ "/prefixItems")
          (factPath ++ "/prefixItems") 0 schemas
      | "oneOf", .arr schemas =>
        (some ∘ Json.arr) <$>
          exportItems snapshot endpointIds (path ++ "/oneOf") (factPath ++ "/oneOf") 0 schemas
      | "anyOf", .arr schemas =>
        (some ∘ Json.arr) <$>
          exportItems snapshot endpointIds (path ++ "/anyOf") (factPath ++ "/anyOf") 0 schemas
      | "allOf", .arr schemas =>
        (some ∘ Json.arr) <$>
          exportItems snapshot endpointIds (path ++ "/allOf") (factPath ++ "/allOf") 0 schemas
      | key, value => exportLeaf snapshot endpointIds schema path factPath key value := by
  have hhead (exported : Option Json) :
      ((exported.map (key, ·)).toList ++ []).head?.map Prod.snd = exported := by
    cases exported <;> rfl
  rw [exportKeyword, exportKeywords.eq_def]
  apply Reported.ext
  · simp only [Reported.value_bind, Reported.value_map, Reported.value_pure,
      exportKeywords.eq_def _ _ _ _ _ [], hhead]
  · simp only [Reported.diagnostics_bind, Reported.diagnostics_map, Reported.diagnostics_pure,
      exportKeywords.eq_def _ _ _ _ _ [], append_nil]

variable (properties : List (String × Json))

theorem exportKeyword_properties :
    exportKeyword snapshot endpointIds schema path factPath "properties" (.obj properties) =
      (fun members => some (Json.obj (sorted Prod.fst members))) <$>
        exportProperties snapshot endpointIds (path ++ "/properties") (factPath ++ "/properties")
          properties :=
  exportKeyword_eq snapshot endpointIds schema path factPath "properties" (.obj properties)

theorem exportKeyword_schema {key : String} (hkey : key ∈ ["items", "not"]) (s : Json) :
    exportKeyword snapshot endpointIds schema path factPath key s =
      some <$> exportSchema snapshot endpointIds (path ++ ("/" ++ key)) (factPath ++ ("/" ++ key))
        s := by
  simp only [mem_cons, not_mem_nil, or_false] at hkey
  rcases hkey with rfl | rfl
  · exact exportKeyword_eq snapshot endpointIds schema path factPath "items" s
  · exact exportKeyword_eq snapshot endpointIds schema path factPath "not" s

theorem exportKeyword_schemas {key : String}
    (hkey : key ∈ ["allOf", "anyOf", "oneOf", "prefixItems"]) (schemas : List Json) :
    exportKeyword snapshot endpointIds schema path factPath key (.arr schemas) =
      (some ∘ Json.arr) <$> exportItems snapshot endpointIds (path ++ ("/" ++ key))
        (factPath ++ ("/" ++ key)) 0 schemas := by
  simp only [mem_cons, not_mem_nil, or_false] at hkey
  rcases hkey with rfl | rfl | rfl | rfl
  · exact exportKeyword_eq snapshot endpointIds schema path factPath "allOf" (.arr schemas)
  · exact exportKeyword_eq snapshot endpointIds schema path factPath "anyOf" (.arr schemas)
  · exact exportKeyword_eq snapshot endpointIds schema path factPath "oneOf" (.arr schemas)
  · exact exportKeyword_eq snapshot endpointIds schema path factPath "prefixItems" (.arr schemas)

theorem exportKeyword_leaf {key : String} {value : Json}
    (h : isAssertion key value = true ∨ key = "additionalProperties") :
    exportKeyword snapshot endpointIds schema path factPath key value =
      exportLeaf snapshot endpointIds schema path factPath key value := by
  rw [exportKeyword_eq]
  rcases h with h | rfl
  · unfold isAssertion at h
    split at h
    case h_9 => simp [*]
    all_goals cases h
  · rfl

theorem value_exportProperties :
    (exportProperties snapshot endpointIds path factPath properties).value =
      properties.map fun p => (p.1, (exportSchema snapshot endpointIds
        (path ++ "/" ++ pointer p.1) (factPath ++ "/" ++ pointer p.1) p.2).value) := by
  induction properties with
  | nil => rfl
  | cons p properties ih => simp [exportProperties, ih]

theorem diagnostics_exportProperties :
    (exportProperties snapshot endpointIds path factPath properties).diagnostics =
      properties.flatMap fun p => (exportSchema snapshot endpointIds
        (path ++ "/" ++ pointer p.1) (factPath ++ "/" ++ pointer p.1) p.2).diagnostics := by
  induction properties with
  | nil => rfl
  | cons p properties ih => simp [exportProperties, ih]

theorem value_exportItems (index : ℕ) (schemas : List Json) :
    (exportItems snapshot endpointIds path factPath index schemas).value =
      (schemas.zipIdx index).map fun p => (exportSchema snapshot endpointIds
        (path ++ "/" ++ toString p.2) (factPath ++ "/" ++ toString p.2) p.1).value := by
  induction schemas generalizing index with
  | nil => rfl
  | cons s schemas ih => simp [exportItems, ih]

theorem diagnostics_exportItems (index : ℕ) (schemas : List Json) :
    (exportItems snapshot endpointIds path factPath index schemas).diagnostics =
      (schemas.zipIdx index).flatMap fun p => (exportSchema snapshot endpointIds
        (path ++ "/" ++ toString p.2) (factPath ++ "/" ++ toString p.2) p.1).diagnostics := by
  induction schemas generalizing index with
  | nil => rfl
  | cons s schemas ih => simp [exportItems, ih]

end Export

end ApiTruth.OpenApi
