import ApiTruth.Analyzers.OpenApi3.EffectiveParameters
import ApiTruth.Foundation.Traverse

/-!
# The security of extracted operations

The analyzers of OpenAPI 3 and of Swagger 2 documents store the security schemes that they know and
map the declaration that is effective for an operation to alternatives of requirements.  A scheme
counts as known when a look-up of its name in a plain object finds something, and a plain object
inherits `toString` and other properties.

## Main definitions

* `SchemeTable` : the object of definitions, with what it inherits.
* `openApi3Schemes`, `swagger2Schemes` : the definitions of a document.
* `openApi3Security`, `swagger2Security` : the security of an operation.
* `MapsSecurity` : the security of an operation and its declaration correspond.

## Main results

* `mapsSecurity_has_iff` : what both analyzers map is exact for the names that are found.
* `security_exact_iff` : it is exact for the names that are defined unless only the missing
  definition of an inherited name keeps the declaration from being mapped.
-/

namespace ApiTruth.Analyzers

open Json OpenApi3 List Bool
open ApiTruth.Ir hiding Diagnostic

/-! ### Security schemes -/

/-- The properties that every plain object inherits. -/
def inheritedNames : List String :=
  ["__proto__", "constructor", "hasOwnProperty", "isPrototypeOf", "propertyIsEnumerable",
    "toLocaleString", "toString", "valueOf", "__defineGetter__", "__defineSetter__",
    "__lookupGetter__", "__lookupSetter__"]

/-- The definition of a scheme; the location of an API key is the value that was read. -/
inductive SchemeDefinition
  | apiKey (name : String) (location : Json)
  | http (scheme : String) (bearerFormat : Option String)

structure SchemeFact where
  definition : SchemeDefinition
  evidenceIds : List String

/-- `result.security_schemes`. -/
structure SchemeTable where
  own : OrderedMap String SchemeFact := .empty
  /-- A fact was assigned to `__proto__`. -/
  replaced : Bool := false

namespace SchemeTable

/-- `security_schemes[name] = fact`; for `__proto__` this replaces what the object inherits from. -/
def set (table : SchemeTable) (name : String) (fact : SchemeFact) : SchemeTable :=
  if name = "__proto__" then { table with replaced := true }
  else { table with own := table.own.set name fact }

/-- The result holds a definition of the scheme. -/
def defines (table : SchemeTable) (name : String) : Bool := (table.own.get? name).isSome

/-- `security_schemes[name] !== undefined`. -/
def has (table : SchemeTable) (name : String) : Bool :=
  table.defines name || inheritedNames.contains name ||
    table.replaced && ["definition", "evidence_ids"].contains name

end SchemeTable

section Schemes

variable (host : Host) (documentPath : String)

/-- The id of the evidence for a place of the document. -/
def evidenceId (pointer : String) (endpointId : Option String) : String :=
  let text := documentPath ++ ":" ++ pointer ++ ":" ++ endpointId.getD ""
  "ev-" ++ String.ofList ((host.sha256Hex text).toList.take 24)

def hasOnly (names : List String) (j : Json) : Bool := j.members.all fun m => names.contains m.1

def nonEmptyText (j : Json) (key : String) : Option String :=
  (textMember j key).filter fun text => !text.isEmpty

/-- `String(value)`, where it can be one of the locations. -/
def locationText : Json → Option String
  | .str text => some text
  | .arr [item] => locationText item
  | _ => none
termination_by j => sizeOf j

/-- The definition that is stored for a security scheme of an OpenAPI 3 document. -/
def openApi3Definition (scheme : Json) : Option SchemeDefinition :=
  match textMember scheme "type" with
  | some "apiKey" => do
    guard (hasOnly ["type", "name", "in", "description"] scheme)
    let name ← nonEmptyText scheme "name"
    let location ← scheme.members.lookup "in"
    guard ((locationText location).any ["header", "query", "cookie"].contains)
    return .apiKey name location
  | some "http" => do
    guard (hasOnly ["type", "scheme", "bearerFormat", "description"] scheme)
    return .http (← nonEmptyText scheme "scheme") (nonEmptyText scheme "bearerFormat")
  | _ => none

/-- The definition that is stored for a security definition of a Swagger 2 document. -/
def swagger2Definition (definition : Json) : Option SchemeDefinition :=
  match textMember definition "type" with
  | some "basic" => do
    guard (hasOnly ["type", "description"] definition)
    return .http "basic" none
  | some "apiKey" => do
    guard (hasOnly ["type", "name", "in", "description"] definition)
    let name ← nonEmptyText definition "name"
    let location ← definition.members.lookup "in"
    guard (location = .str "header" ∨ location = .str "query")
    return .apiKey name location
  | _ => none

/-- The definitions of a map of schemes; a scheme without one is reported. -/
def readSchemes (mapPointer : String) (definition : String → Json → Except String SchemeDefinition)
    (schemes : List (String × Json)) (diagnostics : List Diagnostic) :
    SchemeTable × List Diagnostic :=
  (schemes.insertionSort fun a b => host.localeLe a.1 b.1 = true).foldl
    (fun (table, diagnostics) (name, scheme) =>
      let pointer := mapPointer ++ "/" ++ jsonPointerSegment name
      match definition name scheme with
      | .ok found =>
        (table.set name ⟨found, [evidenceId host documentPath pointer none]⟩, diagnostics)
      | .error code => (table, record diagnostics { code, pointer })) ({}, diagnostics)

def openApi3Schemes (document : Json) (diagnostics : List Diagnostic) :
    SchemeTable × List Diagnostic :=
  readSchemes host documentPath "/components/securitySchemes"
    (fun _ scheme => (openApi3Definition scheme).elim (.error "security_scheme_unsupported") .ok)
    ((document.member "components").member "securitySchemes").members diagnostics

def swagger2Schemes (document : Json) (diagnostics : List Diagnostic) :
    SchemeTable × List Diagnostic :=
  readSchemes host documentPath "/securityDefinitions"
    (fun name definition =>
      if ContractSnapshot.isComponentKey name then
        (swagger2Definition definition).elim (.error "security_scheme_unsupported") .ok
      else .error "security_scheme_name_unsupported")
    (document.member "securityDefinitions").members diagnostics

end Schemes

/-! ### The security of an operation -/

/-- A requirement as it is declared: the name of a scheme, and scopes. -/
abbrev DeclaredRequirement := String × List String

def scopesOf : Json → Option (List String)
  | .arr items => items.mapM fun item =>
    match item with
    | .str scope => some scope
    | _ => none
  | _ => none

/-- The alternatives of a declaration, each with its requirements; nothing if it is malformed. -/
def declaredAlternatives : Json → Option (List (List DeclaredRequirement))
  | .arr items => items.mapM fun item =>
    match item with
    | .obj members => members.mapM fun m => (scopesOf m.2).map fun scopes => (m.1, scopes)
    | _ => none
  | _ => none

/-- The declaration of the operation, or else that of the document. -/
def effectiveSecurity (document operation : Json) : Option Json :=
  (operation.members.lookup "security").or (document.members.lookup "security")

def securityPointer (operation : Json) (operationPointer : String) : String :=
  if (operation.members.lookup "security").isSome then operationPointer ++ "/security"
  else "/security"

def unknownSecurity : EndpointSecurity := { state := some .unknown, alternatives := [] }

/-- Every requirement names a scheme for which the test holds and has no scopes. -/
def isRepresentable (test : String → Bool) (alternatives : List (List DeclaredRequirement)) : Bool :=
  alternatives.all fun alternative => alternative.all fun r => test r.1 && r.2.isEmpty

def storedRequirement (r : DeclaredRequirement) : SecurityRequirement := ⟨r.1, r.2⟩

section Operations

variable (host : Host) (documentPath : String) (table : SchemeTable) (document operation : Json)
  (operationPointer endpointId : String)

/-- The requirements of an alternative by the names of their schemes. -/
def storedAlternative (alternative : List DeclaredRequirement) : List SecurityRequirement :=
  (alternative.insertionSort fun a b => host.localeLe a.1 b.1 = true).map storedRequirement

def explicitSecurity (state : SecurityState) (alternatives : List (List DeclaredRequirement)) :
    EndpointSecurity where
  state := some state
  evidenceIds := some [evidenceId host documentPath (securityPointer operation operationPointer)
    (some endpointId)]
  alternatives := alternatives.map (storedAlternative host)

def securityReport (code : String) (endpointId : Option String) : Diagnostic :=
  { code, pointer := securityPointer operation operationPointer, endpointId }

/-- The security that the analyzer of OpenAPI 3 documents stores for an operation. -/
def openApi3Security (diagnostics : List Diagnostic) : EndpointSecurity × List Diagnostic :=
  let reported (code : String) := (unknownSecurity,
    record diagnostics (securityReport operation operationPointer code (some endpointId)))
  let stored := explicitSecurity host documentPath operation operationPointer endpointId
  match effectiveSecurity document operation with
  | none => (unknownSecurity, diagnostics)
  | some declaration =>
    match declaredAlternatives declaration with
    | none => reported "security_declaration_unsupported"
    | some [] => (stored .anonymous [], diagnostics)
    | some alternatives =>
      if alternatives.any List.isEmpty then reported "optional_security_unsupported"
      else if isRepresentable table.has alternatives then
        (stored .declared alternatives, diagnostics)
      else reported "security_mapping_unresolved"

inductive Swagger2Security
  | unknown
  | anonymous
  | declared (alternatives : List (List DeclaredRequirement))

/-- What the parser of Swagger 2 documents reads, and what it reports. -/
def parseSecurity : Swagger2Security × List Diagnostic :=
  match effectiveSecurity document operation with
  | none => (.unknown, [])
  | some declaration =>
    match declaredAlternatives declaration with
    | none => (.unknown, [securityReport operation operationPointer "unsupported_construct" none])
    | some [] => (.anonymous, [])
    | some alternatives => (.declared alternatives, [])

/-- The security that the analyzer of Swagger 2 documents stores for an operation, after the reports
of the parser. -/
def swagger2Security (diagnostics : List Diagnostic) : EndpointSecurity × List Diagnostic :=
  let (security, reports) := parseSecurity document operation operationPointer
  let diagnostics := reports.foldl record diagnostics
  let stored := explicitSecurity host documentPath operation operationPointer endpointId
  match security with
  | .unknown => (unknownSecurity, diagnostics)
  | .anonymous => (stored .anonymous [], diagnostics)
  | .declared alternatives =>
    if !alternatives.any List.isEmpty && isRepresentable table.has alternatives then
      (stored .declared alternatives, diagnostics)
    else (unknownSecurity, record diagnostics
      (securityReport operation operationPointer "security_mapping_unresolved" (some endpointId)))

end Operations

/-! ### Exactness -/

/-- The declaration has alternatives, none of them empty, without scopes, of schemes for which the
test holds. -/
def IsMappable (test : String → Bool) (declaration : Option Json)
    (alternatives : List (List DeclaredRequirement)) : Prop :=
  declaration.bind declaredAlternatives = some alternatives ∧ alternatives ≠ [] ∧
    ∀ alternative ∈ alternatives, alternative ≠ [] ∧ ∀ r ∈ alternative, test r.1 = true ∧ r.2 = []

/-- The codes of the reports about a declaration. -/
def securityCodes : List String :=
  ["security_declaration_unsupported", "optional_security_unsupported",
    "security_mapping_unresolved", "unsupported_construct"]

def IsReported (pointer : String) (diagnostics : List Diagnostic) : Prop :=
  ∃ d ∈ diagnostics, d.code ∈ securityCodes ∧ d.pointer = pointer

/-- The security corresponds to the declaration: it is anonymous for the empty list, declared with
the same requirements for alternatives of schemes for which the test holds, and else unknown and
reported. -/
structure MapsSecurity (test : String → Bool) (declaration : Option Json) (pointer : String)
    (result : EndpointSecurity × List Diagnostic) : Prop where
  anonymous_iff : result.1.state = some .anonymous ↔ declaration = some (.arr [])
  declared_iff : result.1.state = some .declared ↔
    ∃ alternatives, IsMappable test declaration alternatives
  alternatives : result.1.state = some .declared → ∃ alternatives,
    declaration.bind declaredAlternatives = some alternatives ∧
      List.Forall₂ (fun stored declared => stored.Perm (declared.map storedRequirement))
        result.1.alternatives alternatives
  unknown : result.1.state ≠ some .anonymous → result.1.state ≠ some .declared →
    result.1.state = some .unknown ∧ (declaration.isSome = true → IsReported pointer result.2)

theorem isReported_record {diagnostics : List Diagnostic} {d : Diagnostic}
    (hcode : d.code ∈ securityCodes) : IsReported d.pointer (record diagnostics d) := by
  obtain ⟨other, hother, hkey⟩ := exists_mem_record diagnostics d
  simp only [Diagnostic.key, Prod.mk.injEq] at hkey
  exact ⟨other, hother, hkey.1 ▸ hcode, hkey.2.1⟩

theorem declaredAlternatives_eq_nil_iff {declaration : Json} :
    declaredAlternatives declaration = some [] ↔ declaration = .arr [] := by
  refine ⟨fun h => ?_, fun h => h ▸ rfl⟩
  cases declaration with
  | arr items =>
    obtain rfl := List.forall₂_nil_right_iff.mp (mapM_eq_some_iff.mp h)
    rfl
  | _ => cases h

section Maps

variable {test : String → Bool} {declaration : Json}
  {alternatives : List (List DeclaredRequirement)} {pointer : String}
  {diagnostics : List Diagnostic}

theorem exists_isMappable_iff (h : declaredAlternatives declaration = some alternatives)
    (hne : alternatives ≠ []) : (∃ others, IsMappable test (some declaration) others) ↔
      alternatives.any List.isEmpty = false ∧ isRepresentable test alternatives = true := by
  simp only [isRepresentable, List.any_eq_false, List.isEmpty_iff, List.all_eq_true,
    and_eq_true, IsMappable, Option.bind_some, h]
  constructor
  · rintro ⟨others, hothers, -, hall⟩
    cases hothers
    exact ⟨fun alternative hmem => (hall alternative hmem).1,
      fun alternative hmem => (hall alternative hmem).2⟩
  · rintro ⟨hfull, hall⟩
    exact ⟨alternatives, rfl, hne, fun alternative hmem =>
      ⟨hfull alternative hmem, hall alternative hmem⟩⟩

variable {declaration : Option Json}

theorem mapsSecurity_unknown (hlist : declaration ≠ some (.arr []))
    (hnot : ¬∃ alternatives, IsMappable test declaration alternatives)
    (hreported : declaration.isSome = true → IsReported pointer diagnostics) :
    MapsSecurity test declaration pointer (unknownSecurity, diagnostics) where
  anonymous_iff := iff_of_false nofun hlist
  declared_iff := iff_of_false nofun hnot
  alternatives := nofun
  unknown _ _ := ⟨rfl, hreported⟩

theorem mapsSecurity_anonymous (host : Host) (documentPath : String) (operation : Json)
    (operationPointer endpointId : String) :
    MapsSecurity test (some (.arr [])) pointer (explicitSecurity host documentPath operation
      operationPointer endpointId .anonymous [], diagnostics) where
  anonymous_iff := iff_of_true rfl rfl
  declared_iff := iff_of_false nofun fun ⟨_, h, hne, _⟩ => hne (Option.some.inj h).symm
  alternatives := nofun
  unknown h := absurd rfl h

theorem mapsSecurity_declared (host : Host) (documentPath : String) (operation : Json)
    (operationPointer endpointId : String) (h : IsMappable test declaration alternatives) :
    MapsSecurity test declaration pointer (explicitSecurity host documentPath operation
      operationPointer endpointId .declared alternatives, diagnostics) where
  anonymous_iff := iff_of_false nofun fun hlist => h.2.1 (Option.some.inj (h.1.symm.trans (by
    rw [hlist]
    rfl)))
  declared_iff := iff_of_true rfl ⟨alternatives, h⟩
  alternatives _ := ⟨alternatives, h.1, List.forall₂_map_left_iff.mpr
    (List.forall₂_same.mpr fun _ _ => (perm_insertionSort _ _).map _)⟩
  unknown _ h := absurd rfl h

end Maps

/-! ### Both analyzers -/

inductive DocumentFormat
  | openApi3
  | swagger2

/-- The security schemes that the analyzer stores for a document. -/
def DocumentFormat.schemes : DocumentFormat → Host → String → Json → List Diagnostic →
    SchemeTable × List Diagnostic
  | .openApi3 => openApi3Schemes
  | .swagger2 => swagger2Schemes

/-- The security that the analyzer stores for an operation. -/
def DocumentFormat.security : DocumentFormat → Host → String → SchemeTable → Json → Json → String →
    String → List Diagnostic → EndpointSecurity × List Diagnostic
  | .openApi3 => openApi3Security
  | .swagger2 => swagger2Security

/-- Only the missing definition of a name that is found keeps the declaration from being mapped. -/
def OnlyFound (table : SchemeTable) (declaration : Option Json) : Prop :=
  ∃ alternatives, IsMappable table.has declaration alternatives ∧
    ∃ alternative ∈ alternatives, ∃ r ∈ alternative, table.defines r.1 = false

section Analyzers

variable (host : Host) (documentPath : String) {table : SchemeTable} (document operation : Json)
  (operationPointer endpointId : String) (diagnostics : List Diagnostic)

theorem mapsSecurity_has (format : DocumentFormat) :
    MapsSecurity table.has (effectiveSecurity document operation)
      (securityPointer operation operationPointer) (format.security host documentPath table document
        operation operationPointer endpointId diagnostics) := by
  have hreported {code : String} (id : Option String) (before : List Diagnostic)
      (hcode : code ∈ securityCodes) : IsReported (securityPointer operation operationPointer)
        (record before (securityReport operation operationPointer code id)) :=
    isReported_record (d := securityReport operation operationPointer code id) hcode
  cases hdeclaration : effectiveSecurity document operation with
  | none =>
    have hunknown (before : List Diagnostic) :
        MapsSecurity table.has none (securityPointer operation operationPointer)
          (unknownSecurity, before) :=
      mapsSecurity_unknown nofun (fun ⟨_, h, _⟩ => nomatch h) nofun
    cases format <;>
      simp only [DocumentFormat.security, openApi3Security, swagger2Security, parseSecurity,
        hdeclaration, foldl_nil] <;>
      exact hunknown _
  | some declaration =>
    rcases hread : declaredAlternatives declaration with _ | _ | ⟨first, rest⟩
    · have hunknown (before : List Diagnostic)
          (hbefore : IsReported (securityPointer operation operationPointer) before) :
          MapsSecurity table.has (some declaration) (securityPointer operation operationPointer)
            (unknownSecurity, before) := by
        refine mapsSecurity_unknown (fun h => ?_) (fun ⟨_, h, _⟩ => ?_) fun _ => hbefore
        · rw [Option.some.inj h] at hread
          cases hread
        · rw [Option.bind_some, hread] at h
          cases h
      cases format <;>
        simp only [DocumentFormat.security, openApi3Security, swagger2Security, parseSecurity,
          hdeclaration, hread, foldl_cons, foldl_nil] <;>
        exact hunknown _ (hreported _ _ (by decide))
    · obtain rfl := declaredAlternatives_eq_nil_iff.mp hread
      cases format <;>
        simp only [DocumentFormat.security, openApi3Security, swagger2Security, parseSecurity,
          hdeclaration, hread, foldl_nil] <;>
        exact mapsSecurity_anonymous host documentPath operation operationPointer endpointId
    · have hmappable := @exists_isMappable_iff table.has _ _ hread (cons_ne_nil first rest)
      have hunknown (before : List Diagnostic)
          (hnot : ¬((first :: rest).any List.isEmpty = false ∧
            isRepresentable table.has (first :: rest) = true))
          (hbefore : IsReported (securityPointer operation operationPointer) before) :
          MapsSecurity table.has (some declaration) (securityPointer operation operationPointer)
            (unknownSecurity, before) := by
        refine mapsSecurity_unknown (fun h => ?_) (mt hmappable.mp hnot) fun _ => hbefore
        rw [Option.some.inj h] at hread
        cases hread
      have hdeclared (hfull : (first :: rest).any List.isEmpty = false)
          (hall : isRepresentable table.has (first :: rest) = true) :
          MapsSecurity table.has (some declaration) (securityPointer operation operationPointer)
            (explicitSecurity host documentPath operation operationPointer endpointId .declared
              (first :: rest), diagnostics) := by
        obtain ⟨alternatives, h⟩ := hmappable.mpr ⟨hfull, hall⟩
        cases hread.symm.trans h.1
        exact mapsSecurity_declared host documentPath operation operationPointer endpointId h
      cases format with
      | openApi3 =>
        simp only [DocumentFormat.security, openApi3Security, hdeclaration, hread]
        split_ifs with hempty hall
        · exact hunknown _ (fun h => by simp [h.1] at hempty) (hreported _ _ (by decide))
        · exact hdeclared (not_eq_true _ ▸ hempty) hall
        · exact hunknown _ (fun h => hall h.2) (hreported _ _ (by decide))
      | swagger2 =>
        simp only [DocumentFormat.security, swagger2Security, parseSecurity, hdeclaration, hread,
          foldl_nil]
        split_ifs with hall
        · rw [and_eq_true, not_eq_true'] at hall
          exact hdeclared hall.1 hall.2
        · exact hunknown _ (fun h => hall (by simp [h.1, h.2])) (hreported _ _ (by decide))

theorem mapsSecurity_defines_iff {pointer : String} {result : EndpointSecurity × List Diagnostic}
    (h : MapsSecurity table.has declaration pointer result) :
    MapsSecurity table.defines declaration pointer result ↔ ¬OnlyFound table declaration := by
  constructor
  · rintro hdefines ⟨alternatives, hmappable, alternative, hmem, r, hr, hundefined⟩
    obtain ⟨others, hothers, -, hall⟩ :=
      hdefines.declared_iff.mp (h.declared_iff.mpr ⟨alternatives, hmappable⟩)
    cases hothers.symm.trans hmappable.1
    rw [((hall alternative hmem).2 r hr).1] at hundefined
    cases hundefined
  · intro hnot
    refine { h with declared_iff := h.declared_iff.trans ⟨?_, ?_⟩ }
    · rintro ⟨alternatives, hread, hne, hall⟩
      refine ⟨alternatives, hread, hne, fun alternative hmem => ⟨(hall alternative hmem).1,
        fun r hr => ⟨?_, ((hall alternative hmem).2 r hr).2⟩⟩⟩
      by_contra hundefined
      exact hnot ⟨alternatives, ⟨hread, hne, hall⟩, alternative, hmem, r, hr,
        not_eq_true _ ▸ hundefined⟩
    · rintro ⟨alternatives, hread, hne, hall⟩
      exact ⟨alternatives, hread, hne, fun alternative hmem => ⟨(hall alternative hmem).1,
        fun r hr => ⟨by simp [SchemeTable.has, ((hall alternative hmem).2 r hr).1],
          ((hall alternative hmem).2 r hr).2⟩⟩⟩

/-- **Security mapping.**  What is stored for an operation corresponds to its effective declaration,
unless the declaration would be mapped if the names that a plain object inherits were defined. -/
theorem security_exact_iff (format : DocumentFormat) (before : List Diagnostic) :
    let table := (format.schemes host documentPath document before).1
    MapsSecurity table.defines (effectiveSecurity document operation)
        (securityPointer operation operationPointer) (format.security host documentPath table
          document operation operationPointer endpointId diagnostics) ↔
      ¬OnlyFound table (effectiveSecurity document operation) :=
  mapsSecurity_defines_iff (mapsSecurity_has host documentPath document operation operationPointer
    endpointId diagnostics format)

end Analyzers

/-- An operation that requires a scheme `toString`. -/
def inheritingOperation : Json :=
  .obj [("security", .arr [.obj [("toString", .arr [])]]),
    ("responses", .obj [("204", .obj [("description", .str "Done")])])]

/-- A document with the operation and without security schemes. -/
def inheritingDocument : Json :=
  .obj [("openapi", .str "3.0.3"),
    ("info", .obj [("title", .str "Orders"), ("version", .str "1")]),
    ("paths", .obj [("/orders", .obj [("get", inheritingOperation)])])]

/-- A requirement of `toString` is stored without a definition of this name. -/
theorem not_security_exact :
    isDocument .v30 inheritingDocument = true ∧
    ¬∀ (format : DocumentFormat) (host : Host) (documentPath : String) (document operation : Json)
      (operationPointer endpointId : String) (before diagnostics : List Diagnostic),
      let table := (format.schemes host documentPath document before).1
      MapsSecurity table.defines (effectiveSecurity document operation)
        (securityPointer operation operationPointer) (format.security host documentPath table
          document operation operationPointer endpointId diagnostics) := by
  refine ⟨by decide +kernel, fun h => ?_⟩
  have hexact := h .openApi3 .ascii "openapi.json" inheritingDocument inheritingOperation
    "/paths/~1orders/get" "endpoint-orders" [] []
  refine (mapsSecurity_defines_iff (mapsSecurity_has .ascii "openapi.json" _ _ _ _ [] .openApi3)).mp
    hexact ⟨[[("toString", [])]], ⟨rfl, cons_ne_nil _ _, ?_⟩, _, mem_cons_self, _,
      mem_cons_self, by decide⟩
  decide

end ApiTruth.Analyzers
