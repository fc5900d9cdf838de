import ApiTruth.Observations.SyntheticExamples
import Mathlib.Logic.Relation

/-!
# Synthetic examples and their schemas

A generated example is compared with its schema and with the paths of its policy.  The value has
scalars at these paths only, every path occurs, and no name of a property is sensitive.  It is an
instance of the schema unless an integer schema with a negative maximum is in the way: there the
floor of the maximum is taken without a look at the minimum.

## Main definitions

* `IsInstance` : the instances of a schema.
* `ScalarAt`, `Occurs` : the paths of a value, without the indices of arrays.
* `Selects`, `Fits` : the schemas that a selection reaches, and the condition on their bounds.
* `Generates` : the derivations of generated values.
* `IsFaithfulExample` : an example within its schema and its policy.

## Main results

* `Generates.isInstance_iff` : a generated value is an instance when the bounds fit.
* `buildSyntheticExample_isFaithful_iff` : the examples that are faithful.
-/

namespace ApiTruth.Observations

open Checked JsonDocument List Option JsString

/-! ### Instances -/

def hasType (type : JsString) : Tree → Bool
  | .null => decide (type = JsString.ofString "null")
  | .bool _ => decide (type = JsString.ofString "boolean")
  | .num x => decide (type = JsString.ofString "number")
      || decide (type = JsString.ofString "integer" ∧ x.den = 1)
  | .str _ => decide (type = JsString.ofString "string")
  | .arr _ => decide (type = JsString.ofString "array")
  | .obj _ => decide (type = JsString.ofString "object")

/-- The value has the type, or one of the types, that the schema gives. -/
structure AllowsType (schema value : Tree) : Prop where
  one : ∀ type, get schema "type" = some (.str type) → hasType type value = true
  many : ∀ types, get schema "type" = some (.arr types) →
    ∃ type, .str type ∈ types ∧ hasType type value = true

/-- The value is within the bounds of the schema, each of which is about values of one type. -/
structure MeetsBounds (schema value : Tree) : Prop where
  required : ∀ members, value = .obj members → ∀ names, get schema "required" = some (.arr names) →
    ∀ name, .str name ∈ names → name ∈ members.map Prod.fst
  minItems : ∀ items, value = .arr items →
    ∀ bound, get schema "minItems" = some (.num bound) → bound ≤ items.length
  maxItems : ∀ items, value = .arr items →
    ∀ bound, get schema "maxItems" = some (.num bound) → items.length ≤ bound
  minLength : ∀ s, value = .str s →
    ∀ bound, get schema "minLength" = some (.num bound) → bound ≤ (JsString.codePoints s).length
  maxLength : ∀ s, value = .str s →
    ∀ bound, get schema "maxLength" = some (.num bound) → (JsString.codePoints s).length ≤ bound
  minimum : ∀ x, value = .num x →
    ∀ bound, get schema "minimum" = some (.num bound) → bound ≤ x
  maximum : ∀ x, value = .num x →
    ∀ bound, get schema "maximum" = some (.num bound) → x ≤ bound

/-- The instances of a schema with local components. -/
inductive IsInstance (schemas : List (JsString × Tree)) : Tree → Tree → Prop
  | reference {schema component target value : Tree} {id : JsString}
      (hid : ((get schema "$ref").bind stringOf).bind referenceId = some id)
      (hcomponent : schemas.lookup id = some component)
      (htarget : get component "schema" = some target) (h : IsInstance schemas target value) :
      IsInstance schemas schema value
  | keywords {schema value : Tree} (hreference : get schema "$ref" = none)
      (hfalse : schema ≠ .bool false) (htype : AllowsType schema value)
      (hbounds : MeetsBounds schema value)
      (hproperties : ∀ members, value = .obj members →
        ∀ properties, get schema "properties" = some (.obj properties) →
        ∀ name member subschema, (name, member) ∈ members →
          properties.lookup name = some subschema → IsInstance schemas subschema member)
      (hitems : ∀ items, value = .arr items → ∀ subschema, get schema "items" = some subschema →
        ∀ item ∈ items, IsInstance schemas subschema item) :
      IsInstance schemas schema value

def isScalar : Tree → Bool
  | .null | .bool _ | .num _ | .str _ => true
  | .arr _ | .obj _ => false

inductive ScalarAt : Tree → List JsString → Prop
  | here {value : Tree} (h : isScalar value = true) : ScalarAt value []
  | item {items : List Tree} {item : Tree} {path : List JsString} (hmem : item ∈ items)
      (h : ScalarAt item path) : ScalarAt (.arr items) path
  | member {members : List (JsString × Tree)} {name : JsString} {member : Tree}
      {path : List JsString} (hmem : (name, member) ∈ members) (h : ScalarAt member path) :
      ScalarAt (.obj members) (name :: path)

inductive Occurs : Tree → List JsString → Prop
  | here (value : Tree) : Occurs value []
  | item {items : List Tree} {item : Tree} {path : List JsString} (hmem : item ∈ items)
      (h : Occurs item path) : Occurs (.arr items) path
  | member {members : List (JsString × Tree)} {name : JsString} {member : Tree}
      {path : List JsString} (hmem : (name, member) ∈ members) (h : Occurs member path) :
      Occurs (.obj members) (name :: path)

variable {path : List JsString} {name : JsString}

variable {value : Tree}

theorem scalarAt_scalar_iff (h : isScalar value = true) :
    ScalarAt value path ↔ path = [] := by
  constructor
  · rintro (hscalar | ⟨hmem, hitem⟩ | ⟨hmem, hmember⟩)
    · rfl
    · cases h
    · cases h
  · rintro rfl
    exact .here h

theorem propertyNames_scalar (h : isScalar value = true) :
    propertyNames value = [] := by
  cases value <;> first | rfl | cases h

theorem mem_propertyNamesItems {items : List Tree} :
    name ∈ propertyNamesItems items ↔ ∃ item ∈ items, name ∈ propertyNames item := by
  induction items with
  | nil => simp [propertyNamesItems]
  | cons item items ih => simp [propertyNamesItems, ih]

variable {members : List (JsString × Tree)}

theorem mem_propertyNamesMembers :
    name ∈ propertyNamesMembers members ↔
      name ∈ members.map Prod.fst ∨ ∃ member ∈ members, name ∈ propertyNames member.2 := by
  induction members with
  | nil => simp [propertyNamesMembers]
  | cons member members ih =>
    simp only [propertyNamesMembers, mem_append, mem_cons, map_cons, ih, exists_eq_or_imp]
    tauto

/-! ### Selections of paths -/

theorem lookup_cons_eq_ite {α : Type*} (name : JsString) (entry : JsString × α)
    (entries : List (JsString × α)) :
    (entry :: entries).lookup name = if name = entry.1 then some entry.2 else entries.lookup name := by
  obtain ⟨other, value⟩ := entry
  by_cases hname : name = other
  · simp [hname]
  · rw [lookup_cons, beq_eq_false_iff_ne.mpr hname, if_neg hname]

namespace Trie

/-- A path is selected. -/
def lists : Trie → List JsString → Prop
  | trie, [] => trie.terminal = true
  | trie, segment :: path => ∃ child, trie.child segment = some child ∧ child.lists path

theorem not_lists_empty (path : List JsString) : ¬lists empty path := by
  cases path with
  | nil => exact Bool.false_ne_true
  | cons segment path =>
    rintro ⟨child, hchild, -⟩
    cases hchild

/-- One entry of a list of children gets another selection. -/
def replace (segment : JsString) (child : Trie) (entry : JsString × Trie) : JsString × Trie :=
  if entry.1 = segment then (segment, child) else entry

theorem lookup_map_replace {children : List (JsString × Trie)} {segment other : JsString}
    {child : Trie} :
    (children.map (replace segment child)).lookup other =
      if other = segment then (children.lookup segment).map fun _ => child
      else children.lookup other := by
  induction children with
  | nil => simp
  | cons entry children ih =>
    rw [map_cons, lookup_cons_eq_ite, ih]
    by_cases hentry : entry.1 = segment
    · rw [replace, if_pos hentry]
      by_cases hother : other = segment
      · subst hother
        simp [lookup_cons_eq_ite, hentry]
      · simp [lookup_cons_eq_ite, hentry, hother]
    · rw [replace, if_neg hentry]
      by_cases hother : other = segment
      · subst hother
        simp [lookup_cons_eq_ite, Ne.symm hentry]
      · simp [lookup_cons_eq_ite, hother]

theorem child_insert_cons (trie : Trie) (segment other : JsString) (path : List JsString) :
    (insert (segment :: path) trie).child other =
      if other = segment then some (insert path ((trie.child segment).getD empty))
      else trie.child other := by
  obtain ⟨terminal, children⟩ := trie
  rw [insert]
  simp only [child, Trie.children]
  cases hlookup : children.lookup segment with
  | some child =>
    show (children.map (replace segment (insert path child))).lookup other = _
    simp [lookup_map_replace, hlookup]
  | none =>
    rw [lookup_append]
    by_cases hother : other = segment
    · simp [hother, hlookup]
    · simp [hother, lookup_cons_eq_ite]

theorem lists_insert {path other : List JsString} {trie : Trie} :
    lists (insert path trie) other ↔ other = path ∨ lists trie other := by
  induction path generalizing trie other with
  | nil =>
    obtain ⟨terminal, children⟩ := trie
    cases other with
    | nil => simp [insert, lists, Trie.terminal]
    | cons segment other => simp [insert, lists, child, Trie.children]
  | cons segment path ih =>
    cases other with
    | nil =>
      obtain ⟨terminal, children⟩ := trie
      simp [insert, lists, Trie.terminal]
    | cons next other =>
      simp only [lists, child_insert_cons]
      by_cases hnext : next = segment
      · subst hnext
        simp only [if_true, Option.some.injEq, exists_eq_left', ih, List.cons.injEq, true_and]
        cases hchild : trie.child next with
        | none => simp [not_lists_empty]
        | some child => simp
      · simp [hnext]

end Trie

theorem lists_buildTrie {paths : List (List JsString)} :
    (buildTrie paths).lists path ↔ path ∈ paths := by
  have hfold : ∀ trie : Trie, (paths.foldl (fun trie path => trie.insert path) trie).lists path ↔
      path ∈ paths ∨ trie.lists path := by
    induction paths with
    | nil => simp
    | cons first paths ih =>
      intro trie
      rw [foldl_cons, ih, Trie.lists_insert, mem_cons]
      tauto
  rw [buildTrie, hfold]
  exact or_iff_left (Trie.not_lists_empty path)

/-! ### Schemas that a selection reaches -/

/-- The next schema, with the selection for its value, that is generated for a schema. -/
inductive Selects (schemas : List (JsString × Tree)) : Trie × Tree → Trie × Tree → Prop
  | reference {trie : Trie} {schema component target : Tree} {id : JsString}
      (hid : ((get schema "$ref").bind stringOf).bind referenceId = some id)
      (hcomponent : schemas.lookup id = some component)
      (htarget : get component "schema" = some target) :
      Selects schemas (trie, schema) (trie, target)
  | property {trie child : Trie} {schema subschema : Tree} {name : JsString}
      {properties : List (JsString × Tree)}
      (htype : get schema "type" = some (.str (JsString.ofString "object")))
      (hproperties : get schema "properties" = some (.obj properties))
      (hchild : trie.child name = some child)
      (hsubschema : properties.lookup name = some subschema) :
      Selects schemas (trie, schema) (child, subschema)
  | items {trie : Trie} {schema subschema : Tree} {minItems : ℕ}
      (htype : get schema "type" = some (.str (JsString.ofString "array")))
      (hmin : boundOf schema "minItems" 0 32 = some minItems)
      (hlength : arrayLength trie minItems ≠ 0)
      (hitems : get schema "items" = some subschema) :
      Selects schemas (trie, schema) (trie, subschema)

/-- An integer schema with a negative maximum has its minimum below the floor of its maximum. -/
def FloorFits (schema : Tree) : Prop :=
  get schema "type" = some (.str (JsString.ofString "integer")) →
    ∀ low high : ℚ, get schema "minimum" = some (.num low) →
      get schema "maximum" = some (.num high) → high < 0 → low ≤ ⌊high⌋

/-- The bounds of every schema that is reached fit. -/
def Fits (schemas : List (JsString × Tree)) (trie : Trie) (schema : Tree) : Prop :=
  ∀ reached, Relation.ReflTransGen (Selects schemas) (trie, schema) reached → FloorFits reached.2

section Reached

variable {schemas : List (JsString × Tree)} {trie : Trie} {schema : Tree}

theorem fits_iff : Fits schemas trie schema ↔ FloorFits schema ∧
    ∀ next, Selects schemas (trie, schema) next → Fits schemas next.1 next.2 := by
  constructor
  · intro h
    exact ⟨h _ .refl, fun next hnext reached hreached => h reached (.head hnext hreached)⟩
  · rintro ⟨hhere, hnext⟩ reached hreached
    rcases Relation.ReflTransGen.cases_head hreached with rfl | ⟨next, hselects, hrest⟩
    · exact hhere
    · exact hnext next hselects reached hrest

theorem type_unique {type other : JsString} (h : get schema "type" = some (.str type))
    (h' : get schema "type" = some (.str other)) : type = other :=
  JsonTree.str.inj (Option.some.inj (h.symm.trans h'))

theorem floorFits_of_type_eq_none (htype : get schema "type" = none) : FloorFits schema :=
  fun h => nomatch htype.symm.trans h

theorem floorFits_of_type {type : JsString} (htype : get schema "type" = some (.str type))
    (hne : type ≠ JsString.ofString "integer") : FloorFits schema :=
  fun h => absurd (type_unique htype h) hne

end Reached

/-! ### Derivations -/

section Host

variable (host : ExampleHost) (schemas : List (JsString × Tree))

/-- The values that are generated for a schema and a selection. -/
inductive Generates : Trie → Tree → Tree → Prop
  | reference {trie : Trie} {schema component target value : Tree} {id : JsString}
      (hid : ((get schema "$ref").bind stringOf).bind referenceId = some id)
      (htype : get schema "type" = none)
      (hcomponent : schemas.lookup id = some component)
      (htarget : get component "schema" = some target) (h : Generates trie target value) :
      Generates trie schema value
  | object {trie : Trie} {schema : Tree} {properties members : List (JsString × Tree)}
      {required : List JsString} (hreference : get schema "$ref" = none)
      (htype : get schema "type" = some (.str (JsString.ofString "object")))
      (hproperties : ∀ declared, get schema "properties" = some (.obj declared) →
        declared = properties)
      (hdeclared : members ≠ [] → get schema "properties" = some (.obj properties))
      (hrequired : requiredNames schema = some required)
      (hnames : members.map Prod.fst = selectedKeys trie required)
      (hsafe : ∀ name ∈ selectedKeys trie required, sensitiveKey host name = false)
      (hselected : ∀ name member, (name, member) ∈ members → ∃ child subschema,
        trie.child name = some child ∧ properties.lookup name = some subschema)
      (hmembers : ∀ name member child subschema, (name, member) ∈ members →
        trie.child name = some child → properties.lookup name = some subschema →
        Generates child subschema member) :
      Generates trie schema (.obj members)
  | array {trie : Trie} {schema : Tree} {items : List Tree} {minItems maxItems : ℕ}
      (hreference : get schema "$ref" = none)
      (htype : get schema "type" = some (.str (JsString.ofString "array")))
      (hmin : boundOf schema "minItems" 0 32 = some minItems)
      (hmax : boundOf schema "maxItems" 32 32 = some maxItems)
      (hlength : items.length = arrayLength trie minItems) (hle : items.length ≤ maxItems)
      (hsubschema : items ≠ [] → ∃ subschema, get schema "items" = some subschema)
      (hitems : ∀ item subschema, item ∈ items → get schema "items" = some subschema →
        Generates trie subschema item) :
      Generates trie schema (.arr items)
  | scalar {trie : Trie} {schema value : Tree} {type : JsString}
      (hreference : get schema "$ref" = none) (htype : get schema "type" = some (.str type))
      (hobject : type ≠ JsString.ofString "object") (harray : type ≠ JsString.ofString "array")
      (h : scalarValue trie type schema = .ok value) :
      Generates trie schema value

variable {host schemas}

variable {schema value : Tree} {trie : Trie} {stack : List JsString} {type : JsString}

variable {generate : Trie → Option Tree → Except ExampleRule Tree} {levels : ℕ} {isInteger : Bool}

variable (hreference : get schema "$ref" = none)

include hreference in
theorem generates_of_objectValue
    (htype : get schema "type" = some (.str (JsString.ofString "object")))
    (hgenerate : ∀ child subschema member, generate child (some subschema) = .ok member → Generates host schemas child subschema member)
    (hinherited : ∀ child name inherited member, inheritedProperty name = some inherited → generate child inherited ≠ .ok member)
    (h : objectValue host generate trie schema = .ok value) :
    Generates host schemas trie schema value := by
  obtain ⟨-, h⟩ := require_bind_eq_ok.mp h
  obtain ⟨properties, hproperties, h⟩ := orRaise_bind_eq_ok.mp h
  obtain ⟨required, hrequired, h⟩ := orRaise_bind_eq_ok.mp h
  obtain ⟨hsafe, h⟩ := require_bind_eq_ok.mp h
  obtain ⟨members, hmembers, h⟩ := bind_eq_ok.mp h
  cases h
  rw [mapM_eq_ok_iff] at hmembers
  -- Inherited properties have no value, so that each member has a declared schema.
  have hentries : List.Forall₂ (fun name entry => name = entry.1 ∧ ∃ child subschema,
      trie.child name = some child ∧ properties.lookup name = some subschema ∧
        Generates host schemas child subschema entry.2)
      (selectedKeys trie required) members := by
    refine hmembers.imp fun name entry hentry => ?_
    obtain ⟨child, hchild, hentry⟩ := orRaise_bind_eq_ok.mp hentry
    obtain ⟨subschema, hsubschema, hentry⟩ := orRaise_bind_eq_ok.mp hentry
    obtain ⟨member, hmember, hentry⟩ := bind_eq_ok.mp hentry
    cases hentry
    cases hlookup : properties.lookup name with
    | none =>
      rw [propertySchema, hlookup] at hsubschema
      exact absurd hmember (hinherited child name subschema member hsubschema)
    | some declared =>
      rw [propertySchema, hlookup] at hsubschema
      cases hsubschema
      exact ⟨rfl, child, declared, hchild, rfl, hgenerate child declared member hmember⟩
  have hentry : ∀ name member, (name, member) ∈ members → ∃ child subschema,
      trie.child name = some child ∧ properties.lookup name = some subschema ∧
        Generates host schemas child subschema member := by
    intro name member hmem
    obtain ⟨_, -, rfl, hentry⟩ := hentries.exists_left hmem
    exact hentry
  have hnames : (selectedKeys trie required).map id = members.map Prod.fst :=
    List.Forall₂.map_eq (hentries.imp fun _ _ h => h.1)
  have hunique : ∀ declared, get schema "properties" = some (.obj declared) →
      declared = properties := by
    intro declared hdeclared
    rw [declaredProperties, hdeclared] at hproperties
    exact Option.some.inj hproperties
  refine .object hreference htype hunique ?_ hrequired
    (hnames.symm.trans (List.map_id _)) hsafe ?_ ?_
  · intro hne
    obtain ⟨⟨name, member⟩, hmem⟩ := exists_mem_of_ne_nil members hne
    obtain ⟨_, subschema, -, hsubschema, -⟩ := hentry name member hmem
    rw [declaredProperties] at hproperties
    split at hproperties
    · cases hproperties
      cases hsubschema
    · next declared hdeclared =>
      cases hproperties
      exact hdeclared
    · cases hproperties
  · intro name member hmem
    obtain ⟨child, subschema, hchild, hsubschema, -⟩ := hentry name member hmem
    exact ⟨child, subschema, hchild, hsubschema⟩
  · intro name member child subschema hmem hchild hsubschema
    obtain ⟨child', subschema', hchild', hsubschema', hmember⟩ := hentry name member hmem
    cases hchild.symm.trans hchild'
    cases hsubschema.symm.trans hsubschema'
    exact hmember

include hreference in
theorem generates_of_arrayValue
    (htype : get schema "type" = some (.str (JsString.ofString "array")))
    (hgenerate : ∀ subschema item, generate trie (some subschema) = .ok item → Generates host schemas trie subschema item)
    (h : arrayValue generate trie schema = .ok value) :
    Generates host schemas trie schema value := by
  obtain ⟨-, h⟩ := require_bind_eq_ok.mp h
  obtain ⟨-, h⟩ := require_bind_eq_ok.mp h
  obtain ⟨minItems, hmin, h⟩ := orRaise_bind_eq_ok.mp h
  obtain ⟨maxItems, hmax, h⟩ := orRaise_bind_eq_ok.mp h
  obtain ⟨-, h⟩ := require_bind_eq_ok.mp h
  obtain ⟨hle, h⟩ := require_bind_eq_ok.mp h
  split_ifs at h with hzero
  · cases h
    exact .array hreference htype hmin hmax hzero.symm (Nat.zero_le _) (fun hne => absurd rfl hne)
      nofun
  · obtain ⟨subschema, hsubschema, h⟩ := orRaise_bind_eq_ok.mp h
    obtain ⟨items, hitems, h⟩ := bind_eq_ok.mp h
    cases h
    rw [mapM_eq_ok_iff] at hitems
    have hlength : items.length = arrayLength trie minItems := by
      rw [← hitems.length_eq, length_replicate]
    refine .array hreference htype hmin hmax hlength (hlength ▸ hle)
      (fun _ => ⟨subschema, hsubschema⟩) fun item other hitem hother => ?_
    obtain rfl : subschema = other := Option.some.inj (hsubschema.symm.trans hother)
    obtain ⟨source, hsource, hitem⟩ := hitems.exists_left hitem
    obtain rfl := eq_of_mem_replicate hsource
    exact hgenerate source item hitem

theorem exists_schema_of_generateValue {schema : Option Tree}
    (h : generateValue host schemas levels stack trie schema = .ok value) :
    ∃ shape, schema = some shape := by
  cases levels with
  | zero => cases h
  | succ levels =>
    cases schema with
    | none => cases h
    | some shape => exact ⟨shape, rfl⟩

theorem generateValue_inherited {inherited : Option Tree}
    (hinherited : inheritedProperty name = some inherited) :
    generateValue host schemas levels stack trie inherited ≠ .ok value := by
  intro h
  obtain ⟨shape, rfl⟩ := exists_schema_of_generateValue h
  rw [inheritedProperty] at hinherited
  split_ifs at hinherited with hproto hmethod
  · cases Option.some.inj hinherited
    cases levels with
    | zero => cases h
    | succ levels => cases h
  · cases hinherited

theorem type_eq_none {reference : Tree}
    (hreference : members.lookup (JsString.ofString "$ref") = some reference)
    (hlength : members.length = 1) : members.lookup (JsString.ofString "type") = none := by
  obtain ⟨⟨name, member⟩, rfl⟩ := List.length_eq_one_iff.mp hlength
  rw [lookup_cons_eq_ite] at hreference ⊢
  split_ifs at hreference with hname
  · obtain rfl : JsString.ofString "$ref" = name := hname
    have hne : JsString.ofString "type" ≠ JsString.ofString "$ref" := by decide
    rfl
  · cases hreference

theorem generates_of_generateValue
    (h : generateValue host schemas levels stack trie (some schema) = .ok value) :
    Generates host schemas trie schema value := by
  induction levels generalizing stack trie schema value with
  | zero => cases h
  | succ levels ih =>
    cases schema with
    | null | bool b | num x | str s | arr items => cases h
    | obj members =>
      rw [generateValue] at h
      split at h
      · next reference hreference =>
        split_ifs at h with hlength
        obtain ⟨id, hid, h⟩ := orRaise_bind_eq_ok.mp h
        obtain ⟨-, h⟩ := require_bind_eq_ok.mp h
        obtain ⟨component, hcomponent, h⟩ := orRaise_bind_eq_ok.mp h
        obtain ⟨hcomponent, -⟩ := filter_eq_some_iff.mp hcomponent
        obtain ⟨target, htarget⟩ := exists_schema_of_generateValue h
        refine .reference ?_ (type_eq_none hreference (not_not.mp hlength)) hcomponent htarget
          (ih (htarget ▸ h))
        rw [get, hreference]
        exact hid
      · cases h
      · next hreference =>
        split_ifs at h with hkeys
        split at h
        · next type htype =>
          split_ifs at h with hobject harray
          · subst hobject
            exact generates_of_objectValue hreference htype (fun _ _ _ => ih)
              (fun _ _ _ _ => generateValue_inherited) h
          · subst harray
            exact generates_of_arrayValue hreference htype (fun _ _ => ih) h
          · exact .scalar hreference htype hobject harray h
        · cases h

/-! ### Scalars -/

theorem eq_of_validInteger {x : ℚ} {max k : ℕ} (hvalue : value = .num x)
    (h : validInteger value max = some k) : x = k := by
  subst hvalue
  rw [validInteger] at h
  split_ifs at h with hx
  obtain ⟨hden, hnonneg, -⟩ := hx
  have hnum : ((x.num.toNat : ℤ) : ℚ) = x := by
    rw [Int.toNat_of_nonneg (Rat.num_nonneg.mpr hnonneg)]
    exact (Rat.den_eq_one_iff x).mp hden
  rw [Int.cast_natCast] at hnum
  rw [← Option.some.inj h, hnum]

theorem eq_of_boundOf {schema : Tree} {name : String} {default max k : ℕ} {bound : ℚ}
    (h : boundOf schema name default max = some k) (hbound : get schema name = some (.num bound)) :
    bound = k := by
  rw [boundOf, hbound] at h
  exact eq_of_validInteger rfl h

theorem numberBound_eq_some_iff {schema : Tree} {name : String} {bound : Option ℚ}
    (h : numberBound schema name = some bound) {x : ℚ} :
    get schema name = some (.num x) ↔ x ∈ bound := by
  rw [numberBound] at h
  split at h
  · next hget =>
    cases h
    simp [hget]
  · next y hget =>
    cases h
    simp [hget, eq_comm]
  · cases h

/-- The number is not below its lower bound, unless the floor of a negative upper bound is. -/
theorem le_chosenNumber_iff {low high : Option ℚ} (h : ∀ l ∈ low, ∀ h ∈ high, l ≤ h) :
    (∀ l ∈ low, l ≤ chosenNumber isInteger low high) ↔
      (isInteger = true → ∀ l ∈ low, ∀ h ∈ high, h < 0 → l ≤ ⌊h⌋) := by
  cases low with
  | none => simp
  | some l =>
    simp only [mem_some_iff, forall_eq'] at h ⊢
    by_cases hl : 0 < l
    · have hle : l ≤ chosenNumber isInteger (some l) high := by
        simp only [chosenNumber, if_pos hl]
        split_ifs
        · exact Int.le_ceil l
        · exact le_rfl
      exact iff_of_true hle fun _ u hu hneg => absurd (h u hu) (by linarith)
    · cases high with
      | none => simpa [chosenNumber, hl] using not_lt.mp hl
      | some u =>
        by_cases hu : u < 0
        · cases isInteger with
          | false => simpa [chosenNumber, hl, hu] using h
          | true => simp [chosenNumber, hl, hu]
        · simpa [chosenNumber, hl, hu] using not_lt.mp hl

theorem chosenNumber_den (low high : Option ℚ) : (chosenNumber true low high).den = 1 := by
  cases low with
  | none =>
    cases high with
    | none => rfl
    | some u =>
      simp only [chosenNumber, if_true]
      split_ifs
      · exact Rat.den_intCast _
      · rfl
  | some l =>
    simp only [chosenNumber, if_true]
    split_ifs
    · exact Rat.den_intCast _
    · cases high with
      | none => rfl
      | some u =>
        dsimp only
        split_ifs
        · exact Rat.den_intCast _
        · rfl

variable (htype : get schema "type" = some (.str type))

include htype in
include hreference in
theorem isInstance_iff_of_type :
    IsInstance schemas schema value ↔ hasType type value = true ∧ MeetsBounds schema value ∧
      (∀ members, value = .obj members →
        ∀ properties, get schema "properties" = some (.obj properties) →
        ∀ name member subschema, (name, member) ∈ members →
          properties.lookup name = some subschema → IsInstance schemas subschema member) ∧
      (∀ items, value = .arr items → ∀ subschema, get schema "items" = some subschema →
        ∀ item ∈ items, IsInstance schemas subschema item) := by
  constructor
  · rintro (⟨hid, -, -, -⟩ | ⟨-, -, hallowed, hbounds, hproperties, hitems⟩)
    · rw [hreference] at hid
      cases hid
    · exact ⟨hallowed.one type htype, hbounds, hproperties, hitems⟩
  · rintro ⟨hhas, hbounds, hproperties, hitems⟩
    refine .keywords hreference ?_ ⟨?_, ?_⟩ hbounds hproperties hitems
    · rintro rfl
      cases htype
    · intro other hother
      cases htype.symm.trans hother
      exact hhas
    · intro types htypes
      cases htype.symm.trans htypes

include htype in
include hreference in
theorem isInstance_scalar_iff (hscalar : isScalar value = true) :
    IsInstance schemas schema value ↔ hasType type value = true ∧ MeetsBounds schema value := by
  rw [isInstance_iff_of_type hreference htype]
  constructor
  · rintro ⟨hhas, hbounds, -, -⟩
    exact ⟨hhas, hbounds⟩
  · rintro ⟨hhas, hbounds⟩
    refine ⟨hhas, hbounds, ?_, ?_⟩
    · rintro members rfl
      cases hscalar
    · rintro items rfl
      cases hscalar

theorem codePoints_length_replicate (n : ℕ) :
    (codePoints (List.replicate n 0x78)).length = n := by
  induction n with
  | zero => rfl
  | succ n ih =>
    cases n with
    | zero => rfl
    | succ n => simpa [replicate_succ, codePoints, isHigh] using ih

theorem stringValue_spec (h : stringValue schema = .ok value) :
    (∃ s, value = .str s) ∧ MeetsBounds schema value := by
  obtain ⟨-, h⟩ := require_bind_eq_ok.mp h
  obtain ⟨min, hmin, h⟩ := orRaise_bind_eq_ok.mp h
  obtain ⟨max, hmax, h⟩ := orRaise_bind_eq_ok.mp h
  obtain ⟨-, h⟩ := require_bind_eq_ok.mp h
  obtain ⟨hle, h⟩ := require_bind_eq_ok.mp h
  cases h
  refine ⟨⟨_, rfl⟩, ?_⟩
  have hpoints : ∀ s : JsString, s = (if min ≤ (JsString.ofString "string").length then
      JsString.ofString "string" else List.replicate min 0x78) →
      min ≤ (codePoints s).length ∧ (codePoints s).length = s.length := by
    rintro s rfl
    split_ifs with hbase
    · exact ⟨hbase, rfl⟩
    · simp [codePoints_length_replicate]
  constructor
  · nofun
  · nofun
  · nofun
  · intro s hs bound hbound
    cases hs
    rw [eq_of_boundOf hmin hbound]
    exact_mod_cast (hpoints _ rfl).1
  · intro s hs bound hbound
    cases hs
    rw [eq_of_boundOf hmax hbound, (hpoints _ rfl).2]
    exact_mod_cast hle
  · nofun
  · nofun

/-- A generated number is within its bounds, unless it is the floor of a negative maximum. -/
theorem numberValue_spec (h : numberValue isInteger schema = .ok value) :
    ∃ x, value = .num x ∧ (isInteger = true → x.den = 1) ∧
      (MeetsBounds schema value ↔ (isInteger = true →
        ∀ low high : ℚ, get schema "minimum" = some (.num low) →
          get schema "maximum" = some (.num high) → high < 0 → low ≤ ⌊high⌋)) := by
  obtain ⟨-, h⟩ := require_bind_eq_ok.mp h
  obtain ⟨low, hlow, h⟩ := orRaise_bind_eq_ok.mp h
  obtain ⟨high, hhigh, h⟩ := orRaise_bind_eq_ok.mp h
  obtain ⟨horder, h⟩ := require_bind_eq_ok.mp h
  obtain ⟨hle, h⟩ := require_bind_eq_ok.mp h
  obtain ⟨-, h⟩ := require_bind_eq_ok.mp h
  cases h
  have hiff : MeetsBounds schema (.num (chosenNumber isInteger low high)) ↔
      ∀ l ∈ low, l ≤ chosenNumber isInteger low high := by
    constructor
    · intro hbounds l hl
      exact hbounds.minimum _ rfl l ((numberBound_eq_some_iff hlow).mpr hl)
    · intro hmin
      constructor
      · nofun
      · nofun
      · nofun
      · nofun
      · nofun
      · intro x hx bound hbound
        cases hx
        exact hmin bound ((numberBound_eq_some_iff hlow).mp hbound)
      · intro x hx bound hbound
        cases hx
        exact hle bound ((numberBound_eq_some_iff hhigh).mp hbound)
  refine ⟨_, rfl, ?_, ?_⟩
  · rintro rfl
    exact chosenNumber_den low high
  · rw [hiff, le_chosenNumber_iff horder]
    simp only [numberBound_eq_some_iff hlow, numberBound_eq_some_iff hhigh]
    tauto

variable (schemas) in
include htype in
include hreference in
theorem scalarValue_spec (h : scalarValue trie type schema = .ok value) :
    trie.children = [] ∧ trie.terminal = true ∧ isScalar value = true ∧
      (IsInstance schemas schema value ↔ FloorFits schema) := by
  obtain ⟨hchildren, h⟩ := require_bind_eq_ok.mp h
  obtain ⟨hterminal, h⟩ := require_bind_eq_ok.mp h
  refine ⟨hchildren, hterminal, ?_⟩
  split_ifs at h with hstring hinteger hnumber hboolean hnull
  · obtain ⟨⟨s, rfl⟩, hbounds⟩ := stringValue_spec h
    refine ⟨rfl, ?_⟩
    rw [isInstance_scalar_iff hreference htype rfl]
    have hinteger : type ≠ JsString.ofString "integer" := hstring ▸ by decide
    exact iff_of_true ⟨decide_eq_true hstring, hbounds⟩ (floorFits_of_type htype hinteger)
  · obtain ⟨x, rfl, hden, hbounds⟩ := numberValue_spec h
    refine ⟨rfl, ?_⟩
    have hhas : hasType type (.num x) = true := by
      simp [hasType, hinteger, hden rfl]
    rw [isInstance_scalar_iff hreference htype rfl, and_iff_right hhas, hbounds, FloorFits, htype,
      hinteger]
    simp
  · obtain ⟨x, rfl, -, hbounds⟩ := numberValue_spec h
    refine ⟨rfl, ?_⟩
    have hhas : hasType type (.num x) = true := by
      simp [hasType, hnumber]
    rw [isInstance_scalar_iff hreference htype rfl]
    exact iff_of_true ⟨hhas, hbounds.mpr nofun⟩ (floorFits_of_type htype hinteger)
  · obtain ⟨-, h⟩ := require_bind_eq_ok.mp h
    cases h
    refine ⟨rfl, ?_⟩
    rw [isInstance_scalar_iff hreference htype rfl]
    exact iff_of_true ⟨decide_eq_true hboolean, by constructor <;> nofun⟩ (floorFits_of_type htype hinteger)
  · obtain ⟨-, h⟩ := require_bind_eq_ok.mp h
    cases h
    refine ⟨rfl, ?_⟩
    rw [isInstance_scalar_iff hreference htype rfl]
    exact iff_of_true ⟨decide_eq_true hnull, by constructor <;> nofun⟩ (floorFits_of_type htype hinteger)

/-! ### Generated values -/

namespace Generates

variable {trie : Trie} {schema value : Tree}

theorem lists_of_scalarAt (h : Generates host schemas trie schema value)
    (hscalar : ScalarAt value path) : trie.lists path := by
  induction h generalizing path with
  | reference hid htype hcomponent htarget h ih => exact ih hscalar
  | object hreference htype hproperties hdeclared hrequired hnames hsafe hselected hmembers ih =>
    cases hscalar with
    | here h => cases h
    | @member _ name member path hmem h =>
      obtain ⟨child, subschema, hchild, hsubschema⟩ := hselected name member hmem
      exact ⟨child, hchild, ih name member child subschema hmem hchild hsubschema h⟩
  | array hreference htype hmin hmax hlength hle hsubschema hitems ih =>
    cases hscalar with
    | here h => cases h
    | @item _ item _ hmem h =>
      obtain ⟨subschema, hsubschema⟩ := hsubschema (ne_nil_of_mem hmem)
      exact ih item subschema hmem hsubschema h
  | scalar hreference htype hobject harray h =>
    obtain ⟨-, hterminal, hisScalar, -⟩ :=
      scalarValue_spec schemas hreference htype h
    rw [(scalarAt_scalar_iff hisScalar).mp hscalar]
    exact hterminal

theorem mem_children_of_child {trie child : Trie}
    (h : trie.child name = some child) : name ∈ trie.children.map Prod.fst := by
  obtain ⟨before, after, hchildren, -⟩ := List.lookup_eq_some_iff.mp h
  simp [hchildren]

theorem occurs_of_lists (h : Generates host schemas trie schema value)
    (hlists : trie.lists path) : Occurs value path := by
  induction h generalizing path with
  | reference hid htype hcomponent htarget h ih => exact ih hlists
  | @object trie schema properties members required hreference htype hproperties hdeclared hrequired
      hnames hsafe hselected hmembers ih =>
    cases path with
    | nil => exact .here _
    | cons name path =>
      obtain ⟨child, hchild, hlists⟩ := hlists
      have hname : name ∈ members.map Prod.fst := by
        rw [hnames]
        exact mem_append_left _ (mem_children_of_child hchild)
      obtain ⟨⟨_, member⟩, hmem, rfl⟩ := List.mem_map.mp hname
      obtain ⟨other, subschema, hother, hsubschema⟩ := hselected _ member hmem
      obtain rfl := Option.some.inj (hother.symm.trans hchild)
      exact .member hmem (ih _ member other subschema hmem hchild hsubschema hlists)
  | @array trie schema items minItems maxItems hreference htype hmin hmax hlength hle hsubschema
      hitems ih =>
    cases path with
    | nil => exact .here _
    | cons name path =>
      have hne : trie.children ≠ [] := by
        intro heq
        obtain ⟨child, hchild, -⟩ := hlists
        have hmem := mem_children_of_child hchild
        rw [heq] at hmem
        cases hmem
      have hpos : items ≠ [] := by
        rw [← length_pos_iff, hlength, arrayLength, if_pos hne]
        omega
      obtain ⟨item, hitem⟩ := exists_mem_of_ne_nil items hpos
      obtain ⟨subschema, hsubschema⟩ := hsubschema hpos
      exact .item hitem (ih item subschema hitem hsubschema hlists)
  | scalar hreference htype hobject harray h =>
    obtain ⟨hchildren, -, -, -⟩ := scalarValue_spec schemas hreference htype h
    cases path with
    | nil => exact .here _
    | cons name path =>
      obtain ⟨child, hchild, -⟩ := hlists
      have hmem := mem_children_of_child hchild
      rw [hchildren] at hmem
      cases hmem

theorem not_sensitive (h : Generates host schemas trie schema value) :
    ∀ name ∈ propertyNames value, sensitiveKey host name = false := by
  induction h with
  | reference hid htype hcomponent htarget h ih => exact ih
  | object hreference htype hproperties hdeclared hrequired hnames hsafe hselected hmembers ih =>
    intro name hname
    rw [propertyNames, mem_propertyNamesMembers, hnames] at hname
    rcases hname with hname | ⟨⟨key, member⟩, hmem, hname⟩
    · exact hsafe name hname
    · obtain ⟨child, subschema, hchild, hsubschema⟩ := hselected key member hmem
      exact ih key member child subschema hmem hchild hsubschema name hname
  | array hreference htype hmin hmax hlength hle hsubschema hitems ih =>
    intro name hname
    rw [propertyNames, mem_propertyNamesItems] at hname
    obtain ⟨item, hmem, hname⟩ := hname
    obtain ⟨subschema, hsubschema⟩ := hsubschema (ne_nil_of_mem hmem)
    exact ih item subschema hmem hsubschema name hname
  | scalar hreference htype hobject harray h =>
    obtain ⟨-, -, hisScalar, -⟩ := scalarValue_spec schemas hreference htype h
    rw [propertyNames_scalar hisScalar]
    nofun

variable {component target : Tree}

theorem isInstance_reference_iff {id : JsString}
    (hid : ((get schema "$ref").bind stringOf).bind referenceId = some id)
    (hcomponent : schemas.lookup id = some component)
    (htarget : get component "schema" = some target) :
    IsInstance schemas schema value ↔ IsInstance schemas target value := by
  constructor
  · rintro (⟨hid', hcomponent', htarget', h⟩ | ⟨hreference, -, -, -, -, -⟩)
    · cases hid.symm.trans hid'
      cases hcomponent.symm.trans hcomponent'
      cases htarget.symm.trans htarget'
      exact h
    · rw [hreference] at hid
      cases hid
  · exact .reference hid hcomponent htarget

theorem fits_reference_iff {id : JsString}
    (hid : ((get schema "$ref").bind stringOf).bind referenceId = some id)
    (htype : get schema "type" = none) (hcomponent : schemas.lookup id = some component)
    (htarget : get component "schema" = some target) :
    Fits schemas trie schema ↔ Fits schemas trie target := by
  rw [fits_iff, and_iff_right (floorFits_of_type_eq_none htype)]
  constructor
  · intro h
    exact h _ (.reference hid hcomponent htarget)
  · intro h next hnext
    cases hnext with
    | reference hid' hcomponent' htarget' =>
      cases hid.symm.trans hid'
      cases hcomponent.symm.trans hcomponent'
      cases htarget.symm.trans htarget'
      exact h
    | property htype' => cases htype.symm.trans htype'
    | items htype' => cases htype.symm.trans htype'

theorem fits_object_iff (hreference : get schema "$ref" = none)
    (htype : get schema "type" = some (.str (JsString.ofString "object"))) :
    Fits schemas trie schema ↔ ∀ properties, get schema "properties" = some (.obj properties) →
      ∀ name child subschema, trie.child name = some child →
        properties.lookup name = some subschema → Fits schemas child subschema := by
  rw [fits_iff, and_iff_right (floorFits_of_type htype (by decide))]
  constructor
  · intro h properties hproperties name child subschema hchild hsubschema
    exact h _ (.property htype hproperties hchild hsubschema)
  · intro h next hnext
    cases hnext with
    | reference hid =>
      rw [hreference] at hid
      cases hid
    | property _ hproperties hchild hsubschema =>
      exact h _ hproperties _ _ _ hchild hsubschema
    | items htype' => exact absurd (type_unique htype htype') (by decide)

theorem fits_array_iff {minItems : ℕ} (hreference : get schema "$ref" = none)
    (htype : get schema "type" = some (.str (JsString.ofString "array")))
    (hmin : boundOf schema "minItems" 0 32 = some minItems) :
    Fits schemas trie schema ↔ (arrayLength trie minItems ≠ 0 → ∀ subschema,
      get schema "items" = some subschema → Fits schemas trie subschema) := by
  rw [fits_iff, and_iff_right (floorFits_of_type htype (by decide))]
  constructor
  · intro h hlength subschema hsubschema
    exact h _ (.items htype hmin hlength hsubschema)
  · intro h next hnext
    cases hnext with
    | reference hid =>
      rw [hreference] at hid
      cases hid
    | property htype' => exact absurd (type_unique htype htype') (by decide)
    | items _ hmin' hlength hsubschema =>
      cases hmin.symm.trans hmin'
      exact h hlength _ hsubschema

theorem fits_scalar_iff (hreference : get schema "$ref" = none)
    (htype : get schema "type" = some (.str type)) (hobject : type ≠ JsString.ofString "object")
    (harray : type ≠ JsString.ofString "array") :
    Fits schemas trie schema ↔ FloorFits schema := by
  rw [fits_iff]
  refine and_iff_left fun next hnext => ?_
  cases hnext with
  | reference hid =>
    rw [hreference] at hid
    cases hid
  | property htype' => exact absurd (type_unique htype htype') hobject
  | items htype' => exact absurd (type_unique htype htype') harray

theorem mem_of_required {required : List JsString} {names : List Tree}
    (hrequired : requiredNames schema = some required)
    (hnames : get schema "required" = some (.arr names)) (hname : .str name ∈ names) :
    name ∈ selectedKeys trie required := by
  have hmem : name ∈ required := by
    rw [requiredNames, hnames] at hrequired
    dsimp only at hrequired
    split_ifs at hrequired
    obtain ⟨hmapM, -⟩ := filter_eq_some_iff.mp hrequired
    obtain ⟨other, hother, heq⟩ := (mapM_eq_some_iff.mp hmapM).exists_right hname
    cases heq
    exact hother
  by_cases hselected : name ∈ trie.children.map Prod.fst
  · exact mem_append_left _ hselected
  · refine mem_append_right _ (List.mem_filter.mpr ⟨hmem, ?_⟩)
    simpa using hselected

/-- A generated value is an instance of its schema when the bounds of all schemas that are reached
fit. -/
theorem isInstance_iff (h : Generates host schemas trie schema value) :
    IsInstance schemas schema value ↔ Fits schemas trie schema := by
  induction h with
  | reference hid htype hcomponent htarget h ih =>
    rw [isInstance_reference_iff hid hcomponent htarget,
      fits_reference_iff hid htype hcomponent htarget, ih]
  | @object trie schema properties members required hreference htype hproperties hdeclared hrequired
      hnames hsafe hselected hmembers ih =>
    rw [isInstance_iff_of_type hreference htype, fits_object_iff hreference htype]
    constructor
    · rintro ⟨-, -, hinstances, -⟩ declared hdeclares name child subschema hchild hsubschema
      obtain rfl := hproperties declared hdeclares
      have hname : name ∈ members.map Prod.fst := by
        rw [hnames]
        exact mem_append_left _ (mem_children_of_child hchild)
      obtain ⟨⟨_, member⟩, hmem, rfl⟩ := List.mem_map.mp hname
      exact (ih _ member child subschema hmem hchild hsubschema).mp
        (hinstances _ rfl _ hdeclares _ member subschema hmem hsubschema)
    · intro hfits
      refine ⟨by simp [hasType], ?_, ?_, nofun⟩
      · constructor
        · intro members' hmembers' names hnames' name hname
          cases hmembers'
          rw [hnames]
          exact mem_of_required hrequired hnames' hname
        · nofun
        · nofun
        · nofun
        · nofun
        · nofun
        · nofun
      · intro members' hmembers' declared hdeclares name member subschema hmem hsubschema
        cases hmembers'
        obtain rfl := hproperties declared hdeclares
        obtain ⟨child, other, hchild, hother⟩ := hselected name member hmem
        exact (ih name member child subschema hmem hchild hsubschema).mpr
          (hfits _ hdeclares name child subschema hchild hsubschema)
  | @array trie schema items minItems maxItems hreference htype hmin hmax hlength hle hsubschema
      hitems ih =>
    rw [isInstance_iff_of_type hreference htype, fits_array_iff hreference htype hmin]
    constructor
    · rintro ⟨-, -, -, hinstances⟩ hne subschema hget
      have hpos : items ≠ [] := by
        rwa [← hlength, Ne, length_eq_zero_iff] at hne
      obtain ⟨item, hitem⟩ := exists_mem_of_ne_nil items hpos
      exact (ih item subschema hitem hget).mp (hinstances _ rfl subschema hget item hitem)
    · intro hfits
      refine ⟨by simp [hasType], ?_, nofun, ?_⟩
      · constructor
        · nofun
        · intro items' hitems' bound hbound
          cases hitems'
          rw [eq_of_boundOf hmin hbound, hlength]
          exact_mod_cast le_max_left _ _
        · intro items' hitems' bound hbound
          cases hitems'
          rw [eq_of_boundOf hmax hbound]
          exact_mod_cast hle
        · nofun
        · nofun
        · nofun
        · nofun
      · intro items' hitems' subschema hget item hitem
        cases hitems'
        have hne : arrayLength trie minItems ≠ 0 := by
          rw [← hlength]
          exact (length_pos_of_mem hitem).ne'
        exact (ih item subschema hitem hget).mpr (hfits hne subschema hget)
  | scalar hreference htype hobject harray h =>
    obtain ⟨-, -, -, hiff⟩ := scalarValue_spec schemas hreference htype h
    rw [hiff, fits_scalar_iff hreference htype hobject harray]

end Generates

/-! ### Generated examples -/

/-- The value is an instance of the schema, its scalars lie at the paths, the paths occur in it, and
no name of a property is sensitive. -/
structure IsFaithfulExample (host : ExampleHost) (schemas : List (JsString × Tree)) (schema : Tree)
    (paths : List (List JsString)) (value : Tree) : Prop where
  isInstance : IsInstance schemas schema value
  scalars : ∀ path, ScalarAt value path → path ∈ paths
  occurs : ∀ path ∈ paths, Occurs value path
  names : ∀ name ∈ propertyNames value, sensitiveKey host name = false

/-- What is generated comes from a view, a policy and the schema that they select, with the digests
of the policy and of the material of the schema. -/
theorem eq_generated_of_buildSyntheticExample {view endpointId policy : Tree}
    {result : GeneratedExample}
    (h : buildSyntheticExample host view endpointId policy = .ok (.generated result)) :
    readView view endpointId = some result.scope ∧ getPolicy policy = some result.policy ∧
      ∃ schema, exampleSchema result.scope result.policy = some (.ok schema) ∧
        generateValue host result.scope.schemas 17 [] (buildTrie result.policy.decodedPaths)
          schema = .ok result.value ∧
        result.policySha256 = host.digest result.policy.toTree ∧
        result.schemaSha256 =
          host.digest (schemaFingerprintMaterial host schema result.scope.schemas) := by
  rw [buildSyntheticExample] at h
  split at h
  · cases h
  · next scope hscope =>
    split_ifs at h with hqualified
    · cases h
    · split at h
      · cases h
      · next selected hselected =>
        split_ifs at h with hendpoint hpaths
        · cases h
        · split at h
          · cases h
          · cases h
          · next schema hschema =>
            split at h
            · cases h
            · next value hvalue =>
              cases h
              exact ⟨hscope, hselected, schema, hschema, hvalue, rfl, rfl⟩

/-- A generated example is faithful to its schema and its policy when the floors of the negative
maxima of the integer schemas that it reaches are not below their minima. -/
theorem buildSyntheticExample_isFaithful_iff {view endpointId policy : Tree}
    {result : GeneratedExample}
    (h : buildSyntheticExample host view endpointId policy = .ok (.generated result)) :
    readView view endpointId = some result.scope ∧ getPolicy policy = some result.policy ∧
      ∃ schema, exampleSchema result.scope result.policy = some (.ok (some schema)) ∧
        (IsFaithfulExample host result.scope.schemas schema result.policy.decodedPaths
            result.value ↔
          Fits result.scope.schemas (buildTrie result.policy.decodedPaths) schema) := by
  obtain ⟨hscope, hpolicy, _, hschema, hvalue, -⟩ := eq_generated_of_buildSyntheticExample h
  obtain ⟨schema, rfl⟩ := exists_schema_of_generateValue hvalue
  have hgenerates := generates_of_generateValue hvalue
  refine ⟨hscope, hpolicy, schema, hschema,
    fun hfaithful => hgenerates.isInstance_iff.mp hfaithful.isInstance, fun hfits => ?_⟩
  constructor
  · exact hgenerates.isInstance_iff.mpr hfits
  · exact fun path hscalar => lists_buildTrie.mp (hgenerates.lists_of_scalarAt hscalar)
  · exact fun path hpath => hgenerates.occurs_of_lists (lists_buildTrie.mpr hpath)
  · exact hgenerates.not_sensitive

end Host

/-! ### A sample -/

def sampleObject (members : List (String × Tree)) : Tree :=
  .obj (members.map fun member => (JsString.ofString member.1, member.2))

def sampleText (s : String) : Tree := .str (JsString.ofString s)

/-- An object with an integer between two bounds. -/
def sampleSchema (low high : ℚ) : Tree :=
  sampleObject [("type", sampleText "object"), ("properties", sampleObject [("n",
    sampleObject [("type", sampleText "integer"), ("minimum", .num low), ("maximum", .num high)])])]

/-- A view of one endpoint with a body of this schema. -/
def sampleView (low high : ℚ) : Tree :=
  sampleObject [("status", sampleText "resolved"),
    ("selector", sampleObject [("version", sampleText "1"), ("tenantId", sampleText "t"),
      ("repositoryId", sampleText "r"), ("serviceId", sampleText "s"),
      ("selector", sampleObject [("kind", sampleText "environment"),
        ("environment", sampleText "e")])]),
    ("pin", sampleObject [("snapshotId", sampleText "i"), ("revision", sampleText "v"),
      ("configFingerprint", sampleText "f"), ("checkpointVersion", sampleText "1")]),
    ("snapshot", sampleObject [("snapshot_id", sampleText "i"),
      ("source", sampleObject [("immutable_revision", sampleText "v"),
        ("repository_id", sampleText "r"), ("source_digest", sampleText "d")]),
      ("config", sampleObject [("config_fingerprint", sampleText "f")]),
      ("service", sampleObject [("service_id", sampleText "s"), ("repository_id", sampleText "r")]),
      ("schemas", sampleObject []),
      ("endpoints", .arr [sampleObject [("endpoint_id", sampleText "E"),
        ("request_bodies", .arr [sampleObject [("media_type", sampleText "application/json"),
          ("presence", sampleObject [("state", sampleText "required")]),
          ("schema", sampleSchema low high)]]),
        ("responses", .arr [])]])])]

def samplePolicy : Tree :=
  sampleObject [("version", sampleText "synthetic-examples-1"), ("endpointId", sampleText "E"),
    ("direction", sampleText "request"), ("mediaType", sampleText "application/json"),
    ("propertyPaths", .arr [sampleText "/n"])]

def sampleExampleHost : ExampleHost where
  toLowerCase := id
  localeLe _ _ := true
  digest _ := []

def SyntheticExampleResult.generated? : SyntheticExampleResult → Option GeneratedExample
  | .generated result => some result
  | .withheld _ => none

theorem exists_sample : ∃ result,
    buildSyntheticExample sampleExampleHost (sampleView (-1 / 2) (-1 / 5)) (sampleText "E")
        samplePolicy = .ok (.generated result) ∧
      exampleSchema result.scope result.policy = some (.ok (some (sampleSchema (-1 / 2) (-1 / 5)))) ∧
      result.value = sampleObject [("n", .num (-1))] := by
  have hcheck : ((buildSyntheticExample sampleExampleHost (sampleView (-1 / 2) (-1 / 5))
      (sampleText "E") samplePolicy).toOption.bind SyntheticExampleResult.generated?).any
        (fun result => decide (exampleSchema result.scope result.policy =
          some (.ok (some (sampleSchema (-1 / 2) (-1 / 5)))) ∧
            result.value = sampleObject [("n", .num (-1))])) = true := by
    decide +kernel
  obtain ⟨result, hresult, hsample⟩ := (any_eq_true _ _).mp hcheck
  obtain ⟨outcome, houtcome, hgenerated⟩ := bind_eq_some_iff.mp hresult
  obtain ⟨result', rfl⟩ : ∃ result', outcome = .generated result' := by
    cases outcome with
    | generated result' => exact ⟨result', rfl⟩
    | withheld rule => cases hgenerated
  cases hgenerated
  exact ⟨_, toOption_eq_some_iff.mp houtcome, of_decide_eq_true hsample⟩

theorem buildSyntheticExample_isFaithful_iff_sample : ∃ result,
    buildSyntheticExample sampleExampleHost (sampleView (-1 / 2) (-1 / 5)) (sampleText "E")
        samplePolicy = .ok (.generated result) ∧
      readView (sampleView (-1 / 2) (-1 / 5)) (sampleText "E") = some result.scope ∧
      getPolicy samplePolicy = some result.policy ∧
      ∃ schema, exampleSchema result.scope result.policy = some (.ok (some schema)) ∧
        (IsFaithfulExample sampleExampleHost result.scope.schemas schema
            result.policy.decodedPaths result.value ↔
          Fits result.scope.schemas (buildTrie result.policy.decodedPaths) schema) := by
  obtain ⟨result, hresult, -, -⟩ := exists_sample
  exact ⟨result, hresult, buildSyntheticExample_isFaithful_iff hresult⟩

theorem not_isInstance_sample {schemas : List (JsString × Tree)} :
    ¬IsInstance schemas (sampleSchema (-1 / 2) (-1 / 5)) (sampleObject [("n", .num (-1))]) := by
  intro h
  rw [isInstance_iff_of_type rfl rfl] at h
  obtain ⟨-, -, hproperties, -⟩ := h
  have hinteger := hproperties _ rfl _ rfl (JsString.ofString "n") (.num (-1)) _
    mem_cons_self rfl
  rw [isInstance_iff_of_type rfl rfl] at hinteger
  have hminimum := hinteger.2.1.minimum _ rfl (-1 / 2) rfl
  norm_num at hminimum

/-- The value -1 is not an instance of the integers between -0.5 and -0.2. -/
theorem not_isFaithfulExample : ¬∀ (host : ExampleHost) (view endpointId policy : Tree)
    (result : GeneratedExample),
    buildSyntheticExample host view endpointId policy = .ok (.generated result) →
      ∃ schema, exampleSchema result.scope result.policy = some (.ok (some schema)) ∧
        IsFaithfulExample host result.scope.schemas schema result.policy.decodedPaths
          result.value := by
  intro h
  obtain ⟨result, hresult, hsample, hvalue⟩ := exists_sample
  obtain ⟨schema, hschema, hfaithful⟩ := h _ _ _ _ result hresult
  obtain rfl : sampleSchema (-1 / 2) (-1 / 5) = schema := by
    simpa [hsample] using hschema
  exact not_isInstance_sample (hvalue ▸ hfaithful.isInstance)

end ApiTruth.Observations
