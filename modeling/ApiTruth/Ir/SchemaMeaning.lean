import ApiTruth.Ir.ApiSchema
import Mathlib.Data.List.Perm.Basic

/-!
# The meaning of API schemas

An API schema accepts an instance when every one of its keywords does, each with its meaning in
JSON Schema.  Literals are compared as JSON values.  What a component reference and the keywords
over strings and numbers (`format`, `pattern`, `minimum`, …) assert is a parameter.

## Main definitions

* `Vocabulary` : the meaning of references and of the keywords over strings and numbers.
* `accepts` : the instances a schema accepts.

## Main results

* `accepts_obj` : a schema object is the conjunction of its keywords.
* `accepts_eq_of_canon_eq` : the order of members does not matter to the meaning.
-/

namespace ApiTruth.Ir

open Json List Function

/-- The meaning of references and of the keywords over strings and numbers. -/
structure Vocabulary where
  ref : String → Json → Bool
  text : String → String → Json → Bool
  number : String → JsonNumber → Json → Bool

def hasType (name : String) (instance_ : Json) : Bool :=
  match name, instance_ with
  | "null", .null => true
  | "boolean", .bool _ => true
  | "object", .obj _ => true
  | "array", .arr _ => true
  | "number", .num _ => true
  | "integer", .num n => n.isInteger
  | "string", .str _ => true
  | _, _ => false

/-- The item of a list of names holds of the name. -/
def onName (p : String → Bool) : Json → Bool
  | .str name => p name
  | _ => false

def sameJson (a b : Json) : Bool := decide (canon a = canon b)

def membersOf : Json → List (String × Json)
  | .obj ms => ms
  | _ => []

def itemsOf : Json → List Json
  | .arr xs => xs
  | _ => []

def isObject : Json → Bool
  | .obj _ => true
  | _ => false

/-- The meaning of a keyword without schemas below it. -/
def assertion (vocabulary : Vocabulary) (keyword : String) (value instance_ : Json) : Bool :=
  match keyword, value with
  | "$ref", .str ref => vocabulary.ref ref instance_
  | "type", .str name => hasType name instance_
  | "type", .arr names => names.any (onName (hasType · instance_))
  | "required", .arr names =>
    !isObject instance_ || names.all (onName fun name =>
      ((membersOf instance_).lookup name).isSome)
  | "enum", .arr members => members.any (sameJson · instance_)
  | "const", literal => sameJson literal instance_
  | keyword, .str s => vocabulary.text keyword s instance_
  | keyword, .num n => vocabulary.number keyword n instance_
  | _, _ => true

/-- The members of an instance that `properties` does not declare. -/
def additionalMembers (schema : List (String × Json)) (instance_ : Json) :
    List (String × Json) :=
  (membersOf instance_).filter fun m => !((propertySchemas schema).map Prod.fst).contains m.1

/-- The items of an instance behind those of `prefixItems`. -/
def remainingItems (schema : List (String × Json)) (instance_ : Json) : List Json :=
  (itemsOf instance_).drop (schemasUnder schema "prefixItems").length

mutual

def accepts (vocabulary : Vocabulary) : Json → Json → Bool
  | .bool b, _ => b
  | .obj schema, instance_ => acceptsKeywords vocabulary schema schema instance_
  | _, _ => true
termination_by structural s => s

def acceptsKeywords (vocabulary : Vocabulary) (schema : List (String × Json)) :
    List (String × Json) → Json → Bool
  | [], _ => true
  | (keyword, value) :: rest, instance_ =>
    (match keyword, value with
      | "properties", .obj properties => acceptsProperties vocabulary properties instance_
      | "items", s => (remainingItems schema instance_).all (accepts vocabulary s ·)
      | "additionalProperties", s =>
        (additionalMembers schema instance_).all (fun m => accepts vocabulary s m.2)
      | "not", s => !accepts vocabulary s instance_
      | "prefixItems", .arr schemas => acceptsItems vocabulary schemas (itemsOf instance_)
      | "allOf", .arr schemas => (acceptsEach vocabulary schemas instance_).all id
      | "anyOf", .arr schemas => (acceptsEach vocabulary schemas instance_).any id
      | "oneOf", .arr schemas => (acceptsEach vocabulary schemas instance_).count true == 1
      | keyword, value => assertion vocabulary keyword value instance_) &&
    acceptsKeywords vocabulary schema rest instance_
termination_by structural keywords => keywords

/-- The declared members of an instance that are present have their schemas. -/
def acceptsProperties (vocabulary : Vocabulary) : List (String × Json) → Json → Bool
  | [], _ => true
  | (name, s) :: rest, instance_ =>
    (((membersOf instance_).lookup name).all (accepts vocabulary s ·)) &&
      acceptsProperties vocabulary rest instance_
termination_by structural properties => properties

/-- The first items have the schemas of the same positions. -/
def acceptsItems (vocabulary : Vocabulary) : List Json → List Json → Bool
  | s :: schemas, item :: items => accepts vocabulary s item && acceptsItems vocabulary schemas items
  | _, _ => true
termination_by structural schemas => schemas

def acceptsEach (vocabulary : Vocabulary) : List Json → Json → List Bool
  | [], _ => []
  | s :: schemas, instance_ =>
    accepts vocabulary s instance_ :: acceptsEach vocabulary schemas instance_
termination_by structural schemas => schemas

end

variable {key : String} {ss ss' : List Json}

/-- Vocabularies that agree about texts and numbers agree about all assertions but references. -/
theorem assertion_congr {v w : Vocabulary} (htext : v.text = w.text) (hnumber : v.number = w.number)
    (hkey : key ≠ "$ref") (value x : Json) :
    assertion v key value x = assertion w key value x := by
  unfold assertion
  split
  · exact absurd rfl hkey
  all_goals simp only [htext, hnumber]

variable (vocabulary : Vocabulary)

def keywordAccepts (schema : List (String × Json)) (keyword : String) (value instance_ : Json) :
    Bool :=
  acceptsKeywords vocabulary schema [(keyword, value)] instance_

theorem acceptsKeywords_cons (schema rest : List (String × Json)) (keyword : String)
    (value instance_ : Json) :
    acceptsKeywords vocabulary schema ((keyword, value) :: rest) instance_ =
      (keywordAccepts vocabulary schema keyword value instance_ &&
        acceptsKeywords vocabulary schema rest instance_) := by
  rw [keywordAccepts, acceptsKeywords.eq_def, acceptsKeywords.eq_def vocabulary schema [_]]
  simp only [acceptsKeywords.eq_def vocabulary schema [], Bool.and_true]

theorem acceptsKeywords_eq_all (schema keywords : List (String × Json)) (instance_ : Json) :
    acceptsKeywords vocabulary schema keywords instance_ =
      keywords.all fun m => keywordAccepts vocabulary schema m.1 m.2 instance_ := by
  induction keywords with
  | nil => rfl
  | cons m keywords ih => rw [acceptsKeywords_cons, ih, all_cons]

/-- A schema object is the conjunction of its keywords. -/
theorem accepts_obj (schema : List (String × Json)) (instance_ : Json) :
    accepts vocabulary (.obj schema) instance_ =
      schema.all fun m => keywordAccepts vocabulary schema m.1 m.2 instance_ := by
  rw [accepts, acceptsKeywords_eq_all]

variable (schemas : List Json)

@[simp] theorem acceptsEach_eq_map (instance_ : Json) :
    acceptsEach vocabulary schemas instance_ =
      schemas.map (accepts vocabulary · instance_) := by
  induction schemas with
  | nil => rfl
  | cons s schemas ih => rw [acceptsEach, ih, map_cons]

variable (properties : List (String × Json))

@[simp] theorem acceptsProperties_eq_all (instance_ : Json) :
    acceptsProperties vocabulary properties instance_ = properties.all fun p =>
      ((membersOf instance_).lookup p.1).all (accepts vocabulary p.2 ·) := by
  induction properties with
  | nil => rfl
  | cons p properties ih => rw [acceptsProperties, ih, all_cons]

@[simp] theorem acceptsItems_eq_all (schemas items : List Json) :
    acceptsItems vocabulary schemas items =
      (schemas.zip items).all fun p => accepts vocabulary p.1 p.2 := by
  induction schemas generalizing items with
  | nil => simp [acceptsItems]
  | cons s schemas ih =>
    cases items with
    | nil => simp [acceptsItems]
    | cons item items => rw [acceptsItems, ih, zip_cons_cons, all_cons]

section Keywords

variable (schema : List (String × Json)) (instance_ : Json)

theorem keywordAccepts_eq (keyword : String) (value : Json) :
    keywordAccepts vocabulary schema keyword value instance_ =
      match keyword, value with
      | "properties", .obj properties => acceptsProperties vocabulary properties instance_
      | "items", s => (remainingItems schema instance_).all (accepts vocabulary s ·)
      | "additionalProperties", s =>
        (additionalMembers schema instance_).all (fun m => accepts vocabulary s m.2)
      | "not", s => !accepts vocabulary s instance_
      | "prefixItems", .arr schemas => acceptsItems vocabulary schemas (itemsOf instance_)
      | "allOf", .arr schemas => (acceptsEach vocabulary schemas instance_).all id
      | "anyOf", .arr schemas => (acceptsEach vocabulary schemas instance_).any id
      | "oneOf", .arr schemas => (acceptsEach vocabulary schemas instance_).count true == 1
      | keyword, value => assertion vocabulary keyword value instance_ := by
  rw [keywordAccepts, acceptsKeywords.eq_def]
  simp only [acceptsKeywords.eq_def vocabulary schema [], Bool.and_true]

theorem keywordAccepts_properties :
    keywordAccepts vocabulary schema "properties" (.obj properties) instance_ =
      properties.all fun p =>
        ((membersOf instance_).lookup p.1).all (accepts vocabulary p.2 ·) := by
  rw [← acceptsProperties_eq_all]
  exact keywordAccepts_eq vocabulary schema instance_ "properties" (.obj properties)

theorem keywordAccepts_items (s : Json) :
    keywordAccepts vocabulary schema "items" s instance_ =
      (remainingItems schema instance_).all (accepts vocabulary s ·) :=
  keywordAccepts_eq vocabulary schema instance_ "items" s

theorem keywordAccepts_additionalProperties (s : Json) :
    keywordAccepts vocabulary schema "additionalProperties" s instance_ =
      (additionalMembers schema instance_).all fun m => accepts vocabulary s m.2 :=
  keywordAccepts_eq vocabulary schema instance_ "additionalProperties" s

theorem keywordAccepts_not (s : Json) :
    keywordAccepts vocabulary schema "not" s instance_ = !accepts vocabulary s instance_ :=
  keywordAccepts_eq vocabulary schema instance_ "not" s

theorem keywordAccepts_prefixItems :
    keywordAccepts vocabulary schema "prefixItems" (.arr schemas) instance_ =
      (schemas.zip (itemsOf instance_)).all fun p => accepts vocabulary p.1 p.2 := by
  rw [← acceptsItems_eq_all]
  exact keywordAccepts_eq vocabulary schema instance_ "prefixItems" (.arr schemas)

theorem keywordAccepts_allOf :
    keywordAccepts vocabulary schema "allOf" (.arr schemas) instance_ =
      schemas.all (accepts vocabulary · instance_) := by
  have h : _ = (acceptsEach vocabulary schemas instance_).all id :=
    keywordAccepts_eq vocabulary schema instance_ "allOf" (.arr schemas)
  simpa using h

theorem keywordAccepts_anyOf :
    keywordAccepts vocabulary schema "anyOf" (.arr schemas) instance_ =
      schemas.any (accepts vocabulary · instance_) := by
  have h : _ = (acceptsEach vocabulary schemas instance_).any id :=
    keywordAccepts_eq vocabulary schema instance_ "anyOf" (.arr schemas)
  simpa using h

theorem keywordAccepts_oneOf :
    keywordAccepts vocabulary schema "oneOf" (.arr schemas) instance_ =
      (schemas.countP (accepts vocabulary · instance_) == 1) := by
  have h : _ = ((acceptsEach vocabulary schemas instance_).count true == 1) :=
    keywordAccepts_eq vocabulary schema instance_ "oneOf" (.arr schemas)
  simpa [count_eq_countP, countP_map, comp_def] using h

def isAssertion (keyword : String) (value : Json) : Bool :=
  match keyword, value with
  | "properties", .obj _ => false
  | "items", _ => false
  | "additionalProperties", _ => false
  | "not", _ => false
  | "prefixItems", .arr _ => false
  | "allOf", .arr _ => false
  | "anyOf", .arr _ => false
  | "oneOf", .arr _ => false
  | _, _ => true

theorem keywordAccepts_assertion {keyword : String} {value : Json}
    (h : isAssertion keyword value = true) :
    keywordAccepts vocabulary schema keyword value instance_ =
      assertion vocabulary keyword value instance_ := by
  rw [keywordAccepts_eq]
  unfold isAssertion at h
  split at h
  case h_9 => rfl
  all_goals cases h

theorem keyword_cases {P : String → Json → Prop}
    (properties : ∀ ps, P "properties" (.obj ps))
    (schema : ∀ key ∈ ["items", "additionalProperties", "not"], ∀ s, P key s)
    (schemas : ∀ key ∈ ["allOf", "anyOf", "oneOf", "prefixItems"], ∀ ss, P key (.arr ss))
    (leaf : ∀ keyword value, isAssertion keyword value = true → P keyword value)
    (keyword : String) (value : Json) : P keyword value := by
  cases h : isAssertion keyword value with
  | true => exact leaf keyword value h
  | false =>
    unfold isAssertion at h
    split at h
    · exact properties _
    · exact schema _ (by simp) _
    · exact schema _ (by simp) _
    · exact schema _ (by simp) _
    · exact schemas _ (by simp) _
    · exact schemas _ (by simp) _
    · exact schemas _ (by simp) _
    · exact schemas _ (by simp) _
    · cases h

end Keywords

/-! ### The order of members -/

theorem sameJson_congr {a b : Json} (h : canon a = canon b) (x : Json) :
    sameJson a x = sameJson b x := by
  simp only [sameJson, h]

/-- Two lists of keywords that leave the same members and items of an instance to the keywords
`additionalProperties` and `items`. -/
structure SameContext (schema schema' : List (String × Json)) : Prop where
  names : ∀ name, name ∈ (propertySchemas schema).map Prod.fst ↔
    name ∈ (propertySchemas schema').map Prod.fst
  prefixLength : (schemasUnder schema "prefixItems").length =
    (schemasUnder schema' "prefixItems").length

namespace SameContext

variable {schema schema' : List (String × Json)}

theorem additionalMembers_eq (h : SameContext schema schema') (x : Json) :
    additionalMembers schema x = additionalMembers schema' x := by
  refine filter_congr fun m _ => ?_
  congr 1
  rw [Bool.eq_iff_iff, contains_iff_mem, contains_iff_mem]
  exact h.names m.1

theorem remainingItems_eq (h : SameContext schema schema') (x : Json) :
    remainingItems schema x = remainingItems schema' x := by
  rw [remainingItems, remainingItems, h.prefixLength]

end SameContext

/-- The value of a literal, a type or a list of names means the same in canonical form. -/
theorem assertion_canon (keyword : String) (value x : Json) :
    assertion vocabulary keyword (canon value) x = assertion vocabulary keyword value x := by
  have hsame (y : Json) : sameJson (canon y) x = sameJson y x := sameJson_congr (canon_canon y) x
  cases value with
  | null | bool _ | num _ | str _ => rfl
  | obj ms =>
    have hobj := hsame (.obj ms)
    rw [canon_obj] at hobj ⊢
    unfold assertion
    split <;> simp_all
  | arr xs =>
    have hname (p : String → Bool) (y : Json) : onName p (canon y) = onName p y := by
      cases y <;> simp [onName, canon_obj]
    have harr := hsame (.arr xs)
    rw [canon_arr] at harr ⊢
    unfold assertion
    split
    · simp_all
    · simp_all
    · rename_i heq
      cases heq
      simp [List.any_map, comp_def, hname]
    · rename_i heq
      cases heq
      simp [List.all_map, comp_def, hname]
    · rename_i heq
      cases heq
      simp [List.any_map, comp_def, hsame]
    · exact harr
    all_goals simp_all

theorem mem_names_sortMembers {ms : List (String × Json)} {name : String} :
    name ∈ (sortMembers (ms.map fun m => (m.1, canon m.2))).map Prod.fst ↔
      name ∈ ms.map Prod.fst := by
  rw [((sortMembers_perm _).map Prod.fst).mem_iff, List.map_map]
  rfl

theorem sameContext_canon (schema : List (String × Json)) :
    SameContext (sortMembers (schema.map fun m => (m.1, canon m.2))) schema where
  names name := by
    unfold propertySchemas
    rw [lookup_sortMembers, lookup_map_snd]
    cases schema.lookup "properties" with
    | none => rfl
    | some v =>
      cases v with
      | obj ps =>
        rw [Option.map_some, canon_obj]
        exact mem_names_sortMembers
      | arr xs => simp
      | _ => rfl
  prefixLength := by
    unfold schemasUnder
    rw [lookup_sortMembers, lookup_map_snd]
    cases schema.lookup "prefixItems" with
    | none => rfl
    | some v =>
      cases v with
      | arr xs => simp
      | obj ms => simp [canon_obj]
      | _ => rfl

theorem isAssertion_canon (keyword : String) (value : Json) :
    isAssertion keyword (canon value) = isAssertion keyword value := by
  cases value with
  | obj ms =>
    rw [canon_obj]
    unfold isAssertion
    split <;> simp_all
  | arr xs =>
    unfold isAssertion
    split <;> simp_all
  | _ => rfl

variable (h : List.Forall₂ (fun s s' => ∀ x, accepts vocabulary s x = accepts vocabulary s' x) ss ss')

include h in
theorem map_accepts_eq (x : Json) :
    ss.map (accepts vocabulary · x) = ss'.map (accepts vocabulary · x) := by
  induction h with
  | nil => rfl
  | cons hs _ ih => rw [map_cons, map_cons, hs, ih]

include h in
theorem all_zip_accepts_eq (items : List Json) :
    ((ss.zip items).all fun p => accepts vocabulary p.1 p.2) =
      (ss'.zip items).all fun p => accepts vocabulary p.1 p.2 := by
  induction h generalizing items with
  | nil => rfl
  | cons hs _ ih =>
    cases items with
    | nil => rfl
    | cons item items =>
      rw [zip_cons_cons, zip_cons_cons, all_cons, all_cons, hs, ih]

section Congruence

variable {schema schema' : List (String × Json)} (hcontext : SameContext schema schema')
include hcontext

theorem keywordAccepts_schema_congr
    (hkey : key ∈ ["items", "additionalProperties", "not"]) {s s' : Json}
    (h : ∀ x, accepts vocabulary s x = accepts vocabulary s' x) (x : Json) :
    keywordAccepts vocabulary schema key s x = keywordAccepts vocabulary schema' key s' x := by
  simp only [mem_cons, not_mem_nil, or_false] at hkey
  rcases hkey with rfl | rfl | rfl
  · simp only [keywordAccepts_items, h, hcontext.remainingItems_eq]
  · simp only [keywordAccepts_additionalProperties, h, hcontext.additionalMembers_eq]
  · simp only [keywordAccepts_not, h]

omit hcontext in
theorem keywordAccepts_schemas_congr (hkey : key ∈ ["allOf", "anyOf", "oneOf", "prefixItems"])
    (h : List.Forall₂ (fun s s' => ∀ x, accepts vocabulary s x = accepts vocabulary s' x) ss ss')
    (x : Json) :
    keywordAccepts vocabulary schema key (.arr ss) x =
      keywordAccepts vocabulary schema' key (.arr ss') x := by
  simp only [mem_cons, not_mem_nil, or_false] at hkey
  rcases hkey with rfl | rfl | rfl | rfl
  · have hall := congrArg (List.all · id) (map_accepts_eq vocabulary h x)
    simpa only [keywordAccepts_allOf, List.all_map, id_comp] using hall
  · have hany := congrArg (List.any · id) (map_accepts_eq vocabulary h x)
    simpa only [keywordAccepts_anyOf, List.any_map, id_comp] using hany
  · have hcount := congrArg (List.countP id) (map_accepts_eq vocabulary h x)
    rw [countP_map, countP_map] at hcount
    simp only [id_comp] at hcount
    rw [keywordAccepts_oneOf, keywordAccepts_oneOf, hcount]
  · simp only [keywordAccepts_prefixItems, all_zip_accepts_eq vocabulary h]

end Congruence

theorem accepts_canon (s : Json) :
    ∀ x, accepts vocabulary (canon s) x = accepts vocabulary s x := by
  induction s using sizeInduction with
  | step s ih =>
    intro x
    cases s with
    | null | bool _ | num _ | str _ => rfl
    | arr xs =>
      rfl
    | obj schema =>
      rw [canon_obj, accepts_obj, accepts_obj, (sortMembers_perm _).all_eq, List.all_map,
        Bool.eq_iff_iff, List.all_eq_true, List.all_eq_true]
      have hcontext := sameContext_canon schema
      have hkeyword : ∀ keyword value, sizeOf value < sizeOf (Json.obj schema) →
          keywordAccepts vocabulary (sortMembers (schema.map fun m => (m.1, canon m.2))) keyword
              (canon value) x =
            keywordAccepts vocabulary schema keyword value x := by
        refine keyword_cases (fun ps hsize => ?_) (fun key hkey s hsize => ?_)
          (fun key hkey ss hsize => ?_) (fun keyword value hleaf hsize => ?_)
        · rw [canon_obj, keywordAccepts_properties, keywordAccepts_properties, (sortMembers_perm
            _).all_eq, List.all_map, Bool.eq_iff_iff, List.all_eq_true, List.all_eq_true]
          refine forall₂_congr fun p hp => ?_
          have hp' : sizeOf p.2 < sizeOf (Json.obj schema) := by
            have := sizeOf_lt_of_mem_members hp
            rw [Json.obj.sizeOf_spec] at hsize
            omega
          simp only [comp_apply, ih p.2 hp']
        · exact keywordAccepts_schema_congr vocabulary hcontext hkey (ih s hsize) x
        · rw [canon_arr]
          refine keywordAccepts_schemas_congr vocabulary hkey ?_ x
          rw [forall₂_map_left_iff, forall₂_same]
          intro s hs
          have := sizeOf_lt_of_mem hs
          rw [Json.arr.sizeOf_spec] at hsize
          exact ih s (by omega)
        · rw [keywordAccepts_assertion _ _ _ ((isAssertion_canon keyword value).trans hleaf),
            keywordAccepts_assertion _ _ _ hleaf, assertion_canon]
      refine forall₂_congr fun m hm => ?_
      have hsize : sizeOf m.2 < sizeOf (Json.obj schema) := by
        have := sizeOf_lt_of_mem_members hm
        rw [Json.obj.sizeOf_spec]
        omega
      rw [comp_apply, hkeyword m.1 m.2 hsize]

/-- Equal schemas up to the order of members accept the same instances. -/
theorem accepts_eq_of_canon_eq {s t : Json} (h : canon s = canon t) (x : Json) :
    accepts vocabulary s x = accepts vocabulary t x := by
  rw [← accepts_canon, h, accepts_canon]

end ApiTruth.Ir
