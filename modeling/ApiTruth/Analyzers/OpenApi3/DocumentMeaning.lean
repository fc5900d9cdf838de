import ApiTruth.Analyzers.OpenApi3.Schemas

/-!
# The meaning of the schemas of a document

A schema object of version 3.0 is JSON Schema with a few keywords of its own: a string under `$ref`
stands for the whole object, `nullable` extends a given type by `null`, and some keywords only
annotate.  What the format does not define, the meaning of unknown keywords, of values that a
keyword may not have and of values that are no schema objects, is a parameter.

## Main definitions

* `DocumentVocabulary` : the meanings that are left open.
* `acceptsDocument` : the instances that a schema of a document accepts.
* `DocumentAccepts`, `DocumentRejects` : the same with the references unfolded.

## Main results

* `acceptsDocument_obj` : a schema object is the conjunction of its keywords.
-/

namespace ApiTruth.Analyzers.OpenApi3

open Json ApiTruth.Ir List Function

/-- The meaning of references, of the keywords over strings and numbers, and of everything that the
format does not define. -/
structure DocumentVocabulary extends Vocabulary where
  other : String → Json → Json → Bool
  malformed : Json → Json → Bool

/-- The keywords that do not constrain an instance; `nullable` belongs to `type`. -/
def isAnnotation (key : String) : Bool :=
  ["nullable", "readOnly", "writeOnly", "deprecated", "example", "default", "externalDocs",
    "xml"].contains key || "x-".toList.isPrefixOf key.toList

/-- The type is extended by `null`. -/
def isNullable (schema : List (String × Json)) : Bool :=
  schema.lookup "nullable" == some (.bool true)

/-- The meaning of a keyword without schemas below it. -/
def documentAssertion (vocabulary : DocumentVocabulary) (schema : List (String × Json))
    (key : String) (value instance_ : Json) : Bool :=
  if isAnnotation key then true
  else if key = "type" ∧ isSupported .v30 key value then
    assertion vocabulary.toVocabulary key value instance_ ||
      isNullable schema && hasType "null" instance_
  else if key = "required" ∧ isArray value ∧ value.items.all isString ∨
      key = "enum" ∧ isArray value ∨ isSupported .v30 key value then
    assertion vocabulary.toVocabulary key value instance_
  else vocabulary.other key value instance_

/-- A boolean in the place of a schema accepts everything or nothing. -/
def booleanOr (accepts : Json → Bool) (instance_ : Json) : Json → Bool
  | .bool b => b
  | _ => accepts instance_

/-- The meaning of a keyword, given what its value means as a schema, as an object of schemas and
as a list of schemas. -/
def documentKeyword (vocabulary : DocumentVocabulary) (schema : List (String × Json))
    (accepts properties : Json → Bool) (each : Json → List Bool) (key : String)
    (value instance_ : Json) : Bool :=
  if key = "properties" ∧ isObject value then properties instance_
  else if key = "items" then (itemsOf instance_).all accepts
  else if key = "additionalProperties" then
    (additionalMembers schema instance_).all fun m => booleanOr accepts m.2 value
  else if key = "not" then !accepts instance_
  else if key = "allOf" ∧ isArray value then (each instance_).all id
  else if key = "anyOf" ∧ isArray value then (each instance_).any id
  else if key = "oneOf" ∧ isArray value then (each instance_).count true == 1
  else documentAssertion vocabulary schema key value instance_

mutual

def acceptsDocument (vocabulary : DocumentVocabulary) : Json → Json → Bool
  | .obj schema, instance_ =>
    match referenceOf (.obj schema) with
    | some ref => vocabulary.ref ref instance_
    | none => acceptsDocumentKeywords vocabulary schema schema instance_
  | s, instance_ => vocabulary.malformed s instance_
termination_by structural s => s

def acceptsDocumentKeywords (vocabulary : DocumentVocabulary) (schema : List (String × Json)) :
    List (String × Json) → Json → Bool
  | [], _ => true
  | (key, value) :: rest, instance_ =>
    documentKeyword vocabulary schema (acceptsDocument vocabulary value)
        (acceptsDocumentProperties vocabulary value) (acceptsDocumentEach vocabulary value) key value
        instance_ &&
      acceptsDocumentKeywords vocabulary schema rest instance_
termination_by structural keywords => keywords

/-- The members of an instance that are present have the schemas under `properties`. -/
def acceptsDocumentProperties (vocabulary : DocumentVocabulary) : Json → Json → Bool
  | .obj ps, instance_ => acceptsDocumentMembers vocabulary ps instance_
  | _, _ => true
termination_by structural value => value

/-- The members of an instance that are present have the listed schemas. -/
def acceptsDocumentMembers (vocabulary : DocumentVocabulary) :
    List (String × Json) → Json → Bool
  | [], _ => true
  | (name, s) :: rest, instance_ =>
    (((membersOf instance_).lookup name).all (acceptsDocument vocabulary s ·)) &&
      acceptsDocumentMembers vocabulary rest instance_
termination_by structural properties => properties

/-- Which schemas of a list accept the instance. -/
def acceptsDocumentEach (vocabulary : DocumentVocabulary) : Json → Json → List Bool
  | .arr ss, instance_ => acceptsDocumentItems vocabulary ss instance_
  | _, _ => []
termination_by structural value => value

def acceptsDocumentItems (vocabulary : DocumentVocabulary) : List Json → Json → List Bool
  | [], _ => []
  | s :: ss, instance_ =>
    acceptsDocument vocabulary s instance_ :: acceptsDocumentItems vocabulary ss instance_
termination_by structural schemas => schemas

end

variable (vocabulary : DocumentVocabulary)

def acceptsDocumentKeyword (schema : List (String × Json)) (key : String)
    (value instance_ : Json) : Bool :=
  documentKeyword vocabulary schema (acceptsDocument vocabulary value)
    (acceptsDocumentProperties vocabulary value) (acceptsDocumentEach vocabulary value) key value
    instance_

theorem acceptsDocumentKeywords_eq_all (schema keywords : List (String × Json))
    (instance_ : Json) : acceptsDocumentKeywords vocabulary schema keywords instance_ =
      keywords.all fun m => acceptsDocumentKeyword vocabulary schema m.1 m.2 instance_ := by
  induction keywords with
  | nil => rfl
  | cons m keywords ih =>
    rw [all_cons, ← ih]
    rfl

/-- A schema object is the conjunction of its keywords. -/
theorem acceptsDocument_obj {s : Json} (hobject : isObject s = true) (href : referenceOf s = none)
    (instance_ : Json) : acceptsDocument vocabulary s instance_ =
      s.members.all fun m => acceptsDocumentKeyword vocabulary s.members m.1 m.2 instance_ := by
  cases s with
  | obj schema =>
    rw [acceptsDocument, href]
    exact acceptsDocumentKeywords_eq_all vocabulary schema schema instance_
  | _ => cases hobject

theorem acceptsDocument_ref {s : Json} {ref : String} (href : referenceOf s = some ref)
    (instance_ : Json) : acceptsDocument vocabulary s instance_ = vocabulary.ref ref instance_ := by
  cases s with
  | obj schema => rw [acceptsDocument, href]
  | _ => cases href

theorem acceptsDocumentProperties_eq_all (value instance_ : Json) :
    acceptsDocumentProperties vocabulary value instance_ = value.members.all fun p =>
      ((membersOf instance_).lookup p.1).all (acceptsDocument vocabulary p.2 ·) := by
  cases value with
  | obj ps =>
    show acceptsDocumentMembers vocabulary ps instance_ = ps.all _
    induction ps with
    | nil => rfl
    | cons p ps ih => rw [acceptsDocumentMembers, ih, all_cons]
  | _ => rfl

theorem acceptsDocumentEach_eq_map (value instance_ : Json) :
    acceptsDocumentEach vocabulary value instance_ =
      value.items.map (acceptsDocument vocabulary · instance_) := by
  cases value with
  | arr ss =>
    show acceptsDocumentItems vocabulary ss instance_ = ss.map _
    induction ss with
    | nil => rfl
    | cons s ss ih => rw [acceptsDocumentItems, ih, map_cons]
  | _ => rfl

section Keywords

variable (schema : List (String × Json)) (instance_ : Json) {value : Json}

attribute [local simp] documentKeyword acceptsDocumentKeyword

theorem acceptsDocumentKeyword_properties (h : isObject value = true) :
    acceptsDocumentKeyword vocabulary schema "properties" value instance_ =
      value.members.all fun p =>
        ((membersOf instance_).lookup p.1).all (acceptsDocument vocabulary p.2 ·) := by
  rw [← acceptsDocumentProperties_eq_all, acceptsDocumentKeyword, documentKeyword, if_pos ⟨rfl, h⟩]

theorem acceptsDocumentKeyword_items (value : Json) :
    acceptsDocumentKeyword vocabulary schema "items" value instance_ =
      (itemsOf instance_).all (acceptsDocument vocabulary value ·) := by
  simp

theorem acceptsDocumentKeyword_additional (value : Json) :
    acceptsDocumentKeyword vocabulary schema "additionalProperties" value instance_ =
      (additionalMembers schema instance_).all fun m =>
        booleanOr (acceptsDocument vocabulary value) m.2 value := by
  simp

theorem acceptsDocumentKeyword_not (value : Json) :
    acceptsDocumentKeyword vocabulary schema "not" value instance_ =
      !acceptsDocument vocabulary value instance_ := by
  simp

theorem acceptsDocumentKeyword_allOf (h : isArray value = true) :
    acceptsDocumentKeyword vocabulary schema "allOf" value instance_ =
      value.items.all (acceptsDocument vocabulary · instance_) := by
  simp [acceptsDocumentEach_eq_map, h, comp_def]

theorem acceptsDocumentKeyword_anyOf (h : isArray value = true) :
    acceptsDocumentKeyword vocabulary schema "anyOf" value instance_ =
      value.items.any (acceptsDocument vocabulary · instance_) := by
  simp [acceptsDocumentEach_eq_map, h, comp_def]

theorem acceptsDocumentKeyword_oneOf (h : isArray value = true) :
    acceptsDocumentKeyword vocabulary schema "oneOf" value instance_ =
      (value.items.countP (acceptsDocument vocabulary · instance_) == 1) := by
  simp [acceptsDocumentEach_eq_map, h, count_eq_countP, countP_map, comp_def]

def schemaKeywords : List String :=
  ["properties", "items", "additionalProperties", "not", "allOf", "anyOf", "oneOf"]

theorem acceptsDocumentKeyword_leaf {key : String} (h : key ∉ schemaKeywords) (value : Json) :
    acceptsDocumentKeyword vocabulary schema key value instance_ =
      documentAssertion vocabulary schema key value instance_ := by
  simp only [schemaKeywords, mem_cons, not_mem_nil, or_false, not_or] at h
  simp [h]

end Keywords

/-! ### References -/

section References

variable (document : Json)

/-- The vocabulary in which a reference to a component means what the component means. -/
def documentVocabularyWith (meaning : String → Json → Bool) : DocumentVocabulary :=
  { vocabulary with
    ref := fun ref instance_ =>
      ((componentName "schemas" ref).map fun name => meaning name instance_).getD
        (vocabulary.ref ref instance_) }

/-- The meaning of components with references unfolded to a depth, below which it is given. -/
def unfoldDocument (bottom : String → Json → Bool) : ℕ → String → Json → Bool
  | 0, name, instance_ => bottom name instance_
  | depth + 1, name, instance_ =>
    match component? document "schemas" name with
    | none => bottom name instance_
    | some place =>
      acceptsDocument (documentVocabularyWith vocabulary (unfoldDocument bottom depth)) place.value
        instance_

/-- The vocabulary with references unfolded to a depth. -/
abbrev documentVocabularyAt (bottom : String → Json → Bool) (depth : ℕ) : DocumentVocabulary :=
  documentVocabularyWith vocabulary (unfoldDocument vocabulary document bottom depth)

/-- Some depth accepts the instance whatever lies below. -/
def DocumentAccepts (s instance_ : Json) : Prop :=
  ∃ depth, ∀ bottom,
    acceptsDocument (documentVocabularyAt vocabulary document bottom depth) s instance_ = true

/-- Some depth rejects the instance whatever lies below. -/
def DocumentRejects (s instance_ : Json) : Prop :=
  ∃ depth, ∀ bottom,
    acceptsDocument (documentVocabularyAt vocabulary document bottom depth) s instance_ = false

end References

end ApiTruth.Analyzers.OpenApi3
