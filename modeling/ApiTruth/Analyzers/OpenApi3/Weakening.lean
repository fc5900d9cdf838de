import ApiTruth.Analyzers.OpenApi3.SchemaOutput
import ApiTruth.Foundation.Polarity
import ApiTruth.Ir.SchemaSpace
import Mathlib.Logic.Relation

/-!
# What stored schemas mean

The conversion of a schema object of version 3.0 leaves out what it does not support.  A schema
without one of its keywords accepts more; below `not` that makes the whole accept less, and below
`oneOf` it can do either.  Where nothing is left out at such a place, the stored schema accepts what
the schema of the document accepts.

## Main definitions

* `ChildAt`, `Step` : the schemas below a schema and behind its reference, with their polarity.
* `Keeps`, `Guarded` : nothing is left out of a schema; nothing is left out where that could narrow.
* `storedSpace` : the stored components.

## Main results

* `allows_schema` : the conversion changes the meaning of a schema as its polarity allows.
-/

namespace ApiTruth.Analyzers.OpenApi3

open Json ApiTruth.Ir Reported List Option

variable {document : Json}

/-! ### Polarity of schemas -/

/-- The schemas directly below a schema object of the document. -/
inductive ChildAt (place : Located document) : String → Located document → Prop
  | property {list child : Located document} {name : String}
      (list_eq : place.member? "properties" = some list) (isObject : isObject list.value = true)
      (mem : (name, child) ∈ list.members) : ChildAt place "properties" child
  | single {key : String} {child : Located document}
      (mem : key ∈ ["items", "additionalProperties", "not"])
      (child_eq : place.member? key = some child)
      (isSchema : key = "additionalProperties" → ∀ b, child.value ≠ .bool b) :
      ChildAt place key child
  | several {key : String} {list child : Located document} (mem : key ∈ ["oneOf", "anyOf", "allOf"])
      (list_eq : place.member? key = some list) (isArray : isArray list.value = true)
      (item : child ∈ list.items) : ChildAt place key child

/-- The polarity of the schemas below a keyword. -/
def belowKeyword (p : Polarity) (key : String) : Polarity :=
  if key = "not" then p.flip else if key = "oneOf" then .mixed else p

/-- The component that a schema object refers to. -/
def referencedPlace (place : Located document) : Option (Located document) :=
  ((referenceOf place.value).bind (componentName "schemas")).bind (component? document "schemas")

/-- From a schema, with the levels that may still be opened, to the schemas below it, and to the
component behind its reference. -/
inductive Step :
    Polarity × ℕ × Located document → Polarity × ℕ × Located document → Prop
  | child {p : Polarity} {levels : ℕ} {place child : Located document} {key : String}
      (noReference : referenceOf place.value = none) (isChild : ChildAt place key child) :
      Step (p, levels + 1, place) (belowKeyword p key, levels, child)
  | ref {p : Polarity} {levels : ℕ} {place target : Located document}
      (target_eq : referencedPlace place = some target) :
      Step (p, levels + 1, place) (p, schemaLevels, target)

def keepsKeyword (key : String) (value : Json) : Bool :=
  isAnnotation key ||
    if key = "properties" then isObject value
    else if ["items", "additionalProperties", "not"].contains key then true
    else if ["oneOf", "anyOf", "allOf"].contains key then
      isArray value && 0 < value.items.length && value.items.length ≤ 32
    else isSupported .v30 key value

/-- The conversion leaves nothing out of the schema: it is an object within the depth, and either a
reference to a component with nothing beside it or a list of keywords that are kept. -/
def Keeps (levels : ℕ) (place : Located document) : Prop :=
  0 < levels ∧ isObject place.value = true ∧
    if (referenceOf place.value).isSome then
      (referencedPlace place).isSome = true ∧ hasSiblings place.value = false
    else ∀ m ∈ place.value.members, keepsKeyword m.1 m.2 = true

/-- Nothing is left out where that could make the whole accept less. -/
def Guarded (p : Polarity) (levels : ℕ) (place : Located document) : Prop :=
  ∀ q below other, Relation.ReflTransGen Step (p, levels, place) (q, below, other) →
    q ≠ .positive → Keeps below other

namespace Guarded

variable {p : Polarity} {levels : ℕ} {place : Located document}

theorem keeps (h : Guarded p levels place) (hp : p ≠ .positive) : Keeps levels place :=
  h p levels place .refl hp

theorem of_step (h : Guarded p levels place) {q : Polarity} {below : ℕ}
    {other : Located document} (hstep : Step (p, levels, place) (q, below, other)) :
    Guarded q below other :=
  fun r m next hreaches => h r m next (.head hstep hreaches)

theorem of_no_step (h : ∀ next, ¬ Step (.positive, levels, place) next) :
    Guarded .positive levels place := by
  intro q below other hreaches hq
  rcases Relation.ReflTransGen.cases_head hreaches with heq | ⟨next, hstep, -⟩
  · exact absurd (Prod.mk.inj heq).1.symm hq
  · exact absurd hstep (h next)

end Guarded

variable {p : Polarity}

theorem allows_true {a : Bool} (h : p ≠ .positive → False) : p.Allows a true :=
  ⟨fun _ _ => rfl, fun hp => (h hp).elim⟩

/-! ### Keywords -/

section Keywords

variable {host : Host} {convert : Located document → Reported (Event document) Json}
  {place : Located document} {p : Polarity} {v : DocumentVocabulary} {w : Vocabulary}
  {schema : List (String × Json)}

def OutputAllows (p : Polarity) (v : DocumentVocabulary) (w : Vocabulary) (place : Located document)
    (schema output : List (String × Json)) (key : String) (value : Json) : Prop :=
  ∀ x, p.Allows (acceptsDocumentKeyword v place.value.members key value x)
    (output.all fun m => keywordAccepts w schema m.1 m.2 x)

variable {key : String} {value : Json}

theorem outputAllows_nil (h : p ≠ .positive → False) :
    OutputAllows p v w place schema [] key value := fun _ => allows_true h

theorem outputAllows_singleton {value output : Json}
    (h : ∀ x, p.Allows (acceptsDocumentKeyword v place.value.members key value x)
      (keywordAccepts w schema key output x)) :
    OutputAllows p v w place schema [(key, output)] key value := fun x => by
  rw [all_cons, all_nil, Bool.and_true]
  exact h x

section Children

variable (hdocument : WellFormed document)
  (hchild : ∀ key child, ChildAt place key child → ∀ x,
    (belowKeyword p key).Allows (acceptsDocument v child.value x) (accepts w (convert child).value x))
include hchild

variable {list : Located document}

include hdocument in
theorem outputAllows_properties (hlist : place.member? "properties" = some list)
    (hkeeps : p ≠ .positive → keepsKeyword "properties" list.value = true) :
    OutputAllows p v w place schema (outputOf host convert place "properties") "properties"
      list.value := by
  rw [outputOf_properties hlist]
  split
  · rename_i hobject
    refine outputAllows_singleton fun x => ?_
    have hsorted : (sortedEntries host list).Perm list.members := perm_insertionSort _ _
    rw [acceptsDocumentKeyword_properties _ _ _ hobject, keywordAccepts_properties, List.all_map,
      hsorted.all_eq, ← list.values_members hdocument, List.all_map]
    refine .all (List.forall₂_same.mpr fun entry hentry => ?_)
    rw [Function.comp_apply, Function.comp_apply]
    cases (membersOf x).lookup entry.1 with
    | none => exact .refl p true
    | some y => exact hchild _ entry.2 (.property hlist hobject hentry) y
  · rename_i hobject
    exact outputAllows_nil fun hp => hobject (by simpa [keepsKeyword, isAnnotation] using hkeeps hp)

variable {child : Located document}

theorem outputAllows_items (hremaining : ∀ x, remainingItems schema x = itemsOf x)
    (hmember : place.member? "items" = some child) :
    OutputAllows p v w place schema (outputOf host convert place "items") "items" child.value := by
  rw [outputOf_one (by simp) hmember]
  refine outputAllows_singleton fun x => ?_
  rw [acceptsDocumentKeyword_items, keywordAccepts_items, hremaining]
  exact .all (List.forall₂_same.mpr fun item _ =>
    hchild "items" child (.single (by simp) hmember (by simp)) item)

theorem outputAllows_not (hmember : place.member? "not" = some child) :
    OutputAllows p v w place schema (outputOf host convert place "not") "not" child.value := by
  rw [outputOf_one (by simp) hmember]
  refine outputAllows_singleton fun x => ?_
  rw [acceptsDocumentKeyword_not, keywordAccepts_not]
  have hbelow := (hchild "not" child (.single (by simp) hmember (by simp)) x).not
  rwa [belowKeyword, if_pos rfl, Polarity.flip_flip] at hbelow

theorem outputAllows_additional
    (hadditional : ∀ x, additionalMembers schema x = additionalMembers place.value.members x)
    (hmember : place.member? "additionalProperties" = some child) :
    OutputAllows p v w place schema (outputOf host convert place "additionalProperties")
      "additionalProperties" child.value := by
  by_cases hbool : ∃ b, child.value = .bool b
  · obtain ⟨b, hb⟩ := hbool
    rw [outputOf_additional_bool (hb ▸ lookup_of_member? hmember)]
    refine outputAllows_singleton fun x => ?_
    rw [acceptsDocumentKeyword_additional, keywordAccepts_additionalProperties, hadditional, hb]
    exact .refl p _
  · rw [outputOf_additional hmember (not_exists.mp hbool)]
    refine outputAllows_singleton fun x => ?_
    rw [acceptsDocumentKeyword_additional, keywordAccepts_additionalProperties, hadditional]
    refine .all (List.forall₂_same.mpr fun m _ => ?_)
    have hbooleanOr : booleanOr (acceptsDocument v child.value) m.2 child.value =
        acceptsDocument v child.value m.2 := by
      unfold booleanOr
      split
      · rename_i b heq
        exact absurd ⟨b, heq⟩ hbool
      · rfl
    rw [hbooleanOr]
    exact hchild _ child (.single (by simp) hmember fun _ => not_exists.mp hbool) m.2

theorem outputAllows_several (hkey : key ∈ ["oneOf", "anyOf", "allOf"])
    (hlist : place.member? key = some list)
    (hkeeps : p ≠ .positive → keepsKeyword key list.value = true) :
    OutputAllows p v w place schema (outputOf host convert place key) key list.value := by
  rw [outputOf_several hkey hlist]
  split
  · rename_i hshape
    have harray : isArray list.value = true := by
      rw [Bool.and_eq_true, Bool.and_eq_true] at hshape
      exact hshape.1.1
    refine outputAllows_singleton fun x => ?_
    have hitems : List.Forall₂ (fun s s' => (belowKeyword p key).Allows
        (acceptsDocument v s x) (accepts w s' x)) list.value.items
        (list.items.map fun c => (convert c).value) := by
      rw [← list.values_items, forall₂_map_left_iff, forall₂_map_right_iff, forall₂_same]
      exact fun c hc => hchild key c (.several hkey hlist harray hc) x
    simp only [mem_cons, not_mem_nil, or_false] at hkey
    rcases hkey with rfl | rfl | rfl
    · rw [acceptsDocumentKeyword_oneOf _ _ _ harray, keywordAccepts_oneOf,
        Polarity.countP_eq_of_mixed hitems]
      exact .refl p _
    · rw [acceptsDocumentKeyword_anyOf _ _ _ harray, keywordAccepts_anyOf]
      exact .any hitems
    · rw [acceptsDocumentKeyword_allOf _ _ _ harray, keywordAccepts_allOf]
      exact .all hitems
  · rename_i hshape
    refine outputAllows_nil fun hp => hshape ?_
    have hkept := hkeeps hp
    simp only [mem_cons, not_mem_nil, or_false] at hkey
    rcases hkey with rfl | rfl | rfl <;> simpa [keepsKeyword, isAnnotation] using hkept

end Children

/-- A supported value of a keyword without schemas below it is an assertion of both formats. -/
theorem isAssertion_of_isSupported
    (h : isSupported .v30 key value = true) : isAssertion key value = true ∧ key ∉ schemaKeywords ∧
      key ≠ "$ref" ∧ isAnnotation key = false := by
  unfold isSupported at h
  split at h
  all_goals first
    | exact ⟨rfl, by decide, by decide, by decide⟩
    | cases h

/-- A supported value of a keyword without schemas below it asserts the same in a document, where a
nullable schema also accepts `null` by its type. -/
theorem acceptsDocumentKeyword_of_isSupported (h : isSupported .v30 key value = true) (x : Json) :
    acceptsDocumentKeyword v place.value.members key value x =
      (assertion v.toVocabulary key value x ||
        decide (key = "type") && isNullable place.value.members && hasType "null" x) := by
  obtain ⟨-, hkey, -, hkind⟩ := isAssertion_of_isSupported h
  rw [acceptsDocumentKeyword_leaf _ _ _ hkey, documentAssertion, hkind, if_neg (by simp)]
  by_cases htype : key = "type"
  · rw [if_pos ⟨htype, h⟩, decide_eq_true htype, Bool.true_and]
  · rw [if_neg fun hboth => htype hboth.1, if_pos (.inr (.inr h)), decide_eq_false htype,
      Bool.false_and, Bool.false_and, Bool.or_false]

theorem outputAllows_leaf (htext : v.text = w.text) (hnumber : v.number = w.number)
    (hkey : key ∉ schemaKeywords) (hlookup : place.value.members.lookup key = some value)
    (hkeeps : p ≠ .positive → isSupported .v30 key value = true) :
    OutputAllows p v w place schema (membersOfOutput host convert place key) key value := by
  unfold membersOfOutput
  rw [outputOf_leaf hkey hlookup]
  cases hsupported : isSupported .v30 key value with
  | false =>
    have hnil : OutputAllows p v w place schema [] key value := outputAllows_nil fun hp => by
      rw [hkeeps hp] at hsupported
      cases hsupported
    split <;> exact hnil
  | true =>
    obtain ⟨hassertion, -, href, -⟩ := isAssertion_of_isSupported hsupported
    split
    · rename_i htype
      obtain ⟨rfl, hnullable⟩ := htype
      refine outputAllows_singleton fun x => .of_eq ?_
      rw [acceptsDocumentKeyword_of_isSupported hsupported, hnullable,
        keywordAccepts_assertion _ _ _ rfl]
      cases value with
      | str name => simp [assertion, onName]
      | _ => cases hsupported
    · rename_i htype
      have hextra : (decide (key = "type") && isNullable place.value.members) = false := by
        rwa [← Bool.not_eq_true, Bool.and_eq_true, decide_eq_true_iff]
      refine outputAllows_singleton fun x => .of_eq ?_
      rw [acceptsDocumentKeyword_of_isSupported hsupported, hextra, Bool.false_and, Bool.or_false,
        keywordAccepts_assertion _ _ _ hassertion]
      exact assertion_congr htext hnumber href value x

end Keywords

/-! ### Schema objects -/

/-- The conversion changes what a schema accepts as the polarity allows. -/
def Sound (p : Polarity) (v : DocumentVocabulary) (w : Vocabulary)
    (convert : Located document → Reported (Event document) Json) (place : Located document) :
    Prop :=
  ∀ x, p.Allows (acceptsDocument v place.value x) (accepts w (convert place).value x)

section Objects

variable {host : Host} {convert : Located document → Reported (Event document) Json}
  {place : Located document} {p : Polarity} {v : DocumentVocabulary} {w : Vocabulary}

variable {key : String} {value : Json}

theorem mem_convertedKeywords_of_keepsKeyword
    (h : keepsKeyword key value = true) : isAnnotation key = true ∨ key ∈ convertedKeywords := by
  unfold keepsKeyword at h
  rw [Bool.or_eq_true] at h
  refine h.imp_right fun hkept => ?_
  split at hkept
  · rename_i hkey
    rw [hkey]
    decide
  · split at hkept
    · rename_i hkey
      simp only [contains_iff_mem, mem_cons, not_mem_nil, or_false] at hkey
      rcases hkey with rfl | rfl | rfl <;> decide
    · split at hkept
      · rename_i hkey
        simp only [contains_iff_mem, mem_cons, not_mem_nil, or_false] at hkey
        rcases hkey with rfl | rfl | rfl <;> decide
      · unfold isSupported at hkept
        split at hkept
        all_goals first
          | decide
          | cases hkept

theorem acceptsDocumentKeyword_annotation (h : isAnnotation key = true)
    (value x : Json) : acceptsDocumentKeyword v place.value.members key value x = true := by
  have hkey : key ∉ schemaKeywords := by
    intro hmem
    simp only [schemaKeywords, mem_cons, not_mem_nil, or_false] at hmem
    rcases hmem with rfl | rfl | rfl | rfl | rfl | rfl | rfl <;> revert h <;> decide
  rw [acceptsDocumentKeyword_leaf _ _ _ hkey, documentAssertion, if_pos h]

theorem not_isAnnotation_of_mem (h : key ∈ convertedKeywords) :
    isAnnotation key = false := by
  revert key
  decide

theorem keepsKeyword_leaf (hkey : key ∉ schemaKeywords) (hkind : isAnnotation key = false) :
    keepsKeyword key value = isSupported .v30 key value := by
  simp only [schemaKeywords, mem_cons, not_mem_nil, or_false, not_or] at hkey
  simp [keepsKeyword, hkind, hkey]

variable (hdocument : WellFormed document) (htext : v.text = w.text)
  (hnumber : v.number = w.number)
  (hchild : ∀ key child, ChildAt place key child → Sound (belowKeyword p key) v w convert child)
include hdocument htext hnumber hchild

theorem outputAllows_keyword (hkey : key ∈ convertedKeywords)
    (hlookup : place.value.members.lookup key = some value)
    (hkeeps : p ≠ .positive → keepsKeyword key value = true) :
    OutputAllows p v w place (convertedMembers host convert place)
      (membersOfOutput host convert place key) key value := by
  obtain ⟨child, hmember, rfl⟩ := exists_member?_of_lookup hlookup
  by_cases hschema : key ∈ schemaKeywords
  · have houtput : membersOfOutput host convert place key = outputOf host convert place key := by
      refine if_neg fun h => ?_
      rw [h.1] at hschema
      revert hschema
      decide
    simp only [schemaKeywords, mem_cons, not_mem_nil, or_false] at hschema
    rcases hschema with rfl | rfl | rfl | rfl | rfl | rfl | rfl
    · exact outputAllows_properties hdocument hchild hmember hkeeps
    · exact outputAllows_items hchild remainingItems_convertedMembers hmember
    · exact outputAllows_additional hchild (additionalMembers_convertedMembers hdocument) hmember
    · exact outputAllows_not hchild hmember
    · exact outputAllows_several hchild (by simp) hmember hkeeps
    · exact outputAllows_several hchild (by simp) hmember hkeeps
    · exact outputAllows_several hchild (by simp) hmember hkeeps
  · refine outputAllows_leaf htext hnumber hschema hlookup fun hp => ?_
    rw [← keepsKeyword_leaf hschema (not_isAnnotation_of_mem hkey)]
    exact hkeeps hp

theorem sound_schemaObject (hobject : isObject place.value = true)
    (href : referenceOf place.value = none)
    (hkeeps : p ≠ .positive → ∀ m ∈ place.value.members, keepsKeyword m.1 m.2 = true) :
    Sound p v w (schemaObject host .v30 convert) place := by
  intro x
  have hkeyword {key : String} {value : Json} (hkey : key ∈ convertedKeywords)
      (hlookup : place.value.members.lookup key = some value) :=
    (outputAllows_keyword hdocument htext hnumber hchild hkey hlookup
      (fun hp => hkeeps hp (key, value) (mem_of_lookup hlookup)) :
        OutputAllows p v w place (convertedMembers host convert place) _ key value) x
  rw [acceptsDocument_obj v hobject href, value_schemaObject, accepts_obj]
  constructor
  · intro hp hall
    rw [List.all_eq_true] at hall ⊢
    intro m hm
    obtain ⟨key, hkey, hmkey⟩ := List.mem_flatMap.mp hm
    cases hlookup : place.value.members.lookup key with
    | none =>
      have hnil : membersOfOutput host convert place key = [] := by
        rw [membersOfOutput, outputOf_of_lookup_eq_none hlookup]
        split <;> rfl
      rw [hnil] at hmkey
      cases hmkey
    | some value =>
      have houtput := (hkeyword hkey hlookup).1 hp (hall (key, value) (mem_of_lookup hlookup))
      exact List.all_eq_true.mp houtput m hmkey
  · intro hp hall
    rw [List.all_eq_true] at hall ⊢
    rintro ⟨key, value⟩ hm
    rcases mem_convertedKeywords_of_keepsKeyword (hkeeps hp _ hm) with hkind | hkey
    · exact acceptsDocumentKeyword_annotation hkind value x
    · have hlookup := (OrderedMap.lookup_eq_some_iff
        (hdocument.at? place.at_eq).nodup_members).mpr hm
      refine (hkeyword hkey hlookup).2 hp (List.all_eq_true.mpr fun n hn => ?_)
      exact hall n (List.mem_flatMap.mpr ⟨key, hkey, hn⟩)

end Objects

/-! ### Components -/

section Components

variable {host : Host} (schemas : OrderedMap String (Stored host .v30 document))

def storedSpace : SchemaSpace where
  resolve ref := if isComponentRef ref then some (referencedComponent ref) else none
  component id := (schemas.get? id).map Stored.schema

def StoresComponents : Prop :=
  ∀ name target, component? document "schemas" name = some target →
    ∃ stored, schemas.get? (schemaId host name) = some stored ∧ stored.origin = some target

theorem resolve_storedSpace (id : String) :
    (storedSpace schemas).resolve ("#/schemas/" ++ id) = some id := by
  have hlist : ("#/schemas/" ++ id).toList = componentPrefix.toList ++ id.toList :=
    String.toList_append
  have href : isComponentRef ("#/schemas/" ++ id) = true := by
    rw [isComponentRef, hlist, isPrefixOf_iff_prefix]
    exact prefix_append _ _
  have hid : referencedComponent ("#/schemas/" ++ id) = id := by
    rw [referencedComponent, hlist]
    exact String.ofList_toList
  show (if isComponentRef ("#/schemas/" ++ id) then _ else _) = _
  rw [if_pos href, hid]

variable (vocabulary : DocumentVocabulary) (bottom : String → Json → Bool) (depth : ℕ)

/-- The meaning of the document to a depth, below which the components mean what the stored ones
do. -/
abbrev documentSide (host : Host) (document : Json) : DocumentVocabulary :=
  documentVocabularyAt vocabulary document (fun name => bottom (schemaId host name)) depth

/-- The meaning of the stored schemas to a depth. -/
abbrev storedSide : Vocabulary :=
  (storedSpace schemas).vocabularyAt vocabulary.toVocabulary bottom depth

variable {schemas vocabulary bottom depth} {place : Located document}

theorem value_schemaReference {ref name : String} (href : componentName "schemas" ref = some name)
    (hcomponent : (component? document "schemas" name).isSome = true)
    (hsiblings : hasSiblings place.value = false) :
    (schemaReference host place ref).value =
      .obj [("$ref", .str ("#/schemas/" ++ schemaId host name))] := by
  rw [schemaReference, href, filter_some, hcomponent, hsiblings]
  rfl

theorem value_schemaReference_of_not {ref : String}
    (h : ∀ name, componentName "schemas" ref = some name →
      (component? document "schemas" name).isSome = true → hasSiblings place.value = true) :
    (schemaReference host place ref).value = .obj [] := by
  have hnone : ((componentName "schemas" ref).filter fun name =>
      (component? document "schemas" name).isSome && !hasSiblings place.value) = none := by
    rw [filter_eq_none_iff]
    intro name hname hboth
    rw [Bool.and_eq_true, Bool.not_eq_true'] at hboth
    rw [h name hname hboth.1] at hboth
    exact absurd hboth.2 (by simp)
  rw [schemaReference, hnone]
  rfl

theorem allows_reference {levels : ℕ} {ref : String}
    (href : referenceOf place.value = some ref) (hguarded : Guarded p (levels + 1) place)
    (hcomponents : ∀ name target, component? document "schemas" name = some target →
      Guarded p schemaLevels target → ∀ x,
        p.Allows (unfoldDocument vocabulary document (fun name => bottom (schemaId host name)) depth
            name x)
          ((storedSpace schemas).unfold vocabulary.toVocabulary bottom depth (schemaId host name) x))
    (x : Json) :
    p.Allows (acceptsDocument (documentSide vocabulary bottom depth host document) place.value x)
      (accepts (storedSide schemas vocabulary bottom depth)
        (schemaReference host place ref).value x) := by
  rw [acceptsDocument_ref _ href]
  by_cases hstored : ∃ name target, componentName "schemas" ref = some name ∧
      component? document "schemas" name = some target ∧ hasSiblings place.value = false
  · obtain ⟨name, target, hname, htarget, hsiblings⟩ := hstored
    have hplace : referencedPlace place = some target := by
      rw [referencedPlace, href, bind_some, hname, bind_some, htarget]
    rw [value_schemaReference hname (by rw [htarget]; rfl) hsiblings, accepts_obj, all_cons,
      all_nil, Bool.and_true, keywordAccepts_assertion _ _ _ rfl]
    have hallows := hcomponents name target htarget (hguarded.of_step (.ref hplace)) x
    show p.Allows (((componentName "schemas" ref).map _).getD _)
      ((storedSide schemas vocabulary bottom depth).ref ("#/schemas/" ++ schemaId host name) x)
    rw [hname, SchemaSpace.ref_vocabularyWith _ _ (resolve_storedSpace schemas _)]
    exact hallows
  · rw [value_schemaReference_of_not fun name hname hsome => ?_]
    · refine allows_true fun hp => hstored ?_
      have hkeeps := (hguarded.keeps hp).2.2
      rw [href, isSome_some, if_pos rfl, referencedPlace, href, bind_some,
        isSome_bind, Option.any_eq_true] at hkeeps
      obtain ⟨⟨name, hname, hsome⟩, hsiblings⟩ := hkeeps
      obtain ⟨target, htarget⟩ := Option.isSome_iff_exists.mp hsome
      exact ⟨name, target, hname, htarget, hsiblings⟩
    · obtain ⟨target, htarget⟩ := Option.isSome_iff_exists.mp hsome
      rw [← Bool.not_eq_false]
      exact fun hsiblings => hstored ⟨name, target, hname, htarget, hsiblings⟩

theorem sound_of_components (hdocument : WellFormed document)
    (hcomponents : ∀ p name target, component? document "schemas" name = some target →
      Guarded p schemaLevels target → ∀ x,
        p.Allows (unfoldDocument vocabulary document (fun name => bottom (schemaId host name)) depth
            name x)
          ((storedSpace schemas).unfold vocabulary.toVocabulary bottom depth (schemaId host name) x))
    {p : Polarity} {levels : ℕ} {place : Located document} (hguarded : Guarded p levels place) :
    Sound p (documentSide vocabulary bottom depth host document)
      (storedSide schemas vocabulary bottom depth) (schema host .v30 levels) place := by
  -- each level of the schema is opened once
  induction levels generalizing p place with
  | zero => exact fun x => allows_true fun hp => by simpa using (hguarded.keeps hp).1
  | succ levels ih =>
    intro x
    rw [schema]
    cases hobject : isObject place.value with
    | false =>
      refine allows_true fun hp => ?_
      rw [(hguarded.keeps hp).2.1] at hobject
      cases hobject
    | true =>
      cases href : referenceOf place.value with
      | some ref => exact allows_reference href hguarded (hcomponents p) x
      | none =>
        have hsound : Sound p (documentSide vocabulary bottom depth host document)
            (storedSide schemas vocabulary bottom depth)
            (schemaObject host .v30 (schema host .v30 levels)) place := by
          refine sound_schemaObject hdocument rfl rfl (fun key child hchild => ?_) hobject href
            fun hp => ?_
          · exact ih (hguarded.of_step (.child href hchild))
          · have hkeeps := (hguarded.keeps hp).2.2
            rwa [href] at hkeeps
        exact hsound x

/-- The conversion changes what a schema accepts as the polarity allows, at every depth to which
references are unfolded. -/
theorem allows_schema (hdocument : WellFormed document) (hstores : StoresComponents schemas)
    (depth : ℕ) {levels : ℕ} (hguarded : Guarded p levels place) :
    Sound p (documentSide vocabulary bottom depth host document)
      (storedSide schemas vocabulary bottom depth) (schema host .v30 levels) place := by
  induction depth generalizing p levels place with
  | zero => exact sound_of_components hdocument (fun p _ _ _ _ _ => .refl p _) hguarded
  | succ depth ih =>
    refine sound_of_components hdocument (fun p name target htarget hguarded x => ?_) hguarded
    obtain ⟨stored, hstored, horigin⟩ := hstores name target htarget
    have hschema : stored.schema = (schema host .v30 schemaLevels target).value := by
      rw [stored.schema_eq, horigin]
      rfl
    have hcomponent : (storedSpace schemas).component (schemaId host name) =
        some (schema host .v30 schemaLevels target).value := by
      rw [← hschema]
      show (schemas.get? _).map Stored.schema = _
      rw [hstored]
      rfl
    rw [unfoldDocument, htarget, SchemaSpace.unfold, hcomponent]
    exact ih hguarded x

end Components

end ApiTruth.Analyzers.OpenApi3
