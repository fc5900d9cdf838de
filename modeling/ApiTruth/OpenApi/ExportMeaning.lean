import ApiTruth.Foundation.Polarity
import ApiTruth.Ir.SchemaSpace
import ApiTruth.OpenApi.Places
import Mathlib.Logic.Relation

/-!
# What exported schemas mean

The export drops the keywords it finds no evidence for.  A schema without one of its keywords
accepts more; below `not` that makes the whole accept less, and below `oneOf` it can do either.
Where nothing is dropped at such a place, the exported schema accepts what the source accepts, and
where nothing is dropped at all, it accepts exactly that.

## Main definitions

* `snapshotSpace`, `documentSpace` : the components of a snapshot and of a document.
* `Site.Step` : the schemas below a schema and behind its references, with their polarity.
* `Site.Keeps` : the export drops no keyword of the schema.

## Main results

* `allows_export` : the export changes the meaning of a schema as its polarity allows.
-/

namespace ApiTruth.OpenApi

open Json ApiTruth.Ir Reported List Option

def snapshotSpace (snapshot : ContractSnapshot) : SchemaSpace where
  resolve ref := if isComponentRef ref then some (referencedComponent ref) else none
  component name := (snapshot.schemas.lookup name).map SchemaComponent.schema

def documentSpace (document : Document) : SchemaSpace where
  resolve := resolveLink
  component name := document.schemas.lookup name

theorem component_snapshotSpace (snapshot : ContractSnapshot) (name : String) :
    (snapshotSpace snapshot).component name =
      (snapshot.schemas.lookup name).map SchemaComponent.schema := rfl

theorem component_documentSpace (document : Document) (name : String) :
    (documentSpace document).component name = document.schemas.lookup name := rfl

/-! ### Polarity of schemas -/

def belowTokens (p : Polarity) : List String → Polarity
  | ["not"] => p.flip
  | ["oneOf", _] => .mixed
  | _ => p

/-- From a schema to the schemas below it, and to the component behind its reference. -/
inductive Site.Step (snapshot : ContractSnapshot) : Polarity × Site → Polarity × Site → Prop
  | child {p : Polarity} {site : Site} {schema : List (String × Json)} {tokens : List String}
      {c : Json} (schema_eq : site.schema = .obj schema) (isChild : ChildAt schema tokens c) :
      Step snapshot (p, site) (belowTokens p tokens, site.child tokens c)
  | ref {p : Polarity} {site : Site} {schema : List (String × Json)} {ref : String}
      {component : SchemaComponent} (schema_eq : site.schema = .obj schema)
      (ref_eq : refOf schema = some ref)
      (component_eq : snapshot.schemas.lookup (referencedComponent ref) = some component) :
      Step snapshot (p, site) (p, componentSite snapshot (referencedComponent ref) component)

/-- A schema that is reached from a schema, with its polarity. -/
def Site.Reaches (snapshot : ContractSnapshot) (p : Polarity) (site : Site) (q : Polarity)
    (other : Site) : Prop :=
  Relation.ReflTransGen (Site.Step snapshot) (p, site) (q, other)

/-- The export keeps the keyword: every required name and the format are established by eligible
claims, and no other constraint is exported. -/
def keepsKeyword (snapshot : ContractSnapshot) (endpointIds : List String)
    (schema : List (String × Json)) (factPath key : String) (value : Json) : Bool :=
  match key, value with
  | "required", .arr names =>
    (acceptedNames snapshot endpointIds factPath names).length == names.length
  | key, value =>
    key == "format" && keepsFormat snapshot endpointIds schema factPath value ||
      !constraintKeys.contains key

/-- The export keeps every keyword of the schema. -/
def Site.Keeps (snapshot : ContractSnapshot) (site : Site) : Prop :=
  ∀ schema, site.schema = .obj schema → ∀ m ∈ schema,
    keepsKeyword snapshot site.endpointIds schema site.factPath m.1 m.2 = true

/-! ### Keywords without schemas below them -/

section Leaves

variable {snapshot : ContractSnapshot} {endpointIds : List String}
  {schema : List (String × Json)} {path factPath : String}

variable {key : String}

theorem exportKeyword_of_keepsKeyword (hkey : key ∉ keptKeywords) {value : Json}
    (h : keepsKeyword snapshot endpointIds schema factPath key value = true) :
    (exportKeyword snapshot endpointIds schema path factPath key value).value = some value ∨
      ∃ names, key = "required" ∧ value = .arr names ∧
        (acceptedNames snapshot endpointIds factPath names).length = names.length ∧
        (exportKeyword snapshot endpointIds schema path factPath key value).value =
          if names.isEmpty then none
          else some (stringArray (sorted id (acceptedNames snapshot endpointIds factPath names))) := by
  rw [exportKeyword_leaf _ _ _ _ _ (isAssertion_or_of_notMem hkey value)]
  unfold keepsKeyword at h
  split at h
  · rename_i names
    refine .inr ⟨names, rfl, rfl, by simpa using h, ?_⟩
    have hlength : (acceptedNames snapshot endpointIds factPath names).length = names.length := by
      simpa using h
    simp only [exportLeaf, exportRequired, value_bind, value_pure]
    cases names with
    | nil => rfl
    | cons name names =>
      have hne : (acceptedNames snapshot endpointIds factPath (name :: names)).isEmpty = false := by
        rw [← Bool.not_eq_true, isEmpty_iff_length_eq_zero, hlength]
        simp
      simp [hne]
  · left
    unfold exportLeaf
    split
    · simp [keptKeywords] at hkey
    · simp_all
    · simp only [Bool.or_eq_true, Bool.and_eq_true, Bool.not_eq_true'] at h
      split_ifs with hformat hconstraint
      · rfl
      · simp_all
      · rfl

theorem mem_acceptedNames_of_length {names : List Json}
    (h : (acceptedNames snapshot endpointIds factPath names).length = names.length) {text : String}
    (htext : .str text ∈ names) : text ∈ acceptedNames snapshot endpointIds factPath names := by
  have hfilter := length_filter_le
    (fun name => eligibleField snapshot endpointIds (factPath ++ "/properties/" ++ pointer name)
      "field_presence" "required" true) (names.filterMap stringOf)
  have hstrings := length_filterMap_le stringOf names
  rw [acceptedNames] at h ⊢
  have hall := List.length_filter_eq_length_iff.mp (le_antisymm hfilter (by omega))
  have hmem : text ∈ names.filterMap stringOf := List.mem_filterMap.mpr ⟨_, htext, rfl⟩
  exact List.mem_filter.mpr ⟨hmem, hall text hmem⟩

theorem ne_ref_of_notMem (hkey : key ∉ keptKeywords) : key ≠ "$ref" := by
  rintro rfl
  simp [keptKeywords] at hkey

variable {v w : Vocabulary} (htext : v.text = w.text) (hnumber : v.number = w.number)
  {key : String} (hkey : key ∉ keptKeywords) {value : Json} {other : List (String × Json)} {x : Json}
include htext hnumber hkey

theorem leaf_weakens (h : keywordAccepts v schema key value x = true) :
    ((exportKeyword snapshot endpointIds schema path factPath key value).value.elim true
      fun exported => keywordAccepts w other key exported x) = true := by
  cases hvalue : (exportKeyword snapshot endpointIds schema path factPath key value).value with
  | none => rfl
  | some exported =>
    rw [elim_some]
    have hne := ne_ref_of_notMem hkey
    cases exportedLeaf_of_exportKeyword hkey hvalue with
    | ref text => exact absurd rfl hne
    | @required names accepted hsub =>
      rw [keywordAccepts_assertion _ _ _ rfl] at h ⊢
      simp only [assertion, stringArray, Bool.or_eq_true, List.all_eq_true, List.mem_map] at h ⊢
      refine h.imp id fun hall => ?_
      rintro _ ⟨name, hname, rfl⟩
      exact hall _ (hsub name hname)
    | format =>
      rw [keywordAccepts_assertion _ _ _ rfl] at h ⊢
      rwa [← assertion_congr htext hnumber hne]
    | same hkept =>
      have hassertion : isAssertion key value = true :=
        (isAssertion_or_of_notMem hkey value).resolve_right (by rintro rfl; simp [constraintKeys] at hkept)
      rw [keywordAccepts_assertion _ _ _ hassertion] at h ⊢
      rwa [← assertion_congr htext hnumber hne]

theorem leaf_preserves (hstrings : ∀ names, value = .arr names → key = "required" →
      ∀ name ∈ names, ∃ text, name = .str text)
    (hkeeps : keepsKeyword snapshot endpointIds schema factPath key value = true)
    (h : ((exportKeyword snapshot endpointIds schema path factPath key value).value.elim true
      fun exported => keywordAccepts w other key exported x) = true) :
    keywordAccepts v schema key value x = true := by
  have hne := ne_ref_of_notMem hkey
  rcases @exportKeyword_of_keepsKeyword _ _ _ path _ _ hkey _ hkeeps with
    hvalue | ⟨names, rfl, rfl, hlength, hvalue⟩
  · rw [hvalue, elim_some] at h
    have hassertion : isAssertion key value = true := by
      refine (isAssertion_or_of_notMem hkey value).resolve_right ?_
      rintro rfl
      simp [keepsKeyword, constraintKeys] at hkeeps
    rw [keywordAccepts_assertion _ _ _ hassertion] at h ⊢
    rwa [assertion_congr htext hnumber hne]
  · cases names with
    | nil => simp [keywordAccepts_assertion _ _ _ (show isAssertion "required" (.arr []) = true from rfl), assertion]
    | cons first rest =>
      rw [hvalue, isEmpty_cons, if_neg Bool.false_ne_true, elim_some,
        keywordAccepts_assertion _ _ _ rfl] at h
      rw [keywordAccepts_assertion _ _ _ rfl]
      simp only [assertion, stringArray, Bool.or_eq_true, List.all_eq_true, List.mem_map,
        mem_sorted] at h ⊢
      refine h.imp id fun hall name hname => ?_
      obtain ⟨text, rfl⟩ := hstrings _ rfl rfl name hname
      exact hall _ ⟨text, mem_acceptedNames_of_length hlength hname, rfl⟩

end Leaves

/-! ### Keywords with schemas below them -/

section Lists

variable {v w : Vocabulary} {p : Polarity} {ss exported : List Json}

theorem allows_all_zip
    (h : List.Forall₂ (fun s s' => ∀ x, p.Allows (accepts v s x) (accepts w s' x)) ss exported)
    (items : List Json) :
    p.Allows ((ss.zip items).all fun pair => accepts v pair.1 pair.2)
      ((exported.zip items).all fun pair => accepts w pair.1 pair.2) := by
  induction h generalizing items with
  | nil => exact .refl p true
  | cons hfirst hrest ih =>
    cases items with
    | nil => exact .refl p true
    | cons item items =>
      exact (hfirst item).and (ih items)

/-- The polarity below a keyword with several schemas. -/
def severalPolarity (p : Polarity) (key : String) : Polarity := if key = "oneOf" then .mixed else p

theorem belowTokens_several (key : String) (i : ℕ) :
    belowTokens p [key, toString i] = severalPolarity p key := by
  unfold belowTokens severalPolarity
  split <;> simp_all

theorem allows_several (hkey : key ∈ ["allOf", "anyOf", "oneOf", "prefixItems"])
    (h : List.Forall₂ (fun s s' => ∀ x, (severalPolarity p key).Allows (accepts v s x) (accepts w s' x)) ss exported)
    (schema other : List (String × Json)) (x : Json) :
    p.Allows (keywordAccepts v schema key (.arr ss) x)
      (keywordAccepts w other key (.arr exported) x) := by
  have hx := h.imp fun _ _ hs => hs x
  simp only [mem_cons, not_mem_nil, or_false] at hkey
  rcases hkey with rfl | rfl | rfl | rfl
  · rw [keywordAccepts_allOf, keywordAccepts_allOf]
    exact .all hx
  · rw [keywordAccepts_anyOf, keywordAccepts_anyOf]
    exact .any hx
  · rw [keywordAccepts_oneOf, keywordAccepts_oneOf, Polarity.countP_eq_of_mixed hx]
    exact .refl p _
  · rw [keywordAccepts_prefixItems, keywordAccepts_prefixItems]
    exact allows_all_zip h (itemsOf x)

end Lists

/-- The export changes what the schema accepts as the polarity allows. -/
def Site.Sound (snapshot : ContractSnapshot) (v w : Vocabulary) (p : Polarity) (site : Site) :
    Prop :=
  ∀ x, p.Allows (accepts v site.schema x) (accepts w (site.export snapshot).value x)

section Keywords

variable {snapshot : ContractSnapshot} {site : Site} {schema : List (String × Json)}
  {v w : Vocabulary} {p : Polarity} (hkeywords : areKeywords schema = true)
  (hchild : ∀ tokens c, ChildAt schema tokens c →
    (site.child tokens c).Sound snapshot v w (belowTokens p tokens))

def Site.exported (snapshot : ContractSnapshot) (site : Site) (schema : List (String × Json)) :
    List (String × Json) :=
  exportedMembers snapshot site.endpointIds schema site.path site.factPath

include hkeywords in
theorem remainingItems_exported (x : Json) :
    remainingItems (site.exported snapshot schema) x = remainingItems schema x := by
  rw [remainingItems, remainingItems, Site.exported, schemasUnder_exportedMembers hkeywords (by simp)]
  rw [value_exportItems, length_map, length_zipIdx]

include hkeywords hchild in
theorem allows_keyword {value : Json} (hlookup : schema.lookup key = some value)
    (hkey : key ∈ keptKeywords) (x : Json)
    (href : ∀ ref, refOf schema = some ref → p.Allows (v.ref ref x) (w.ref (exportedRef ref) x)) :
    p.Allows (keywordAccepts v schema key value x)
      ((exportKeyword snapshot site.endpointIds schema site.path site.factPath key value).value.elim
        true fun exported => keywordAccepts w (site.exported snapshot schema) key exported x) := by
  cases keptShape_of_mem hkeywords (mem_of_lookup hlookup) hkey with
  | ref text =>
    rw [exportKeyword_ref, value_pure, elim_some, keywordAccepts_assertion _ _ _ rfl,
      keywordAccepts_assertion _ _ _ rfl]
    exact href text (by rw [refOf, hlookup])
  | @properties ps hschemas =>
    rw [(exportKeyword_properties_site snapshot site schema ps).1, elim_some,
      keywordAccepts_properties, keywordAccepts_properties, (sorted_perm _ _).all_eq, List.all_map]
    refine .all (List.forall₂_same.mpr fun member hmember => ?_)
    rw [Function.comp_apply]
    cases (membersOf x).lookup member.1 with
    | none => exact .refl p true
    | some y =>
      refine hchild ["properties", member.1] member.2 (.property ?_) y
      rw [propertySchemas, hlookup]
      exact hmember
  | single hmem hschema =>
    rw [(exportKeyword_single_site snapshot site schema hmem value).1, elim_some]
    have hsound := hchild [key] value (.single hmem hlookup)
    simp only [mem_cons, not_mem_nil, or_false] at hmem
    rcases hmem with rfl | rfl
    · rw [keywordAccepts_items, keywordAccepts_items, remainingItems_exported hkeywords]
      exact .all (List.forall₂_same.mpr fun item _ => hsound item)
    · rw [keywordAccepts_not, keywordAccepts_not]
      have hnot := (hsound x).not
      rwa [belowTokens, Polarity.flip_flip] at hnot
  | @several key ss hmem hschemas =>
    rw [(exportKeyword_several_site snapshot site schema hmem ss).1, elim_some]
    refine allows_several hmem ?_ schema _ x
    have hsource : ss = ss.zipIdx.map Prod.fst := (zipIdx_map_fst 0 ss).symm
    nth_rewrite 1 [hsource]
    rw [forall₂_map_left_iff, forall₂_map_right_iff, forall₂_same]
    rintro ⟨s, i⟩ hs
    have hitem : (schemasUnder schema key)[i]? = some s := by
      rw [schemasUnder, hlookup]
      exact List.mem_zipIdx_iff_getElem?.mp hs
    have hsound := hchild [key, toString i] s (.several hmem hitem)
    rwa [belowTokens_several] at hsound

theorem exists_text_of_required (hkeywords : areKeywords schema = true) {names : List Json}
    (hmem : (key, .arr names) ∈ schema) (hkey : key = "required") :
    ∀ name ∈ names, ∃ text, name = .str text := by
  generalize hvalue : Json.arr names = value at hmem
  cases keywordShape_of_mem hkeywords hmem with
  | names _ hstrings _ => exact Json.arr.inj hvalue ▸ hstrings
  | schema hkeys _ | alternatives hkeys _ => simp [hkey] at hkeys
  | properties _ | sequence _ | values | literal => simp at hkey
  | text _ | number _ => cases hvalue

include hkeywords hchild in
/-- The export of a schema is sound when the exports below it and behind its reference are. -/
theorem sound_of_children (hschema : site.schema = .obj schema)
    (hnodup : (schema.map Prod.fst).Nodup) (htext : v.text = w.text) (hnumber : v.number = w.number)
    (hkeeps : p ≠ .positive → site.Keeps snapshot)
    (href : ∀ ref, refOf schema = some ref → ∀ x, p.Allows (v.ref ref x) (w.ref (exportedRef ref) x)) :
    site.Sound snapshot v w p := by
  intro x
  rw [Site.export, hschema, value_exportSchema_obj, accepts_obj, accepts_obj, all_exportedMembers]
  refine .all (List.forall₂_same.mpr fun member hmember => ?_)
  obtain ⟨key, value⟩ := member
  by_cases hkey : key ∈ keptKeywords
  · have hlookup := (OrderedMap.lookup_eq_some_iff hnodup).mpr hmember
    exact allows_keyword hkeywords hchild hlookup hkey x fun ref hrefOf => href ref hrefOf x
  · refine ⟨fun _ => leaf_weakens htext hnumber hkey, fun hp => ?_⟩
    refine leaf_preserves htext hnumber hkey (fun names hvalue hrequired => ?_)
      (hkeeps hp schema hschema _ hmember)
    exact exists_text_of_required hkeywords (hvalue ▸ hmember) hrequired

end Keywords

/-! ### Schemas that a document covers -/

/-- No object in a schema of the snapshot has two members of one name. -/
def DistinctMembers (snapshot : ContractSnapshot) : Prop :=
  (∀ endpoint ∈ snapshot.endpoints, ∀ s ∈ endpoint.schemas, WellFormed s) ∧
    ∀ entry ∈ snapshot.schemas, WellFormed entry.2.schema

/-- A schema of the snapshot whose references refer to components of the document. -/
structure Site.Covered (snapshot : ContractSnapshot) (document : Document) (site : Site) : Prop where
  isSchema : isApiSchema site.schema = true
  wellFormed : WellFormed site.schema
  refs : ∀ node ref, SchemaPosition site.schema node → refOf node = some ref →
    ref ∈ references snapshot
  closed : site.Closed document

variable {schema : List (String × Json)} {tokens : List String}

theorem isApiSchema_of_mem_propertySchemas
    (h : areKeywords schema = true) {member : String × Json} (hmem : member ∈ propertySchemas schema) :
    isApiSchema member.2 = true := by
  unfold propertySchemas at hmem
  split at hmem
  · rename_i ps hlookup
    obtain ⟨_, heq, hschemas⟩ := (keptShape_of_mem h (mem_of_lookup hlookup)
      (by simp [keptKeywords])).exists_properties rfl
    exact hschemas member (Json.obj.inj heq ▸ hmem)
  · simp at hmem

variable {c : Json}

theorem isApiSchema_of_mem_schemasUnder (h : areKeywords schema = true)
    (hkey : key ∈ ["allOf", "anyOf", "oneOf", "prefixItems"]) (hmem : c ∈ schemasUnder schema key) :
    isApiSchema c = true := by
  unfold schemasUnder at hmem
  split at hmem
  · rename_i ss hlookup
    obtain ⟨_, heq, hschemas⟩ := (keptShape_of_mem h (mem_of_lookup hlookup)
      (mem_keptKeywords_of_several hkey)).exists_several hkey
    exact hschemas c (Json.arr.inj heq ▸ hmem)
  · simp at hmem

theorem ChildAt.isApiSchema (h : areKeywords schema = true)
    (hc : ChildAt schema tokens c) : isApiSchema c = true := by
  cases hc with
  | property hmem => exact isApiSchema_of_mem_propertySchemas h hmem
  | single hmem hlookup => exact isApiSchema_of_mem h hmem (mem_of_lookup hlookup)
  | several hmem hitem =>
    exact isApiSchema_of_mem_schemasUnder h hmem (mem_of_getElem? hitem)

theorem wellFormed_of_lookup (h : WellFormed (.obj schema)) {value : Json}
    (hlookup : schema.lookup key = some value) :
    WellFormed value := by
  cases h with
  | obj _ hvalues => exact hvalues _ (mem_of_lookup hlookup)

theorem ChildAt.wellFormed (h : WellFormed (.obj schema))
    (hc : ChildAt schema tokens c) : WellFormed c := by
  cases hc with
  | property hmem =>
    unfold propertySchemas at hmem
    split at hmem
    · rename_i ps hlookup
      cases wellFormed_of_lookup h hlookup with
      | obj _ hvalues => exact hvalues _ hmem
    · simp at hmem
  | single hmem hlookup => exact wellFormed_of_lookup h hlookup
  | several hmem hitem =>
    replace hitem := mem_of_getElem? hitem
    unfold schemasUnder at hitem
    split at hitem
    · rename_i ss hlookup
      cases wellFormed_of_lookup h hlookup with
      | arr hitems => exact hitems _ hitem
    · simp at hitem

namespace Site.Covered

variable {host : Host} {snapshot : ContractSnapshot} {site : Site} {document : Document}

theorem exists_obj (h : site.Covered snapshot document) :
    ∃ schema, site.schema = .obj schema ∧ areKeywords schema = true ∧
      (schema.map Prod.fst).Nodup := by
  obtain ⟨schema, hschema, hkeywords⟩ := exists_obj_of_isApiSchema h.isSchema
  refine ⟨schema, hschema, hkeywords, ?_⟩
  cases hschema ▸ h.wellFormed with
  | obj hnodup _ => exact hnodup

theorem child (h : site.Covered snapshot document) (hschema : site.schema = .obj schema)
    (hc : ChildAt schema tokens c) : (site.child tokens c).Covered snapshot document := by
  have hkeywords : areKeywords schema = true := by
    have hshape := h.isSchema
    rwa [hschema, isApiSchema] at hshape
  have hposition {node : List (String × Json)} (hnode : SchemaPosition c node) :
      SchemaPosition site.schema node :=
    hschema ▸ .child (hc.isSchemaChild (hc.isApiSchema hkeywords)) hnode
  exact
    { isSchema := hc.isApiSchema hkeywords
      wellFormed := hc.wellFormed (hschema ▸ h.wellFormed)
      refs := fun node ref hnode => h.refs node ref (hposition hnode)
      closed := fun node ref hnode => h.closed node ref (hposition hnode) }

variable (hsnapshot : snapshot.Accepted host) (hdistinct : DistinctMembers snapshot)
include hsnapshot hdistinct

theorem of_component {name : String} {component : SchemaComponent}
    (hcomponent : snapshot.schemas.lookup name = some component)
    (hlookup : ((compileDocument host snapshot).value.schemas.lookup name).isSome = true) :
    (componentSite snapshot name component).Covered snapshot (compileDocument host snapshot).value := by
  rw [lookup_schemas_compileDocument] at hlookup
  split_ifs at hlookup with hused
  · exact
      { isSchema := Located.isApiSchema hsnapshot (.component hcomponent)
        wellFormed := hdistinct.2 _ (mem_of_lookup hcomponent)
        refs := fun _ _ hnode href => mem_references_of_component hcomponent hnode href
        closed := closed_componentSite hsnapshot hcomponent hused }
  · cases hlookup

theorem exists_component (h : site.Covered snapshot (compileDocument host snapshot).value)
    (hschema : site.schema = .obj schema) {ref : String}
    (href : refOf schema = some ref) : ∃ component,
      snapshot.schemas.lookup (referencedComponent ref) = some component ∧
      (compileDocument host snapshot).value.schemas.lookup (referencedComponent ref) =
        some ((componentSite snapshot (referencedComponent ref) component).export snapshot).value ∧
      (componentSite snapshot (referencedComponent ref) component).Covered snapshot
        (compileDocument host snapshot).value := by
  have hsome := h.closed schema ref (hschema ▸ .root schema) href
  have hlookup := @lookup_schemas_compileDocument host snapshot (referencedComponent ref)
  cases hcomponent : snapshot.schemas.lookup (referencedComponent ref) with
  | none =>
    rw [hcomponent, map_none, ite_self] at hlookup
    simp [hlookup] at hsome
  | some component =>
    refine ⟨component, rfl, ?_, of_component hsnapshot hdistinct hcomponent hsome⟩
    rw [hcomponent] at hlookup
    split_ifs at hlookup with hused
    · exact hlookup
    · simp [hlookup] at hsome

end Site.Covered

/-! ### The meaning of exported schemas -/

/-- No keyword is dropped where that could make the whole accept less. -/
def Site.Guarded (snapshot : ContractSnapshot) (p : Polarity) (site : Site) : Prop :=
  ∀ q other, site.Reaches snapshot p q other → q ≠ .positive → other.Keeps snapshot

namespace Site.Guarded

variable {snapshot : ContractSnapshot} {p : Polarity} {site : Site}

theorem keeps (h : site.Guarded snapshot p) (hp : p ≠ .positive) : site.Keeps snapshot :=
  h p site .refl hp

theorem of_step (h : site.Guarded snapshot p) {q : Polarity} {other : Site}
    (hstep : Site.Step snapshot (p, site) (q, other)) : other.Guarded snapshot q :=
  fun r below hreaches => h r below (.head hstep hreaches)

theorem of_no_step (h : ∀ next, ¬ Site.Step snapshot (.positive, site) next) :
    site.Guarded snapshot .positive := by
  intro q other hreaches hq
  rcases Relation.ReflTransGen.cases_head hreaches with heq | ⟨next, hstep, -⟩
  · exact absurd (Prod.mk.inj heq).1.symm hq
  · exact absurd hstep (h next)

end Site.Guarded

section Meaning

variable {host : Host} {snapshot : ContractSnapshot} (hsnapshot : snapshot.Accepted host)
  (hdistinct : DistinctMembers snapshot) (vocabulary : Vocabulary) (bottom : String → Json → Bool)
include hsnapshot hdistinct

omit hdistinct in
theorem sound_of_components {depth : ℕ}
    (hcomponents : ∀ {p : Polarity} {site : Site} {schema : List (String × Json)} {ref : String},
      site.Covered snapshot (compileDocument host snapshot).value → site.Guarded snapshot p →
      site.schema = .obj schema → refOf schema = some ref → ∀ x,
        p.Allows ((snapshotSpace snapshot).unfold vocabulary bottom depth (referencedComponent ref) x)
          ((documentSpace (compileDocument host snapshot).value).unfold vocabulary bottom depth
            (referencedComponent ref) x))
    {p : Polarity} {site : Site}
    (hcovered : site.Covered snapshot (compileDocument host snapshot).value)
    (hguarded : site.Guarded snapshot p) :
    site.Sound snapshot ((snapshotSpace snapshot).vocabularyAt vocabulary bottom depth)
      ((documentSpace (compileDocument host snapshot).value).vocabularyAt vocabulary bottom depth) p := by
  -- the schemas below a schema are smaller
  induction hs : site.schema using sizeInduction generalizing p site with
  | step s ih =>
    obtain ⟨schema, hschema, hkeywords, hnodup⟩ := hcovered.exists_obj
    refine sound_of_children hkeywords (fun tokens c hc => ?_) hschema hnodup rfl rfl
      hguarded.keeps fun ref href x => ?_
    · have hsize := (hc.isSchemaChild (hc.isApiSchema hkeywords)).sizeOf_lt
      rw [← hschema, hs] at hsize
      exact ih c hsize (hcovered.child hschema hc) (hguarded.of_step (.child hschema hc)) rfl
    · have href' := hcovered.refs schema ref (hschema ▸ .root schema) href
      simpa [SchemaSpace.vocabularyWith, snapshotSpace, documentSpace, resolveLink_exportedRef,
        (reference_of_accepted hsnapshot href').1] using
          hcomponents hcovered hguarded hschema href x

/-- The export changes what a schema accepts as its polarity allows, at every depth to which
references are unfolded. -/
theorem allows_export (depth : ℕ) {p : Polarity} {site : Site}
    (hcovered : site.Covered snapshot (compileDocument host snapshot).value)
    (hguarded : site.Guarded snapshot p) :
    site.Sound snapshot ((snapshotSpace snapshot).vocabularyAt vocabulary bottom depth)
      ((documentSpace (compileDocument host snapshot).value).vocabularyAt vocabulary bottom depth) p := by
  induction depth generalizing p site with
  | zero =>
    exact sound_of_components hsnapshot vocabulary bottom
      (fun {p} _ _ _ _ _ _ _ _ => .refl p _) hcovered hguarded
  | succ depth ih =>
    refine sound_of_components hsnapshot vocabulary bottom
      (fun {p site schema ref} hcovered hguarded hschema href x => ?_) hcovered hguarded
    obtain ⟨component, hcomponent, hexported, hcovered'⟩ :=
      hcovered.exists_component hsnapshot hdistinct hschema href
    have hsound := ih hcovered' (hguarded.of_step (.ref hschema href hcomponent)) x
    rw [SchemaSpace.unfold, SchemaSpace.unfold, component_snapshotSpace, component_documentSpace,
      hcomponent, hexported]
    exact hsound

end Meaning

end ApiTruth.OpenApi
