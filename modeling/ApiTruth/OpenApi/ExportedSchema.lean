import ApiTruth.OpenApi.Export

/-!
# Exported schemas

An exported schema has the schemas of the source below the same keywords, the links rendered for
its references, and some of its other keywords.

## Main definitions

* `exportedMembers` : the members of an exported schema.

## Main results

* `lookup_exportedMembers` : the keywords with schemas below them are all exported.
-/

namespace ApiTruth.OpenApi

open Json ApiTruth.Ir List

section Members

variable (snapshot : ContractSnapshot) (endpointIds : List String)
  (schema : List (String × Json)) (path factPath : String)

def exportedMembers : List (String × Json) :=
  sorted Prod.fst (schema.filterMap fun m =>
    (exportKeyword snapshot endpointIds schema path factPath m.1 m.2).value.map (m.1, ·))

theorem value_exportSchema_obj :
    (exportSchema snapshot endpointIds path factPath (.obj schema)).value =
      .obj (exportedMembers snapshot endpointIds schema path factPath) := by
  rw [exportSchema, Reported.value_map, value_exportKeywords, exportedMembers]

theorem diagnostics_exportSchema_obj :
    (exportSchema snapshot endpointIds path factPath (.obj schema)).diagnostics =
      schema.flatMap fun m =>
        (exportKeyword snapshot endpointIds schema path factPath m.1 m.2).diagnostics := by
  rw [exportSchema, Reported.diagnostics_map, diagnostics_exportKeywords]

theorem exists_obj_exportSchema (s : Json) : ∃ members,
    (exportSchema snapshot endpointIds path factPath s).value = .obj members := by
  cases s with
  | obj schema => exact ⟨_, value_exportSchema_obj snapshot endpointIds schema path factPath⟩
  | null | bool _ | num _ | str _ | arr _ => exact ⟨[], rfl⟩

variable {snapshot endpointIds schema path factPath} {key : String} {value : Json}

theorem mem_exportedMembers {exported : Json} :
    (key, exported) ∈ exportedMembers snapshot endpointIds schema path factPath ↔
      ∃ value, (key, value) ∈ schema ∧
        (exportKeyword snapshot endpointIds schema path factPath key value).value =
          some exported := by
  simp only [exportedMembers, mem_sorted, mem_filterMap, Option.map_eq_some_iff, Prod.mk.injEq]
  constructor
  · rintro ⟨⟨_, value⟩, hmem, _, hvalue, rfl, rfl⟩
    exact ⟨value, hmem, hvalue⟩
  · rintro ⟨value, hmem, hvalue⟩
    exact ⟨_, hmem, _, hvalue, rfl, rfl⟩

theorem all_exportedMembers (f : String × Json → Bool) :
    (exportedMembers snapshot endpointIds schema path factPath).all f = schema.all fun m =>
      (exportKeyword snapshot endpointIds schema path factPath m.1 m.2).value.elim true
        fun exported => f (m.1, exported) := by
  rw [exportedMembers, (sorted_perm _ _).all_eq, all_filterMap]
  congr 1
  funext m
  cases (exportKeyword snapshot endpointIds schema path factPath m.1 m.2).value <;> rfl

/-- The keywords that the export never leaves out. -/
def keptKeywords : List String :=
  ["$ref", "properties", "items", "not", "prefixItems", "allOf", "anyOf", "oneOf"]

variable (h : areKeywords schema = true)

include h in
theorem isApiSchema_of_mem (hkey : key ∈ ["items", "not"]) {s : Json} (hs : (key, s) ∈ schema) :
    isApiSchema s = true := by
  induction schema with
  | nil => simp at hs
  | cons first rest ih =>
    rw [areKeywords.eq_def, Bool.and_eq_true] at h
    rcases List.mem_cons.mp hs with heq | hs
    · cases heq
      simp only [mem_cons, not_mem_nil, or_false] at hkey
      rcases hkey with rfl | rfl <;> exact h.1
    · exact ih h.2 hs

theorem exists_obj_of_isApiSchema {s : Json} (h : isApiSchema s = true) :
    ∃ members, s = .obj members ∧ areKeywords members = true := by
  cases s with
  | obj members => exact ⟨members, rfl, h⟩
  | null | bool _ | num _ | str _ | arr _ => cases h

/-- A keyword that the export keeps is a reference, the properties, one schema or several. -/
inductive KeptShape : String → Json → Prop
  | ref (text : String) : KeptShape "$ref" (.str text)
  | properties {ps : List (String × Json)} (schemas : ∀ p ∈ ps, isApiSchema p.2 = true) :
      KeptShape "properties" (.obj ps)
  | single {key : String} {s : Json} (mem : key ∈ ["items", "not"])
      (isSchema : isApiSchema s = true) : KeptShape key s
  | several {key : String} {ss : List Json} (mem : key ∈ ["allOf", "anyOf", "oneOf", "prefixItems"])
      (schemas : ∀ s ∈ ss, isApiSchema s = true) : KeptShape key (.arr ss)

/-- A text under a keyword that the export keeps is a reference, and there is no number. -/
theorem eq_ref_of_isLeafKeyword (hkey : key ∈ keptKeywords)
    (hleaf : isLeafKeyword key value = true) : key = "$ref" := by
  simp only [keptKeywords, mem_cons, not_mem_nil, or_false] at hkey
  rcases hkey with rfl | rfl | rfl | rfl | rfl | rfl | rfl | rfl
  · rfl
  all_goals simp [isLeafKeyword] at hleaf

include h in
theorem keptShape_of_mem (hmem : (key, value) ∈ schema) (hkey : key ∈ keptKeywords) :
    KeptShape key value := by
  by_cases hsingle : key ∈ ["items", "not"]
  · exact .single hsingle (isApiSchema_of_mem h hsingle hmem)
  · cases keywordShape_of_mem h hmem with
    | properties hschemas => exact .properties hschemas
    | sequence hschemas => exact .several (by simp) hschemas
    | alternatives hkeys hschemas =>
      refine .several ?_ hschemas
      simp only [mem_cons, not_mem_nil, or_false] at hkeys ⊢
      tauto
    | text hleaf =>
      obtain rfl := eq_ref_of_isLeafKeyword hkey hleaf
      exact .ref _
    | number hleaf =>
      obtain rfl := eq_ref_of_isLeafKeyword hkey hleaf
      simp [isLeafKeyword, Ir.isNonEmptyString] at hleaf
    | schema hkeys _ =>
      simp only [mem_cons, not_mem_nil, or_false] at hkeys hsingle
      obtain rfl : key = "additionalProperties" := by tauto
      simp [keptKeywords] at hkey
    | names hkeys _ _ =>
      simp only [mem_cons, not_mem_nil, or_false] at hkeys
      rcases hkeys with rfl | rfl <;> simp [keptKeywords] at hkey
    | values => simp [keptKeywords] at hkey
    | literal => simp [keptKeywords] at hkey

theorem KeptShape.exists_properties (h : KeptShape key value) (hkey : key = "properties") :
    ∃ ps, value = .obj ps ∧ ∀ p ∈ ps, isApiSchema p.2 = true := by
  cases h with
  | properties hschemas => exact ⟨_, rfl, hschemas⟩
  | ref _ => simp at hkey
  | single hmem _ | several hmem _ => simp [hkey] at hmem

theorem KeptShape.exists_ref (h : KeptShape key value)
    (hkey : key = "$ref") : ∃ text, value = .str text := by
  cases h with
  | ref text => exact ⟨text, rfl⟩
  | properties _ => simp at hkey
  | single hmem _ | several hmem _ => simp [hkey] at hmem

theorem KeptShape.exists_several (h : KeptShape key value)
    (hkey : key ∈ ["allOf", "anyOf", "oneOf", "prefixItems"]) :
    ∃ ss, value = .arr ss ∧ ∀ s ∈ ss, isApiSchema s = true := by
  cases h with
  | several _ hschemas => exact ⟨_, rfl, hschemas⟩
  | ref _ | properties _ => simp at hkey
  | single hmem _ =>
    simp only [mem_cons, not_mem_nil, or_false] at hkey hmem
    rcases hmem with rfl | rfl <;> simp at hkey

theorem exportKeyword_ref (text : String) :
    exportKeyword snapshot endpointIds schema path factPath "$ref" (.str text) =
      pure (some (.str (exportedRef text))) := by
  rfl

theorem isSome_exportKeyword {key : String} {value : Json} (h : KeptShape key value) :
    (exportKeyword snapshot endpointIds schema path factPath key value).value.isSome = true := by
  cases h with
  | ref text => rw [exportKeyword_ref]; rfl
  | properties _ => rw [exportKeyword_properties]; rfl
  | single hkey _ => rw [exportKeyword_schema _ _ _ _ _ hkey]; rfl
  | several hkey _ => rw [exportKeyword_schemas _ _ _ _ _ hkey]; rfl

include h in
/-- What the exported schema has under a keyword that is always kept. -/
theorem lookup_exportedMembers (hkey : key ∈ keptKeywords) :
    (exportedMembers snapshot endpointIds schema path factPath).lookup key =
      (schema.lookup key).bind fun value =>
        (exportKeyword snapshot endpointIds schema path factPath key value).value := by
  rw [exportedMembers, lookup_sorted, OrderedMap.lookup_filterMap
    fun key value => (exportKeyword snapshot endpointIds schema path factPath key value).value]
  exact fun value hvalue => isSome_exportKeyword (keptShape_of_mem h hvalue hkey)

include h in
theorem schemasUnder_exportedMembers (hkey : key ∈ ["allOf", "anyOf", "oneOf", "prefixItems"]) :
    schemasUnder (exportedMembers snapshot endpointIds schema path factPath) key =
      (exportItems snapshot endpointIds (path ++ ("/" ++ key)) (factPath ++ ("/" ++ key)) 0
        (schemasUnder schema key)).value := by
  have hkept : key ∈ keptKeywords := by
    simp only [keptKeywords, mem_cons, not_mem_nil, or_false] at hkey ⊢
    tauto
  rw [schemasUnder, lookup_exportedMembers h hkept, schemasUnder]
  cases hlookup : schema.lookup key with
  | none => rfl
  | some value =>
    obtain ⟨ss, rfl, -⟩ := (keptShape_of_mem h (mem_of_lookup hlookup) hkept).exists_several hkey
    rw [Option.bind_some, exportKeyword_schemas _ _ _ _ _ hkey]
    rfl

/-- What is exported for a keyword without schemas below it. -/
inductive ExportedLeaf : String → Json → Json → Prop
  | ref (text : String) : ExportedLeaf "$ref" (.str text) (.str (exportedRef text))
  | required {names : List Json} (accepted : List String) (sub : ∀ name ∈ accepted,
      .str name ∈ names) : ExportedLeaf "required" (.arr names) (stringArray accepted)
  | format {text : String} : ExportedLeaf "format" (.str text) (.str text)
  | same {key : String} {value : Json} (kept : constraintKeys.contains key = false) :
      ExportedLeaf key value value

theorem exportedLeaf_of_exportLeaf {value exported : Json}
    (h : (exportLeaf snapshot endpointIds schema path factPath key value).value = some exported) :
    ExportedLeaf key value exported := by
  unfold exportLeaf at h
  split at h
  · rename_i text
    exact Option.some.inj h ▸ .ref text
  · rename_i names
    simp only [exportRequired, Reported.value_bind, Reported.value_pure] at h
    split_ifs at h
    rw [← Option.some.inj h]
    refine .required _ fun name hname => ?_
    have haccepted := (mem_sorted _ _).mp hname
    simp only [acceptedNames, mem_filter, mem_filterMap] at haccepted
    obtain ⟨⟨value, hvalue, htext⟩, -⟩ := haccepted
    unfold stringOf at htext
    split at htext
    · exact Option.some.inj htext ▸ hvalue
    · cases htext
  · split_ifs at h with hformat hconstraint
    · obtain ⟨rfl, hkeeps⟩ := hformat
      unfold keepsFormat at hkeeps
      split at hkeeps
      · exact Option.some.inj h ▸ .format
      · cases hkeeps
    · rw [Reported.value_pure] at h
      exact Option.some.inj h ▸ .same (by simpa using hconstraint)

theorem isAssertion_or_of_notMem (hkey : key ∉ keptKeywords) (value : Json) :
    isAssertion key value = true ∨ key = "additionalProperties" := by
  unfold isAssertion
  split <;> simp_all [keptKeywords]

theorem exportedLeaf_of_exportKeyword (hkey : key ∉ keptKeywords) {value exported : Json}
    (h : (exportKeyword snapshot endpointIds schema path factPath key value).value =
      some exported) : ExportedLeaf key value exported := by
  rw [exportKeyword_leaf _ _ _ _ _ (isAssertion_or_of_notMem hkey value)] at h
  exact exportedLeaf_of_exportLeaf h

end Members

/-! ### Sites -/

structure Site where
  endpointIds : List String
  path : String
  factPath : String
  schema : Json

def Site.export (snapshot : ContractSnapshot) (site : Site) : Reported CompileDiagnostic Json :=
  exportSchema snapshot site.endpointIds site.path site.factPath site.schema

/-- A path continued by the tokens of a JSON pointer. -/
def extend (path : String) (tokens : List String) : String :=
  tokens.foldl (fun path token => path ++ "/" ++ pointer token) path

/-- The schema `c` stands directly below a schema at these tokens, in a place that the export
enters. -/
inductive ChildAt (schema : List (String × Json)) : List String → Json → Prop
  | property {name : String} {c : Json} (mem : (name, c) ∈ propertySchemas schema) :
      ChildAt schema ["properties", name] c
  | single {key : String} {c : Json} (mem : key ∈ ["items", "not"])
      (lookup : schema.lookup key = some c) : ChildAt schema [key] c
  | several {key : String} {i : ℕ} {c : Json} (mem : key ∈ ["allOf", "anyOf", "oneOf", "prefixItems"])
      (item : (schemasUnder schema key)[i]? = some c) : ChildAt schema [key, toString i] c

theorem ChildAt.isSchemaChild {schema : List (String × Json)} {tokens : List String} {c : Json}
    (h : ChildAt schema tokens c) (hc : isApiSchema c = true) : IsSchemaChild schema c := by
  cases h with
  | property hmem => exact .property hmem
  | @single key _ hmem hlookup =>
    obtain ⟨below, rfl, -⟩ := exists_obj_of_isApiSchema hc
    refine @IsSchemaChild.schema _ key _ ?_ hlookup
    simp only [mem_cons, not_mem_nil, or_false] at hmem ⊢
    tauto
  | several hmem hitem => exact .item hmem (mem_of_getElem? hitem)

/-- The site of a schema below the schema of a site. -/
def Site.child (site : Site) (tokens : List String) (c : Json) : Site :=
  ⟨site.endpointIds, extend site.path tokens, extend site.factPath tokens, c⟩

theorem pointer_eq_self {token : String} (h : ∀ c ∈ token.toList, c ≠ '~' ∧ c ≠ '/') :
    pointer token = token := by
  refine String.toList_inj.mp ?_
  rw [toList_pointer]
  generalize token.toList = cs at h
  induction cs with
  | nil => rfl
  | cons c cs ih =>
    rw [forall_mem_cons] at h
    rw [flatMap_cons, ih h.2, pointerEscape, if_neg h.1.1, if_neg h.1.2, singleton_append]

theorem pointer_toString (n : ℕ) : pointer (toString n) = toString n := by
  refine pointer_eq_self fun c hc => ?_
  have hdigit : c.isDigit = true :=
    Nat.isDigit_of_mem_toDigits (by decide) (by decide) (Nat.toList_repr ▸ hc)
  constructor
  · rintro rfl
    exact absurd hdigit (by decide)
  · rintro rfl
    exact absurd hdigit (by decide)

theorem extend_property (path name : String) :
    extend path ["properties", name] = path ++ "/properties" ++ "/" ++ pointer name := by
  have hpointer : pointer "properties" = "properties" := rfl
  have hjoin : path ++ "/" ++ "properties" = path ++ "/properties" := String.append_assoc
  rw [extend, foldl_cons, foldl_cons, foldl_nil, hpointer, hjoin]

variable {key : String}

theorem extend_key (hkey : key ∈ keptKeywords) (path : String) :
    extend path [key] = path ++ ("/" ++ key) := by
  have hpointer : pointer key = key := by
    revert hkey
    revert key
    decide +kernel
  rw [extend, foldl_cons, foldl_nil, hpointer, String.append_assoc]

theorem extend_item (hkey : key ∈ keptKeywords) (path : String) (i : ℕ) :
    extend path [key, toString i] = path ++ ("/" ++ key) ++ "/" ++ toString i := by
  rw [← extend_key hkey, extend, foldl_cons, foldl_cons, foldl_nil, pointer_toString]
  rfl

theorem mem_keptKeywords_of_single (h : key ∈ ["items", "not"]) :
    key ∈ keptKeywords := by
  revert h
  revert key
  decide

theorem mem_keptKeywords_of_several
    (h : key ∈ ["allOf", "anyOf", "oneOf", "prefixItems"]) : key ∈ keptKeywords := by
  revert h
  revert key
  decide

section Children

variable (snapshot : ContractSnapshot) (site : Site) (schema : List (String × Json))

theorem exportKeyword_properties_site (ps : List (String × Json)) :
    (exportKeyword snapshot site.endpointIds schema site.path site.factPath "properties"
        (.obj ps)).value =
      some (.obj (sorted Prod.fst (ps.map fun p =>
        (p.1, ((site.child ["properties", p.1] p.2).export snapshot).value)))) ∧
    (exportKeyword snapshot site.endpointIds schema site.path site.factPath "properties"
        (.obj ps)).diagnostics =
      ps.flatMap fun p => ((site.child ["properties", p.1] p.2).export snapshot).diagnostics := by
  simp only [exportKeyword_properties, Reported.value_map, Reported.diagnostics_map,
    value_exportProperties, diagnostics_exportProperties, Site.export, Site.child, extend_property,
    and_self]

theorem exportKeyword_single_site (hkey : key ∈ ["items", "not"]) (s : Json) :
    (exportKeyword snapshot site.endpointIds schema site.path site.factPath key s).value =
      some ((site.child [key] s).export snapshot).value ∧
    (exportKeyword snapshot site.endpointIds schema site.path site.factPath key s).diagnostics =
      ((site.child [key] s).export snapshot).diagnostics := by
  simp only [exportKeyword_schema _ _ _ _ _ hkey, Reported.value_map, Reported.diagnostics_map,
    Site.export, Site.child, extend_key (mem_keptKeywords_of_single hkey), and_self]

theorem exportKeyword_several_site
    (hkey : key ∈ ["allOf", "anyOf", "oneOf", "prefixItems"]) (ss : List Json) :
    (exportKeyword snapshot site.endpointIds schema site.path site.factPath key (.arr ss)).value =
      some (.arr (ss.zipIdx.map fun p =>
        ((site.child [key, toString p.2] p.1).export snapshot).value)) ∧
    (exportKeyword snapshot site.endpointIds schema site.path site.factPath key
        (.arr ss)).diagnostics =
      ss.zipIdx.flatMap fun p =>
        ((site.child [key, toString p.2] p.1).export snapshot).diagnostics := by
  simp only [exportKeyword_schemas _ _ _ _ _ hkey, Reported.value_map, Reported.diagnostics_map,
    Function.comp_apply, value_exportItems, diagnostics_exportItems, Site.export, Site.child,
    extend_item (mem_keptKeywords_of_several hkey), and_self]

end Children

end ApiTruth.OpenApi
