import ApiTruth.Foundation.Json.Text

/-!
# API schemas

An API schema is a JSON object over a bounded set of JSON Schema keywords.  The literals under
`enum` and `const` are arbitrary JSON values, so a traversal has to keep to the schema positions:
the values of `properties`, the schemas under `items`, `additionalProperties` and `not`, and the
items of `allOf`, `anyOf`, `oneOf` and `prefixItems`.

## Main definitions

* `isApiSchema` : the shape of an API schema.
* `schemaChildren`, `IsSchemaChild`, `SchemaPosition` : the schemas below a schema.
* `Traversal.collect` : what the schemas at schema positions contribute.
* `collectSchemaRefs`, `containsDuplicateEnum`, `translateComponentRefs` : the traversals of the
  snapshot validator.

## Main results

* `Traversal.mem_collect` : every traversal visits the schema positions.
* `mem_collectSchemaRefs` : the references collected are those at schema positions.
-/

namespace ApiTruth.Ir

open Json List Bool

/-! ### Shape -/

def isNonEmptyString : Json → Bool
  | .str s => s != ""
  | _ => false

def uniqueItems (xs : List Json) : Bool := decide (xs.map canon).Nodup

def apiTypeNames : List String :=
  ["null", "boolean", "object", "array", "number", "integer", "string"]

def isApiTypeName : Json → Bool
  | .str s => apiTypeNames.contains s
  | _ => false

def isCount : Json → Bool
  | .num n => n.isInteger && !n.isNegative
  | _ => false

/-- The value of a keyword without schemas below it. -/
def isLeafKeyword (keyword : String) (value : Json) : Bool :=
  match keyword, value with
  | "$ref", value => isNonEmptyString value
  | "type", .arr names => names.all isApiTypeName && !names.isEmpty && uniqueItems names
  | "type", value => isApiTypeName value
  | "title", .str _ => true
  | "description", .str _ => true
  | "required", .arr names => names.all isNonEmptyString && uniqueItems names
  | "enum", .arr members => !members.isEmpty
  | "const", _ => true
  | "format", value => isNonEmptyString value
  | "pattern", .str _ => true
  | "minimum", .num _ => true
  | "maximum", .num _ => true
  | "minLength", value => isCount value
  | "maxLength", value => isCount value
  | "minItems", value => isCount value
  | "maxItems", value => isCount value
  | _, _ => false

mutual

def isApiSchema : Json → Bool
  | .obj keywords => areKeywords keywords
  | _ => false

/-- Every member is a keyword with a value of its shape. -/
def areKeywords : List (String × Json) → Bool
  | [] => true
  | (keyword, value) :: rest =>
    (match keyword, value with
      | "properties", .obj properties => areProperties properties
      | "items", schema => isApiSchema schema
      | "not", schema => isApiSchema schema
      | "additionalProperties", .bool _ => true
      | "additionalProperties", schema => isApiSchema schema
      | "prefixItems", .arr schemas => areApiSchemas schemas
      | "oneOf", .arr schemas => !schemas.isEmpty && areApiSchemas schemas
      | "anyOf", .arr schemas => !schemas.isEmpty && areApiSchemas schemas
      | "allOf", .arr schemas => !schemas.isEmpty && areApiSchemas schemas
      | keyword, value => isLeafKeyword keyword value) && areKeywords rest

def areProperties : List (String × Json) → Bool
  | [] => true
  | (_, schema) :: rest => isApiSchema schema && areProperties rest

def areApiSchemas : List Json → Bool
  | [] => true
  | schema :: rest => isApiSchema schema && areApiSchemas rest

end

/-- The keywords of an API schema, by what their values are. -/
inductive KeywordShape : String → Json → Prop
  | properties {ps : List (String × Json)} (schemas : ∀ p ∈ ps, isApiSchema p.2 = true) :
      KeywordShape "properties" (.obj ps)
  | schema {key : String} {v : Json} (mem : key ∈ ["items", "additionalProperties", "not"])
      (isSchema : isApiSchema v = true ∨ ∃ b, v = .bool b) : KeywordShape key v
  | sequence {xs : List Json} (schemas : ∀ x ∈ xs, isApiSchema x = true) :
      KeywordShape "prefixItems" (.arr xs)
  | alternatives {key : String} {xs : List Json} (mem : key ∈ ["oneOf", "anyOf", "allOf"])
      (schemas : ∀ x ∈ xs, isApiSchema x = true) : KeywordShape key (.arr xs)
  | names {key : String} {xs : List Json} (mem : key ∈ ["type", "required"])
      (strings : ∀ x ∈ xs, ∃ s, x = .str s) (nodup : xs.Nodup) : KeywordShape key (.arr xs)
  | values {xs : List Json} : KeywordShape "enum" (.arr xs)
  | literal {v : Json} : KeywordShape "const" v
  | text {key s : String} (keyword : isLeafKeyword key (.str s) = true) : KeywordShape key (.str s)
  | number {key : String} {n : JsonNumber} (keyword : isLeafKeyword key (.num n) = true) :
      KeywordShape key (.num n)

theorem areApiSchemas_iff {xs : List Json} :
    areApiSchemas xs = true ↔ ∀ x ∈ xs, isApiSchema x = true := by
  induction xs with
  | nil => simp [areApiSchemas]
  | cons x xs ih => simp [areApiSchemas, ih]

theorem areProperties_iff {ps : List (String × Json)} :
    areProperties ps = true ↔ ∀ p ∈ ps, isApiSchema p.2 = true := by
  induction ps with
  | nil => simp [areProperties]
  | cons p ps ih => simp [areProperties, ih]

variable {x : Json} {key : String} {m : String × Json} {c : Json} {node : List (String × Json)}

theorem exists_str_of_isNonEmptyString (h : isNonEmptyString x = true) :
    ∃ s, x = .str s := by
  unfold isNonEmptyString at h
  split at h
  · exact ⟨_, rfl⟩
  · cases h

theorem exists_str_of_isApiTypeName (h : isApiTypeName x = true) :
    ∃ s, x = .str s := by
  unfold isApiTypeName at h
  split at h
  · exact ⟨_, rfl⟩
  · cases h

theorem exists_num_of_isCount (h : isCount x = true) : ∃ n, x = .num n := by
  unfold isCount at h
  split at h
  · exact ⟨_, rfl⟩
  · cases h

theorem nodup_of_uniqueItems {xs : List Json} (h : uniqueItems xs = true) : xs.Nodup :=
  Nodup.of_map canon (of_decide_eq_true h)

theorem keywordShape_of_isLeafKeyword {v : Json} (h : isLeafKeyword key v = true) :
    KeywordShape key v := by
  have hleaf := h
  unfold isLeafKeyword at h
  split at h
  case h_2 names =>
    simp only [and_eq_true, List.all_eq_true] at h
    exact .names (by simp) (fun x hx => exists_str_of_isApiTypeName (h.1.1 x hx))
      (nodup_of_uniqueItems h.2)
  case h_6 names =>
    simp only [and_eq_true, List.all_eq_true] at h
    exact .names (by simp) (fun x hx => exists_str_of_isNonEmptyString (h.1 x hx))
      (nodup_of_uniqueItems h.2)
  case h_3 =>
    obtain ⟨s, rfl⟩ := exists_str_of_isApiTypeName h
    exact .text hleaf
  case h_1 | h_9 =>
    obtain ⟨s, rfl⟩ := exists_str_of_isNonEmptyString h
    exact .text hleaf
  case h_13 | h_14 | h_15 | h_16 =>
    obtain ⟨n, rfl⟩ := exists_num_of_isCount h
    exact .number hleaf
  case h_4 | h_5 | h_10 => exact .text hleaf
  case h_11 | h_12 => exact .number hleaf
  case h_7 => exact .values
  case h_8 => exact .literal
  case h_17 => cases h

variable {ms : List (String × Json)} {value : List (String × Json)}

theorem keywordShape_of_mem (h : areKeywords ms = true) (hm : m ∈ ms) : KeywordShape m.1 m.2 := by
  induction ms with
  | nil => simp at hm
  | cons n ms ih =>
    obtain ⟨key, v⟩ := n
    rw [areKeywords.eq_def] at h
    simp only [and_eq_true] at h
    rcases List.mem_cons.mp hm with rfl | hm
    · have hkey := h.1
      split at hkey
      · exact .properties (areProperties_iff.mp hkey)
      · exact .schema (by simp) (.inl hkey)
      · exact .schema (by simp) (.inl hkey)
      · exact .schema (by simp) (.inr ⟨_, rfl⟩)
      · exact .schema (by simp) (.inl hkey)
      · exact .sequence (areApiSchemas_iff.mp hkey)
      · exact .alternatives (by simp) (areApiSchemas_iff.mp (and_eq_true_iff.mp hkey).2)
      · exact .alternatives (by simp) (areApiSchemas_iff.mp (and_eq_true_iff.mp hkey).2)
      · exact .alternatives (by simp) (areApiSchemas_iff.mp (and_eq_true_iff.mp hkey).2)
      · exact keywordShape_of_isLeafKeyword hkey
    · exact ih h.2 hm

/-! ### Schema positions -/

def replaceAll (c : Char) (replacement : String) (s : String) : String :=
  String.ofList (s.toList.flatMap fun d => if d = c then replacement.toList else [d])

def jsonPointerSegment (value : String) : String :=
  replaceAll '/' "~1" (replaceAll '~' "~0" value)

/-- The schemas under `properties`. -/
def propertySchemas (value : List (String × Json)) : List (String × Json) :=
  match value.lookup "properties" with
  | some (.obj properties) => properties
  | _ => []

def schemasUnder (value : List (String × Json)) (key : String) : List Json :=
  match value.lookup key with
  | some (.arr schemas) => schemas
  | _ => []

/-- The schemas directly below an object at a schema position, with their pointers. -/
def schemaChildren (value : List (String × Json)) : List (String × Json) :=
  ((propertySchemas value).map fun (key, child) =>
    ("properties/" ++ jsonPointerSegment key, child)) ++
  ["items", "additionalProperties", "not"].flatMap (fun key =>
    match value.lookup key with
    | some (.obj child) => [(key, .obj child)]
    | _ => []) ++
  ["allOf", "anyOf", "oneOf", "prefixItems"].flatMap fun key =>
    (schemasUnder value key).zipIdx.map fun (child, index) => (key ++ "/" ++ toString index, child)

/-- `IsSchemaChild value c` : the schema `c` stands directly below the object `value`. -/
inductive IsSchemaChild (value : List (String × Json)) : Json → Prop
  | property {name : String} {c : Json} (mem : (name, c) ∈ propertySchemas value) :
      IsSchemaChild value c
  | schema {key : String} {c : List (String × Json)}
      (mem : key ∈ ["items", "additionalProperties", "not"])
      (lookup : value.lookup key = some (.obj c)) : IsSchemaChild value (.obj c)
  | item {key : String} {c : Json} (mem : key ∈ ["allOf", "anyOf", "oneOf", "prefixItems"])
      (item : c ∈ schemasUnder value key) : IsSchemaChild value c

theorem isSchemaChild_iff :
    IsSchemaChild value c ↔ ∃ child ∈ schemaChildren value, child.2 = c := by
  simp only [schemaChildren, mem_append, mem_flatMap, List.mem_map]
  constructor
  · rintro (⟨hmem⟩ | ⟨hkey, hlookup⟩ | ⟨hkey, hitem⟩)
    · exact ⟨_, Or.inl (Or.inl ⟨_, hmem, rfl⟩), rfl⟩
    · exact ⟨(_, _), Or.inl (Or.inr ⟨_, hkey, by rw [hlookup]; exact mem_singleton_self _⟩),
        rfl⟩
    · obtain ⟨i, hi, rfl⟩ := List.mem_iff_getElem.mp hitem
      exact ⟨_, Or.inr ⟨_, hkey, _, List.mk_mem_zipIdx_iff_getElem?.mpr
        (getElem?_eq_getElem hi), rfl⟩, rfl⟩
  · rintro ⟨child, (⟨p, hp, rfl⟩ | ⟨key, hkey, h⟩) | ⟨key, hkey, p, hp, rfl⟩, rfl⟩
    · exact .property hp
    · split at h
      · rename_i c hlookup
        rw [List.mem_singleton.mp h]
        exact .schema hkey hlookup
      · simp at h
    · exact .item hkey (fst_mem_of_mem_zipIdx hp)

theorem sizeOf_lt_of_lookup {value : Json}
    (h : ms.lookup key = some value) : sizeOf value < sizeOf ms := by
  induction ms with
  | nil => simp at h
  | cons m ms ih =>
    obtain ⟨k, v⟩ := m
    rw [OrderedMap.lookup_cons_ite] at h
    split_ifs at h
    · cases h
      simp only [List.cons.sizeOf_spec, Prod.mk.sizeOf_spec]
      omega
    · have := ih h
      simp only [List.cons.sizeOf_spec]
      omega

theorem sizeOf_lt_of_mem_members (h : m ∈ ms) :
    sizeOf m.2 < sizeOf ms := by
  have hm := sizeOf_lt_of_mem h
  obtain ⟨k, v⟩ := m
  simp only [Prod.mk.sizeOf_spec] at hm ⊢
  omega

theorem sizeOf_lt_of_mem_propertySchemas {p : String × Json}
    (h : p ∈ propertySchemas value) : sizeOf p.2 < sizeOf value := by
  unfold propertySchemas at h
  split at h
  · rename_i properties hlookup
    have hproperties := sizeOf_lt_of_lookup hlookup
    have hp := sizeOf_lt_of_mem_members h
    rw [Json.obj.sizeOf_spec] at hproperties
    omega
  · simp at h

theorem sizeOf_lt_of_mem_schemasUnder
    (h : c ∈ schemasUnder value key) : sizeOf c < sizeOf value := by
  unfold schemasUnder at h
  split at h
  · rename_i schemas hlookup
    have hschemas := sizeOf_lt_of_lookup hlookup
    have hc := sizeOf_lt_of_mem h
    rw [Json.arr.sizeOf_spec] at hschemas
    omega
  · simp at h

theorem IsSchemaChild.sizeOf_lt
    (h : IsSchemaChild value c) : sizeOf c < sizeOf (Json.obj value) := by
  rw [Json.obj.sizeOf_spec]
  suffices sizeOf c < sizeOf value by omega
  cases h with
  | property hmem => exact sizeOf_lt_of_mem_propertySchemas hmem
  | schema _ hlookup => exact sizeOf_lt_of_lookup hlookup
  | item _ hitem => exact sizeOf_lt_of_mem_schemasUnder hitem

theorem sizeOf_lt_of_mem_schemaChildren {child : String × Json}
    (h : child ∈ schemaChildren value) : sizeOf child.2 < sizeOf (Json.obj value) :=
  (isSchemaChild_iff.mpr ⟨child, h, rfl⟩).sizeOf_lt

/-- `SchemaPosition root node` : the object `node` stands at a schema position of `root`. -/
inductive SchemaPosition : Json → List (String × Json) → Prop
  | root (node : List (String × Json)) : SchemaPosition (.obj node) node
  | child {value node : List (String × Json)} {c : Json} (isChild : IsSchemaChild value c)
      (position : SchemaPosition c node) : SchemaPosition (.obj value) node

theorem SchemaPosition.exists_obj (h : SchemaPosition c node) : ∃ value, c = .obj value := by
  cases h with
  | root _ => exact ⟨_, rfl⟩
  | child _ _ => exact ⟨_, rfl⟩

/-- An order in which a traversal visits the schemas below a schema. -/
structure Traversal where
  children : List (String × Json) → List Json
  obj_mem_children : ∀ {value node : List (String × Json)},
    .obj node ∈ children value ↔ IsSchemaChild value (.obj node)
  sizeOf_lt : ∀ {value : List (String × Json)} {c : Json}, c ∈ children value →
    sizeOf c < sizeOf (Json.obj value)

namespace Traversal

variable {α : Type*} (traversal : Traversal) (own : List (String × Json) → Option α)

/-- What the objects at schema positions contribute, a schema before the schemas below it. -/
def collect (value : Json) : List α :=
  match value with
  | .obj schema =>
    (own schema).toList ++
      ((traversal.children schema).attach.map fun ⟨c, _⟩ => collect c).flatten
  | _ => []
termination_by sizeOf value
decreasing_by exact traversal.sizeOf_lt ‹_›

theorem collect_obj (schema : List (String × Json)) :
    traversal.collect own (.obj schema) =
      (own schema).toList ++ (traversal.children schema).flatMap (traversal.collect own) := by
  rw [collect, flatMap_def]
  congr 2
  exact List.attach_map_val (f := traversal.collect own)

/-- A traversal visits the schema positions. -/
theorem mem_collect {value : Json} {a : α} :
    a ∈ traversal.collect own value ↔ ∃ node, SchemaPosition value node ∧ own node = some a := by
  constructor
  · intro h
    induction value using collect.induct traversal with
    | case1 schema ih =>
      rw [collect_obj, mem_append, Option.mem_toList] at h
      rcases h with h | h
      · exact ⟨schema, .root schema, h⟩
      · obtain ⟨c, hc, hmem⟩ := List.mem_flatMap.mp h
        obtain ⟨node, hnode, ha⟩ := ih c hc hmem
        obtain ⟨below, rfl⟩ := hnode.exists_obj
        exact ⟨node, .child (traversal.obj_mem_children.mp hc) hnode, ha⟩
    | case2 value hvalue => simp [collect] at h
  · rintro ⟨node, hnode, ha⟩
    induction hnode with
    | root node =>
      rw [collect_obj, mem_append, Option.mem_toList]
      exact Or.inl ha
    | child hchild hposition ih =>
      obtain ⟨below, rfl⟩ := hposition.exists_obj
      rw [collect_obj, mem_append]
      exact Or.inr (List.mem_flatMap.mpr ⟨_, traversal.obj_mem_children.mpr hchild, ih ha⟩)

end Traversal

/-- The order in which the snapshot validator visits the schemas below a schema. -/
def schemaTraversal : Traversal where
  children value := (schemaChildren value).map Prod.snd
  obj_mem_children := by
    intro value node
    rw [isSchemaChild_iff, List.mem_map]
  sizeOf_lt := by
    intro value c hc
    obtain ⟨child, hchild, rfl⟩ := List.mem_map.mp hc
    exact sizeOf_lt_of_mem_schemaChildren hchild

/-- The objects at schema positions. -/
def positions (value : Json) : List (List (String × Json)) := schemaTraversal.collect some value

theorem mem_positions {value : Json} :
    node ∈ positions value ↔ SchemaPosition value node := by
  simp [positions, Traversal.mem_collect]

def refOf (node : List (String × Json)) : Option String :=
  match node.lookup "$ref" with
  | some (.str ref) => some ref
  | _ => none

/-- The references at schema positions, with their pointers. -/
def collectSchemaRefs (value : Json) (path : String) : List (String × String) :=
  match value with
  | .obj schema =>
    ((refOf schema).toList.map fun ref => (ref, path ++ "/$ref")) ++
      ((schemaChildren schema).attach.map fun ⟨child, _⟩ =>
        collectSchemaRefs child.2 (path ++ "/" ++ child.1)).flatten
  | _ => []
termination_by sizeOf value
decreasing_by exact sizeOf_lt_of_mem_schemaChildren ‹_›

theorem collectSchemaRefs_obj (schema : List (String × Json)) (path : String) :
    collectSchemaRefs (.obj schema) path =
      ((refOf schema).toList.map fun ref => (ref, path ++ "/$ref")) ++
        (schemaChildren schema).flatMap fun child =>
          collectSchemaRefs child.2 (path ++ "/" ++ child.1) := by
  rw [collectSchemaRefs, flatMap_def]
  congr 2
  exact List.attach_map_val (f := fun child : String × Json =>
    collectSchemaRefs child.2 (path ++ "/" ++ child.1))

/-- The references collected are those at schema positions. -/
theorem mem_collectSchemaRefs {value : Json} {path ref : String} :
    ref ∈ (collectSchemaRefs value path).map Prod.fst ↔
      ∃ node, SchemaPosition value node ∧ refOf node = some ref := by
  constructor
  · intro h
    induction value, path using collectSchemaRefs.induct with
    | case1 path schema ih =>
      rw [collectSchemaRefs_obj, map_append, mem_append, List.map_map] at h
      rcases h with h | h
      · exact ⟨schema, .root schema, by simpa using h⟩
      · rw [map_flatMap] at h
        obtain ⟨child, hchild, hmem⟩ := List.mem_flatMap.mp h
        obtain ⟨node, hnode, href⟩ := ih child hchild hmem
        exact ⟨node, .child (isSchemaChild_iff.mpr ⟨child, hchild, rfl⟩) hnode, href⟩
    | case2 value path hvalue => simp [collectSchemaRefs] at h
  · rintro ⟨node, hnode, href⟩
    induction hnode generalizing path with
    | root node =>
      rw [collectSchemaRefs_obj, href]
      simp
    | child hisChild _ ih =>
      obtain ⟨child, hchild, rfl⟩ := isSchemaChild_iff.mp hisChild
      rw [collectSchemaRefs_obj, map_append, mem_append, map_flatMap]
      exact Or.inr (List.mem_flatMap.mpr ⟨child, hchild, ih href⟩)

/-! ### Duplicate enum members and translated references -/

/-- The canonical text that the validator compares values by; the order of names is that of
`localeCompare`, and names that compare equal keep their order. -/
def canonicalJson (localeCompare : String → String → Ordering) (value : Json) : String :=
  stringify (rearrange (fun ms => ms.insertionSort (localeCompare ·.1 ·.1 ≠ .gt)) value)

/-- An `enum` at a schema position has two members with one canonical text. -/
def containsDuplicateEnum (localeCompare : String → String → Ordering) (value : Json) : Bool :=
  match value with
  | .obj record =>
    (match record.lookup "enum" with
      | some (.arr members) => decide ¬(members.map (canonicalJson localeCompare)).Nodup
      | _ => false) ||
      ((schemaChildren record).attach.map fun ⟨child, _⟩ =>
        containsDuplicateEnum localeCompare child.2).any id
  | _ => false
termination_by sizeOf value
decreasing_by exact sizeOf_lt_of_mem_schemaChildren ‹_›

def componentPrefix : String := "#/schemas/"

/-- A component reference in the isolated graph of definitions. -/
def translateRef (ref : String) : String :=
  if componentPrefix.isPrefixOf ref
  then "#/$defs/" ++ jsonPointerSegment (String.ofList (ref.toList.drop componentPrefix.length))
  else ref

mutual

/-- A schema with its component references translated. -/
def translateComponentRefs : Json → Json
  | .obj schema => .obj (translateKeywords schema)
  | value => value

/-- The keywords of a schema with references translated. -/
def translateKeywords : List (String × Json) → List (String × Json)
  | [] => []
  | (key, value) :: rest =>
    (key, match key, value with
      | "$ref", .str ref => .str (translateRef ref)
      | "properties", .obj properties => .obj (translateProperties properties)
      | "items", value => translateComponentRefs value
      | "additionalProperties", value => translateComponentRefs value
      | "not", value => translateComponentRefs value
      | "allOf", .arr schemas => .arr (translateItems schemas)
      | "anyOf", .arr schemas => .arr (translateItems schemas)
      | "oneOf", .arr schemas => .arr (translateItems schemas)
      | "prefixItems", .arr schemas => .arr (translateItems schemas)
      | _, value => value) :: translateKeywords rest

/-- Property schemas with references translated. -/
def translateProperties : List (String × Json) → List (String × Json)
  | [] => []
  | (name, schema) :: rest => (name, translateComponentRefs schema) :: translateProperties rest

def translateItems : List Json → List Json
  | [] => []
  | schema :: rest => translateComponentRefs schema :: translateItems rest

end

end ApiTruth.Ir
