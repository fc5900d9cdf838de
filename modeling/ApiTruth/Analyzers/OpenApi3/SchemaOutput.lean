import ApiTruth.Analyzers.OpenApi3.DocumentMeaning

/-!
# The output of a conversion

What the conversion of a schema object of version 3.0 puts out, keyword by keyword: the members that
each keyword adds, and the members and items that the keywords `additionalProperties` and `items`
of the output speak about.

## Main definitions

* `outputOf`, `membersOfOutput` : what a keyword adds to the output.
* `convertedMembers` : the members of the conversion of a schema object.

## Main results

* `value_schemaObject` : the conversion of a schema object.
* `additionalMembers_convertedMembers` : the conversion declares the properties of the schema.
-/

namespace ApiTruth.Analyzers.OpenApi3

open Json ApiTruth.Ir Reported List Option

variable {document : Json}

/-! ### The output of a conversion -/

section Output

variable (host : Host) (convert : Located document → Reported (Event document) Json)
  (place : Located document)

/-- What the conversion of a keyword adds to the output. -/
def outputOf (key : String) : List (String × Json) :=
  (convertKeyword host .v30 convert place key).value

variable {host convert place} {key : String} {child : Located document} {m : String × Json}

theorem lookup_of_member?
    (h : place.member? key = some child) : place.value.members.lookup key = some child.value := by
  rw [← place.value_member? key, h, map_some]

theorem exists_member?_of_lookup {value : Json} (h : place.value.members.lookup key = some value) :
    ∃ child, place.member? key = some child ∧ child.value = value := by
  rw [← place.value_member? key, map_eq_some_iff] at h
  exact h

theorem member?_eq_none_of_lookup (h : place.value.members.lookup key = none) :
    place.member? key = none := by
  rw [← place.value_member? key, map_eq_none_iff] at h
  exact h

theorem outputOf_of_lookup_eq_none (h : place.value.members.lookup key = none) :
    outputOf host convert place key = [] := by
  have hmember := member?_eq_none_of_lookup h
  unfold outputOf convertKeyword
  split <;>
    simp only [convertProperties, convertOne, convertAdditional, convertPrefixItems, convertConst,
      convertSeveral, convertLeaf, h, hmember, value_pure]

theorem outputOf_leaf (hkey : key ∉ schemaKeywords) {value : Json}
    (h : place.value.members.lookup key = some value) :
    outputOf host convert place key = if isSupported .v30 key value then [(key, value)] else [] := by
  obtain ⟨child, hchild, -⟩ := exists_member?_of_lookup h
  unfold outputOf convertKeyword
  split
  case h_5 => simp [convertPrefixItems, hchild, isSupported]
  case h_6 => simp [convertConst, h, isSupported]
  case h_10 =>
    rw [convertLeaf, h]
    dsimp only
    split <;> rfl
  all_goals exact absurd (by decide) hkey

theorem outputOf_properties (h : place.member? "properties" = some child) :
    outputOf host convert place "properties" =
      if isObject child.value then
        [("properties", .obj ((sortedEntries host child).map fun e => (e.1, (convert e.2).value)))]
      else [] := by
  show (convertProperties host convert place).value = _
  rw [convertProperties, h]
  dsimp only
  split <;> rfl

theorem outputOf_one (hkey : key ∈ ["items", "not"]) (h : place.member? key = some child) :
    outputOf host convert place key = [(key, (convert child).value)] := by
  have hone : outputOf host convert place key = (convertOne convert place key).value := by
    simp only [mem_cons, not_mem_nil, or_false] at hkey
    rcases hkey with rfl | rfl <;> rfl
  rw [hone, convertOne, h]
  rfl

theorem outputOf_additional_bool {b : Bool}
    (h : place.value.members.lookup "additionalProperties" = some (.bool b)) :
    outputOf host convert place "additionalProperties" = [("additionalProperties", .bool b)] := by
  show (convertAdditional convert place).value = _
  rw [convertAdditional, h]
  rfl

theorem outputOf_additional
    (h : place.member? "additionalProperties" = some child) (hbool : ∀ b, child.value ≠ .bool b) :
    outputOf host convert place "additionalProperties" =
      [("additionalProperties", (convert child).value)] := by
  show (convertAdditional convert place).value = _
  rw [convertAdditional, lookup_of_member? h]
  split
  · rename_i b heq
    exact absurd (Option.some.inj heq) (hbool b)
  · rw [convertOne, h]
    rfl

theorem outputOf_several (hkey : key ∈ ["oneOf", "anyOf", "allOf"])
    (h : place.member? key = some child) :
    outputOf host convert place key =
      if isArray child.value && 0 < child.value.items.length && child.value.items.length ≤ 32 then
        [(key, .arr (child.items.map fun c => (convert c).value))]
      else [] := by
  have hseveral : outputOf host convert place key = (convertSeveral convert place key).value := by
    simp only [mem_cons, not_mem_nil, or_false] at hkey
    rcases hkey with rfl | rfl | rfl <;> rfl
  rw [hseveral, convertSeveral, h]
  dsimp only
  split <;> rfl

theorem name_of_mem_ite {c : Prop} [Decidable c] {value : Json}
    (h : m ∈ if c then [(key, value)] else []) : m.1 = key := by
  split at h
  · rw [List.mem_singleton.mp h]
  · cases h

theorem name_of_mem_outputOf (h : m ∈ outputOf host convert place key) : m.1 = key := by
  cases hlookup : place.value.members.lookup key with
  | none =>
    rw [outputOf_of_lookup_eq_none hlookup] at h
    cases h
  | some value =>
    obtain ⟨child, hchild, -⟩ := exists_member?_of_lookup hlookup
    have hone (hkey : key ∈ ["items", "not"]) : m.1 = key := by
      rw [outputOf_one hkey hchild] at h
      rw [List.mem_singleton.mp h]
    have hseveral (hkey : key ∈ ["oneOf", "anyOf", "allOf"]) : m.1 = key := by
      rw [outputOf_several hkey hchild] at h
      exact name_of_mem_ite h
    by_cases hkey : key ∈ schemaKeywords
    · simp only [schemaKeywords, mem_cons, not_mem_nil, or_false] at hkey
      rcases hkey with rfl | rfl | rfl | rfl | rfl | rfl | rfl
      · rw [outputOf_properties hchild] at h
        exact name_of_mem_ite h
      · exact hone (by simp)
      · by_cases hbool : ∃ b, child.value = .bool b
        · obtain ⟨b, hb⟩ := hbool
          rw [outputOf_additional_bool (hb ▸ lookup_of_member? hchild)] at h
          rw [List.mem_singleton.mp h]
        · rw [outputOf_additional hchild (not_exists.mp hbool)] at h
          rw [List.mem_singleton.mp h]
      · exact hone (by simp)
      · exact hseveral (by simp)
      · exact hseveral (by simp)
      · exact hseveral (by simp)
    · rw [outputOf_leaf hkey hlookup] at h
      exact name_of_mem_ite h

variable (host convert place)

/-- The output of a keyword, with the type extended by `null` where the schema is nullable. -/
def membersOfOutput (key : String) : List (String × Json) :=
  if key = "type" ∧ isNullable place.value.members then
    (outputOf host convert place key).map fun m => (m.1, .arr [m.2, .str "null"])
  else outputOf host convert place key

/-- The members of the conversion of a schema object. -/
def convertedMembers : List (String × Json) :=
  convertedKeywords.flatMap (membersOfOutput host convert place)

variable {host convert place}

theorem name_of_mem_membersOfOutput
    (h : m ∈ membersOfOutput host convert place key) : m.1 = key := by
  unfold membersOfOutput at h
  split at h
  · obtain ⟨n, hn, rfl⟩ := List.mem_map.mp h
    exact (name_of_mem_outputOf hn :)
  · exact name_of_mem_outputOf h

theorem lookup_flatMap_of_names {f : String → List (String × Json)} {keys : List String}
    (hnames : ∀ key ∈ keys, ∀ m ∈ f key, m.1 = key) (key : String) :
    (keys.flatMap f).lookup key = if key ∈ keys then (f key).lookup key else none := by
  induction keys with
  | nil => rfl
  | cons k keys ih =>
    rw [flatMap_cons, lookup_append, ih fun k' hk' => hnames k' (mem_cons_of_mem _ hk')]
    by_cases hk : key = k
    · subst hk
      by_cases hmem : key ∈ keys <;> simp [hmem]
    · have hnone : (f k).lookup key = none := by
        refine List.lookup_eq_none_iff.mpr fun m hm => ?_
        rw [hnames k mem_cons_self m hm]
        simpa using fun h : key = k => hk h
      simp [hnone, hk]

theorem lookup_convertedMembers (hkey : key ≠ "type") :
    (convertedMembers host convert place).lookup key =
      if key ∈ convertedKeywords then (outputOf host convert place key).lookup key else none := by
  have hmembers : membersOfOutput host convert place key = outputOf host convert place key :=
    if_neg fun h => hkey h.1
  rw [convertedMembers, lookup_flatMap_of_names fun _ _ _ => name_of_mem_membersOfOutput, hmembers]

theorem outputOf_type : outputOf host convert place "type" = [] ∨
    ∃ name, (typeNames .v30).contains name = true ∧
      place.value.members.lookup "type" = some (.str name) ∧
      outputOf host convert place "type" = [("type", .str name)] := by
  cases hlookup : place.value.members.lookup "type" with
  | none => exact .inl (outputOf_of_lookup_eq_none hlookup)
  | some value =>
    rw [outputOf_leaf (by decide) hlookup]
    cases value with
    | str name =>
      cases hname : (typeNames .v30).contains name with
      | false => exact .inl (if_neg (by simpa [isSupported] using hname))
      | true => exact .inr ⟨name, hname, rfl, if_pos hname⟩
    | _ => exact .inl rfl

theorem value_convertNullable_of_no_type {output : List (String × Json)}
    (h : output.lookup "type" = none) : (convertNullable place output).value = output := by
  unfold convertNullable
  split
  · rfl
  · rfl
  · rw [h]
    rfl
  · rfl

theorem value_convertNullable_of_type {name : String} {rest : List (String × Json)} :
    (convertNullable place (("type", .str name) :: rest)).value =
      ("type", if isNullable place.value.members then .arr [.str name, .str "null"]
        else .str name) :: rest := by
  unfold convertNullable isNullable
  split
  · rename_i h
    rw [h]
    rfl
  · rename_i h
    rw [h]
    rfl
  · rename_i h
    rw [h]
    rfl
  · rename_i value _ htrue h
    have hne : (some value == some (Json.bool true)) = false := by
      rw [beq_eq_false_iff_ne]
      exact fun heq => htrue (Option.some.inj heq)
    rw [h, hne]
    rfl

/-- The conversion of a schema object. -/
theorem value_schemaObject : (schemaObject host .v30 convert place).value =
    .obj (convertedMembers host convert place) := by
  have hvalue : (schemaObject host .v30 convert place).value =
      .obj (convertNullable place (convertedKeywords.flatMap (outputOf host convert place))).value := by
    unfold schemaObject
    split <;> rfl
  have hrest : (convertedKeywords.tail.flatMap (membersOfOutput host convert place)) =
      convertedKeywords.tail.flatMap (outputOf host convert place) :=
    flatMap_congr fun key hkey => if_neg fun h => by
      rw [h.1] at hkey
      revert hkey
      decide
  have hsplit (f : String → List (String × Json)) :
      convertedKeywords.flatMap f = f "type" ++ convertedKeywords.tail.flatMap f := rfl
  have hlookup : (convertedKeywords.tail.flatMap (outputOf host convert place)).lookup "type" =
      none := by
    rw [lookup_flatMap_of_names fun _ _ _ => name_of_mem_outputOf]
    rfl
  rw [hvalue, convertedMembers, hsplit, hsplit, hrest, membersOfOutput]
  have htype : outputOf host convert place "type" = [] ∨ _ := outputOf_type
  rcases htype with hnone | ⟨name, -, -, hsome⟩
  · rw [hnone, nil_append, value_convertNullable_of_no_type hlookup]
    split <;> rfl
  · rw [hsome, singleton_append, value_convertNullable_of_type]
    cases hnullable : isNullable place.value.members <;> rfl

/-! ### What additional members and items are -/

theorem schemasUnder_convertedMembers :
    schemasUnder (convertedMembers host convert place) "prefixItems" = [] := by
  have hnone : (outputOf host convert place "prefixItems").lookup "prefixItems" = none := by
    cases hlookup : place.value.members.lookup "prefixItems" with
    | none => rw [outputOf_of_lookup_eq_none hlookup]; rfl
    | some value => rw [outputOf_leaf (by decide) hlookup]; rfl
  rw [schemasUnder, lookup_convertedMembers (by decide), if_pos (by decide), hnone]

theorem remainingItems_convertedMembers (x : Json) :
    remainingItems (convertedMembers host convert place) x = itemsOf x := by
  rw [remainingItems, schemasUnder_convertedMembers]
  rfl

/-- The names that are declared are the same before and after the conversion. -/
theorem additionalMembers_convertedMembers (hdocument : WellFormed document) (x : Json) :
    additionalMembers (convertedMembers host convert place) x =
      additionalMembers place.value.members x := by
  have hnames (name : String) :
      name ∈ (propertySchemas (convertedMembers host convert place)).map Prod.fst ↔
        name ∈ (propertySchemas place.value.members).map Prod.fst := by
    unfold propertySchemas
    rw [lookup_convertedMembers (by decide), if_pos (by decide)]
    cases hlookup : place.value.members.lookup "properties" with
    | none => rw [outputOf_of_lookup_eq_none hlookup]; rfl
    | some value =>
      obtain ⟨child, hchild, rfl⟩ := exists_member?_of_lookup hlookup
      rw [outputOf_properties hchild]
      cases hvalue : child.value with
      | obj ps =>
        have hmembers := congrArg (List.map Prod.fst) (child.values_members hdocument)
        rw [hvalue, List.map_map] at hmembers
        have hsorted := (perm_insertionSort
          (fun a b => host.localeLe a.1 b.1 = true) child.members).map Prod.fst
        show name ∈ ((sortedEntries host child).map fun e =>
          (e.1, (convert e.2).value)).map Prod.fst ↔ name ∈ ps.map Prod.fst
        rw [List.map_map]
        exact hsorted.mem_iff.trans (iff_of_eq (congrArg (name ∈ ·) hmembers))
      | _ => rfl
  refine filter_congr fun m _ => ?_
  congr 1
  rw [Bool.eq_iff_iff, contains_iff_mem, contains_iff_mem]
  exact hnames m.1

end Output

end ApiTruth.Analyzers.OpenApi3
