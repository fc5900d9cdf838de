import ApiTruth.Ir.SnapshotJson

/-!
# Canonical conditions

Conditions are compared by the canonical text of a representative, in which the paths that a
condition affects and the operands of conjunctions and disjunctions are sorted and not repeated.

## Main definitions

* `canonicalCondition` : the representative of a condition.
* `conditionKey` : its text.

## Main results

* `canonicalCondition_idem` : representatives are their own representatives.
-/

namespace ApiTruth.Ir

theorem Condition.induction {P : Condition → Prop}
    (predicate : ∀ operator field value operands paths,
      (∀ os, operands = some os → ∀ c ∈ os, P c) →
        P (.predicate operator field value operands paths))
    (businessExpression : ∀ expression scope paths, P (.businessExpression expression scope paths))
    (condition : Condition) : P condition :=
  Condition.rec (motive_1 := P) (motive_2 := fun operands => ∀ os, operands = some os →
      ∀ c ∈ os, P c) (motive_3 := fun os => ∀ c ∈ os, P c)
    predicate businessExpression (by simp)
    (fun os hos os' h => by
      cases h
      exact hos)
    (by simp) (fun c os hc hos c' hc' => by
      rcases List.mem_cons.mp hc' with rfl | hc'
      exacts [hc, hos c' hc'])
    condition

theorem operandsToJson_eq_map (operands : List Condition) :
    operandsToJson operands = operands.map Condition.toJson := by
  induction operands with
  | nil => rfl
  | cons operand operands ih => rw [operandsToJson, ih, List.map_cons]

theorem ConditionOperator.name_injective : Function.Injective ConditionOperator.name := by
  intro a b h
  cases a <;> cases b <;> first | rfl | exact absurd h (by decide)

end ApiTruth.Ir

namespace ApiTruth.Updates

open Json ApiTruth.Ir List Option

def conditionKey (condition : Condition) : String := condition.toJson.canonicalJson

/-- The operands of conjunctions and disjunctions are sorted. -/
def sortOperands (operator : ConditionOperator) (operands : List Condition) : List Condition :=
  if operator = .and ∨ operator = .or then uniqueSorted conditionKey operands else operands

mutual

def canonicalCondition : Condition → Condition
  | .predicate operator field value operands paths =>
    .predicate operator field (value.map canon)
      ((canonicalOptionalOperands operands).map (sortOperands operator)) (canonicalStrings paths)
  | .businessExpression expression scope paths =>
    .businessExpression expression scope (canonicalStrings paths)

def canonicalOptionalOperands : Option (List Condition) → Option (List Condition)
  | none => none
  | some operands => some (canonicalOperands operands)

def canonicalOperands : List Condition → List Condition
  | [] => []
  | operand :: operands => canonicalCondition operand :: canonicalOperands operands

end

theorem canonicalOperands_eq_map (operands : List Condition) :
    canonicalOperands operands = operands.map canonicalCondition := by
  induction operands with
  | nil => rfl
  | cons operand operands ih => rw [canonicalOperands, ih, map_cons]

theorem canonicalOptionalOperands_eq_map (operands : Option (List Condition)) :
    canonicalOptionalOperands operands = operands.map (List.map canonicalCondition) := by
  cases operands with
  | none => rfl
  | some operands => rw [canonicalOptionalOperands, canonicalOperands_eq_map, map_some]

variable {operator : ConditionOperator} {operands : List Condition}

theorem mem_of_mem_sortOperands
    {condition : Condition} (h : condition ∈ sortOperands operator operands) :
    condition ∈ operands := by
  unfold sortOperands at h
  split_ifs at h
  · exact mem_of_mem_uniqueSorted conditionKey h
  · exact h

theorem sortOperands_idem (operator : ConditionOperator) (operands : List Condition) :
    sortOperands operator (sortOperands operator operands) = sortOperands operator operands := by
  unfold sortOperands
  split_ifs
  · exact uniqueSorted_idem operands
  · rfl

theorem canonicalStrings_idem (values : List String) :
    canonicalStrings (canonicalStrings values) = canonicalStrings values :=
  uniqueSorted_idem values

/-- Representatives are their own representatives. -/
theorem canonicalCondition_idem (condition : Condition) :
    canonicalCondition (canonicalCondition condition) = canonicalCondition condition := by
  induction condition using Condition.induction with
  | businessExpression expression scope paths =>
    simp only [canonicalCondition, canonicalStrings_idem]
  | predicate operator field value operands paths ih =>
    have hoperands : (((operands.map (List.map canonicalCondition)).map (sortOperands operator)).map
        (List.map canonicalCondition)).map (sortOperands operator) =
        (operands.map (List.map canonicalCondition)).map (sortOperands operator) := by
      cases operands with
      | none => rfl
      | some operands =>
        have hfixed : (sortOperands operator (operands.map canonicalCondition)).map
            canonicalCondition = sortOperands operator (operands.map canonicalCondition) := by
          refine (map_congr_left fun operand hoperand => ?_).trans (List.map_id _)
          obtain ⟨other, hother, rfl⟩ := List.mem_map.mp (mem_of_mem_sortOperands hoperand)
          exact ih operands rfl other hother
        simp only [map_some, hfixed, sortOperands_idem]
    have hvalue : (value.map canon).map canon = value.map canon := by
      cases value with
      | none => rfl
      | some value => simp
    simp only [canonicalCondition, canonicalOptionalOperands_eq_map, hoperands, hvalue,
      canonicalStrings_idem]

theorem stringArray_canon_inj {xs ys : List String}
    (h : canon (stringArray xs) = canon (stringArray ys)) : xs = ys := by
  simp only [stringArray, canon_arr, List.map_map, Json.arr.injEq] at h
  exact List.map_injective_iff.mpr (fun a b hab => by simpa using hab) h

theorem operands_canonical {field : Option String} {value : Option Json} {paths : List String}
    (h : canonicalCondition (.predicate operator field value (some operands) paths) =
      .predicate operator field value (some operands) paths) {operand : Condition}
    (hoperand : operand ∈ operands) : canonicalCondition operand = operand := by
  simp only [canonicalCondition, canonicalOptionalOperands_eq_map, map_some,
    Condition.predicate.injEq, Option.some.injEq, true_and] at h
  rw [← h.2.1] at hoperand
  obtain ⟨other, -, rfl⟩ := List.mem_map.mp (mem_of_mem_sortOperands hoperand)
  exact canonicalCondition_idem other

def predicateMembers (operator : ConditionOperator) (field : Option String) (value : Option Json)
    (operands : Option (List Condition)) (paths : List String) : List (String × Json) :=
  [("kind", .str "predicate"), ("operator", .str operator.name)] ++
    (field.map fun field => ("field", Json.str field)).toList ++
    (value.map fun value => ("value", value)).toList ++
    optionalOperandsToJson operands ++ [("affected_schema_paths", stringArray paths)]

theorem lookup_predicateMembers (operator : ConditionOperator) (field : Option String)
    (value : Option Json) (operands : Option (List Condition)) (paths : List String) :
    let members := predicateMembers operator field value operands paths
    members.lookup "operator" = some (.str operator.name) ∧
      members.lookup "field" = field.map Json.str ∧ members.lookup "value" = value ∧
      members.lookup "operands" = operands.map (fun os => .arr (os.map Condition.toJson)) ∧
      members.lookup "affected_schema_paths" = some (stringArray paths) := by
  simp only [predicateMembers, ← operandsToJson_eq_map]
  cases field <;> cases value <;> cases operands <;> exact ⟨rfl, rfl, rfl, rfl, rfl⟩

theorem eq_of_map_eq_map {α β : Type*} {f : α → β} {xs ys : List α}
    (hinj : ∀ x ∈ xs, ∀ y ∈ ys, f x = f y → x = y) (h : xs.map f = ys.map f) : xs = ys := by
  induction xs generalizing ys with
  | nil => exact (List.map_eq_nil_iff.mp h.symm).symm
  | cons x xs ih =>
    cases ys with
    | nil => cases h
    | cons y ys =>
      rw [map_cons, map_cons, List.cons.injEq] at h
      rw [hinj x mem_cons_self y mem_cons_self h.1, ih (fun x' hx' y' hy' =>
        hinj x' (mem_cons_of_mem _ hx') y' (mem_cons_of_mem _ hy')) h.2]

theorem eq_of_canon_toJson {c d : Condition} (hc : canonicalCondition c = c)
    (hd : canonicalCondition d = d) (h : canon c.toJson = canon d.toJson) : c = d := by
  induction c using Condition.induction generalizing d with
  | businessExpression expression scope paths =>
    cases d with
    | predicate operator field value operands paths' =>
      have hkind := lookup_canon_eq h "kind"
      simp at hkind
    | businessExpression expression' scope' paths' =>
      have hexpression := lookup_canon_eq h "expression"
      have hscope := lookup_canon_eq h "scope"
      have hpaths := lookup_canon_eq h "affected_schema_paths"
      simp [lookup_cons] at hexpression hscope hpaths
      rw [hexpression, hscope, stringArray_canon_inj hpaths]
  | predicate operator field value operands paths ih =>
    cases d with
    | businessExpression expression' scope' paths' =>
      have hkind := lookup_canon_eq h "kind"
      simp at hkind
    | predicate operator' field' value' operands' paths' =>
      obtain ⟨hop, hfield, hvalue, hoperands, hpaths⟩ :=
        lookup_predicateMembers operator field value operands paths
      obtain ⟨hop', hfield', hvalue', hoperands', hpaths'⟩ :=
        lookup_predicateMembers operator' field' value' operands' paths'
      have hlookup (name : String) :
          ((predicateMembers operator field value operands paths).lookup name).map canon =
            ((predicateMembers operator' field' value' operands' paths').lookup name).map canon :=
        lookup_canon_eq h name
      have hcvalue : value.map canon = value ∧ value'.map canon = value' := by
        simp only [canonicalCondition, Condition.predicate.injEq] at hc hd
        exact ⟨hc.2.2.1, hd.2.2.1⟩
      have heqOp := hlookup "operator"
      have heqField := hlookup "field"
      have heqValue := hlookup "value"
      have heqOperands := hlookup "operands"
      have heqPaths := hlookup "affected_schema_paths"
      rw [hop, hop', map_some, map_some, canon_str, canon_str, Option.some.injEq,
        Json.str.injEq] at heqOp
      rw [hfield, hfield', Option.map_map, Option.map_map] at heqField
      rw [hvalue, hvalue', hcvalue.1, hcvalue.2] at heqValue
      rw [hpaths, hpaths', map_some, map_some, Option.some.injEq] at heqPaths
      rw [hoperands, hoperands', Option.map_map, Option.map_map] at heqOperands
      have hfields : field = field' :=
        map_injective (fun a b hab => by simpa using hab) heqField
      have hsame : operands = operands' := by
        cases operands with
        | none => cases operands' with
          | none => rfl
          | some => cases heqOperands
        | some os => cases operands' with
          | none => cases heqOperands
          | some os' =>
            simp only [map_some, Function.comp_apply, canon_arr, List.map_map,
              Option.some.injEq, Json.arr.injEq] at heqOperands
            refine congrArg some (eq_of_map_eq_map (fun x hx y hy hxy => ?_) heqOperands)
            exact ih os rfl x hx (operands_canonical hc hx) (operands_canonical hd hy) hxy
      rw [ConditionOperator.name_injective heqOp, hfields, heqValue, hsame,
        stringArray_canon_inj heqPaths]

end ApiTruth.Updates
