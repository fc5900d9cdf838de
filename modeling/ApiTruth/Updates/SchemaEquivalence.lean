import ApiTruth.Updates.CanonicalSchema
import Mathlib.Data.List.NodupEquivFin

/-!
# Schemas with one canonical form

Two schemas have one canonical form when they agree up to the order of members, and up to order and
repetition in the lists under `type`, `required`, `enum`, `oneOf`, `anyOf` and `allOf` at schema
positions.  `alike` says so without computing canonical forms.  Literals must be stable for this:
the canonicalization leaves them alone.

## Main definitions

* `isStableLiteral` : every list of a literal that would be sorted is sorted already.
* `Position`, `alikeAt`, `alike` : agreement up to order and repetition.
* `StableLiterals` : the literals of a schema are stable.

## Main results

* `canon_canonicalSchema_eq_iff` : schemas with one canonical form are those that are alike.
* `canonicalSchema_literal` : stable literals are their own canonical forms.
-/

namespace ApiTruth.Updates

open ApiTruth.Ir Json List Option OrderedMap Bool

/-! ### Stable literals -/

section Literals

variable (host : Host)

def isValueSet (items : List Json) : Bool :=
  decide (items.Pairwise (Json.canonicalJson · < Json.canonicalJson ·))

/-- The value of a name is not rewritten by `normalizeKeyword`. -/
def isNormalized (keyword : String) (value : Json) : Bool :=
  match keyword, value with
  | "type", .arr items => isStringSet host items
  | "required", .arr items => isStringSet host items
  | "enum", .arr items => isValueSet items
  | "oneOf", .arr items => isValueSet items
  | "anyOf", .arr items => isValueSet items
  | "allOf", .arr items => isValueSet items
  | _, _ => true

mutual

/-- Every list of a literal that would be sorted is sorted already. -/
def isStableLiteral : Json → Bool
  | .arr items => areStableItems items
  | .obj members => areStableMembers members
  | _ => true

/-- `isStableLiteral` on every item. -/
def areStableItems : List Json → Bool
  | [] => true
  | x :: xs => isStableLiteral x && areStableItems xs

/-- `isStableLiteral` on every member value, with normalized values. -/
def areStableMembers : List (String × Json) → Bool
  | [] => true
  | (k, v) :: ms => isStableLiteral v && isNormalized host k v && areStableMembers ms

end

variable {host}

theorem normalizeKeyword_eq_self {keyword : String} {value : Json}
    (h : isNormalized host keyword value = true) :
    normalizeKeyword host keyword value = some value := by
  have hset {items : List Json} (hitems : isValueSet items = true) :
      uniqueSorted Json.canonicalJson items = items :=
    uniqueSorted_eq_self (of_decide_eq_true hitems)
  unfold isNormalized at h
  split at h
  · rw [normalizeKeyword_names (by simp), canonicalStringItems_eq_self h, map_some]
  · rw [normalizeKeyword_names (by simp), canonicalStringItems_eq_self h, map_some]
  · rw [normalizeKeyword_values (by simp), hset h]
  · rw [normalizeKeyword_values (by simp), hset h]
  · rw [normalizeKeyword_values (by simp), hset h]
  · rw [normalizeKeyword_values (by simp), hset h]
  · unfold normalizeKeyword
    split <;> simp_all

variable {xs : List Json}

theorem areStableItems_iff :
    areStableItems host xs = true ↔ ∀ x ∈ xs, isStableLiteral host x = true := by
  induction xs with
  | nil => simp [areStableItems]
  | cons x xs ih => simp [areStableItems, ih]

theorem areStableMembers_iff {ms : List (String × Json)} :
    areStableMembers host ms = true ↔
      ∀ m ∈ ms, isStableLiteral host m.2 = true ∧ isNormalized host m.1 m.2 = true := by
  induction ms with
  | nil => simp [areStableMembers]
  | cons m ms ih => simp [areStableMembers, ih]

/-- Stable literals are their own canonical forms. -/
theorem canonicalSchema_literal (x : Json) (h : isStableLiteral host x = true) :
    canonicalSchema host x = some x := by
  induction x using Json.induction with
  | null | bool _ | num _ | str _ => rfl
  | arr xs ih =>
    rw [isStableLiteral, areStableItems_iff] at h
    rw [canonicalSchema_arr]
    exact ⟨xs, rfl, List.forall₂_same.mpr fun x hx => ih x hx (h x hx)⟩
  | obj ms ih =>
    rw [isStableLiteral, areStableMembers_iff] at h
    rw [canonicalSchema_obj]
    refine ⟨ms, rfl, List.forall₂_same.mpr fun m hm => ⟨rfl, m.2, ih m hm (h m hm).1, ?_⟩⟩
    exact normalizeKeyword_eq_self (h m hm).2

def literalsOf (node : List (String × Json)) : List Json :=
  schemasUnder node "enum" ++ (node.lookup "const").toList

variable (host) in
def StableLiterals (s : Json) : Prop :=
  ∀ node, SchemaPosition s node → ∀ l ∈ literalsOf node, isStableLiteral host l = true

theorem StableLiterals.child {value : List (String × Json)} {c : Json}
    (h : StableLiterals host (.obj value)) (hc : IsSchemaChild value c) : StableLiterals host c :=
  fun node hnode => h node (.child hc hnode)

end Literals

/-! ### Agreement up to order and repetition -/

inductive Position
  | properties | schema | sequence | alternatives | values | literal
deriving DecidableEq

def positionOf (keyword : String) : Position :=
  if keyword = "properties" then .properties
  else if keyword ∈ ["items", "additionalProperties", "not"] then .schema
  else if keyword = "prefixItems" then .sequence
  else if keyword ∈ ["oneOf", "anyOf", "allOf"] then .alternatives
  else if keyword ∈ ["type", "required", "enum"] then .values
  else .literal

/-- The values that stand at a position of an API schema. -/
def AtPosition : Position → Json → Prop
  | .properties, v => ∃ ps, v = .obj ps ∧ ∀ p ∈ ps, isApiSchema p.2 = true
  | .schema, v => isApiSchema v = true ∨ ∃ b, v = .bool b
  | .sequence, v => ∃ xs, v = .arr xs ∧ ∀ x ∈ xs, isApiSchema x = true
  | .alternatives, v => ∃ xs, v = .arr xs ∧ ∀ x ∈ xs, isApiSchema x = true
  | .values, v => (∃ xs, v = .arr xs) ∨ ∃ s, v = .str s
  | .literal, _ => True

variable {key : String} {v : Json}

theorem positionOf_of_isLeafKeyword (h : isLeafKeyword key v = true) :
    positionOf key = .values ∨ positionOf key = .literal := by
  unfold isLeafKeyword at h
  split at h <;> first | exact Or.inl rfl | exact Or.inr rfl | exact absurd h false_ne_true

theorem atPosition_of_keywordShape (h : KeywordShape key v) :
    AtPosition (positionOf key) v := by
  cases h with
  | properties schemas => exact ⟨_, rfl, schemas⟩
  | schema mem isSchema =>
    have hposition : positionOf key = .schema := by
      unfold positionOf
      grind
    rw [hposition]
    exact isSchema
  | sequence schemas => exact ⟨_, rfl, schemas⟩
  | alternatives mem schemas =>
    have hposition : positionOf key = .alternatives := by
      unfold positionOf
      grind
    rw [hposition]
    exact ⟨_, rfl, schemas⟩
  | names mem _ _ =>
    have hposition : positionOf key = .values := by
      unfold positionOf
      grind
    rw [hposition]
    exact .inl ⟨_, rfl⟩
  | values => exact .inl ⟨_, rfl⟩
  | literal => trivial
  | text keyword =>
    rcases positionOf_of_isLeafKeyword keyword with hposition | hposition
    · rw [hposition]
      exact .inr ⟨_, rfl⟩
    · rw [hposition]
      trivial
  | number keyword =>
    have hposition : positionOf key = .literal := by
      unfold isLeafKeyword at keyword
      split at keyword <;> first | rfl | simp_all [isApiTypeName]
    rw [hposition]
    trivial

/-- The same JSON values, in some order and with some repetitions. -/
def sameSet (xs ys : List Json) : Bool :=
  xs.all (fun x => ys.any (sameJson x)) && ys.all (fun y => xs.any (sameJson · y))

mutual

/-- Agreement of two values up to order and repetition where a canonical form ignores them. -/
def alikeAt (position : Position) : Json → Json → Bool
  | .obj ms, w =>
    match position, w with
    | .schema, .obj ns => ms.length == ns.length && alikeMembers positionOf ms ns
    | .properties, .obj ns => ms.length == ns.length && alikeMembers (fun _ => .schema) ms ns
    | _, w => sameJson (.obj ms) w
  | .arr xs, w =>
    match position, w with
    | .sequence, .arr ys => xs.length == ys.length && alikeItems xs ys
    | .alternatives, .arr ys => haveAlike xs ys && ys.all (isAlikeOne xs)
    | .values, .arr ys => sameSet xs ys
    | _, w => sameJson (.arr xs) w
  | v, w => sameJson v w

def alikeMembers (position : String → Position) :
    List (String × Json) → List (String × Json) → Bool
  | [], _ => true
  | (k, v) :: ms, ns => (ns.lookup k).any (alikeAt (position k) v) && alikeMembers position ms ns

def alikeItems : List Json → List Json → Bool
  | x :: xs, y :: ys => alikeAt .schema x y && alikeItems xs ys
  | _, _ => true

/-- Every schema of the first list agrees with a schema of the second. -/
def haveAlike : List Json → List Json → Bool
  | [], _ => true
  | x :: xs, ys => ys.any (alikeAt .schema x) && haveAlike xs ys

/-- Some schema of the list agrees with the given one. -/
def isAlikeOne : List Json → Json → Bool
  | [], _ => false
  | x :: xs, y => alikeAt .schema x y || isAlikeOne xs y

end

/-- Two schemas agree up to the order of members, and up to order and repetition in the lists that
a canonical form sorts. -/
def alike (s t : Json) : Bool := alikeAt .schema s t

section Alike

theorem alikeAt_eq (position : Position) (v w : Json) :
    alikeAt position v w =
      match v with
      | .obj ms =>
        match position, w with
        | .schema, .obj ns => ms.length == ns.length && alikeMembers positionOf ms ns
        | .properties, .obj ns => ms.length == ns.length && alikeMembers (fun _ => .schema) ms ns
        | _, w => sameJson (.obj ms) w
      | .arr xs =>
        match position, w with
        | .sequence, .arr ys => xs.length == ys.length && alikeItems xs ys
        | .alternatives, .arr ys => haveAlike xs ys && ys.all (isAlikeOne xs)
        | .values, .arr ys => sameSet xs ys
        | _, w => sameJson (.arr xs) w
      | v => sameJson v w := by
  rw [alikeAt.eq_def]
  cases v <;> rfl

variable {ms ns : List (String × Json)} {xs ys : List Json}

theorem alikeMembers_iff {position : String → Position} :
    alikeMembers position ms ns = true ↔ ∀ m ∈ ms, ∃ w, ns.lookup m.1 = some w ∧
      alikeAt (position m.1) m.2 w = true := by
  induction ms with
  | nil => simp [alikeMembers]
  | cons m ms ih =>
    rw [alikeMembers, and_eq_true, ih, forall_mem_cons, Option.any_eq_true]

theorem alikeItems_iff (h : xs.length = ys.length) :
    alikeItems xs ys = true ↔ List.Forall₂ (fun x y => alike x y = true) xs ys := by
  induction xs generalizing ys with
  | nil =>
    obtain rfl := List.length_eq_zero_iff.mp h.symm
    simp [alikeItems]
  | cons x xs ih =>
    cases ys with
    | nil => simp at h
    | cons y ys =>
      rw [alikeItems, and_eq_true, ih (by simpa using h), forall₂_cons]
      rfl

theorem haveAlike_iff :
    haveAlike xs ys = true ↔ ∀ x ∈ xs, ∃ y ∈ ys, alike x y = true := by
  induction xs with
  | nil => simp [haveAlike]
  | cons x xs ih =>
    rw [haveAlike, and_eq_true, ih, forall_mem_cons, List.any_eq_true]
    rfl

theorem isAlikeOne_iff {y : Json} :
    isAlikeOne xs y = true ↔ ∃ x ∈ xs, alike x y = true := by
  induction xs with
  | nil => simp [isAlikeOne]
  | cons x xs ih =>
    rw [isAlikeOne, or_eq_true, ih, exists_mem_cons_iff]
    rfl

theorem alike_obj :
    alike (.obj ms) (.obj ns) = true ↔ ms.length = ns.length ∧ ∀ m ∈ ms, ∃ w,
      ns.lookup m.1 = some w ∧ alikeAt (positionOf m.1) m.2 w = true := by
  rw [alike, alikeAt_eq]
  rw [and_eq_true, alikeMembers_iff, Nat.beq_eq_true_eq]

theorem alikeAt_properties :
    alikeAt .properties (.obj ms) (.obj ns) = true ↔ ms.length = ns.length ∧ ∀ m ∈ ms, ∃ w,
      ns.lookup m.1 = some w ∧ alike m.2 w = true := by
  rw [alikeAt_eq]
  rw [and_eq_true, alikeMembers_iff, Nat.beq_eq_true_eq]
  rfl

theorem alikeAt_sequence :
    alikeAt .sequence (.arr xs) (.arr ys) = true ↔
      List.Forall₂ (fun x y => alike x y = true) xs ys := by
  rw [alikeAt_eq]
  rw [and_eq_true, Nat.beq_eq_true_eq]
  constructor
  · rintro ⟨hlength, h⟩
    exact (alikeItems_iff hlength).mp h
  · intro h
    exact ⟨h.length_eq, (alikeItems_iff h.length_eq).mpr h⟩

theorem alikeAt_alternatives :
    alikeAt .alternatives (.arr xs) (.arr ys) = true ↔
      (∀ x ∈ xs, ∃ y ∈ ys, alike x y = true) ∧ ∀ y ∈ ys, ∃ x ∈ xs, alike x y = true := by
  rw [alikeAt_eq]
  rw [and_eq_true, haveAlike_iff, List.all_eq_true]
  simp only [isAlikeOne_iff]

theorem sameJson_iff {a b : Json} : sameJson a b = true ↔ canon a = canon b := by
  rw [sameJson, decide_eq_true_iff]

theorem alikeAt_values :
    alikeAt .values (.arr xs) (.arr ys) = true ↔
      (∀ x ∈ xs, ∃ y ∈ ys, canon x = canon y) ∧ ∀ y ∈ ys, ∃ x ∈ xs, canon x = canon y := by
  rw [alikeAt_eq]
  simp only [sameSet, and_eq_true, List.all_eq_true, List.any_eq_true, sameJson_iff]

theorem alikeAt_literal {v w : Json} : alikeAt .literal v w = true ↔ canon v = canon w := by
  have h : alikeAt .literal v w = sameJson v w := by
    rw [alikeAt_eq]
    cases v <;> rfl
  rw [h, sameJson_iff]

end Alike

/-! ### Schemas with stable literals -/

section Stable

variable {host : Host}

/-- Equal objects after a change of their values, when the changed values of a name are equal
exactly for values that are related. -/
theorem canon_obj_eq_iff_members {R A : String → Json → Json → Prop}
    {ms ms' ns ns' : List (String × Json)}
    (hms : List.Forall₂ (fun m n => n.1 = m.1 ∧ R m.1 m.2 n.2) ms ms')
    (hns : List.Forall₂ (fun m n => n.1 = m.1 ∧ R m.1 m.2 n.2) ns ns')
    (hmsnames : (ms.map Prod.fst).Nodup) (hnsnames : (ns.map Prod.fst).Nodup)
    (h : ∀ name v w v' w', ms.lookup name = some v → ns.lookup name = some w → R name v v' →
      R name w w' → (canon v' = canon w' ↔ A name v w)) :
    canon (.obj ms') = canon (.obj ns') ↔ ms.length = ns.length ∧
      ∀ m ∈ ms, ∃ w, ns.lookup m.1 = some w ∧ A m.1 m.2 w := by
  have hnames {us us' : List (String × Json)}
      (hus : List.Forall₂ (fun m n => n.1 = m.1 ∧ R m.1 m.2 n.2) us us') :
      us'.map Prod.fst = us.map Prod.fst := (hus.imp fun _ _ hmn => hmn.1.symm).map_eq.symm
  rw [canon_obj_eq_iff_lookup (hnames hms ▸ hmsnames) (hnames hns ▸ hnsnames), hms.length_eq,
    hns.length_eq]
  refine and_congr_right fun _ => ?_
  have hms' {m : String × Json} (hm : m ∈ ms) := (lookup_eq_some_iff hmsnames).mpr hm
  have hns' {n : String × Json} (hn : n ∈ ns) := (lookup_eq_some_iff hnsnames).mpr hn
  constructor
  · intro hall m hm
    obtain ⟨m', hm', hname, hR⟩ := hms.exists_right hm
    obtain ⟨w', hw', hcanon⟩ := hall m' hm'
    obtain ⟨n, hn, hname', hR'⟩ := hns.exists_left (mem_of_lookup hw')
    simp only [hname] at hname'
    refine ⟨n.2, hname' ▸ hns' hn, ?_⟩
    exact (h m.1 m.2 n.2 m'.2 w' (hms' hm) (hname' ▸ hns' hn) hR (hname' ▸ hR')).mp hcanon
  · intro hall m' hm'
    obtain ⟨m, hm, hname, hR⟩ := hms.exists_left hm'
    obtain ⟨w, hw, hA⟩ := hall m hm
    obtain ⟨n', hn', hname', hR'⟩ := hns.exists_right (mem_of_lookup hw)
    refine ⟨n'.2, ?_, ?_⟩
    · rw [lookup_eq_some_iff (hnames hns ▸ hnsnames), hname, ← hname']
      exact hn'
    · exact (h m.1 m.2 w m'.2 n'.2 (hms' hm) hw hR hR').mpr hA

/-- An API schema as a parser leaves it, with stable literals. -/
structure StableSchema (host : Host) (s : Json) : Prop where
  isApiSchema : isApiSchema s = true
  wellFormed : WellFormed s
  literals : StableLiterals host s

namespace StableSchema

variable {ms : List (String × Json)} {name : String}

section

variable (h : StableSchema host (.obj ms))
include h

theorem shape (hv : ms.lookup name = some v) : KeywordShape name v :=
  keywordShape_of_mem h.isApiSchema (mem_of_lookup hv)

theorem atPosition
    (hv : ms.lookup name = some v) {position : Position} (hposition : positionOf name = position) :
    AtPosition position v :=
  hposition ▸ atPosition_of_keywordShape (h.shape hv)

theorem names_nodup : (ms.map Prod.fst).Nodup := by
  cases h.wellFormed with
  | obj names _ => exact names

theorem wellFormed_of_lookup (hv : ms.lookup name = some v) : WellFormed v := by
  cases h.wellFormed with
  | obj _ values => exact values _ (mem_of_lookup hv)

theorem child {c : Json} (hc : IsSchemaChild ms c)
    (hschema : Ir.isApiSchema c = true) (hwf : WellFormed c) : StableSchema host c :=
  ⟨hschema, hwf, h.literals.child hc⟩

theorem property {ps : List (String × Json)}
    (hps : ms.lookup "properties" = some (.obj ps)) {p : String × Json} (hp : p ∈ ps) :
    IsSchemaChild ms p.2 ∧ StableSchema host p.2 := by
  have hmem : (p.1, p.2) ∈ propertySchemas ms := by
    rw [propertySchemas, hps]
    exact hp
  have hchild : IsSchemaChild ms p.2 := .property hmem
  refine ⟨hchild, h.child hchild ?_ ?_⟩
  · obtain ⟨_, ⟨⟩, schemas⟩ := h.atPosition hps rfl
    exact schemas p hp
  · cases h.wellFormed_of_lookup hps with
    | obj _ values => exact values p hp

theorem item {key : String} (hkey : key ∈ ["allOf", "anyOf", "oneOf", "prefixItems"])
    (hxs : ms.lookup key = some (.arr xs)) {x : Json} (hx : x ∈ xs) :
    IsSchemaChild ms x ∧ StableSchema host x := by
  have hchild : IsSchemaChild ms x := .item hkey (by
    rw [schemasUnder, hxs]
    exact hx)
  refine ⟨hchild, h.child hchild ?_ ?_⟩
  · have hposition : positionOf key = .sequence ∨ positionOf key = .alternatives := by
      unfold positionOf
      grind
    rcases hposition with hposition | hposition
    · obtain ⟨_, ⟨⟩, schemas⟩ := h.atPosition hxs hposition
      exact schemas x hx
    · obtain ⟨_, ⟨⟩, schemas⟩ := h.atPosition hxs hposition
      exact schemas x hx
  · cases h.wellFormed_of_lookup hxs with
    | arr items => exact items x hx

theorem schema {key : String} {c : List (String × Json)}
    (hkey : key ∈ ["items", "additionalProperties", "not"])
    (hc : ms.lookup key = some (.obj c)) :
    IsSchemaChild ms (.obj c) ∧ StableSchema host (.obj c) := by
  have hchild : IsSchemaChild ms (.obj c) := .schema hkey hc
  refine ⟨hchild, h.child hchild ?_ (h.wellFormed_of_lookup hc)⟩
  have hposition : positionOf key = .schema := by
    unfold positionOf
    grind
  exact (h.atPosition hc hposition).resolve_right (by rintro ⟨b, ⟨⟩⟩)

theorem isStableLiteral_enum (hxs : ms.lookup "enum" = some (.arr xs)) :
    ∀ x ∈ xs, isStableLiteral host x = true := by
  intro x hx
  refine h.literals ms (.root ms) x (mem_append_left _ ?_)
  rw [schemasUnder, hxs]
  exact hx

theorem isStableLiteral_const
    (hv : ms.lookup "const" = some v) : isStableLiteral host v = true := by
  refine h.literals ms (.root ms) v (mem_append_right _ ?_)
  rw [hv]
  exact mem_toList.mpr rfl

theorem isStableLiteral_of_literal
    (hposition : positionOf key = .literal) (hv : ms.lookup key = some v) :
    isStableLiteral host v = true := by
  cases h.shape hv with
  | literal => exact h.isStableLiteral_const hv
  | text _ | number _ => rfl
  | properties _ | sequence _ | values => exact absurd hposition (by decide)
  | schema mem _ | alternatives mem _ | names mem _ _ =>
    unfold positionOf at hposition
    grind

end

end StableSchema

theorem eq_of_positionOf_properties (h : positionOf key = .properties) :
    key = "properties" := by
  unfold positionOf at h
  grind

theorem mem_of_positionOf_schema (h : positionOf key = .schema) :
    key ∈ ["items", "additionalProperties", "not"] := by
  unfold positionOf at h
  grind

theorem eq_of_positionOf_sequence (h : positionOf key = .sequence) :
    key = "prefixItems" := by
  unfold positionOf at h
  grind

theorem mem_of_positionOf_alternatives (h : positionOf key = .alternatives) :
    key ∈ ["oneOf", "anyOf", "allOf"] := by
  unfold positionOf at h
  grind

theorem mem_of_positionOf_values (h : positionOf key = .values) :
    key ∈ ["type", "required"] ∨ key = "enum" := by
  unfold positionOf at h
  grind

theorem notMem_sortedKeywords {position : Position}
    (h : positionOf key = position) (hvalues : position ≠ .values)
    (halternatives : position ≠ .alternatives) : key ∉ sortedKeywords := by
  subst h
  unfold positionOf at hvalues halternatives
  unfold sortedKeywords
  grind

theorem names_of_shape (hkey : key ∈ ["type", "required"]) (h : KeywordShape key (.arr xs)) :
    (∀ x ∈ xs, ∃ s, x = .str s) ∧ xs.Nodup := by
  cases h with
  | names _ strings nodup => exact ⟨strings, nodup⟩
  | schema mem _ | alternatives mem _ => grind
  | sequence _ | values | literal => simp at hkey

variable {xs ys : List Json} {v' : Json}

theorem canon_arr_uniqueSorted_eq_iff :
    canon (.arr (uniqueSorted Json.canonicalJson xs)) =
        canon (.arr (uniqueSorted Json.canonicalJson ys)) ↔
      (∀ x ∈ xs, ∃ y ∈ ys, canon x = canon y) ∧ ∀ y ∈ ys, ∃ x ∈ xs, canon x = canon y := by
  have htext (us : List Json) : us.map Json.canonicalJson = (us.map canon).map stringify := by
    rw [List.map_map]
    rfl
  have hiff : (uniqueSorted Json.canonicalJson xs).map Json.canonicalJson =
      (uniqueSorted Json.canonicalJson ys).map Json.canonicalJson ↔ _ := map_uniqueSorted_eq_iff
  rw [htext, htext, stringify_injective.list_map.eq_iff] at hiff
  rw [canon_arr, canon_arr, Json.arr.injEq, hiff]
  simp only [canonicalJson_inj]

/-- Two schemas have one canonical form exactly when they are alike. -/
def Agree (host : Host) (a b : Json) : Prop :=
  ∀ a' b', canonicalSchema host a = some a' → canonicalSchema host b = some b' →
    (canon a' = canon b' ↔ alike a b = true)

theorem Normalized.of_notMem {v v' : Json} (h : Normalized host key v v')
    (hkey : key ∉ sortedKeywords) : canonicalSchema host v = some v' := by
  obtain ⟨w, hw, hv'⟩ := h
  rw [normalizeKeyword_of_notMem hkey] at hv'
  rw [hw, hv']

theorem Normalized.of_obj {ms : List (String × Json)}
    (h : Normalized host key (.obj ms) v') : canonicalSchema host (.obj ms) = some v' := by
  obtain ⟨w, hw, hv'⟩ := h
  obtain ⟨ns, rfl, _⟩ := canonicalSchema_obj.mp hw
  rw [normalizeKeyword_of_ne_arr key (by simp)] at hv'
  rw [hw, hv']

theorem exists_obj_of_isApiSchema {s : Json} (h : isApiSchema s = true) : ∃ ms, s = .obj ms := by
  cases s with
  | obj ms => exact ⟨ms, rfl⟩
  | _ => simp [isApiSchema] at h

theorem canonicalSchema_properties {ps : List (String × Json)} {t : Json}
    (hps : ∀ p ∈ ps, isApiSchema p.2 = true) :
    canonicalSchema host (.obj ps) = some t ↔ ∃ qs, t = .obj qs ∧
      List.Forall₂ (fun p q => q.1 = p.1 ∧ canonicalSchema host p.2 = some q.2) ps qs := by
  rw [canonicalSchema_obj]
  refine exists_congr fun qs => and_congr_right fun _ => ?_
  constructor
  · intro h
    refine ((forall₂_and_left ps qs).mpr ⟨hps, h⟩).imp fun p q ⟨hp, hpq⟩ => ⟨hpq.name, ?_⟩
    obtain ⟨ms, hms⟩ := exists_obj_of_isApiSchema hp
    have hvalue : Normalized host p.1 (.obj ms) q.2 := hms ▸ hpq.value
    rw [hms]
    exact hvalue.of_obj
  · intro h
    refine ((forall₂_and_left ps qs).mpr ⟨hps, h⟩).imp fun p q ⟨hp, hname, hpq⟩ => ⟨hname, q.2, hpq, ?_⟩
    obtain ⟨ms, hms⟩ := exists_obj_of_isApiSchema hp
    rw [hms] at hpq
    obtain ⟨ns, hns, _⟩ := canonicalSchema_obj.mp hpq
    exact normalizeKeyword_of_ne_arr p.1 (by simp [hns])

section Keywords

variable {ms ns : List (String × Json)} (hms : StableSchema host (.obj ms))
  (hns : StableSchema host (.obj ns))
  (ih : ∀ c d, IsSchemaChild ms c → StableSchema host c → StableSchema host d → Agree host c d)

include hms hns ih

variable {v w v' w' : Json}

theorem agree_properties (hv : ms.lookup "properties" = some v)
    (hw : ns.lookup "properties" = some w) (hv' : Normalized host "properties" v v')
    (hw' : Normalized host "properties" w w') :
    canon v' = canon w' ↔ alikeAt .properties v w = true := by
  obtain ⟨ps, rfl, hps⟩ := hms.atPosition hv rfl
  obtain ⟨qs, rfl, hqs⟩ := hns.atPosition hw rfl
  obtain ⟨ps', rfl, hps'⟩ := (canonicalSchema_properties hps).mp hv'.of_obj
  obtain ⟨qs', rfl, hqs'⟩ := (canonicalSchema_properties hqs).mp hw'.of_obj
  have hpsnames : (ps.map Prod.fst).Nodup := by
    cases hms.wellFormed_of_lookup hv with
    | obj names _ => exact names
  have hqsnames : (qs.map Prod.fst).Nodup := by
    cases hns.wellFormed_of_lookup hw with
    | obj names _ => exact names
  rw [alikeAt_properties]
  refine canon_obj_eq_iff_members (R := fun _ c c' => canonicalSchema host c = some c')
    (A := fun _ c d => alike c d = true) hps' hqs' hpsnames hqsnames ?_
  intro name c d c' d' hc hd hc' hd'
  obtain ⟨hchild, hstable⟩ := hms.property hv (mem_of_lookup hc)
  exact ih c d hchild hstable (hns.property hw (mem_of_lookup hd)).2 c' d' hc' hd'

theorem agree_items (hkey : key ∈ ["allOf", "anyOf", "oneOf", "prefixItems"])
    (hxs : ms.lookup key = some (.arr xs)) (hys : ns.lookup key = some (.arr ys))
    {x y x' y' : Json} (hx : x ∈ xs) (hy : y ∈ ys) (hx' : canonicalSchema host x = some x')
    (hy' : canonicalSchema host y = some y') : canon x' = canon y' ↔ alike x y = true := by
  obtain ⟨hchild, hstable⟩ := hms.item hkey hxs hx
  exact ih x y hchild hstable (hns.item hkey hys hy).2 x' y' hx' hy'

theorem agree_sequence {v' w' : Json}
    (hxs : ms.lookup "prefixItems" = some (.arr xs)) (hys : ns.lookup "prefixItems" = some (.arr ys))
    (hv' : Normalized host "prefixItems" (.arr xs) v')
    (hw' : Normalized host "prefixItems" (.arr ys) w') :
    canon v' = canon w' ↔ alikeAt .sequence (.arr xs) (.arr ys) = true := by
  have hkey : "prefixItems" ∉ sortedKeywords := by simp [sortedKeywords]
  obtain ⟨xs', rfl, hxs'⟩ := canonicalSchema_arr.mp (hv'.of_notMem hkey)
  obtain ⟨ys', rfl, hys'⟩ := canonicalSchema_arr.mp (hw'.of_notMem hkey)
  rw [alikeAt_sequence, canon_arr, canon_arr, Json.arr.injEq, ← forall₂_eq_eq_eq,
    forall₂_map_left_iff, forall₂_map_right_iff]
  exact forall₂_congr_of_forall₂ hxs' hys' fun x hx y hy x' y' hx' hy' =>
    (agree_items hms hns ih (by simp) hxs hys hx hy hx' hy').symm

theorem agree_alternatives (hkey : key ∈ ["oneOf", "anyOf", "allOf"]) {v' w' : Json}
    (hxs : ms.lookup key = some (.arr xs)) (hys : ns.lookup key = some (.arr ys))
    (hv' : Normalized host key (.arr xs) v') (hw' : Normalized host key (.arr ys) w') :
    canon v' = canon w' ↔ alikeAt .alternatives (.arr xs) (.arr ys) = true := by
  have hsorted : key ∈ ["enum", "oneOf", "anyOf", "allOf"] := mem_cons_of_mem _ hkey
  have hlist : key ∈ ["allOf", "anyOf", "oneOf", "prefixItems"] := by grind
  obtain ⟨a, ha, hv'⟩ := hv'
  obtain ⟨b, hb, hw'⟩ := hw'
  obtain ⟨xs', rfl, hxs'⟩ := canonicalSchema_arr.mp ha
  obtain ⟨ys', rfl, hys'⟩ := canonicalSchema_arr.mp hb
  rw [normalizeKeyword_values hsorted] at hv' hw'
  cases hv'
  cases hw'
  have hitems {x y x' y' : Json} (hx : x ∈ xs) (hy : y ∈ ys)
      (hx' : canonicalSchema host x = some x') (hy' : canonicalSchema host y = some y') :
      canon x' = canon y' ↔ alike x y = true := agree_items hms hns ih hlist hxs hys hx hy hx' hy'
  rw [canon_arr_uniqueSorted_eq_iff, alikeAt_alternatives]
  constructor
  · rintro ⟨hleft, hright⟩
    refine ⟨fun x hx => ?_, fun y hy => ?_⟩
    · obtain ⟨x', hx', hxx'⟩ := hxs'.exists_right hx
      obtain ⟨y', hy', hcanon⟩ := hleft x' hx'
      obtain ⟨y, hy, hyy'⟩ := hys'.exists_left hy'
      exact ⟨y, hy, (hitems hx hy hxx' hyy').mp hcanon⟩
    · obtain ⟨y', hy', hyy'⟩ := hys'.exists_right hy
      obtain ⟨x', hx', hcanon⟩ := hright y' hy'
      obtain ⟨x, hx, hxx'⟩ := hxs'.exists_left hx'
      exact ⟨x, hx, (hitems hx hy hxx' hyy').mp hcanon⟩
  · rintro ⟨hleft, hright⟩
    refine ⟨fun x' hx' => ?_, fun y' hy' => ?_⟩
    · obtain ⟨x, hx, hxx'⟩ := hxs'.exists_left hx'
      obtain ⟨y, hy, halike⟩ := hleft x hx
      obtain ⟨y', hy', hyy'⟩ := hys'.exists_right hy
      exact ⟨y', hy', (hitems hx hy hxx' hyy').mpr halike⟩
    · obtain ⟨y, hy, hyy'⟩ := hys'.exists_left hy'
      obtain ⟨x, hx, halike⟩ := hright y hy
      obtain ⟨x', hx', hxx'⟩ := hxs'.exists_right hx
      exact ⟨x', hx', (hitems hx hy hxx' hyy').mpr halike⟩

theorem agree_schema (hkey : key ∈ ["items", "additionalProperties", "not"])
    (hposition : positionOf key = .schema) (hv : ms.lookup key = some v)
    (hw : ns.lookup key = some w) (hv' : canonicalSchema host v = some v')
    (hw' : canonicalSchema host w = some w') :
    canon v' = canon w' ↔ alikeAt .schema v w = true := by
  rcases hms.atPosition hv hposition with hvschema | ⟨b, rfl⟩
  · obtain ⟨c, rfl⟩ := exists_obj_of_isApiSchema hvschema
    rcases hns.atPosition hw hposition with hwschema | ⟨b, rfl⟩
    · obtain ⟨d, rfl⟩ := exists_obj_of_isApiSchema hwschema
      obtain ⟨hchild, hstable⟩ := hms.schema hkey hv
      exact ih _ _ hchild hstable (hns.schema hkey hw).2 _ _ hv' hw'
    · obtain ⟨c', rfl, _⟩ := canonicalSchema_obj.mp hv'
      cases hw'
      simp [alikeAt, sameJson, canon_obj]
  · cases hv'
    cases w with
    | obj d =>
      obtain ⟨d', rfl, _⟩ := canonicalSchema_obj.mp hw'
      simp [alikeAt, sameJson, canon_obj]
    | bool b' =>
      cases hw'
      simp [alikeAt, sameJson]
    | _ =>
      have hshape := hns.atPosition hw hposition
      simp [AtPosition, isApiSchema] at hshape

end Keywords

section Values

theorem Normalized.of_str {key s : String} (h : Normalized host key (.str s) v') :
    v' = .str s := by
  obtain ⟨w, hw, hv'⟩ := h
  cases hw
  rw [normalizeKeyword_of_ne_arr key (by simp)] at hv'
  exact (Option.some.inj hv').symm

theorem canonicalSchema_stableItems (hxs : ∀ x ∈ xs, isStableLiteral host x = true) :
    canonicalSchema host (.arr xs) = some (.arr xs) :=
  canonicalSchema_literal (.arr xs) (areStableItems_iff.mpr hxs)

theorem normalized_names (hkey : key ∈ ["type", "required"]) (hxs : ∀ x ∈ xs, ∃ s, x = .str s)
    (h : Normalized host key (.arr xs) v') :
    ∃ xs', v' = .arr xs' ∧ canonicalStringItems host xs = some xs' := by
  obtain ⟨w, hw, hv'⟩ := h
  rw [canonicalSchema_stableItems fun x hx => by obtain ⟨s, rfl⟩ := hxs x hx; rfl] at hw
  cases hw
  rw [normalizeKeyword_names hkey] at hv'
  obtain ⟨xs', hxs', rfl⟩ := map_eq_some_iff.mp hv'
  exact ⟨xs', rfl, hxs'⟩

theorem normalized_enum (hxs : ∀ x ∈ xs, isStableLiteral host x = true)
    (h : Normalized host "enum" (.arr xs) v') :
    v' = .arr (uniqueSorted Json.canonicalJson xs) := by
  obtain ⟨w, hw, hv'⟩ := h
  rw [canonicalSchema_stableItems hxs] at hw
  cases hw
  exact (Option.some.inj hv').symm

theorem map_canon_strings (hxs : ∀ x ∈ xs, ∃ s, x = .str s) :
    xs.map canon = xs := by
  have h : ∀ x ∈ xs, canon x = id x := fun x hx => by
    obtain ⟨s, rfl⟩ := hxs x hx
    rfl
  rw [map_congr_left h, List.map_id]

theorem Normalized.eq_of_literal {us : List (String × Json)}
    (hus : StableSchema host (.obj us)) (hposition : positionOf key = .literal) {v v' : Json}
    (hv : us.lookup key = some v) (hv' : Normalized host key v v') : v' = v := by
  have hsorted := notMem_sortedKeywords hposition (by decide) (by decide)
  have hsome := hv'.of_notMem hsorted
  rw [canonicalSchema_literal v (hus.isStableLiteral_of_literal hposition hv)] at hsome
  exact (Option.some.inj hsome).symm

variable {ms ns : List (String × Json)} (hutf8 : host.Utf8Buffers)
  (hms : StableSchema host (.obj ms)) (hns : StableSchema host (.obj ns))
include hutf8 hms hns

theorem agree_names (hkey : key ∈ ["type", "required"])
    {v' w' : Json} (hxs : ms.lookup key = some (.arr xs)) (hys : ns.lookup key = some (.arr ys))
    (hv' : Normalized host key (.arr xs) v') (hw' : Normalized host key (.arr ys) w') :
    canon v' = canon w' ↔ alikeAt .values (.arr xs) (.arr ys) = true := by
  have hx := (names_of_shape hkey (hms.shape hxs)).1
  have hy := (names_of_shape hkey (hns.shape hys)).1
  obtain ⟨xs', rfl, hxs'⟩ := normalized_names hkey hx hv'
  obtain ⟨ys', rfl, hys'⟩ := normalized_names hkey hy hw'
  have hmap {us us' : List Json} (hus : ∀ u ∈ us, ∃ s, u = .str s)
      (h : canonicalStringItems host us = some us') : us'.map canon = us' :=
    map_canon_strings fun u hu => hus u ((mem_canonicalStringItems hus h).mp hu)
  rw [canon_arr, canon_arr, hmap hx hxs', hmap hy hys', Json.arr.injEq,
    canonicalStringItems_eq_iff hutf8 hx hy hxs' hys', alikeAt_values]
  have hcanon {us us' : List Json} (hus : ∀ u ∈ us, ∃ s, u = .str s)
      (hus' : ∀ u ∈ us', ∃ s, u = .str s) {x y : Json} (hx : x ∈ us) (hy : y ∈ us') :
      canon x = canon y ↔ x = y := by
    obtain ⟨s, rfl⟩ := hus x hx
    obtain ⟨t, rfl⟩ := hus' y hy
    simp
  constructor
  · intro h
    exact ⟨fun x hx => ⟨x, (h x).mp hx, rfl⟩, fun y hy => ⟨y, (h y).mpr hy, rfl⟩⟩
  · rintro ⟨hleft, hright⟩ x
    constructor
    · intro hmem
      obtain ⟨y, hymem, heq⟩ := hleft x hmem
      rwa [(hcanon hx hy hmem hymem).mp heq]
    · intro hmem
      obtain ⟨y, hymem, heq⟩ := hright x hmem
      rwa [← (hcanon hx hy hymem hmem).mp heq]

theorem agree_values (hposition : positionOf key = .values) (hv : ms.lookup key = some v)
    (hw : ns.lookup key = some w) (hv' : Normalized host key v v')
    (hw' : Normalized host key w w') : canon v' = canon w' ↔ alikeAt .values v w = true := by
  have hkey := mem_of_positionOf_values hposition
  have hnotStr {xs : List Json} {u : Json} (h : Normalized host key (.arr xs) u) (s : String) :
      canon u ≠ .str s := by
    obtain ⟨a, ha, hu⟩ := h
    obtain ⟨as, rfl, _⟩ := canonicalSchema_arr.mp ha
    rcases hkey with hkey | rfl
    · rw [normalizeKeyword_names hkey] at hu
      obtain ⟨us, _, rfl⟩ := map_eq_some_iff.mp hu
      simp
    · rw [normalizeKeyword_values (by simp)] at hu
      cases hu
      simp
  rcases hms.atPosition hv hposition with ⟨xs, rfl⟩ | ⟨s, rfl⟩ <;>
    rcases hns.atPosition hw hposition with ⟨ys, rfl⟩ | ⟨t, rfl⟩
  · rcases hkey with hkey | rfl
    · exact agree_names hutf8 hms hns hkey hv hw hv' hw'
    · rw [normalized_enum (hms.isStableLiteral_enum hv) hv', normalized_enum
        (hns.isStableLiteral_enum hw) hw', canon_arr_uniqueSorted_eq_iff, alikeAt_values]
  · rw [hw'.of_str]
    simpa [alikeAt, sameJson] using hnotStr hv' t
  · rw [hv'.of_str]
    simpa [alikeAt, sameJson] using (hnotStr hw' s).symm
  · rw [hv'.of_str, hw'.of_str]
    simp [alikeAt, sameJson]

omit hutf8 in
theorem agree_literal (hposition : positionOf key = .literal) (hv : ms.lookup key = some v)
    (hw : ns.lookup key = some w) (hv' : Normalized host key v v')
    (hw' : Normalized host key w w') : canon v' = canon w' ↔ alikeAt .literal v w = true := by
  rw [hv'.eq_of_literal hms hposition hv, hw'.eq_of_literal hns hposition hw, alikeAt_literal]

end Values

/-- Schemas with stable literals have one canonical form exactly when they are alike. -/
theorem agree (hutf8 : host.Utf8Buffers) {a : Json} (ha : StableSchema host a) {b : Json}
    (hb : StableSchema host b) : Agree host a b := by
  induction a using sizeInduction generalizing b with
  | step a ih =>
    intro a' b' ha' hb'
    obtain ⟨ms, rfl⟩ := exists_obj_of_isApiSchema ha.isApiSchema
    obtain ⟨ns, rfl⟩ := exists_obj_of_isApiSchema hb.isApiSchema
    have hchild : ∀ c d, IsSchemaChild ms c → StableSchema host c → StableSchema host d →
        Agree host c d := fun c d hc hcs hds => ih c hc.sizeOf_lt hcs hds
    obtain ⟨ms', rfl, hms'⟩ := canonicalSchema_obj.mp ha'
    obtain ⟨ns', rfl, hns'⟩ := canonicalSchema_obj.mp hb'
    have hnormalized {us us' : List (String × Json)}
        (h : List.Forall₂ (MemberNormalized host) us us') :
        List.Forall₂ (fun m n => n.1 = m.1 ∧ Normalized host m.1 m.2 n.2) us us' :=
      h.imp fun _ _ hmn => ⟨hmn.name, hmn.value⟩
    rw [alike_obj]
    refine canon_obj_eq_iff_members (A := fun key v w => alikeAt (positionOf key) v w = true)
      (hnormalized hms') (hnormalized hns') ha.names_nodup hb.names_nodup ?_
    intro key v w v' w' hv hw hv' hw'
    cases hposition : positionOf key with
    | properties =>
      obtain rfl := eq_of_positionOf_properties hposition
      exact agree_properties ha hb hchild hv hw hv' hw'
    | schema =>
      have hkey := mem_of_positionOf_schema hposition
      have hsorted := notMem_sortedKeywords hposition (by decide) (by decide)
      exact agree_schema ha hb hchild hkey hposition hv hw (hv'.of_notMem hsorted)
        (hw'.of_notMem hsorted)
    | sequence =>
      obtain rfl := eq_of_positionOf_sequence hposition
      obtain ⟨xs, rfl, _⟩ := ha.atPosition hv rfl
      obtain ⟨ys, rfl, _⟩ := hb.atPosition hw rfl
      exact agree_sequence ha hb hchild hv hw hv' hw'
    | alternatives =>
      have hkey := mem_of_positionOf_alternatives hposition
      obtain ⟨xs, rfl, _⟩ := ha.atPosition hv hposition
      obtain ⟨ys, rfl, _⟩ := hb.atPosition hw hposition
      exact agree_alternatives ha hb hchild hkey hv hw hv' hw'
    | values => exact agree_values hutf8 ha hb hposition hv hw hv' hw'
    | literal => exact agree_literal ha hb hposition hv hw hv' hw'

end Stable

end ApiTruth.Updates
