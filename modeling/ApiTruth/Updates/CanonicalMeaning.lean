import ApiTruth.Updates.SchemaEquivalence

/-!
# The meaning of canonical schemas

The canonical form of a schema accepts the instances that the schema accepts, as long as the
canonicalization leaves the literals of the schema alone and no list under `oneOf` has two
alternatives that become one.

## Main definitions

* `DistinctAlternatives` : no two alternatives under `oneOf` are alike.

## Main results

* `exists_canonicalSchema` : the canonicalization does not raise.
* `accepts_canonicalSchema` : the canonical form accepts the same instances.
-/

namespace ApiTruth.Updates

open ApiTruth.Ir Json List

variable {host : Host}

/-! ### Existence -/

section Existence

variable {key : String}

theorem Normalized.mk_notMem {v v' : Json} (h : canonicalSchema host v = some v')
    (hkey : key ∉ sortedKeywords) : Normalized host key v v' :=
  ⟨v', h, normalizeKeyword_of_notMem hkey v'⟩

variable (hutf8 : host.Utf8Buffers) {ms : List (String × Json)}
  (hms : StableSchema host (.obj ms))
  (ih : ∀ c, IsSchemaChild ms c → StableSchema host c → ∃ t, canonicalSchema host c = some t)
include hutf8 hms

theorem exists_normalized_values (hposition : positionOf key = .values) {v : Json}
    (hv : ms.lookup key = some v) : ∃ v', Normalized host key v v' := by
  rcases hms.atPosition hv hposition with ⟨xs, rfl⟩ | ⟨s, rfl⟩
  · rcases mem_of_positionOf_values hposition with hkey | rfl
    · have hxs := (names_of_shape hkey (hms.shape hv)).1
      obtain ⟨ys, hys⟩ := exists_canonicalStringItems hutf8 hxs
      refine ⟨.arr ys, .arr xs, canonicalSchema_stableItems fun x hx => ?_, ?_⟩
      · obtain ⟨s, rfl⟩ := hxs x hx
        rfl
      · rw [normalizeKeyword_names hkey, hys, Option.map_some]
    · exact ⟨_, _, canonicalSchema_stableItems (hms.isStableLiteral_enum hv),
        normalizeKeyword_values (by simp) xs⟩
  · exact ⟨.str s, .str s, rfl, normalizeKeyword_of_ne_arr key (by simp)⟩

include ih

omit hutf8 in
theorem exists_canonicalItems (hkey : key ∈ ["allOf", "anyOf", "oneOf", "prefixItems"])
    {xs : List Json} (hxs : ms.lookup key = some (.arr xs)) :
    ∃ ys, canonicalSchema host (.arr xs) = some (.arr ys) := by
  obtain ⟨ys, hys⟩ := exists_forall₂ xs
    (R := fun x y => canonicalSchema host x = some y) fun x hx =>
      ih x (hms.item hkey hxs hx).1 (hms.item hkey hxs hx).2
  exact ⟨ys, canonicalSchema_arr.mpr ⟨ys, rfl, hys⟩⟩

theorem exists_normalized {v : Json} (hv : ms.lookup key = some v) :
    ∃ v', Normalized host key v v' := by
  cases hposition : positionOf key with
  | properties =>
    obtain rfl := eq_of_positionOf_properties hposition
    obtain ⟨ps, rfl, hps⟩ := hms.atPosition hv rfl
    obtain ⟨qs, hqs⟩ := exists_forall₂ ps
      (R := fun p (q : String × Json) => q.1 = p.1 ∧ canonicalSchema host p.2 = some q.2) fun p hp => by
        obtain ⟨t, ht⟩ := ih p.2 (hms.property hv hp).1 (hms.property hv hp).2
        exact ⟨(p.1, t), rfl, ht⟩
    exact ⟨.obj qs, .mk_notMem ((canonicalSchema_properties hps).mpr ⟨qs, rfl, hqs⟩) (by decide)⟩
  | schema =>
    have hkey := mem_of_positionOf_schema hposition
    have hsorted := notMem_sortedKeywords hposition (by decide) (by decide)
    rcases hms.atPosition hv hposition with hschema | ⟨b, rfl⟩
    · obtain ⟨c, rfl⟩ := exists_obj_of_isApiSchema hschema
      obtain ⟨t, ht⟩ := ih _ (hms.schema hkey hv).1 (hms.schema hkey hv).2
      exact ⟨t, .mk_notMem ht hsorted⟩
    · exact ⟨.bool b, .mk_notMem rfl hsorted⟩
  | sequence =>
    obtain rfl := eq_of_positionOf_sequence hposition
    obtain ⟨xs, rfl, _⟩ := hms.atPosition hv rfl
    obtain ⟨ys, hys⟩ := exists_canonicalItems hms ih (by simp) hv
    exact ⟨_, .mk_notMem hys (by decide)⟩
  | alternatives =>
    have hkey := mem_of_positionOf_alternatives hposition
    obtain ⟨xs, rfl, _⟩ := hms.atPosition hv hposition
    obtain ⟨ys, hys⟩ := exists_canonicalItems hms ih (by grind) hv
    exact ⟨_, _, hys, normalizeKeyword_values (mem_cons_of_mem _ hkey) ys⟩
  | values => exact exists_normalized_values hutf8 hms hposition hv
  | literal =>
    have hsorted := notMem_sortedKeywords hposition (by decide) (by decide)
    exact ⟨v, .mk_notMem (canonicalSchema_literal v (hms.isStableLiteral_of_literal hposition hv))
      hsorted⟩

end Existence

/-- The canonicalization of a schema with stable literals does not raise. -/
theorem exists_canonicalSchema (hutf8 : host.Utf8Buffers) {s : Json} (hs : StableSchema host s) :
    ∃ t, canonicalSchema host s = some t := by
  induction s using sizeInduction with
  | step s ih =>
    obtain ⟨ms, rfl⟩ := exists_obj_of_isApiSchema hs.isApiSchema
    obtain ⟨ns, hns⟩ := exists_forall₂ ms (R := MemberNormalized host) fun m hm => by
      have hlookup := (OrderedMap.lookup_eq_some_iff hs.names_nodup).mpr hm
      obtain ⟨v', hv'⟩ := exists_normalized hutf8 hs (fun c hc => ih c hc.sizeOf_lt) hlookup
      exact ⟨(m.1, v'), rfl, hv'⟩
    exact ⟨.obj ns, canonicalSchema_obj.mpr ⟨ns, rfl, hns⟩⟩

/-! ### Meaning -/

/-- No two alternatives under `oneOf` are alike. -/
def DistinctAlternatives (s : Json) : Prop :=
  ∀ node, SchemaPosition s node → (schemasUnder node "oneOf").Pairwise (alike · · = false)

theorem DistinctAlternatives.child {value : List (String × Json)} {c : Json}
    (h : DistinctAlternatives (.obj value)) (hc : IsSchemaChild value c) : DistinctAlternatives c :=
  fun node hnode => h node (.child hc hnode)

section Meaning

variable (vocabulary : Vocabulary) {key : String} {xs ys : List Json}

/-- A sorted set of schemas means the same under `allOf`, `anyOf` and `oneOf`, as long as no
alternative of `oneOf` is lost. -/
theorem keywordAccepts_uniqueSorted (schema : List (String × Json))
    (hkey : key ∈ ["oneOf", "anyOf", "allOf"]) {ys : List Json}
    (honeOf : key = "oneOf" → ys.Pairwise (canon · ≠ canon ·)) (x : Json) :
    keywordAccepts vocabulary schema key (.arr (uniqueSorted Json.canonicalJson ys)) x =
      keywordAccepts vocabulary schema key (.arr ys) x := by
  have hkept {y : Json} (hy : y ∈ ys) : ∃ z ∈ uniqueSorted Json.canonicalJson ys,
      accepts vocabulary z x = accepts vocabulary y x := by
    obtain ⟨z, hz, hzy⟩ := exists_mem_uniqueSorted Json.canonicalJson hy
    exact ⟨z, hz, accepts_eq_of_canon_eq vocabulary (canonicalJson_inj.mp hzy) x⟩
  simp only [mem_cons, not_mem_nil, or_false] at hkey
  rcases hkey with rfl | rfl | rfl
  · have hperm : (uniqueSorted Json.canonicalJson ys).Perm ys :=
      uniqueSorted_perm ((honeOf rfl).imp fun hne heq => hne (canonicalJson_inj.mp heq))
    rw [keywordAccepts_oneOf, keywordAccepts_oneOf, hperm.countP_eq]
  · rw [keywordAccepts_anyOf, keywordAccepts_anyOf, Bool.eq_iff_iff, List.any_eq_true,
      List.any_eq_true]
    constructor
    · rintro ⟨z, hz, hzx⟩
      exact ⟨z, mem_of_mem_uniqueSorted _ hz, hzx⟩
    · rintro ⟨y, hy, hyx⟩
      obtain ⟨z, hz, hzy⟩ := hkept hy
      exact ⟨z, hz, hzy.trans hyx⟩
  · rw [keywordAccepts_allOf, keywordAccepts_allOf, Bool.eq_iff_iff, List.all_eq_true,
      List.all_eq_true]
    constructor
    · intro h y hy
      obtain ⟨z, hz, hzy⟩ := hkept hy
      exact hzy ▸ h z hz
    · intro h z hz
      exact h z (mem_of_mem_uniqueSorted _ hz)

/-- The members of a canonical form leave the same to the keywords that depend on others. -/
theorem sameContext_normalized {ms ns : List (String × Json)} (hms : StableSchema host (.obj ms))
    (h : List.Forall₂ (MemberNormalized host) ms ns) : SameContext ns ms where
  names name := by
    unfold propertySchemas
    cases hv : ms.lookup "properties" with
    | none => rw [(lookup_normalized_none h).mpr hv]
    | some v =>
      obtain ⟨w, hw, hvw⟩ := exists_lookup_normalized h hv
      obtain ⟨ps, rfl, hps⟩ := hms.atPosition hv rfl
      obtain ⟨qs, rfl, hqs⟩ := (canonicalSchema_properties hps).mp hvw.of_obj
      rw [hw]
      have hnames : ps.map Prod.fst = qs.map Prod.fst := (hqs.imp fun _ _ hpq => hpq.1.symm).map_eq
      simp only [hnames]
  prefixLength := by
    unfold schemasUnder
    cases hv : ms.lookup "prefixItems" with
    | none => rw [(lookup_normalized_none h).mpr hv]
    | some v =>
      obtain ⟨w, hw, hvw⟩ := exists_lookup_normalized h hv
      obtain ⟨xs, rfl, _⟩ := hms.atPosition hv rfl
      obtain ⟨ys, rfl, hys⟩ := canonicalSchema_arr.mp (hvw.of_notMem (by decide))
      rw [hw]
      exact hys.length_eq.symm

theorem isAssertion_of_literal (h : positionOf key = .literal) (v : Json) :
    isAssertion key v = true := by
  unfold isAssertion
  split <;> first | rfl | exact absurd h (by decide)

theorem assertion_names (hkey : key ∈ ["type", "required"]) (h : ∀ y, y ∈ ys ↔ y ∈ xs) (x : Json) :
    assertion vocabulary key (.arr ys) x = assertion vocabulary key (.arr xs) x := by
  have hany (p : Json → Bool) : ys.any p = xs.any p := by
    rw [Bool.eq_iff_iff, List.any_eq_true, List.any_eq_true]
    simp only [h]
  have hall (p : Json → Bool) : ys.all p = xs.all p := by
    rw [Bool.eq_iff_iff, List.all_eq_true, List.all_eq_true]
    simp only [h]
  simp only [mem_cons, not_mem_nil, or_false] at hkey
  rcases hkey with rfl | rfl
  · exact hany _
  · exact congrArg (!isObject x || ·) (hall _)

theorem assertion_enum (xs : List Json) (x : Json) :
    assertion vocabulary "enum" (.arr (uniqueSorted Json.canonicalJson xs)) x =
      assertion vocabulary "enum" (.arr xs) x := by
  change (uniqueSorted Json.canonicalJson xs).any (sameJson · x) = xs.any (sameJson · x)
  rw [Bool.eq_iff_iff, List.any_eq_true, List.any_eq_true]
  constructor
  · rintro ⟨y, hy, hyx⟩
    exact ⟨y, mem_of_mem_uniqueSorted _ hy, hyx⟩
  · rintro ⟨y, hy, hyx⟩
    obtain ⟨z, hz, hzy⟩ := exists_mem_uniqueSorted Json.canonicalJson hy
    exact ⟨z, hz, (sameJson_congr (canonicalJson_inj.mp hzy) x).trans hyx⟩

section Keyword

variable {vocabulary} {ms ns : List (String × Json)} (hms : StableSchema host (.obj ms))
  (hcontext : SameContext ns ms)
  (ih : ∀ c t, IsSchemaChild ms c → StableSchema host c → canonicalSchema host c = some t →
    ∀ x, accepts vocabulary t x = accepts vocabulary c x)
include hms

variable {v v' : Json}

theorem keywordAccepts_normalized_values (hposition : positionOf key = .values)
    (hv : ms.lookup key = some v) (hv' : Normalized host key v v') (x : Json) :
    keywordAccepts vocabulary ns key v' x = keywordAccepts vocabulary ms key v x := by
  rcases hms.atPosition hv hposition with ⟨xs, rfl⟩ | ⟨s, rfl⟩
  · rcases mem_of_positionOf_values hposition with hkey | rfl
    · have hxs := (names_of_shape hkey (hms.shape hv)).1
      have hassertion (us : List Json) : isAssertion key (.arr us) = true := by
        simp only [mem_cons, not_mem_nil, or_false] at hkey
        rcases hkey with rfl | rfl <;> rfl
      obtain ⟨ys, rfl, hys⟩ := normalized_names hkey hxs hv'
      rw [keywordAccepts_assertion _ _ _ (hassertion ys), keywordAccepts_assertion _ _ _ (hassertion
        xs), assertion_names vocabulary hkey fun y => mem_canonicalStringItems hxs hys]
    · rw [normalized_enum (hms.isStableLiteral_enum hv) hv', keywordAccepts_assertion _ _ _ rfl,
        keywordAccepts_assertion _ _ _ rfl, assertion_enum]
  · have hassertion : isAssertion key (.str s) = true := by
      rcases mem_of_positionOf_values hposition with hkey | rfl
      · simp only [mem_cons, not_mem_nil, or_false] at hkey
        rcases hkey with rfl | rfl <;> rfl
      · rfl
    rw [hv'.of_str, keywordAccepts_assertion _ _ _ hassertion,
      keywordAccepts_assertion _ _ _ hassertion]

include ih

theorem keywordAccepts_normalized_properties
    (hv : ms.lookup "properties" = some v) (hv' : Normalized host "properties" v v') (x : Json) :
    keywordAccepts vocabulary ns "properties" v' x =
      keywordAccepts vocabulary ms "properties" v x := by
  obtain ⟨ps, rfl, hps⟩ := hms.atPosition hv rfl
  obtain ⟨qs, rfl, hqs⟩ := (canonicalSchema_properties hps).mp hv'.of_obj
  rw [keywordAccepts_properties, keywordAccepts_properties]
  have hmap : ps.map (fun p => ((membersOf x).lookup p.1).all (accepts vocabulary p.2 ·)) =
      qs.map fun q => ((membersOf x).lookup q.1).all (accepts vocabulary q.2 ·) := by
    refine ((forall₂_and_left ps qs).mpr ⟨fun p hp => hms.property hv hp, hqs⟩).imp
      (fun p q ⟨⟨hchild, hstable⟩, hname, hpq⟩ => ?_) |>.map_eq
    simp only [hname, ih p.2 q.2 hchild hstable hpq]
  simpa only [List.all_map, Function.id_comp] using congrArg (List.all · id) hmap.symm

theorem forall₂_accepts (hkey : key ∈ ["allOf", "anyOf", "oneOf", "prefixItems"])
    (hxs : ms.lookup key = some (.arr xs))
    (hys : List.Forall₂ (fun x y => canonicalSchema host x = some y) xs ys) :
    List.Forall₂ (fun y x => ∀ i, accepts vocabulary y i = accepts vocabulary x i) ys xs :=
  (((forall₂_and_left xs ys).mpr ⟨fun _ hc => hms.item hkey hxs hc, hys⟩).imp
    fun c t ⟨⟨hchild, hstable⟩, hct⟩ => ih c t hchild hstable hct).flip

theorem keywordAccepts_normalized_alternatives (hutf8 : host.Utf8Buffers)
    (hdistinct : DistinctAlternatives (.obj ms)) (hkey : key ∈ ["oneOf", "anyOf", "allOf"])
    {xs : List Json} {v' : Json} (hv : ms.lookup key = some (.arr xs))
    (hv' : Normalized host key (.arr xs) v') (x : Json) :
    keywordAccepts vocabulary ns key v' x = keywordAccepts vocabulary ms key (.arr xs) x := by
  have hlist : key ∈ ["allOf", "anyOf", "oneOf", "prefixItems"] := by grind
  obtain ⟨w, hw, hv'⟩ := hv'
  obtain ⟨ys, rfl, hys⟩ := canonicalSchema_arr.mp hw
  rw [normalizeKeyword_values (mem_cons_of_mem _ hkey)] at hv'
  cases hv'
  have hpairwise : key = "oneOf" → ys.Pairwise (canon · ≠ canon ·) := by
    rintro rfl
    have halike : xs.Pairwise (alike · · = false) := by
      have hroot := hdistinct ms (.root ms)
      rwa [schemasUnder, hv] at hroot
    refine hys.pairwise halike fun z hz z' hz' y y' hy hy' hfalse heq => ?_
    have hagree := agree hutf8 (hms.item hlist hv hz).2 (hms.item hlist hv hz').2 y y' hy hy'
    rw [hagree.mp heq] at hfalse
    exact Bool.noConfusion hfalse
  rw [keywordAccepts_uniqueSorted vocabulary ns hkey hpairwise]
  exact keywordAccepts_schemas_congr vocabulary hlist (forall₂_accepts hms ih hlist hv hys) x

include hcontext

theorem keywordAccepts_normalized (hutf8 : host.Utf8Buffers)
    (hdistinct : DistinctAlternatives (.obj ms))
    (hv : ms.lookup key = some v) (hv' : Normalized host key v v') (x : Json) :
    keywordAccepts vocabulary ns key v' x = keywordAccepts vocabulary ms key v x := by
  cases hposition : positionOf key with
  | properties =>
    obtain rfl := eq_of_positionOf_properties hposition
    exact keywordAccepts_normalized_properties hms ih hv hv' x
  | schema =>
    have hkey := mem_of_positionOf_schema hposition
    have hsome := hv'.of_notMem (notMem_sortedKeywords hposition (by decide) (by decide))
    refine keywordAccepts_schema_congr vocabulary hcontext hkey (fun y => ?_) x
    rcases hms.atPosition hv hposition with hschema | ⟨b, rfl⟩
    · obtain ⟨c, rfl⟩ := exists_obj_of_isApiSchema hschema
      obtain ⟨hchild, hstable⟩ := hms.schema hkey hv
      exact ih _ _ hchild hstable hsome y
    · rw [Option.some.inj hsome]
  | sequence =>
    obtain rfl := eq_of_positionOf_sequence hposition
    obtain ⟨xs, rfl, _⟩ := hms.atPosition hv rfl
    obtain ⟨ys, rfl, hys⟩ := canonicalSchema_arr.mp (hv'.of_notMem (by decide))
    exact keywordAccepts_schemas_congr vocabulary (by simp)
      (forall₂_accepts hms ih (by simp) hv hys) x
  | alternatives =>
    obtain ⟨xs, rfl, _⟩ := hms.atPosition hv hposition
    exact keywordAccepts_normalized_alternatives hms ih hutf8 hdistinct
      (mem_of_positionOf_alternatives hposition) hv hv' x
  | values => exact keywordAccepts_normalized_values hms hposition hv hv' x
  | literal =>
    have hassertion := isAssertion_of_literal hposition v
    rw [hv'.eq_of_literal hms hposition hv, keywordAccepts_assertion _ _ _ hassertion,
      keywordAccepts_assertion _ _ _ hassertion]

end Keyword

/-- The canonical form of a schema with stable literals and distinct alternatives accepts the
instances that the schema accepts. -/
theorem accepts_canonicalSchema (hutf8 : host.Utf8Buffers) {s : Json} (hs : StableSchema host s)
    (hdistinct : DistinctAlternatives s) {t : Json} (ht : canonicalSchema host s = some t) (x : Json) :
    accepts vocabulary t x = accepts vocabulary s x := by
  induction s using sizeInduction generalizing t x with
  | step s ih =>
    obtain ⟨ms, rfl⟩ := exists_obj_of_isApiSchema hs.isApiSchema
    obtain ⟨ns, rfl, hns⟩ := canonicalSchema_obj.mp ht
    have hchild : ∀ c t, IsSchemaChild ms c → StableSchema host c → canonicalSchema host c = some t →
        ∀ x, accepts vocabulary t x = accepts vocabulary c x := fun c t hc hcs hct x =>
      ih c hc.sizeOf_lt hcs (hdistinct.child hc) hct x
    have hmap : ms.map (fun m => keywordAccepts vocabulary ms m.1 m.2 x) =
        ns.map fun n => keywordAccepts vocabulary ns n.1 n.2 x := by
      have hlookup (m : String × Json) (hm : m ∈ ms) : ms.lookup m.1 = some m.2 :=
        (OrderedMap.lookup_eq_some_iff hs.names_nodup).mpr hm
      refine ((forall₂_and_left ms ns).mpr ⟨hlookup, hns⟩).imp (fun m n ⟨hm, hmn⟩ => ?_) |>.map_eq
      rw [hmn.name, keywordAccepts_normalized hs (sameContext_normalized hs hns) hchild hutf8
        hdistinct hm hmn.value]
    rw [accepts_obj, accepts_obj]
    simpa only [List.all_map, Function.id_comp] using congrArg (List.all · id) hmap.symm

end Meaning

/-! ### Canonicalization preserves meaning -/

instance (s : Json) : Decidable (StableLiterals host s) :=
  decidable_of_iff (∀ node ∈ positions s, ∀ l ∈ literalsOf node, isStableLiteral host l = true) <| by
    simp only [StableLiterals, mem_positions]

instance (s : Json) : Decidable (DistinctAlternatives s) :=
  decidable_of_iff (∀ node ∈ positions s,
    (schemasUnder node "oneOf").Pairwise (alike · · = false)) <| by
    simp only [DistinctAlternatives, mem_positions]

/-- The canonical form of an API schema exists and accepts what the schema accepts, when the
literals are stable and no two alternatives under `oneOf` are alike.  Two such schemas with one
canonical form accept the same instances. -/
theorem canonicalSchema_preserves_meaning (hutf8 : host.Utf8Buffers) (s : Json)
    (hschema : isApiSchema s = true) (hwf : WellFormed s) (hstable : StableLiterals host s)
    (hdistinct : DistinctAlternatives s) :
    ∃ t, canonicalSchema host s = some t ∧
      (∀ vocabulary x, accepts vocabulary t x = accepts vocabulary s x) ∧
      ∀ s' t', isApiSchema s' = true → WellFormed s' → StableLiterals host s' →
        DistinctAlternatives s' → canonicalSchema host s' = some t' →
        Json.canonicalJson t' = Json.canonicalJson t →
        ∀ vocabulary x, accepts vocabulary s' x = accepts vocabulary s x := by
  have hs : StableSchema host s := ⟨hschema, hwf, hstable⟩
  obtain ⟨t, ht⟩ := exists_canonicalSchema hutf8 hs
  refine ⟨t, ht, fun vocabulary x => accepts_canonicalSchema vocabulary hutf8 hs hdistinct ht x, ?_⟩
  intro s' t' hschema' hwf' hstable' hdistinct' ht' heq vocabulary x
  calc accepts vocabulary s' x
      = accepts vocabulary t' x := (accepts_canonicalSchema vocabulary hutf8
        ⟨hschema', hwf', hstable'⟩ hdistinct' ht' x).symm
    _ = accepts vocabulary t x := accepts_eq_of_canon_eq vocabulary (canonicalJson_inj.mp heq) x
    _ = accepts vocabulary s x := accepts_canonicalSchema vocabulary hutf8 hs hdistinct ht x

/-- A union of a nullable text and an object with two required members. -/
def sampleUnion : Json := .obj [("oneOf", .arr [
  .obj [("type", .arr [.str "string", .str "null"])],
  .obj [("required", .arr [.str "b", .str "a"]), ("type", .str "object")]])]

theorem sampleUnion_preserves_meaning : ∃ t, canonicalSchema .ascii sampleUnion = some t ∧
    (∀ vocabulary x, accepts vocabulary t x = accepts vocabulary sampleUnion x) ∧
    ∀ s' t', isApiSchema s' = true → WellFormed s' → StableLiterals .ascii s' →
      DistinctAlternatives s' → canonicalSchema .ascii s' = some t' →
      Json.canonicalJson t' = Json.canonicalJson t →
      ∀ vocabulary x, accepts vocabulary s' x = accepts vocabulary sampleUnion x :=
  canonicalSchema_preserves_meaning Host.ascii_utf8Buffers sampleUnion (by decide)
    (isWellFormed_iff.mp (by decide)) (by decide +kernel) (by decide +kernel)

/-- A value of one of the types. -/
def sampleTypes (types : List String) : Json := .obj [("type", .arr (types.map .str))]

/-- Lists inside literals are sorted as well, and raise where they cannot be sorted. -/
example : canonicalSchema .ascii (.obj [("const", .obj [("type", .arr [.str "b", .str "a"])])]) =
    some (.obj [("const", .obj [("type", .arr [.str "a", .str "b"])])]) := by decide

example : canonicalSchema .ascii (.obj [("const", .obj [("type", .arr [.null, .str "a"])])]) =
    none := by decide

/-- The canonical form merges equal alternatives: of two alternatives that accept everything one is
left, and the empty choice becomes one that always succeeds. -/
theorem not_canonicalSchema_preserves_meaning :
    ¬ ∀ s, isApiSchema s = true → WellFormed s → ∃ t, canonicalSchema .ascii s = some t ∧
      ∀ vocabulary x, accepts vocabulary t x = accepts vocabulary s x := by
  intro h
  obtain ⟨t, ht, haccepts⟩ := h (.obj [("oneOf", .arr [.obj [], .obj []])]) (by decide)
    (isWellFormed_iff.mp (by decide))
  have htwo := haccepts ⟨fun _ _ => true, fun _ _ _ => true, fun _ _ _ => true⟩ .null
  have hone : canonicalSchema .ascii (.obj [("oneOf", .arr [.obj [], .obj []])]) =
      some (.obj [("oneOf", .arr [.obj []])]) := by decide
  cases ht
  exact absurd htwo (by decide)

end ApiTruth.Updates
