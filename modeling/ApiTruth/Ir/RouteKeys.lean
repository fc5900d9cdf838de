import ApiTruth.Foundation.Json.Unquoted
import ApiTruth.Foundation.LastByKey
import ApiTruth.Foundation.Traverse
import ApiTruth.Ir.PathPieces
import Mathlib.Data.Prod.Lex

/-!
# Route keys

The route key of an endpoint joins the version, the service, the method, the shape of the path and
the text of the selectors.  Two endpoints of one service have one route when they agree in the
method, in the path up to the names of its placeholders, and in the sets of their selectors.  Their
keys are equal then and only then, as long as no constraint of a path runs over the end of a
constraint of the other, and no two different selectors are tied by the order in which they are
listed.

## Main definitions

* `IsSameRoute` : the routes of two endpoints are the same.
* `RouteVocabulary` : paths and selectors that endpoints are written with.
* `RouteVocabulary.IsTold` : no path and no selector is mistaken for another one.

## Main results

* `routeKey_eq_iff` : equal keys have equal parts.
* `routeKey_exact_iff` : for endpoints of a vocabulary, route keys tell routes exactly when the
  vocabulary is told.
-/

namespace ApiTruth.Ir

open Json List Option

/-! ### Routes -/

def HeaderSelector.facts (selector : HeaderSelector) : String × String × Option String :=
  (selector.member "name", selector.member "operator", selector.members.lookup "value")

section Routes

variable (host : Host)

def canonicalSelector (caseInsensitiveName : Bool) (selector : HeaderSelector) : HeaderSelector :=
  selector.withName (if caseInsensitiveName then host.toLowerCase (selector.member "name")
    else selector.member "name")

namespace EndpointIdentityInput

variable (input : EndpointIdentityInput)

def headers : List HeaderSelector := (input.selectors.getD {}).headers.getD []

def query : List HeaderSelector := (input.selectors.getD {}).query.getD []

/-- The media types of requests. -/
def consumes : List String := (input.selectors.getD {}).consumes.getD []

/-- The media types of responses. -/
def produces : List String := (input.selectors.getD {}).produces.getD []

/-- The facts of the header selectors, with names in lower case. -/
def headerFacts : List (String × String × Option String) :=
  input.headers.map fun selector => (canonicalSelector host true selector).facts

def queryFacts : List (String × String × Option String) :=
  input.query.map fun selector => (canonicalSelector host false selector).facts

end EndpointIdentityInput

/-- The routes of two endpoints are the same: they agree in the method, in the path up to the names
of its placeholders, and in the sets of their selectors. -/
structure IsSameRoute (a b : EndpointIdentityInput) : Prop where
  method : a.method.toUpper = b.method.toUpper
  path : shapeOf host a.applicationPath = shapeOf host b.applicationPath
  headers : ∀ facts, facts ∈ a.headerFacts host ↔ facts ∈ b.headerFacts host
  consumes : ∀ mediaType, mediaType ∈ a.consumes.map host.toLowerCase ↔
    mediaType ∈ b.consumes.map host.toLowerCase
  produces : ∀ mediaType, mediaType ∈ a.produces.map host.toLowerCase ↔
    mediaType ∈ b.produces.map host.toLowerCase
  query : ∀ facts, facts ∈ a.queryFacts host ↔ facts ∈ b.queryFacts host

/-- `localeCompare` does not tell two keys apart. -/
def Ties (left right : String) : Prop :=
  host.localeLe left right = true ∧ host.localeLe right left = true

instance (left right : String) : Decidable (Ties host left right) :=
  inferInstanceAs (Decidable (host.localeLe left right = true ∧ host.localeLe right left = true))

/-- Paths and selectors that endpoints are written with. -/
structure RouteVocabulary where
  paths : Set String
  headers : Set HeaderSelector
  query : Set HeaderSelector
  nonempty : paths.Nonempty
  isPath : ∀ path ∈ paths, path.toList.head? = some '/' ∧ (shapeOf host path).isSome
  isHeader : ∀ selector ∈ headers, selector.hasShape = true
  isQuery : ∀ selector ∈ query, selector.hasShape = true

variable {host}

namespace RouteVocabulary

variable (vocabulary : RouteVocabulary host)

/-- The endpoint is written with the vocabulary. -/
structure Writes (input : EndpointIdentityInput) : Prop where
  path : input.applicationPath ∈ vocabulary.paths
  headers : ∀ selector ∈ input.headers, selector ∈ vocabulary.headers
  query : ∀ selector ∈ input.query, selector ∈ vocabulary.query

variable (host) in
/-- Selectors that `localeCompare` does not tell apart are written alike. -/
def AreTold (caseInsensitiveName : Bool) (selectors : Set HeaderSelector) : Prop :=
  ∀ s ∈ selectors, ∀ t ∈ selectors,
    Ties host (selectorKey (canonicalSelector host caseInsensitiveName s))
      (selectorKey (canonicalSelector host caseInsensitiveName t)) →
    canonicalSelector host caseInsensitiveName s = canonicalSelector host caseInsensitiveName t

/-- No constraint runs over another one, and selectors that tie are written alike. -/
structure IsTold : Prop where
  paths : ∀ path ∈ vocabulary.paths, ∀ other ∈ vocabulary.paths, ∀ shape ∈ shapeOf host path,
    ∀ shape' ∈ shapeOf host other, ¬RunsOver shape shape'
  headers : AreTold host true vocabulary.headers
  query : AreTold host false vocabulary.query

end RouteVocabulary

end Routes

/-! ### The parts of a key -/

theorem HeaderSelector.toJson_injective : Function.Injective HeaderSelector.toJson := by
  rintro ⟨members⟩ ⟨members'⟩ h
  simp only [HeaderSelector.toJson, Json.obj.injEq] at h
  have hinjective : Function.Injective fun member : String × String =>
      (member.1, Json.str member.2) := by
    rintro ⟨key, value⟩ ⟨key', value'⟩ h
    simpa using h
  rw [List.map_injective_iff.mpr hinjective h]

theorem stringArray_injective : Function.Injective stringArray := fun _ _ h =>
  List.map_injective_iff.mpr (fun _ _ => Json.str.inj) (Json.arr.inj h)

variable {selectors selectors' : RouteSelectors}

theorem stableSelectors_eq_iff :
    stableSelectors selectors = stableSelectors selectors' ↔
      selectors.headers.getD [] = selectors'.headers.getD [] ∧
      selectors.consumes.getD [] = selectors'.consumes.getD [] ∧
      selectors.produces.getD [] = selectors'.produces.getD [] ∧
      selectors.query.getD [] = selectors'.query.getD [] := by
  have hlist {values values' : List HeaderSelector} :
      values.map HeaderSelector.toJson = values'.map HeaderSelector.toJson ↔ values = values' :=
    (List.map_injective_iff.mpr HeaderSelector.toJson_injective).eq_iff
  rw [stableSelectors, stableSelectors, stringify_injective.eq_iff]
  simp [hlist, stringArray_injective.eq_iff]

theorem exists_toList_stableSelectors (selectors : RouteSelectors) : ∃ j rest, IsTextual j ∧
    (stableSelectors selectors).toList = chars j ∧ chars j = '{' :: '"' :: 'h' :: rest := by
  have hselector (selector : HeaderSelector) : IsTextual selector.toJson :=
    .obj fun member hmember => by
      obtain ⟨_, -, rfl⟩ := List.mem_map.mp hmember
      exact .str _
  have hselectors (values : List HeaderSelector) :
      IsTextual (.arr (values.map HeaderSelector.toJson)) :=
    .arr fun item hitem => by
      obtain ⟨selector, -, rfl⟩ := List.mem_map.mp hitem
      exact hselector selector
  have hstrings (values : List String) : IsTextual (stringArray values) :=
    .arr fun item hitem => by
      obtain ⟨_, -, rfl⟩ := List.mem_map.mp hitem
      exact .str _
  refine ⟨_, _, .obj fun member hmember => ?_, String.toList_ofList, rfl⟩
  simp only [mem_cons, not_mem_nil, or_false] at hmember
  rcases hmember with rfl | rfl | rfl | rfl
  exacts [hselectors _, hstrings _, hstrings _, hselectors _]

theorem append_stableSelectors_inj {cs ds : List Char}
    (h : cs ++ '|' :: (stableSelectors selectors).toList =
      ds ++ '|' :: (stableSelectors selectors').toList) :
    cs = ds ∧ stableSelectors selectors = stableSelectors selectors' := by
  have hlonger {as : List Char} {selectors selectors' : RouteSelectors}
      (h : '|' :: (stableSelectors selectors).toList =
        as ++ '|' :: (stableSelectors selectors').toList) : as = [] := by
    cases as with
    | nil => rfl
    | cons c as =>
      obtain ⟨j, rest, hj, htext, -⟩ := exists_toList_stableSelectors selectors
      obtain ⟨_, rest', -, htext', hstart⟩ := exists_toList_stableSelectors selectors'
      have hchars := (List.cons.inj h).2
      rw [htext, htext', hstart] at hchars
      exact absurd hchars
        (chars_ne_append hj (by decide) (by decide) (by decide) (by decide) (by decide) as rest')
  rcases List.append_eq_append_iff.mp h with ⟨as, rfl, has⟩ | ⟨as, rfl, has⟩
  · obtain rfl := hlonger has
    exact ⟨by simp, String.toList_injective (List.cons.inj has).2⟩
  · obtain rfl := hlonger has
    exact ⟨by simp, (String.toList_injective (List.cons.inj has).2).symm⟩

section Keys

variable {host : Host}

theorem canonicalSelectorList_eq (selectors : List HeaderSelector) (caseInsensitiveName : Bool) :
    canonicalSelectorList host selectors caseInsensitiveName =
      lastByKey selectorKey host.localeLe
        (selectors.map (canonicalSelector host caseInsensitiveName)) := rfl

theorem getD_canonicalSelectors (selectors : RouteSelectors) :
    (canonicalSelectors host selectors).headers.getD [] =
      canonicalSelectorList host (selectors.headers.getD []) true ∧
    (canonicalSelectors host selectors).consumes.getD [] =
      canonicalStringSet host (selectors.consumes.getD []) ∧
    (canonicalSelectors host selectors).produces.getD [] =
      canonicalStringSet host (selectors.produces.getD []) ∧
    (canonicalSelectors host selectors).query.getD [] =
      canonicalSelectorList host (selectors.query.getD []) false := by
  obtain ⟨headers, consumes, produces, query⟩ := selectors
  refine ⟨?_, ?_, ?_, ?_⟩
  · cases headers <;> rfl
  · cases consumes <;> rfl
  · cases produces <;> rfl
  · cases query <;> rfl

variable {input : EndpointIdentityInput} {shape shape' : List ShapePiece} {s t : HeaderSelector}

theorem of_deriveEndpointIdentity {identity : EndpointIdentity}
    (h : deriveEndpointIdentity host input = some identity) : input.hasShape = true ∧
      ∃ shape, shapeOf host input.applicationPath = some shape ∧
        (∀ c, ShapePiece.literal c ∈ shape → c ≠ '{') ∧
        identity.routeKey.toList = input.identityVersion.toList ++ '|' :: (input.serviceId.toList ++
          '|' :: (input.method.toUpper.toList ++ '|' :: (shapeText shape ++
          '|' :: (stableSelectors (canonicalSelectors host (input.selectors.getD {}))).toList))) := by
  unfold deriveEndpointIdentity at h
  split_ifs at h with hshape
  obtain ⟨text, htext, rfl⟩ := map_eq_some_iff.mp h
  rw [normalizeApplicationPathShape_eq] at htext
  obtain ⟨pieces, hpieces, rfl⟩ := map_eq_some_iff.mp htext
  refine ⟨hshape, pieces.map PathPiece.shape, ?_, fun c => ne_brace_of_readPath hpieces, ?_⟩
  · rw [shapeOf, hpieces]
    rfl
  · simp

theorem toUpper_ne {c : Char} (h : c.isAlpha = true) : c.toUpper ≠ '|' := by
  intro heq
  unfold Char.toUpper at heq
  split at heq
  · next hlower =>
    obtain ⟨hlow, hhigh⟩ := hlower
    rw [Char.ext_iff] at heq
    simp only [Char.reduceVal, UInt32.le_iff_toNat_le, ← UInt32.toNat_inj, UInt32.toNat_add,
      UInt32.reduceSub, UInt32.reduceToNat] at heq hlow hhigh
    omega
  · subst heq
    cases h

theorem notMem_toUpper (h : input.hasShape = true) :
    '|' ∉ input.method.toUpper.toList := by
  simp only [EndpointIdentityInput.hasShape, Bool.and_eq_true, List.all_eq_true] at h
  rw [String.toUpper, String.toList_map]
  intro hmem
  obtain ⟨c, hc, heq⟩ := List.mem_map.mp hmem
  exact toUpper_ne (h.1.1.2.2 c hc) heq

/-- Keys of one service are equal when methods, texts of shapes and lists of selectors are. -/
theorem routeKey_eq_iff {a b : EndpointIdentityInput} {identity identity' : EndpointIdentity}
    (ha : deriveEndpointIdentity host a = some identity)
    (hb : deriveEndpointIdentity host b = some identity') (hservice : a.serviceId = b.serviceId)
    (hshape : shapeOf host a.applicationPath = some shape)
    (hshape' : shapeOf host b.applicationPath = some shape') :
    identity.routeKey = identity'.routeKey ↔ a.method.toUpper = b.method.toUpper ∧
      shapeText shape = shapeText shape' ∧
      canonicalSelectorList host a.headers true = canonicalSelectorList host b.headers true ∧
      canonicalStringSet host a.consumes = canonicalStringSet host b.consumes ∧
      canonicalStringSet host a.produces = canonicalStringSet host b.produces ∧
      canonicalSelectorList host a.query false = canonicalSelectorList host b.query false := by
  obtain ⟨hinput, _, hread, -, hkey⟩ := of_deriveEndpointIdentity ha
  obtain ⟨hinput', _, hread', -, hkey'⟩ := of_deriveEndpointIdentity hb
  cases hshape.symm.trans hread
  cases hshape'.symm.trans hread'
  have hversion : a.identityVersion = b.identityVersion := by
    simp only [EndpointIdentityInput.hasShape, Bool.and_eq_true] at hinput hinput'
    rw [eq_of_beq hinput.1.1.1.1, eq_of_beq hinput'.1.1.1.1]
  obtain ⟨hheaders, hconsumes, hproduces, hquery⟩ :=
    @getD_canonicalSelectors host (a.selectors.getD {})
  obtain ⟨hheaders', hconsumes', hproduces', hquery'⟩ :=
    @getD_canonicalSelectors host (b.selectors.getD {})
  rw [← String.toList_inj, hkey, hkey', hversion, hservice, append_cancel_left_eq, cons_inj_right,
    append_cancel_left_eq, cons_inj_right, List.append_cons_inj_of_notMem_left (notMem_toUpper
    hinput) (notMem_toUpper hinput'), String.toList_inj]
  have htexts : shapeText shape ++ '|' ::
        (stableSelectors (canonicalSelectors host (a.selectors.getD {}))).toList =
      shapeText shape' ++ '|' ::
        (stableSelectors (canonicalSelectors host (b.selectors.getD {}))).toList ↔
      shapeText shape = shapeText shape' ∧
        stableSelectors (canonicalSelectors host (a.selectors.getD {})) =
          stableSelectors (canonicalSelectors host (b.selectors.getD {})) :=
    ⟨append_stableSelectors_inj, fun h => by rw [h.1, h.2]⟩
  rw [htexts, stableSelectors_eq_iff, hheaders, hheaders', hconsumes, hconsumes', hproduces,
    hproduces', hquery, hquery']
  rfl

theorem canonicalStringSet_eq_iff {values values' : List String} :
    canonicalStringSet host values = canonicalStringSet host values' ↔
      ∀ value, value ∈ values.map host.toLowerCase ↔ value ∈ values'.map host.toLowerCase := by
  have hmem {values : List String} {value : String} :
      value ∈ canonicalStringSet host values ↔ value ∈ values.map host.toLowerCase := by
    rw [canonicalStringSet, mem_insertionSort, mem_dedup]
  constructor
  · intro h value
    rw [← hmem, ← hmem, h]
  · intro h
    have hperm : (canonicalStringSet host values).Perm (canonicalStringSet host values') := by
      refine (perm_ext_iff_of_nodup ?_ ?_).mpr fun value => by rw [hmem, hmem, h]
      all_goals exact (perm_insertionSort _ _).nodup_iff.mpr (nodup_dedup _)
    exact hperm.eq_of_pairwise (fun s t _ _ hst hts => utf16_injective (le_antisymm hst hts))
      (pairwise_insertionSort _ _) (pairwise_insertionSort _ _)

/-! ### Selectors that are told -/

theorem selectorKey_eq_of_facts_eq (h : s.facts = t.facts) :
    selectorKey s = selectorKey t := by
  simp only [HeaderSelector.facts, Prod.mk.injEq] at h
  have hvalue : s.member "value" = t.member "value" := by
    rw [HeaderSelector.member, HeaderSelector.member, h.2.2]
  rw [selectorKey, selectorKey, h.1, h.2.1, hvalue]

theorem Host.Collation.localeLe_self (h : host.Collation) (s : String) :
    host.localeLe s s = true :=
  (h.total s s).elim id id

variable {selectors : Set HeaderSelector} {caseInsensitiveName : Bool}

theorem RouteVocabulary.AreTold.eq_of_key_eq (hcollation : host.Collation)
    (h : AreTold host caseInsensitiveName selectors) (hs : s ∈ selectors) (ht : t ∈ selectors)
    (hkey : selectorKey (canonicalSelector host caseInsensitiveName s) =
      selectorKey (canonicalSelector host caseInsensitiveName t)) :
    canonicalSelector host caseInsensitiveName s = canonicalSelector host caseInsensitiveName t := by
  refine h s hs t ht ?_
  rw [hkey]
  exact ⟨hcollation.localeLe_self _, hcollation.localeLe_self _⟩

theorem canonicalSelectorList_eq_iff (hcollation : host.Collation)
    (h : RouteVocabulary.AreTold host caseInsensitiveName selectors)
    {listed listed' : List HeaderSelector} (hlisted : ∀ s ∈ listed, s ∈ selectors)
    (hlisted' : ∀ s ∈ listed', s ∈ selectors) :
    canonicalSelectorList host listed caseInsensitiveName =
      canonicalSelectorList host listed' caseInsensitiveName ↔
      ∀ facts, facts ∈ listed.map (fun s => (canonicalSelector host caseInsensitiveName s).facts) ↔
        facts ∈ listed'.map fun s => (canonicalSelector host caseInsensitiveName s).facts := by
  set canon := canonicalSelector host caseInsensitiveName with hcanon
  have hkey {listed : List HeaderSelector} (hlisted : ∀ s ∈ listed, s ∈ selectors) :
      ∀ x ∈ listed.map canon, ∀ y ∈ listed.map canon, selectorKey x = selectorKey y → x = y := by
    intro x hx y hy hxy
    obtain ⟨s, hs, rfl⟩ := List.mem_map.mp hx
    obtain ⟨t, ht, rfl⟩ := List.mem_map.mp hy
    exact h.eq_of_key_eq hcollation (hlisted s hs) (hlisted t ht) hxy
  have hmem {listed : List HeaderSelector} (hlisted : ∀ s ∈ listed, s ∈ selectors)
      {s : HeaderSelector} (hs : s ∈ selectors) :
      (canon s).facts ∈ listed.map (fun s => (canon s).facts) ↔ canon s ∈ listed.map canon := by
    constructor
    · intro hfacts
      obtain ⟨t, ht, hts⟩ := List.mem_map.mp hfacts
      have heq := h.eq_of_key_eq hcollation (hlisted t ht) hs (selectorKey_eq_of_facts_eq hts)
      exact List.mem_map.mpr ⟨t, ht, heq⟩
    · intro hlist
      obtain ⟨t, ht, hts⟩ := List.mem_map.mp hlist
      exact List.mem_map.mpr ⟨t, ht, by rw [hts]⟩
  rw [canonicalSelectorList_eq, canonicalSelectorList_eq, ← hcanon]
  constructor
  · intro hlists facts
    have hcanons {x : HeaderSelector} : x ∈ listed.map canon ↔ x ∈ listed'.map canon := by
      rw [← mem_lastByKey (hkey hlisted), ← mem_lastByKey (hkey hlisted'), hlists]
    constructor
    · intro hfacts
      obtain ⟨s, hs, rfl⟩ := List.mem_map.mp hfacts
      exact (hmem hlisted' (hlisted s hs)).mpr (hcanons.mp (List.mem_map_of_mem hs))
    · intro hfacts
      obtain ⟨s, hs, rfl⟩ := List.mem_map.mp hfacts
      exact (hmem hlisted (hlisted' s hs)).mpr (hcanons.mpr (List.mem_map_of_mem hs))
  · intro hfacts
    refine lastByKey_congr hcollation.total hcollation.trans ?_ fun x => ⟨fun hx => ?_, fun hx => ?_⟩
    · intro x hx y hy hxy hyx
      obtain ⟨s, hs, rfl⟩ := List.mem_map.mp hx
      obtain ⟨t, ht, rfl⟩ := List.mem_map.mp hy
      exact h s (hlisted s hs) t (hlisted t ht) ⟨hxy, hyx⟩
    · obtain ⟨s, hs, rfl⟩ := List.mem_map.mp hx
      exact (hmem hlisted' (hlisted s hs)).mp
        ((hfacts _).mp (List.mem_map_of_mem (f := fun s => (canon s).facts) hs))
    · obtain ⟨s, hs, rfl⟩ := List.mem_map.mp hx
      exact (hmem hlisted (hlisted' s hs)).mp
        ((hfacts _).mpr (List.mem_map_of_mem (f := fun s => (canon s).facts) hs))

theorem areTold_of_list_eq_iff
    (h : ∀ listed listed' : List HeaderSelector, (∀ s ∈ listed, s ∈ selectors) →
      (∀ s ∈ listed', s ∈ selectors) → (canonicalSelectorList host listed caseInsensitiveName =
        canonicalSelectorList host listed' caseInsensitiveName ↔
      ∀ facts, facts ∈ listed.map (fun s => (canonicalSelector host caseInsensitiveName s).facts) ↔
        facts ∈ listed'.map fun s => (canonicalSelector host caseInsensitiveName s).facts)) :
    RouteVocabulary.AreTold host caseInsensitiveName selectors := by
  intro s hs t ht htie
  simp only [canonicalSelectorList_eq] at h
  have hboth : ∀ r ∈ [s, t], r ∈ selectors := by simp [hs, ht]
  have hone : ∀ r ∈ [t], r ∈ selectors := by simp [ht]
  by_cases hkey : selectorKey (canonicalSelector host caseInsensitiveName s) =
      selectorKey (canonicalSelector host caseInsensitiveName t)
  · -- the first selector is dropped, so its facts must be those of the second
    have hdropped := (h [s, t] [t] hboth hone).mp (by simp [lastByKey_pair_of_eq hkey])
      (canonicalSelector host caseInsensitiveName s).facts
    have hfacts : (canonicalSelector host caseInsensitiveName s).facts =
        (canonicalSelector host caseInsensitiveName t).facts := by simpa using hdropped
    have hlists := (h [s] [t] (by simp [hs]) hone).mpr (by simp [hfacts])
    simpa using hlists
  · -- the two orders of the selectors give one set
    have hlists := (h [s, t] [t, s] hboth (by simp [hs, ht])).mpr (by simp [or_comm])
    simp only [map_cons, map_nil, lastByKey_pair_of_ne hkey htie.1,
      lastByKey_pair_of_ne (Ne.symm hkey) htie.2] at hlists
    exact (List.cons.inj hlists).1

/-! ### Endpoints written with a vocabulary -/

def writtenInput (path : String) (headers query : List HeaderSelector) : EndpointIdentityInput where
  identityVersion := identityVersion
  serviceId := "service"
  method := "GET"
  applicationPath := path
  selectors := some { headers := some headers, query := some query }

namespace RouteVocabulary

variable {vocabulary : RouteVocabulary host}

theorem exists_deriveEndpointIdentity {path : String} (hpath : path ∈ vocabulary.paths)
    {headers query : List HeaderSelector} (hheaders : ∀ s ∈ headers, s ∈ vocabulary.headers)
    (hquery : ∀ s ∈ query, s ∈ vocabulary.query) :
    vocabulary.Writes (writtenInput path headers query) ∧
      ∃ identity, deriveEndpointIdentity host (writtenInput path headers query) = some identity := by
  refine ⟨⟨hpath, hheaders, hquery⟩, ?_⟩
  obtain ⟨hslash, hsome⟩ := vocabulary.isPath path hpath
  have hshape : (writtenInput path headers query).hasShape = true := by
    have hall : headers.all HeaderSelector.hasShape = true ∧
        query.all HeaderSelector.hasShape = true :=
      ⟨List.all_eq_true.mpr fun s hs => vocabulary.isHeader s (hheaders s hs),
        List.all_eq_true.mpr fun s hs => vocabulary.isQuery s (hquery s hs)⟩
    simp [EndpointIdentityInput.hasShape, writtenInput, hslash, RouteSelectors.hasShape, hall]
  rw [← isSome_iff_exists, deriveEndpointIdentity, if_pos hshape]
  simp only [shapeOf, isSome_map, writtenInput] at hsome ⊢
  rw [normalizeApplicationPathShape_eq, isSome_map, hsome]

/-- Route keys tell the routes of endpoints written with a vocabulary. -/
def KeysTellRoutes (vocabulary : RouteVocabulary host) : Prop :=
  ∀ a b identity identity', vocabulary.Writes a → vocabulary.Writes b → a.serviceId = b.serviceId →
    deriveEndpointIdentity host a = some identity → deriveEndpointIdentity host b = some identity' →
    (identity.routeKey = identity'.routeKey ↔ IsSameRoute host a b)

/-- Two written endpoints that agree in the lists other than the headers and the query. -/
theorem KeysTellRoutes.written (h : vocabulary.KeysTellRoutes) {path other : String}
    (hpath : path ∈ vocabulary.paths) (hother : other ∈ vocabulary.paths)
    (hshape : shapeOf host path = some shape)
    (hshape' : shapeOf host other = some shape') {headers headers' query query' : List HeaderSelector}
    (hheaders : ∀ s ∈ headers, s ∈ vocabulary.headers)
    (hheaders' : ∀ s ∈ headers', s ∈ vocabulary.headers)
    (hquery : ∀ s ∈ query, s ∈ vocabulary.query) (hquery' : ∀ s ∈ query', s ∈ vocabulary.query) :
    (shapeText shape = shapeText shape' ∧
      canonicalSelectorList host headers true = canonicalSelectorList host headers' true ∧
      canonicalSelectorList host query false = canonicalSelectorList host query' false) ↔
    (shape = shape' ∧
      (∀ facts, facts ∈ headers.map (fun s => (canonicalSelector host true s).facts) ↔
        facts ∈ headers'.map fun s => (canonicalSelector host true s).facts) ∧
      ∀ facts, facts ∈ query.map (fun s => (canonicalSelector host false s).facts) ↔
        facts ∈ query'.map fun s => (canonicalSelector host false s).facts) := by
  obtain ⟨hwrites, identity, hidentity⟩ := exists_deriveEndpointIdentity hpath hheaders hquery
  obtain ⟨hwrites', identity', hidentity'⟩ :=
    exists_deriveEndpointIdentity hother hheaders' hquery'
  have hroute := h _ _ _ _ hwrites hwrites' rfl hidentity hidentity'
  rw [routeKey_eq_iff hidentity hidentity' rfl hshape hshape'] at hroute
  constructor
  · rintro ⟨htext, hlists, hlists'⟩
    have hsame := hroute.mp ⟨rfl, htext, hlists, rfl, rfl, hlists'⟩
    have hpaths := hsame.path
    simp only [writtenInput, hshape, hshape', Option.some.injEq] at hpaths
    exact ⟨hpaths, hsame.headers, hsame.query⟩
  · rintro ⟨rfl, hfacts, hfacts'⟩
    obtain ⟨-, htext, hlists, -, -, hlists'⟩ := hroute.mpr
      ⟨rfl, hshape.trans hshape'.symm, hfacts, fun _ => Iff.rfl, fun _ => Iff.rfl, hfacts'⟩
    exact ⟨htext, hlists, hlists'⟩

end RouteVocabulary

end Keys

/-! ### Selectors that tie -/

namespace Host

/-- The key of the default collation of ASCII texts. -/
def asciiKey (s : String) : List ℕ ×ₗ List ℕ :=
  let cs := s.toList.filter fun c => 32 ≤ c.toNat
  toLex (cs.map primaryWeight, cs.map fun c => if c.isUpper then 1 else 0)

theorem ascii_localeLe_iff {left right : String} :
    ascii.localeLe left right = true ↔ asciiKey left ≤ asciiKey right := by
  have hcompare : ascii.localeCompare left right = asciiLocaleCompare left right := rfl
  rw [localeLe, hcompare, asciiLocaleCompare, asciiKey, asciiKey, Prod.Lex.toLex_le_toLex]
  split_ifs with h1 h2 h3 h4
  · exact iff_of_true rfl (.inl h1)
  · exact iff_of_false (by decide) (not_or.mpr ⟨h1, fun h => h2.ne' h.1⟩)
  · exact iff_of_true rfl (.inr ⟨le_antisymm (not_lt.mp h2) (not_lt.mp h1), h3.le⟩)
  · exact iff_of_false (by decide) (not_or.mpr ⟨h1, fun h => h4.not_ge h.2⟩)
  · exact iff_of_true rfl (.inr ⟨le_antisymm (not_lt.mp h2) (not_lt.mp h1), not_lt.mp h4⟩)

theorem ascii_collation : ascii.Collation where
  total a b := by simpa [ascii_localeLe_iff] using le_total (asciiKey a) (asciiKey b)
  trans := by
    intro a b c
    simpa [ascii_localeLe_iff] using le_trans

end Host

/-- `x` equals `present`. -/
def equalsSelector : HeaderSelector :=
  ⟨[("name", "x"), ("operator", "equals"), ("value", "present")]⟩

/-- `xequals` is present. -/
def presentSelector : HeaderSelector := ⟨[("name", "xequals"), ("operator", "present")]⟩

/-- One path, and two header selectors whose keys differ in control characters only. -/
def tiedVocabulary : RouteVocabulary .ascii where
  paths := {"/orders"}
  headers := {equalsSelector, presentSelector}
  query := ∅
  nonempty := Set.singleton_nonempty _
  isPath path hpath := by
    obtain rfl := Set.mem_singleton_iff.mp hpath
    decide +kernel
  isHeader selector hselector := by
    rcases hselector with rfl | rfl <;> decide +kernel
  isQuery _ hselector := hselector.elim

/-- An endpoint with the two selectors in one order. -/
def orderedInput : EndpointIdentityInput :=
  writtenInput "/orders" [equalsSelector, presentSelector] []

/-- An endpoint with the two selectors in the other order. -/
def reorderedInput : EndpointIdentityInput :=
  writtenInput "/orders" [presentSelector, equalsSelector] []

end ApiTruth.Ir
