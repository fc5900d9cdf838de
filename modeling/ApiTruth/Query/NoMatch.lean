import ApiTruth.Query.OperationSearch

/-!
# When the keyword search finds nothing

A search without a match says that the contract is complete and that no endpoint shows a term of the
query.  It looks at the first thirty-two terms of the query and of each text, and only at texts of
bounded length, so what it says is true exactly when nothing further on matches.

## Main definitions

* `HasExactRoute`, `IsCovered` : the routes of a contract that is searched completely.
* `IsSearchable` : the texts of an endpoint, whatever their length.
* `IsSoundNoMatch` : what the absence of a match says.
* `ShowsMatches` : a match, if there is one, is found.

## Main results

* `searchSnapshot_eq_noMatch_iff` : when nothing is found.
* `noMatch_sound_iff` : the absence of a match is sound exactly when matches are shown.
-/

namespace ApiTruth.Query

open Ir List Option
open Semantics (evidenceAt isLocalEvidence isJavaProfile isPlain hasText)

/-! ### Routes -/

section Endpoint

variable (snapshot : ContractSnapshot) (endpoint : Endpoint)

/-- The endpoint has route claims, all of them supported and all about its method and path; of the
analyzer of Java there is one. -/
structure HasExactRoute : Prop where
  ne_nil : routeInputs snapshot endpoint ≠ []
  unique : isJavaProfile snapshot.analyzer = true → (routeInputs snapshot endpoint).length = 1
  supported : ∀ claim ∈ routeInputs snapshot endpoint,
    (routeEvidence snapshot endpoint claim).isSome = true
  named : ∀ claim ∈ routeInputs snapshot endpoint,
    hasText claim.value "method" endpoint.identity.method = true ∧
      hasText claim.value "path" endpoint.applicationPath = true

def IsReadable (text : String) : Prop :=
  text.toList.any Semantics.isUnprintable = false ∧ Semantics.credentialPattern.test text = false

def IsReadableName (text : String) : Prop :=
  Semantics.isIdentifierWord text.toList = true ∧ Semantics.credentialPattern.test text = false

/-- The texts of an endpoint that a query is about: its path, and what claims with qualified evidence
say. -/
inductive IsSearchable : String → Prop
  | path : IsSearchable endpoint.applicationPath
  | summary {claim text ids} (mem : claim ∈ endpointClaims snapshot endpoint)
      (predicate : claim.predicate = "operation.summary") (value : claim.value = .str text)
      (evidence : documentEvidence snapshot claim endpoint.endpointId = some ids)
      (pointers : pointersEndWith snapshot ids "/summary" = true) (readable : IsReadable text) :
      IsSearchable text
  | description {claim text ids} (mem : claim ∈ endpointClaims snapshot endpoint)
      (predicate : claim.predicate = "operation.description") (value : claim.value = .str text)
      (evidence : documentEvidence snapshot claim endpoint.endpointId = some ids)
      (pointers : pointersEndWith snapshot ids "/description" = true) (readable : IsReadable text) :
      IsSearchable text
  | operationId {claim text} (mem : claim ∈ routeInputs snapshot endpoint)
      (predicate : claim.predicate = "route.declaration")
      (evidence : (routeEvidence snapshot endpoint claim).isSome = true)
      (declared : isCodeDeclaration snapshot claim = false)
      (value : claim.value.member "operationId" = .str text) (readable : IsReadable text) :
      IsSearchable text
  | routeName {claim text name} (mem : claim ∈ routeInputs snapshot endpoint)
      (evidence : (routeEvidence snapshot endpoint claim).isSome = true)
      (declared : isCodeDeclaration snapshot claim = true)
      (name_mem : name ∈ ["controller", "action"])
      (value : claim.value.member name = .str text) (readable : IsReadableName text) :
      IsSearchable text
  | javaHandler {claim text} (mem : claim ∈ routeInputs snapshot endpoint)
      (profile : isJavaProfile snapshot.analyzer = true)
      (evidence : (routeEvidence snapshot endpoint claim).isSome = true)
      (value : claim.value.member "handler" = .str text) : IsSearchable text
  | handler {claim text ids} (mem : claim ∈ endpointClaims snapshot endpoint)
      (predicate : claim.predicate = "handler.symbol")
      (profile : isJavaProfile snapshot.analyzer = false)
      (evidence : analysisEvidence snapshot claim endpoint.endpointId = some ids)
      (value : claim.value.member "symbol" = .str text) (readable : IsReadable text) :
      IsSearchable text

variable {snapshot endpoint} {claim : Claim} {ids : List String} {item : SearchedText}

theorem claimEvidence_eq_some {endpointId sourceKind : String}
    {method : EvidenceMethod} {verification : Verification}
    (h : claimEvidence snapshot claim endpointId sourceKind method verification = some ids) :
    ids ≠ [] := by
  unfold claimEvidence at h
  split_ifs at h with hchecks
  simp only [Bool.and_eq_true, decide_eq_true_eq] at hchecks
  cases h
  exact ne_nil_of_length_pos hchecks.1.1.1.2

theorem ne_nil_of_routeEvidence
    (h : routeEvidence snapshot endpoint claim = some ids) : ids ≠ [] := by
  unfold routeEvidence at h
  split_ifs at h
  · unfold javaDeclarationEvidence at h
    split at h
    · split_ifs at h
      cases h
      simp
    · cases h
  · unfold routingDeclarationEvidence at h
    simp only at h
    split_ifs at h with hchecks
    simp only [Bool.and_eq_true, decide_eq_true_eq] at hchecks
    cases h
    exact ne_nil_of_length_pos (by omega)
  · exact claimEvidence_eq_some h
  · exact claimEvidence_eq_some h

theorem mem_routeClaims_iff :
    (claim, ids) ∈ routeClaims snapshot endpoint ↔
      claim ∈ routeInputs snapshot endpoint ∧ routeEvidence snapshot endpoint claim = some ids := by
  simp only [routeClaims, mem_filterMap, map_eq_some_iff, Prod.mk.injEq]
  constructor
  · rintro ⟨claim, hclaim, ids, hids, rfl, rfl⟩
    exact ⟨hclaim, hids⟩
  · rintro ⟨hclaim, hids⟩
    exact ⟨claim, hclaim, ids, hids, rfl, rfl⟩

theorem length_routeClaims_eq_iff :
    (routeClaims snapshot endpoint).length = (routeInputs snapshot endpoint).length ↔
      ∀ claim ∈ routeInputs snapshot endpoint,
        (routeEvidence snapshot endpoint claim).isSome = true := by
  rw [routeClaims, filterMap_length_eq_length]
  simp only [isSome_map]

theorem routeUnambiguous_iff : routeUnambiguous snapshot endpoint = true ↔
    HasExactRoute snapshot endpoint := by
  unfold routeUnambiguous
  simp only [Bool.and_eq_true, Bool.not_eq_true', isEmpty_eq_false_iff, beq_iff_eq,
    length_routeClaims_eq_iff, List.all_eq_true, Bool.or_eq_true, Prod.forall]
  constructor
  · rintro ⟨⟨⟨hne, hunique⟩, hsupported⟩, hnamed⟩
    refine ⟨hne, fun hjava => hunique.resolve_left (by simp [hjava]), hsupported,
      fun claim hclaim => ?_⟩
    obtain ⟨ids, hids⟩ := Option.isSome_iff_exists.mp (hsupported claim hclaim)
    exact hnamed claim ids (mem_routeClaims_iff.mpr ⟨hclaim, hids⟩)
  · rintro ⟨hne, hunique, hsupported, hnamed⟩
    refine ⟨⟨⟨hne, ?_⟩, hsupported⟩, fun claim ids hmem =>
      hnamed claim (mem_routeClaims_iff.mp hmem).1⟩
    cases hjava : isJavaProfile snapshot.analyzer with
    | false => exact .inl rfl
    | true => exact .inr (hunique hjava)

theorem pathIds_ne_nil_iff : pathIds snapshot endpoint ≠ [] ↔ HasExactRoute snapshot endpoint := by
  rw [← routeUnambiguous_iff]
  unfold pathIds
  split_ifs with h
  · refine iff_of_true ?_ h
    have hroute := routeUnambiguous_iff.mp h
    obtain ⟨claim, hclaim⟩ := exists_mem_of_ne_nil _ hroute.ne_nil
    obtain ⟨ids, hids⟩ := Option.isSome_iff_exists.mp (hroute.supported claim hclaim)
    have hmem := mem_routeClaims_iff.mpr ⟨hclaim, hids⟩
    obtain ⟨route, routes, hroutes⟩ := exists_cons_of_ne_nil (ne_nil_of_mem hmem)
    have hfirst : route ∈ routeClaims snapshot endpoint := hroutes ▸ mem_cons_self
    rw [hroutes]
    exact ne_nil_of_routeEvidence (mem_routeClaims_iff.mp hfirst).2
  · exact iff_of_false (by simp) h

theorem weight_pos_of_documentTexts {kind : TextKind} {weight : ℕ} {suffix : String}
    {texts : List SearchedText} (hweight : 0 < weight)
    (h : documentTexts snapshot endpoint claim kind weight suffix = some texts)
    (hitem : item ∈ texts) : 0 < item.weight := by
  obtain ⟨text, -, h⟩ := Option.bind_eq_some_iff.mp h
  obtain ⟨ids, -, h⟩ := Option.bind_eq_some_iff.mp h
  split_ifs at h
  cases h
  rw [List.mem_singleton.mp hitem]
  exact hweight

theorem weight_pos_of_declarationTexts
    (h : item ∈ declarationTexts snapshot endpoint claim ids) : 0 < item.weight := by
  unfold declarationTexts at h
  split_ifs at h
  · split at h
    · rw [List.mem_singleton.mp h]
      exact Nat.two_pos
    · cases h
  · simp only [mem_append, mem_toList, map_eq_some_iff] at h
    rcases h with ⟨text, -, rfl⟩ | ⟨handler, -, rfl⟩
    · exact Nat.succ_pos 4
    · exact Nat.two_pos
  · simp only [append_nil, mem_toList, map_eq_some_iff] at h
    obtain ⟨text, -, rfl⟩ := h
    exact Nat.succ_pos 4

theorem weight_pos (h : item ∈ searchedTexts snapshot endpoint) :
    0 < item.weight := by
  rcases List.mem_append.mp h with hpath | hclaim
  · unfold pathTexts at hpath
    split_ifs at hpath
    · cases hpath
    · rw [List.mem_singleton.mp hpath]
      exact Nat.two_pos
  · obtain ⟨claim, -, hitem⟩ := List.mem_flatMap.mp hclaim
    obtain ⟨texts, htexts⟩ : ∃ texts, claimTexts snapshot endpoint claim = some texts := by
      cases htexts : claimTexts snapshot endpoint claim with
      | none => simp [htexts] at hitem
      | some texts => exact ⟨texts, rfl⟩
    rw [htexts, getD_some] at hitem
    unfold claimTexts at htexts
    split_ifs at htexts
    · exact weight_pos_of_documentTexts (by decide) htexts hitem
    · exact weight_pos_of_documentTexts (by decide) htexts hitem
    · obtain ⟨ids, -, htexts⟩ := Option.bind_eq_some_iff.mp htexts
      cases htexts
      exact weight_pos_of_declarationTexts hitem
    · obtain ⟨ids, -, htexts⟩ := Option.bind_eq_some_iff.mp htexts
      cases htexts
    · obtain ⟨ids, -, htexts⟩ := Option.bind_eq_some_iff.mp htexts
      cases htexts
      cases hitem
    · obtain ⟨ids, -, htexts⟩ := Option.bind_eq_some_iff.mp htexts
      cases htexts
    · obtain ⟨ids, -, htexts⟩ := Option.bind_eq_some_iff.mp htexts
      obtain ⟨symbol, -, htexts⟩ := Option.bind_eq_some_iff.mp htexts
      cases htexts
      rw [List.mem_singleton.mp hitem]
      exact Nat.two_pos

end Endpoint

/-! ### Searches -/

section Search

variable {unicode : Unicode} {snapshot : ContractSnapshot} {terms : List String}

theorem matchScore_eq_zero_iff {texts : List SearchedText} (h : ∀ item ∈ texts, 0 < item.weight) :
    matchScore unicode terms texts = 0 ↔
      ∀ item ∈ texts, ∀ term ∈ terms, term ∉ termsFor unicode item.text := by
  simp only [matchScore, sum_eq_zero_iff, List.forall_mem_map, mul_eq_zero]
  refine forall₂_congr fun item hitem => ?_
  rw [or_iff_right (h item hitem).ne', countMatches_eq_zero_iff]

/-- No text of an endpoint shows one of the terms. -/
def ShowsNone (unicode : Unicode) (snapshot : ContractSnapshot) (terms : List String)
    (endpoint : Endpoint) : Prop :=
  ∀ item ∈ searchedTexts snapshot endpoint, ∀ term ∈ terms, term ∉ termsFor unicode item.text

/-- The contract is complete, and every endpoint has a safe path and an exact route. -/
def IsCovered (snapshot : ContractSnapshot) : Prop :=
  snapshot.coverage.isIncomplete = false ∧
    ∀ endpoint ∈ snapshot.endpoints, isSafePath endpoint = true ∧ HasExactRoute snapshot endpoint

variable {endpoint : Endpoint}

theorem scanEndpoint_covered :
    (scanEndpoint unicode snapshot terms endpoint).covered = true ↔
      isSafePath endpoint = true ∧ HasExactRoute snapshot endpoint := by
  unfold scanEndpoint
  split_ifs with h
  · simp only [Bool.not_eq_true', isEmpty_eq_false_iff, h, true_and, pathIds_ne_nil_iff]
  · simp [h]

theorem scanEndpoint_candidate_eq_none (hsafe : isSafePath endpoint = true)
    (hroute : HasExactRoute snapshot endpoint) :
    (scanEndpoint unicode snapshot terms endpoint).candidate = none ↔
      ShowsNone unicode snapshot terms endpoint := by
  have hids : (pathIds snapshot endpoint).isEmpty = false :=
    List.isEmpty_eq_false_iff.mpr (pathIds_ne_nil_iff.mpr hroute)
  unfold scanEndpoint
  simp only [hsafe, if_true, hids, Bool.not_false, Bool.and_true, decide_eq_true_eq,
    ite_eq_right_iff, reduceCtorEq, imp_false, not_lt, nonpos_iff_eq_zero]
  exact matchScore_eq_zero_iff fun item hitem => weight_pos hitem

theorem scanEndpoint_usable (hsafe : isSafePath endpoint = true)
    (hroute : HasExactRoute snapshot endpoint) :
    (scanEndpoint unicode snapshot terms endpoint).usable = true := by
  have hids : (pathIds snapshot endpoint).isEmpty = false :=
    List.isEmpty_eq_false_iff.mpr (pathIds_ne_nil_iff.mpr hroute)
  simp [scanEndpoint, hsafe, endpointHasContext, hids]

def IsScanned (snapshot : ContractSnapshot) (terms : List String) : Prop :=
  terms ≠ [] ∧ snapshot.endpoints ≠ [] ∧ snapshot.endpoints.length ≤ 5000 ∧
    snapshot.claims.length ≤ 50000

/-- Nothing is found exactly when the contract is covered and no endpoint shows one of the terms. -/
theorem searchSnapshot_eq_noMatch_iff {limit : ℕ} :
    searchSnapshot unicode snapshot terms limit = .noMatch ↔
      IsScanned snapshot terms ∧ IsCovered snapshot ∧
        ∀ endpoint ∈ snapshot.endpoints, ShowsNone unicode snapshot terms endpoint := by
  have hcovered : (!snapshot.coverage.isIncomplete &&
      (snapshot.endpoints.map (scanEndpoint unicode snapshot terms)).all (·.covered)) = true ↔
      IsCovered snapshot := by
    simp only [Bool.and_eq_true, Bool.not_eq_true', List.all_map, List.all_eq_true,
      Function.comp_apply, scanEndpoint_covered]
    rfl
  have hempty (h : IsCovered snapshot) : (((snapshot.endpoints.map
      (scanEndpoint unicode snapshot terms)).filterMap (·.candidate)).insertionSort
        candidateLe).isEmpty = true ↔
      ∀ endpoint ∈ snapshot.endpoints, ShowsNone unicode snapshot terms endpoint := by
    rw [List.isEmpty_iff, ← length_eq_zero_iff, length_insertionSort,
      length_eq_zero_iff, filterMap_eq_nil_iff, List.forall_mem_map]
    exact forall₂_congr fun endpoint hendpoint =>
      scanEndpoint_candidate_eq_none (h.2 endpoint hendpoint).1 (h.2 endpoint hendpoint).2
  have husable (h : IsCovered snapshot) (hne : snapshot.endpoints ≠ []) :
      (snapshot.endpoints.map (scanEndpoint unicode snapshot terms)).any (·.usable) = true := by
    obtain ⟨endpoint, hendpoint⟩ := exists_mem_of_ne_nil _ hne
    exact List.any_eq_true.mpr ⟨_, List.mem_map_of_mem hendpoint,
      scanEndpoint_usable (h.2 endpoint hendpoint).1 (h.2 endpoint hendpoint).2⟩
  unfold searchSnapshot IsScanned
  simp only
  constructor
  · intro h
    split_ifs at h with hterms hendpoints hlimit _ hnone hcomplete
    have hcover := hcovered.mp hcomplete
    rw [not_or, not_lt, not_lt] at hlimit
    exact ⟨⟨by simpa using hterms, by simpa using hendpoints, hlimit⟩, hcover,
      (hempty hcover).mp hnone⟩
  · rintro ⟨⟨hterms, hendpoints, hlimit⟩, hcover, hnone⟩
    rw [if_neg (by simpa using hterms), if_neg (by simpa using hendpoints),
      if_neg (by simpa [not_or, not_lt] using hlimit), if_pos (husable hcover hendpoints),
      if_pos ((hempty hcover).mpr hnone), if_pos (hcovered.mpr hcover)]

theorem searchSnapshot_ne_candidates_nil {limit : ℕ} (hlimit : 0 < limit)
    {truncated complete : Bool} :
    searchSnapshot unicode snapshot terms limit ≠ .candidates [] truncated complete := by
  unfold searchSnapshot
  simp only
  split_ifs with hterms hendpoints hsize husable hempty
  all_goals try simp only [ne_eq, reduceCtorEq, not_false_eq_true]
  rw [List.isEmpty_iff] at hempty
  simp only [OperationSearchResult.candidates.injEq, take_eq_nil_iff, hempty, or_false]
  exact fun h => hlimit.ne' h.1

/-- No term of the query, however many it has, is a term of a searchable text, however long. -/
def MatchesNothing (unicode : Unicode) (snapshot : ContractSnapshot) (query : String) : Prop :=
  ∀ endpoint ∈ snapshot.endpoints, ∀ text, IsSearchable snapshot endpoint text →
    ∀ term ∈ allTerms unicode query, term ∉ allTerms unicode text

/-- What the absence of a match says: the contract is complete, every endpoint has an exact route,
and no term of the query occurs in a searchable text. -/
structure IsSoundNoMatch (unicode : Unicode) (snapshot : ContractSnapshot) (query : String) :
    Prop where
  complete : snapshot.coverage.isIncomplete = false
  routes : ∀ endpoint ∈ snapshot.endpoints, HasExactRoute snapshot endpoint
  absent : MatchesNothing unicode snapshot query

/-- Where a covered contract is searched, and its texts show none of the terms that are kept of the
query, there is no match at all. -/
def ShowsMatches (host : Host) (unicode : Unicode) (input : SearchInput)
    (options : OperationSearchOptions) : Prop :=
  options.isValid = true → input.isValid host = true →
    IsScanned input.snapshot (termsFor unicode options.intentQuery) → IsCovered input.snapshot →
    (∀ endpoint ∈ input.snapshot.endpoints,
      ShowsNone unicode input.snapshot (termsFor unicode options.intentQuery) endpoint) →
    MatchesNothing unicode input.snapshot options.intentQuery

variable {host : Host} {input : SearchInput} {options : OperationSearchOptions}

theorem searchOperationCandidates_eq_noMatch_iff :
    searchOperationCandidates host unicode (some input) options = .noMatch ↔
      options.isValid = true ∧ input.isValid host = true ∧
        IsScanned input.snapshot (termsFor unicode options.intentQuery) ∧
        IsCovered input.snapshot ∧ ∀ endpoint ∈ input.snapshot.endpoints,
          ShowsNone unicode input.snapshot (termsFor unicode options.intentQuery) endpoint := by
  unfold searchOperationCandidates
  simp only
  split_ifs with hoptions hinput
  · simp only [hoptions, hinput, true_and, searchSnapshot_eq_noMatch_iff]
  · simp [hinput]
  · simp [hoptions]

theorem isSoundNoMatch_iff :
    (searchOperationCandidates host unicode (some input) options = .noMatch →
      IsSoundNoMatch unicode input.snapshot options.intentQuery) ↔
      ShowsMatches host unicode input options := by
  rw [searchOperationCandidates_eq_noMatch_iff]
  constructor
  · intro h hoptions hinput hscanned hcovered hnone
    exact (h ⟨hoptions, hinput, hscanned, hcovered, hnone⟩).absent
  · rintro h ⟨hoptions, hinput, hscanned, hcovered, hnone⟩
    exact
      { complete := hcovered.1
        routes := fun endpoint hendpoint => (hcovered.2 endpoint hendpoint).2
        absent := h hoptions hinput hscanned hcovered hnone }

end Search

end ApiTruth.Query
