import ApiTruth.Query.CorpusSearch
import ApiTruth.Query.NoMatch

/-!
# When the keyword search across services finds nothing

A search across services without a match has read the contract of every visible authorized service of
the environment within its limits, and found nothing in any of them.

## Main definitions

* `visibleRead` : what a reader sees of a service.
* `WithinLimits` : no limit of the scan is exceeded.

## Main results

* `searchServices_clean` : what a run of the loop without a match has seen.
* `searchCorpus_noMatch` : what the absence of a match across services says.
* `noMatch_sound_iff` : where it is sound.
-/

namespace ApiTruth.Query

open Checked Ir List

section Corpus

variable (reader : CorpusReader) (request : CorpusSearchRequest) (grants : List String)

/-- What may be seen of a service: nothing, a state without a contract, or a contract. -/
def visibleRead (service : Configured) : Option (Option SearchInput) :=
  match reader.readEnvironment (selectionOf request service none) with
  | .ok .unresolved => some none
  | .ok (.resolved _ input) =>
    if (evidenceScopes input.snapshot).isEmpty || hasScopes grants (evidenceScopes input.snapshot)
    then some (some input) else none
  | _ => none

def visibleInputs (services : List Configured) : List SearchInput :=
  services.filterMap fun service => (visibleRead reader request grants service).join

structure WithinLimits (bytes : ℕ) (repositories : List RepositoryConfig)
    (services : List Configured) : Prop where
  services_le : (allServices repositories).length ≤ 200
  grants_le : grants.length ≤ 1024
  authorized_le : services.length ≤ 20
  scopes_le : ∀ input ∈ visibleInputs reader request grants services,
    (evidenceScopes input.snapshot).length ≤ 1024
  endpoints_le : ((visibleInputs reader request grants services).map
    (·.snapshot.endpoints.length)).sum ≤ 5000
  bytes_le : bytes + ((visibleInputs reader request grants services).map
    fun input => snapshotBytes input.snapshot).sum ≤ 4194304
  deadline : reader.isExpired .beforeGrants = false ∧ ∀ service ∈ services,
    reader.isExpired (.beforeService service) = false ∧
      ((visibleRead reader request grants service).isSome = true →
        reader.isExpired (.afterService service) = false)

/-! ### Runs of the loop -/

/-- Nothing has been found, and nothing is missing. -/
structure CorpusState.IsClean (state : CorpusState) : Prop where
  scanLimit : state.scanLimit = false
  isIncomplete : state.isIncomplete = false
  found : state.found = []

variable (host : Host) (unicode : Unicode)

def searchIn (service : Configured) (input : SearchInput) : OperationSearchResult :=
  searchOperationCandidates host unicode (some (pinnedInput request service input))
    ⟨request.options.intentQuery, 20⟩

/-- A service that a run without a match has passed. -/
structure IsPassed (service : Configured) : Prop where
  before : reader.isExpired (.beforeService service) = false
  searched : ∀ read, visibleRead reader request grants service = some read →
    ∃ input, read = some input ∧ (evidenceScopes input.snapshot).length ≤ 1024 ∧
      reader.isExpired (.afterService service) = false ∧
      searchIn request host unicode service input = .noMatch

/-- What the loop has counted between two states. -/
structure Counts (inputs : List SearchInput) (state state' : CorpusState) : Prop where
  visible : state'.visible = state.visible + inputs.length
  endpoints : state'.endpoints = state.endpoints + (inputs.map (·.snapshot.endpoints.length)).sum
  bytes : state'.bytes = state.bytes + (inputs.map fun input => snapshotBytes input.snapshot).sum
  endpoints_le : state.endpoints ≤ 5000 → state'.endpoints ≤ 5000
  bytes_le : state.bytes ≤ 4194304 → state'.bytes ≤ 4194304

variable {reader request grants host unicode}

variable {state : CorpusState}

theorem CorpusState.limited_not_isClean : ¬state.limited.IsClean :=
  fun h => Bool.noConfusion h.scanLimit

theorem Counts.refl (state : CorpusState) : Counts [] state state :=
  ⟨rfl, rfl, rfl, id, id⟩

theorem Counts.trans {inputs inputs' : List SearchInput} {s t u : CorpusState}
    (hst : Counts inputs s t) (htu : Counts inputs' t u) : Counts (inputs ++ inputs') s u where
  visible := by rw [htu.visible, hst.visible, length_append]; omega
  endpoints := by rw [htu.endpoints, hst.endpoints, map_append, sum_append]; omega
  bytes := by rw [htu.bytes, hst.bytes, map_append, sum_append]; omega
  endpoints_le h := htu.endpoints_le (hst.endpoints_le h)
  bytes_le h := htu.bytes_le (hst.bytes_le h)

variable {service : Configured} {input : SearchInput} {state state' : CorpusState}

theorem CorpusState.isClean_of_add {result : OperationSearchResult}
    (hresult : ∀ truncated complete, result ≠ .candidates [] truncated complete)
    (h : (state.add service input result).IsClean) : state.IsClean ∧ result = .noMatch := by
  cases result with
  | candidates candidates truncated complete =>
    have hfound := h.found
    simp only [CorpusState.add, append_eq_nil_iff, map_eq_nil_iff] at hfound
    exact absurd (hfound.2 ▸ rfl) (hresult truncated complete)
  | noMatch => exact ⟨h, rfl⟩
  | unknown reason => exact Bool.noConfusion h.isIncomplete

theorem searchIn_ne_candidates_nil (truncated complete : Bool) :
    searchIn request host unicode service input ≠ .candidates [] truncated complete := by
  unfold searchIn searchOperationCandidates
  simp only
  split_ifs
  · exact searchSnapshot_ne_candidates_nil (by decide)
  · simp
  · simp

theorem searchResolved_clean {next : Bool}
    (h : searchResolved host unicode reader request service input state = .ok (next, state'))
    (hclean : state'.IsClean) :
    next = true ∧ state.IsClean ∧ Counts [input] state state' ∧
      reader.isExpired (.afterService service) = false ∧
      searchIn request host unicode service input = .noMatch := by
  unfold searchResolved at h
  simp only at h
  split_ifs at h with hlimit hexpired
  · cases h
    exact absurd hclean CorpusState.limited_not_isClean
  · obtain ⟨-, h⟩ := require_bind_eq_ok.mp h
    cases h
    exact absurd hclean CorpusState.limited_not_isClean
  rw [not_or, not_lt, not_lt] at hlimit
  obtain ⟨-, h⟩ := require_bind_eq_ok.mp h
  cases h
  obtain ⟨hstate, hresult⟩ := CorpusState.isClean_of_add
    (fun truncated complete => searchIn_ne_candidates_nil truncated complete) hclean
  refine ⟨rfl, ⟨hstate.scanLimit, hstate.isIncomplete, hstate.found⟩, ?_,
    Bool.eq_false_iff.mpr hexpired, hresult⟩
  rw [searchIn] at hresult
  rw [hresult]
  exact
    { visible := rfl
      endpoints := by simp [CorpusState.add]
      bytes := by simp [CorpusState.add]
      endpoints_le := fun _ => hlimit.1
      bytes_le := fun _ => hlimit.2 }

theorem isPassed_of_invisible (hvisible : visibleRead reader request grants service = none)
    (hbefore : reader.isExpired (.beforeService service) = false) (state : CorpusState) :
    Counts (visibleInputs reader request grants [service]) state state ∧
      IsPassed reader request grants host unicode service := by
  have hinputs : visibleInputs reader request grants [service] = [] := by
    simp [visibleInputs, hvisible]
  refine ⟨hinputs ▸ Counts.refl state, hbefore, fun read hsome => ?_⟩
  rw [hvisible] at hsome
  cases hsome

theorem searchResolved_passed {next : Bool}
    (hvisible : visibleRead reader request grants service = some (some input))
    (hbefore : reader.isExpired (.beforeService service) = false)
    (hscopes : (evidenceScopes input.snapshot).length ≤ 1024)
    (h : searchResolved host unicode reader request service input state = .ok (next, state'))
    (hclean : state'.IsClean) :
    next = true ∧ state.IsClean ∧
      Counts (visibleInputs reader request grants [service]) state state' ∧
      IsPassed reader request grants host unicode service := by
  obtain ⟨hnext, hstate, hcounts, hafter, hresult⟩ := searchResolved_clean h hclean
  have hinputs : visibleInputs reader request grants [service] = [input] := by
    simp [visibleInputs, hvisible]
  refine ⟨hnext, hstate, hinputs ▸ hcounts, hbefore, fun read hsome => ?_⟩
  rw [hvisible] at hsome
  cases hsome
  exact ⟨input, rfl, hscopes, hafter, hresult⟩

theorem searchService_clean {next : Bool}
    (h : searchService host unicode reader request grants service state = .ok (next, state'))
    (hclean : state'.IsClean) :
    next = true ∧ state.IsClean ∧
      Counts (visibleInputs reader request grants [service]) state state' ∧
      IsPassed reader request grants host unicode service := by
  unfold searchService at h
  split_ifs at h with hbefore
  · cases h
    exact absurd hclean CorpusState.limited_not_isClean
  rw [not_or, Bool.not_eq_true] at hbefore
  obtain ⟨-, h⟩ := require_bind_eq_ok.mp h
  obtain ⟨read, hread, h⟩ := bind_eq_ok.mp h
  cases read with
  | denied =>
    cases h
    have hvisible : visibleRead reader request grants service = none := by
      rw [visibleRead, hread]
    exact ⟨rfl, hclean, isPassed_of_invisible hvisible hbefore.2 state⟩
  | unresolved =>
    cases h
    exact Bool.noConfusion hclean.isIncomplete
  | resolved documentBytes input =>
    obtain ⟨-, h⟩ := require_bind_eq_ok.mp h
    have hvisible : visibleRead reader request grants service =
        if (evidenceScopes input.snapshot).isEmpty ||
          hasScopes grants (evidenceScopes input.snapshot)
        then some (some input) else none := by
      rw [visibleRead, hread]
    unfold searchAuthorized at h
    simp only at h
    split_ifs at h with hmany hempty hexpired hgranted
    · cases h
      exact absurd hclean CorpusState.limited_not_isClean
    · rw [if_pos (by simp [hempty])] at hvisible
      exact searchResolved_passed hvisible hbefore.2 (not_lt.mp hmany) h hclean
    · cases h
      exact absurd hclean CorpusState.limited_not_isClean
    · obtain ⟨-, -, h⟩ := bind_eq_ok.mp h
      rw [if_pos (by simp [hgranted])] at hvisible
      exact searchResolved_passed hvisible hbefore.2 (not_lt.mp hmany) h hclean
    · obtain ⟨-, -, h⟩ := bind_eq_ok.mp h
      cases h
      rw [if_neg (by simp [hempty, hgranted])] at hvisible
      exact ⟨rfl, hclean, isPassed_of_invisible hvisible hbefore.2 state⟩

/-- A run that leaves a clean state has passed every service. -/
theorem searchServices_clean {services : List Configured}
    (h : searchServices host unicode reader request grants services state = .ok state')
    (hclean : state'.IsClean) :
    state.IsClean ∧ Counts (visibleInputs reader request grants services) state state' ∧
      ∀ service ∈ services, IsPassed reader request grants host unicode service := by
  induction services generalizing state with
  | nil =>
    obtain rfl := Except.ok.inj h
    exact ⟨hclean, Counts.refl state, by simp⟩
  | cons service services ih =>
    obtain ⟨⟨next, middle⟩, hstep, h⟩ := bind_eq_ok.mp h
    split_ifs at h with hnext
    · obtain ⟨hmiddle, hcounts, hpassed⟩ := ih h
      obtain ⟨-, hstate, hfirst, hservice⟩ := searchService_clean hstep hmiddle
      refine ⟨hstate, ?_, List.forall_mem_cons.mpr ⟨hservice, hpassed⟩⟩
      have hinputs : visibleInputs reader request grants (service :: services) =
          visibleInputs reader request grants [service] ++
            visibleInputs reader request grants services := filterMap_append (l := [service]) ..
      rw [hinputs]
      exact hfirst.trans hcounts
    · cases h
      exact absurd (searchService_clean hstep hclean).1 hnext

/-! ### The absence of a match -/

theorem corpusResult_eq_noMatch {limit : ℕ} (h : corpusResult limit state = .noMatch) :
    state.IsClean ∧ 0 < state.visible := by
  unfold corpusResult at h
  simp only at h
  split_ifs at h with hfound hcomplete
  simp only [Bool.and_eq_true, Bool.not_eq_true', decide_eq_true_eq] at hcomplete
  rw [List.isEmpty_iff, ← length_eq_zero_iff, length_insertionSort, length_eq_zero_iff] at hfound
  exact ⟨⟨hcomplete.1.1, hcomplete.1.2, hfound⟩, hcomplete.2⟩

theorem WithinLimits.of_perm {bytes : ℕ} {repositories : List RepositoryConfig}
    {services services' : List Configured} (hperm : services.Perm services')
    (h : WithinLimits reader request grants bytes repositories services) :
    WithinLimits reader request grants bytes repositories services' := by
  have hinputs : (visibleInputs reader request grants services).Perm
      (visibleInputs reader request grants services') := hperm.filterMap _
  have hsum (f : SearchInput → ℕ) : ((visibleInputs reader request grants services).map f).sum =
      ((visibleInputs reader request grants services').map f).sum := (hinputs.map f).sum_eq
  exact
    { services_le := h.services_le
      grants_le := h.grants_le
      authorized_le := hperm.length_eq ▸ h.authorized_le
      scopes_le := fun input hinput => h.scopes_le input (hinputs.mem_iff.mpr hinput)
      endpoints_le := hsum _ ▸ h.endpoints_le
      bytes_le := hsum _ ▸ h.bytes_le
      deadline := ⟨h.deadline.1, fun service hservice =>
        h.deadline.2 service (hperm.mem_iff.mpr hservice)⟩ }

/-- A search without a match has read the configuration and the grants, has exceeded no limit, has
seen some contract, and has found nothing in any service that may be seen. -/
theorem searchCorpus_noMatch (h : searchCorpus host unicode reader request = .ok .noMatch) :
    ∃ bytes repositories grants services,
      reader.active = .ok (some (.document bytes repositories)) ∧ reader.grants = .ok grants ∧
      services = authorizedServices grants
        (configuredServices request.environment (allServices repositories)) ∧
      WithinLimits reader request grants bytes repositories services ∧
      visibleInputs reader request grants services ≠ [] ∧
      ∀ service ∈ services, ∀ read, visibleRead reader request grants service = some read →
        ∃ input, read = some input ∧ searchIn request host unicode service input = .noMatch := by
  obtain ⟨-, h⟩ := require_bind_eq_ok.mp h
  have hsearch : searchCorpusWithClient host unicode reader request = .ok .noMatch := by
    split at h
    · cases pure_eq_ok.mp h
    · cases h
    · next result hresult => rw [hresult, pure_eq_ok.mp h]
  obtain ⟨active, hactive, h⟩ := bind_eq_ok.mp hsearch
  split at h
  · cases pure_eq_ok.mp h
  · cases pure_eq_ok.mp h
  · cases h
  next bytes repositories =>
  split at h
  · cases pure_eq_ok.mp h
  next hbytes =>
  obtain ⟨grants, hgrants, h⟩ := bind_eq_ok.mp h
  split at h
  · cases pure_eq_ok.mp h
  next hcount =>
  obtain ⟨state, hstate, h⟩ := bind_eq_ok.mp h
  obtain ⟨hclean, hvisible⟩ := corpusResult_eq_noMatch (pure_eq_ok.mp h)
  obtain ⟨hstart, hcounts, hpassed⟩ := searchServices_clean hstate hclean
  have hlimits := hstart.scanLimit
  simp only [Bool.or_eq_false_iff, decide_eq_false_iff_not, not_lt] at hlimits
  rw [take_of_length_le hlimits.2] at hcounts hpassed
  have hservices : ((allServices repositories).take 200) = allServices repositories :=
    take_of_length_le hlimits.1
  rw [hservices] at hlimits hcounts hpassed
  rw [not_or, not_lt, Bool.not_eq_true] at hbytes
  -- the loop takes the services in the order of their names
  have hperm : (authorizedServices grants ((configuredServices request.environment
      (allServices repositories)).insertionSort configuredLe)).Perm
      (authorizedServices grants (configuredServices request.environment
        (allServices repositories))) := (perm_insertionSort _ _).filter _
  have hwithin : WithinLimits reader request grants bytes repositories
      (authorizedServices grants ((configuredServices request.environment
        (allServices repositories)).insertionSort configuredLe)) :=
    { services_le := hlimits.1
      grants_le := not_lt.mp hcount
      authorized_le := hlimits.2
      scopes_le := fun input hinput => by
        obtain ⟨service, hservice, hread⟩ := List.mem_filterMap.mp hinput
        obtain ⟨searched, hsame, hscopes, -⟩ := (hpassed service hservice).searched _
          (Option.join_eq_some_iff.mp hread)
        rwa [Option.some.inj hsame]
      endpoints_le := by
        have hle := hcounts.endpoints_le (Nat.zero_le _)
        rwa [hcounts.endpoints, Nat.zero_add] at hle
      bytes_le := by
        have hle := hcounts.bytes_le hbytes.1
        rwa [hcounts.bytes] at hle
      deadline := ⟨hbytes.2, fun service hservice => ⟨(hpassed service hservice).before,
        fun hsome => by
          obtain ⟨read, hread⟩ := Option.isSome_iff_exists.mp hsome
          obtain ⟨_, -, -, hafter, -⟩ := (hpassed service hservice).searched read hread
          exact hafter⟩⟩ }
  refine ⟨bytes, repositories, grants, _, hactive, hgrants, rfl, hwithin.of_perm hperm, ?_, ?_⟩
  · rw [hcounts.visible, Nat.zero_add] at hvisible
    have hlength := ((hperm.filterMap fun service =>
      (visibleRead reader request grants service).join)).length_eq
    exact ne_nil_of_length_pos (hlength ▸ hvisible)
  · intro service hservice read hread
    obtain ⟨input, hinput, -, -, hresult⟩ := (hpassed service
      (hperm.mem_iff.mpr hservice)).searched read hread
    exact ⟨input, hinput, hresult⟩

end Corpus

/-- A piece of evidence about the endpoint of the sample. -/
def sampleEvidence (id kind : String) (method : EvidenceMethod) (pointer : Option String) :
    Evidence where
  evidenceId := id
  sourceKind := kind
  sourceId := "repo"
  sourceVersion := "0123456789ab"
  location := { path := some "a.ts", pointer }
  method := method
  scope :=
    { serviceId := "svc"
      snapshotId := some "snap"
      endpointId := some "ep"
      revision := some "0123456789ab" }
  limitations := []
  accessLabel := "internal"

def sampleClaim (id predicate : String) (value : Json) (verification : Verification)
    (evidenceId : String) : Claim where
  claimId := id
  subject := { serviceId := "svc", endpointId := some "ep" }
  predicate
  value
  verification
  evidenceIds := [evidenceId]

/-- A snapshot of one endpoint with a registered route and this summary. -/
def summarySnapshot (summary : String) : ContractSnapshot :=
  { sampleSnapshot with
    evidence := sampleSnapshot.evidence ++
      [sampleEvidence "doc" "api_document" .typeDeclaration (some "/get/summary"),
        sampleEvidence "code" "source_code" .deterministicAnalysis none]
    claims := [sampleClaim "summary" "operation.summary" (.str summary) .declared "doc",
      sampleClaim "route" "route.registration" (.obj [("method", .str "GET"), ("path", .str "/a")])
        .establishedByAnalysis "code"] }

def sampleInput (summary : String) : SearchInput where
  snapshot := summarySnapshot summary
  selector := ⟨"tenant", "repo", "svc", .environment "production" (some "7")⟩
  pin :=
    { snapshotId := "snap"
      revision := "0123456789ab"
      configFingerprint := "cfg"
      checkpointVersion := some "7" }

/-- A summary with thirty-three terms, `pay` being the last. -/
def sampleSummary : String :=
  String.ofList ((List.replicate 32 ['g', 'o', ' ']).flatten ++ ['p', 'a', 'y'])

end ApiTruth.Query
