import ApiTruth.Semantics.Answers
import ApiTruth.Semantics.Grounding

/-!
# Isolation of the model context

A request depends on the selected endpoints, the claims about them and the evidence of these claims,
and on nothing else of the snapshot.  The validity of an input fixes the service, the revision and
the identifiers of its snapshot by the pin and the selection, so that the rules of eligibility agree
for two valid inputs with one pin and one selection.

## Main definitions

* `SameContext` : two inputs agree on what is selected.

## Main results

* `semanticRequest_congr` : the requests of such inputs are identical.
* `runSemantic_cases` : the results of a run, with the request that was sent.
* `contextCoverage_partition` : the coverage divides the requested endpoints.
* `model_context_grounded_and_isolated` : requests, answers and coverage of a run.
-/

namespace ApiTruth.Semantics

open Checked Ir List Option

/-! ### Runs -/

section Run

variable {host : Host} {input : SemanticAnalysisInput} {intentQuery : Option String}

theorem prepareSemantic_eq_ok {prepared : Option PreparedSemantic}
    (h : prepareSemantic host input intentQuery = .ok prepared) :
    (input.inference = .disabled ∧ prepared = none) ∨
    ∃ provider model sourceProfile endpoints, input.inference = .enabled provider model ∧
      IsValidInput host input model ∧
      preparedEndpoints input intentQuery = .ok (sourceProfile, endpoints) ∧
      prepared = some ⟨provider, model, endpoints, sourceProfile, intentQuery.map fun _ =>
        contextCoverage input.endpointIds (endpoints.map (·.endpointId))⟩ := by
  obtain ⟨-, h⟩ := require_bind_eq_ok.mp h
  cases hinference : input.inference with
  | disabled =>
    rw [hinference] at h
    exact .inl ⟨rfl, (pure_eq_ok.mp h).symm⟩
  | enabled provider model =>
    rw [hinference] at h
    obtain ⟨hvalid, h⟩ := require_bind_eq_ok.mp h
    obtain ⟨⟨sourceProfile, endpoints⟩, hendpoints, h⟩ := bind_eq_ok.mp h
    exact .inr ⟨provider, model, sourceProfile, endpoints, rfl, hvalid, hendpoints,
      (pure_eq_ok.mp h).symm⟩

structure IsRequest (host : Host) (input : SemanticAnalysisInput) (intentQuery : Option String)
    (request : SemanticProviderRequest) : Prop where
  inference : input.inference = .enabled request.provider request.model
  valid : IsValidInput host input request.model
  endpoints : ∃ sourceProfile,
    preparedEndpoints input intentQuery = .ok (sourceProfile, request.endpoints)
  ne_nil : request.endpoints ≠ []
  discovery : intentQuery.isSome = true → request.promptVersion ≠ .grounding

variable {request : Option SemanticProviderRequest}

theorem semanticRequest_eq_ok (h : semanticRequest host input intentQuery = .ok request) :
    ∃ prepared, prepareSemantic host input intentQuery = .ok prepared ∧
      request = (prepared.filter fun prepared => !prepared.endpoints.isEmpty).map
        (PreparedSemantic.request input intentQuery) := by
  obtain ⟨prepared, hprepared, h⟩ := bind_eq_ok.mp h
  exact ⟨prepared, hprepared, (pure_eq_ok.mp h).symm⟩

variable {request : SemanticProviderRequest}
  {providerPort : SemanticProviderRequest → ProviderOutcome}

theorem isRequest_of_semanticRequest
    (h : semanticRequest host input intentQuery = .ok (some request)) :
    IsRequest host input intentQuery request := by
  obtain ⟨prepared, hprepared, hrequest⟩ := semanticRequest_eq_ok h
  rcases prepareSemantic_eq_ok hprepared with ⟨-, rfl⟩ |
    ⟨provider, model, sourceProfile, endpoints, hinference, hvalid, hendpoints, rfl⟩
  · cases hrequest
  · obtain ⟨other, hother, rfl⟩ := map_eq_some_iff.mp hrequest.symm
    obtain ⟨hsome, hne⟩ := filter_eq_some_iff.mp hother
    cases hsome
    refine ⟨hinference, hvalid, ⟨sourceProfile, hendpoints⟩, by simpa [PreparedSemantic.request] using hne,
      fun hsome => ?_⟩
    simp only [PreparedSemantic.request, hsome, if_true]
    split_ifs <;> simp

/-- The results of a run: nothing is sent when inference is disabled or there is no context, and
otherwise the answer to the one request is checked. -/
theorem runSemantic_cases {result : SemanticAnalysisResult}
    (h : runSemantic host input intentQuery providerPort = .ok result) :
    (input.inference = .disabled ∧ semanticRequest host input intentQuery = .ok none ∧
      result = .disabled) ∨ (∃ provider model, input.inference = .enabled provider model ∧
      IsValidInput host input model ∧ semanticRequest host input intentQuery = .ok none ∧
      result = .noContext (intentQuery.map fun _ => contextCoverage input.endpointIds [])) ∨
    ∃ request output, semanticRequest host input intentQuery = .ok (some request) ∧
      validateOutput (providerPort request) request = .ok output ∧
      result = .answered output ⟨request.provider, request.model, request.promptVersion,
          input.selection.selector, input.pin⟩ (intentQuery.map fun _ =>
          contextCoverage input.endpointIds (request.endpoints.map (·.endpointId))) := by
  obtain ⟨prepared, hprepared, h⟩ := bind_eq_ok.mp h
  have hrequest : semanticRequest host input intentQuery =
      .ok ((prepared.filter fun prepared => !prepared.endpoints.isEmpty).map
        (PreparedSemantic.request input intentQuery)) :=
    bind_eq_ok.mpr ⟨prepared, hprepared, rfl⟩
  rcases prepareSemantic_eq_ok hprepared with ⟨hinference, rfl⟩ |
    ⟨provider, model, sourceProfile, endpoints, hinference, hvalid, hendpoints, rfl⟩
  · exact .inl ⟨hinference, hrequest, (pure_eq_ok.mp h).symm⟩
  · cases endpoints with
    | nil =>
      exact .inr (.inl ⟨provider, model, hinference, hvalid, hrequest, (pure_eq_ok.mp h).symm⟩)
    | cons endpoint endpoints =>
      obtain ⟨output, houtput, h⟩ := bind_eq_ok.mp h
      exact .inr (.inr ⟨_, output, hrequest, houtput, (pure_eq_ok.mp h).symm⟩)

theorem runSemantic_of_request {output : SemanticOutput}
    (hrequest : semanticRequest host input intentQuery = .ok (some request))
    (houtput : validateOutput (providerPort request) request = .ok output) :
    runSemantic host input intentQuery providerPort =
      .ok (.answered output ⟨request.provider, request.model, request.promptVersion,
          input.selection.selector, input.pin⟩ (intentQuery.map fun _ =>
          contextCoverage input.endpointIds (request.endpoints.map (·.endpointId)))) := by
  obtain ⟨prepared, hprepared, hrequest⟩ := bind_eq_ok.mp hrequest
  rcases prepareSemantic_eq_ok hprepared with ⟨-, rfl⟩ |
    ⟨provider, model, sourceProfile, endpoints, -, -, -, rfl⟩
  · cases hrequest
  · cases endpoints with
    | nil => cases hrequest
    | cons endpoint endpoints =>
      cases hrequest
      exact bind_eq_ok.mpr ⟨_, hprepared, bind_eq_ok.mpr ⟨output, houtput, rfl⟩⟩

end Run

/-! ### Inputs with one context -/

def selectedClaims (input : SemanticAnalysisInput) : List Claim :=
  input.snapshot.claims.filter fun claim =>
    claim.subject.endpointId.any input.endpointIds.contains

/-- The inputs agree on the pin, the selection, the analyzer, the selected endpoints, the claims about
them and the evidence of these claims. -/
structure SameContext (left right : SemanticAnalysisInput) : Prop where
  pin : left.pin = right.pin
  selection : left.selection = right.selection
  inference : left.inference = right.inference
  endpointIds : left.endpointIds = right.endpointIds
  analyzer : left.snapshot.analyzer = right.snapshot.analyzer
  endpoints : selectedEndpoints left = selectedEndpoints right
  claims : selectedClaims left = selectedClaims right
  evidence : ∀ claim ∈ selectedClaims left, ∀ item, item.evidenceId ∈ claim.evidenceIds →
    (item ∈ left.snapshot.evidence ↔ item ∈ right.snapshot.evidence)

variable {id : String} {host : Host} {requested analyzed : List String}

/-- The identifiers of the evidence are distinct, so that the last entry is the only one. -/
theorem evidenceAt_eq_some_iff {snapshot : ContractSnapshot} (hnodup : snapshot.evidenceIds.Nodup)
    {item : Evidence} : evidenceAt snapshot id = some item ↔
      item ∈ snapshot.evidence ∧ item.evidenceId = id := by
  refine ⟨evidenceAt_eq_some, ?_⟩
  rintro ⟨hmem, rfl⟩
  rw [evidenceAt, OrderedMap.get?_eq_some_iff, OrderedMap.entries_ofEntries]
  · exact List.mem_map.mpr ⟨item, hmem, rfl⟩
  · rw [List.map_map]
    exact hnodup

theorem filterMap_filter_of_none {α β : Type*} {f : α → Option β} {p : α → Bool} {xs : List α}
    (h : ∀ x ∈ xs, p x = false → f x = none) : (xs.filter p).filterMap f = xs.filterMap f := by
  rw [filterMap_filter]
  refine filterMap_congr fun x hx => ?_
  cases hp : p x with
  | true => simp
  | false => simp [h x hx hp]

theorem all_congr_of_mem {α : Type*} {p q : α → Bool} {xs : List α} (h : ∀ x ∈ xs, p x = q x) :
    xs.all p = xs.all q := by
  rw [Bool.eq_iff_iff, List.all_eq_true, List.all_eq_true]
  exact forall₂_congr fun x hx => by rw [h x hx]

section SameContext

variable {host : Host} {left right : SemanticAnalysisInput} {model : String}
  (hsame : SameContext left right) (hleft : IsValidInput host left model)
  (hright : IsValidInput host right model)

include hsame hleft hright

/-- The pin and the selection fix the service, the source and the identifier of the snapshot. -/
theorem SameContext.names : left.snapshot.service.serviceId = right.snapshot.service.serviceId ∧
    left.snapshot.source.repositoryId = right.snapshot.source.repositoryId ∧
    left.snapshot.source.immutableRevision = right.snapshot.source.immutableRevision ∧
    left.snapshot.snapshotId = right.snapshot.snapshotId := by
  have hl := hleft.2.2.1
  have hr := hright.2.2.1
  simp only [validateSelection, Bool.and_eq_true, beq_iff_eq] at hl hr
  obtain ⟨⟨⟨⟨⟨⟨⟨-, -⟩, hsource⟩, hservice⟩, hsnapshot⟩, hrevision⟩, -⟩, -⟩ := hl
  obtain ⟨⟨⟨⟨⟨⟨⟨-, -⟩, hsource'⟩, hservice'⟩, hsnapshot'⟩, hrevision'⟩, -⟩, -⟩ := hr
  rw [← hservice, ← hservice', ← hsource, ← hsource', ← hrevision, ← hrevision', ← hsnapshot,
    ← hsnapshot', hsame.pin, hsame.selection]
  exact ⟨rfl, rfl, rfl, rfl⟩

theorem SameContext.isLocalEvidence_eq :
    isLocalEvidence left.snapshot = isLocalEvidence right.snapshot := by
  obtain ⟨hservice, hsource, hrevision, hsnapshot⟩ := hsame.names hleft hright
  funext item
  simp only [isLocalEvidence, hservice, hsource, hrevision, hsnapshot]

variable {claim : Claim} {endpoint : Endpoint}

section

variable (hclaim : claim ∈ selectedClaims left)
include hclaim

theorem SameContext.evidenceAt_eq (hid : id ∈ claim.evidenceIds) :
    evidenceAt left.snapshot id = evidenceAt right.snapshot id := by
  ext item
  rw [evidenceAt_eq_some_iff hleft.2.1.nodup_ids.2, evidenceAt_eq_some_iff hright.2.1.nodup_ids.2]
  refine and_congr_left fun heq => hsame.evidence claim hclaim item ?_
  rwa [heq]

theorem SameContext.evidenceFor_eq (hid : id ∈ claim.evidenceIds) (endpointId : String) :
    evidenceFor left.snapshot (evidenceAt left.snapshot id) endpointId =
        evidenceFor right.snapshot (evidenceAt right.snapshot id) endpointId ∧
      sourceEvidenceFor left.snapshot (evidenceAt left.snapshot id) endpointId =
        sourceEvidenceFor right.snapshot (evidenceAt right.snapshot id) endpointId := by
  simp only [evidenceFor, sourceEvidenceFor, hsame.isLocalEvidence_eq hleft hright,
    hsame.evidenceAt_eq hleft hright hclaim hid, and_self]

theorem SameContext.sourceClaimEvidence_eq
    (endpointId : String) : sourceClaimEvidence left.snapshot claim endpointId =
      sourceClaimEvidence right.snapshot claim endpointId := by
  unfold sourceClaimEvidence
  congr 1
  exact all_congr_of_mem fun id hid =>
    (hsame.evidenceFor_eq hleft hright hclaim hid endpointId).2

theorem SameContext.claimDocument_eq
    (endpoint : Endpoint) : claimDocument left.snapshot endpoint claim =
      claimDocument right.snapshot endpoint claim := by
  have hall : (claim.evidenceIds.all fun id =>
      evidenceFor left.snapshot (evidenceAt left.snapshot id) endpoint.endpointId) =
      claim.evidenceIds.all fun id =>
        evidenceFor right.snapshot (evidenceAt right.snapshot id) endpoint.endpointId :=
    all_congr_of_mem fun id hid =>
      (hsame.evidenceFor_eq hleft hright hclaim hid endpoint.endpointId).1
  simp only [claimDocument, hall, (hsame.names hleft hright).1]

end

omit hsame hleft hright in
theorem claimDocument_of_not_selected {input : SemanticAnalysisInput}
    (hendpoint : endpoint ∈ selectedEndpoints input)
    (h : claim.subject.endpointId.any input.endpointIds.contains = false) :
    claimDocument input.snapshot endpoint claim = none := by
  have hselected := (mem_selectedEndpoints hendpoint).1
  have hne : claim.subject.endpointId ≠ some endpoint.endpointId := by
    rintro heq
    simp [heq, hselected] at h
  simp [claimDocument, hne]

variable (hendpoint : endpoint ∈ selectedEndpoints left)

include hendpoint in
theorem SameContext.declarationDocuments_eq :
    declarationDocuments left.snapshot endpoint = declarationDocuments right.snapshot endpoint := by
  have hclaims (input : SemanticAnalysisInput) (h : endpoint ∈ selectedEndpoints input) :
      declarationDocuments input.snapshot endpoint =
        (selectedClaims input).filterMap (claimDocument input.snapshot endpoint) :=
    (filterMap_filter_of_none fun claim _ => claimDocument_of_not_selected h).symm
  rw [hclaims left hendpoint, hclaims right (hsame.endpoints ▸ hendpoint), ← hsame.claims]
  exact filterMap_congr fun claim hclaim =>
    hsame.claimDocument_eq hleft hright hclaim endpoint

include hendpoint in
theorem SameContext.endpointClaims_eq :
    endpointClaims left.snapshot endpoint = endpointClaims right.snapshot endpoint ∧
      ∀ claim ∈ endpointClaims left.snapshot endpoint, claim ∈ selectedClaims left := by
  have hclaims (input : SemanticAnalysisInput) (h : endpoint ∈ selectedEndpoints input) :
      endpointClaims input.snapshot endpoint = (selectedClaims input).filter fun claim =>
        claim.subject.endpointId == some endpoint.endpointId &&
          claim.subject.serviceId == input.snapshot.service.serviceId &&
          claim.subject.schemaPointer.isNone := by
    rw [endpointClaims, selectedClaims, List.filter_filter]
    refine filter_congr fun claim _ => ?_
    by_cases heq : claim.subject.endpointId = some endpoint.endpointId
    · simp [heq, (mem_selectedEndpoints h).1]
    · simp [heq]
  rw [hclaims left hendpoint, hclaims right (hsame.endpoints ▸ hendpoint), ← hsame.claims,
    (hsame.names hleft hright).1]
  exact ⟨rfl, fun claim => mem_of_mem_filter⟩

theorem SameContext.routeDocuments_eq {claims : List Claim}
    (hclaims : ∀ claim ∈ claims, claim ∈ selectedClaims left) (endpoint : Endpoint) {route : Claim}
    (hroute : route ∈ claims) : routeDocuments left.snapshot claims endpoint route =
      routeDocuments right.snapshot claims endpoint route := by
  have hhandler : handlerDocuments left.snapshot claims endpoint =
      handlerDocuments right.snapshot claims endpoint := by
    unfold handlerDocuments
    split
    · next handler hhandlers =>
      have hmem : handler ∈ claims :=
        mem_of_mem_filter (hhandlers ▸ mem_singleton_self handler)
      simp only [hsame.sourceClaimEvidence_eq hleft hright (hclaims handler hmem)]
    · rfl
  have hfirst : route.evidenceIds.head?.bind (evidenceAt left.snapshot) =
      route.evidenceIds.head?.bind (evidenceAt right.snapshot) := by
    cases hids : route.evidenceIds with
    | nil => rfl
    | cons id ids =>
      exact hsame.evidenceAt_eq hleft hright (hclaims route hroute) (by simp [hids])
  simp only [routeDocuments, hhandler, hfirst, hsame.analyzer]

include hendpoint in
theorem SameContext.sourceDocuments_eq :
    sourceDocuments left.snapshot endpoint = sourceDocuments right.snapshot endpoint := by
  obtain ⟨heq, hclaims⟩ := hsame.endpointClaims_eq hleft hright hendpoint
  simp only [sourceDocuments, ← heq]
  split_ifs
  · split
    · next route hroutes =>
      have hmem : route ∈ endpointClaims left.snapshot endpoint :=
        mem_of_mem_filter (hroutes ▸ mem_singleton_self route)
      simp only [hsame.sourceClaimEvidence_eq hleft hright (hclaims route hmem),
        hsame.routeDocuments_eq hleft hright hclaims endpoint hmem]
    · rfl
  · rfl

theorem SameContext.preparedEndpoints_eq (intentQuery : Option String) :
    preparedEndpoints left intentQuery = preparedEndpoints right intentQuery := by
  have hsource : sourceProjection left = sourceProjection right := by
    have hmap : ((selectedEndpoints left).map fun endpoint =>
        contextOf endpoint (sourceDocuments left.snapshot endpoint)) =
        (selectedEndpoints left).map fun endpoint =>
          contextOf endpoint (sourceDocuments right.snapshot endpoint) :=
      map_congr_left fun endpoint hendpoint => by
        rw [hsame.sourceDocuments_eq hleft hright hendpoint]
    simp only [sourceProjection, ← hsame.endpoints, hmap]
  have hdeclared : left.projection = right.projection := by
    have hmap : ((selectedEndpoints left).map fun endpoint =>
        contextOf endpoint (declarationDocuments left.snapshot endpoint)) =
        (selectedEndpoints left).map fun endpoint =>
          contextOf endpoint (declarationDocuments right.snapshot endpoint) :=
      map_congr_left fun endpoint hendpoint => by
        rw [hsame.declarationDocuments_eq hleft hright hendpoint]
    simp only [SemanticAnalysisInput.projection, ← hsame.endpoints, hmap]
  simp only [preparedEndpoints, hsource, hdeclared, hsame.endpointIds]

end SameContext

variable {intentQuery : Option String}

/-- The requests for inputs with one context are identical. -/
theorem semanticRequest_congr {left right : SemanticAnalysisInput}
    (hsame : SameContext left right) {request request' : Option SemanticProviderRequest}
    (hleft : semanticRequest host left intentQuery = .ok request)
    (hright : semanticRequest host right intentQuery = .ok request') : request = request' := by
  obtain ⟨prepared, hprepared, rfl⟩ := semanticRequest_eq_ok hleft
  obtain ⟨prepared', hprepared', rfl⟩ := semanticRequest_eq_ok hright
  have hrequest : PreparedSemantic.request left intentQuery =
      PreparedSemantic.request right intentQuery := by
    funext prepared
    simp only [PreparedSemantic.request, hsame.selection, hsame.pin]
  rw [hrequest]
  rcases prepareSemantic_eq_ok hprepared with ⟨hdisabled, rfl⟩ |
    ⟨provider, model, sourceProfile, endpoints, hinference, hvalid, hendpoints, rfl⟩ <;>
  rcases prepareSemantic_eq_ok hprepared' with ⟨hdisabled', rfl⟩ |
    ⟨provider', model', sourceProfile', endpoints', hinference', hvalid', hendpoints', rfl⟩
  · rfl
  · rw [hsame.inference, hinference'] at hdisabled
    cases hdisabled
  · rw [hsame.inference, hdisabled'] at hinference
    cases hinference
  · rw [hsame.inference, hinference'] at hinference
    cases hinference
    rw [hsame.preparedEndpoints_eq hvalid hvalid', hendpoints'] at hendpoints
    cases hendpoints
    rw [hsame.endpointIds]

/-! ### Coverage -/

/-- The coverage divides distinct requested endpoints into the analyzed and the omitted ones. -/
theorem contextCoverage_partition (hrequested : requested.Nodup)
    (hanalyzed : analyzed.Nodup) (hsub : ∀ id ∈ analyzed, id ∈ requested) :
    ((contextCoverage requested analyzed).analyzedEndpointIds ++
      (contextCoverage requested analyzed).omittedEndpointIds).Perm requested := by
  refine (perm_ext_iff_of_nodup ?_ hrequested).mpr fun id => ?_
  · refine List.nodup_append.mpr ⟨hanalyzed, hrequested.filter _, fun id hid other hother heq => ?_⟩
    have hnot := (List.mem_filter.mp hother).2
    subst heq
    simp at hnot
    exact hnot hid
  · simp only [contextCoverage, mem_append, mem_filter]
    by_cases hid : id ∈ analyzed
    · simp [hid, hsub id hid]
    · simp [hid]

def SemanticAnalysisResult.contextCoverage? : SemanticAnalysisResult → Option SemanticContextCoverage
  | disabled => none
  | noContext coverage => coverage
  | answered _ _ coverage => coverage

/-- The request holds a document of the endpoint. -/
def HasDocument (request : Option SemanticProviderRequest) (endpointId : String) : Prop :=
  ∃ sent ∈ request, ∃ context ∈ sent.endpoints,
    context.endpointId = endpointId ∧ context.documents ≠ []

/-- The coverage is that of the request: it divides the requested endpoints into those with a
document in the request and those without. -/
structure CoversRequest (endpointIds : List String) (request : Option SemanticProviderRequest)
    (coverage : SemanticContextCoverage) : Prop where
  requested : coverage.requestedEndpointIds = endpointIds
  analyzed : ∀ id ∈ endpointIds, id ∈ coverage.analyzedEndpointIds ↔ HasDocument request id
  omitted : ∀ id ∈ endpointIds, id ∈ coverage.omittedEndpointIds ↔ ¬ HasDocument request id
  partition : (coverage.analyzedEndpointIds ++ coverage.omittedEndpointIds).Perm endpointIds
  isComplete : coverage.isComplete = true ↔ coverage.omittedEndpointIds = []

theorem coversRequest_contextCoverage (hrequested : requested.Nodup) (hanalyzed : analyzed.Nodup)
    (hsub : ∀ id ∈ analyzed, id ∈ requested)
    (hdocuments : ∀ id, id ∈ analyzed ↔ HasDocument request id) :
    CoversRequest requested request (contextCoverage requested analyzed) where
  requested := rfl
  analyzed := fun id _ => hdocuments id
  omitted := fun id hid => by
    rw [← hdocuments id]
    simp [contextCoverage, hid]
  partition := contextCoverage_partition hrequested hanalyzed hsub
  isComplete := List.isEmpty_iff

/-- The coverage of every result of a discovery is that of the request that was sent. -/
theorem coversRequest_of_runSemantic {input : SemanticAnalysisInput}
    {providerPort : SemanticProviderRequest → ProviderOutcome}
    {result : SemanticAnalysisResult} {coverage : SemanticContextCoverage}
    (h : runSemantic host input intentQuery providerPort = .ok result)
    (hcoverage : result.contextCoverage? = some coverage) :
    ∃ request, semanticRequest host input intentQuery = .ok request ∧
      CoversRequest input.endpointIds request coverage := by
  rcases runSemantic_cases h with ⟨-, -, rfl⟩ | ⟨provider, model, -, hvalid, hrequest, rfl⟩ |
    ⟨request, output, hrequest, -, rfl⟩
  · cases hcoverage
  · obtain ⟨query, -, rfl⟩ := map_eq_some_iff.mp hcoverage
    exact ⟨none, hrequest, coversRequest_contextCoverage hvalid.2.2.2.2.2.1 nodup_nil
      (by simp) (by simp [HasDocument])⟩
  · obtain ⟨query, -, rfl⟩ := map_eq_some_iff.mp hcoverage
    have hsent := isRequest_of_semanticRequest hrequest
    obtain ⟨sourceProfile, hendpoints⟩ := hsent.endpoints
    have hgrounded := isGroundedProjection_preparedEndpoints hendpoints
    refine ⟨some request, hrequest, coversRequest_contextCoverage hsent.valid.2.2.2.2.2.1
      (hgrounded.nodup hsent.valid.2.1.nodup_ids.1) (fun id hid => ?_) fun id => ?_⟩
    · obtain ⟨context, hcontext, rfl⟩ := List.mem_map.mp hid
      exact (hgrounded.grounded context hcontext).selected
    · simp only [HasDocument, List.mem_map, mem_def, Option.some.injEq, exists_eq_left']
      constructor
      · rintro ⟨context, hcontext, rfl⟩
        exact ⟨context, hcontext, rfl, (hgrounded.grounded context hcontext).documents⟩
      · rintro ⟨context, hcontext, rfl, -⟩
        exact ⟨context, hcontext, rfl⟩

theorem cited_of_runSemantic {input : SemanticAnalysisInput}
    {providerPort : SemanticProviderRequest → ProviderOutcome}
    {suggestions : List SemanticSuggestion} {provenance : SemanticProvenance}
    {coverage : Option SemanticContextCoverage}
    (h : runSemantic host input intentQuery providerPort =
      .ok (.answered (.suggestions suggestions) provenance coverage)) :
    ∃ request, semanticRequest host input intentQuery = .ok (some request) ∧
      ∀ suggestion ∈ suggestions, suggestion.endpointId ∈ input.endpointIds ∧
        ∀ id ∈ suggestion.evidenceIds, ∃ context ∈ request.endpoints,
          context.endpointId = suggestion.endpointId ∧
            ∃ document ∈ context.documents, id ∈ document.evidenceIds := by
  rcases runSemantic_cases h with ⟨-, -, hresult⟩ | ⟨-, -, -, -, -, hresult⟩ |
    ⟨request, output, hrequest, houtput, hresult⟩
  · cases hresult
  · cases hresult
  · cases hresult
    obtain ⟨raw, -, -, hchecks⟩ := validateOutput_eq_ok houtput
    refine ⟨request, hrequest, fun suggestion hsuggestion => ?_⟩
    obtain ⟨item, -, hvalid, -⟩ := hchecks.2.1.exists_left hsuggestion
    refine ⟨?_, hvalid.evidence⟩
    obtain ⟨id, hid⟩ := exists_mem_of_length_pos hvalid.count.1
    obtain ⟨context, hcontext, hcontextId, -⟩ := hvalid.evidence id hid
    obtain ⟨sourceProfile, hendpoints⟩ := (isRequest_of_semanticRequest hrequest).endpoints
    exact hcontextId ▸ ((isGroundedProjection_preparedEndpoints hendpoints).grounded
      context hcontext).selected

/-- **The model context is grounded and isolated.**  The documents of a request come from eligible
claims about selected endpoints, suggestions cite the documents of the request, requests for inputs
with one context are identical, and the coverage is that of the request. -/
theorem model_context_grounded_and_isolated (host : Host) (intentQuery : Option String) :
    (∀ input request, semanticRequest host input intentQuery = .ok (some request) →
      ∀ context ∈ request.endpoints, context.endpointId ∈ input.endpointIds ∧
        context.endpointId ∈ input.snapshot.endpointIds ∧
        ∀ document ∈ context.documents,
          IsGrounded input.snapshot context.endpointId document) ∧
    (∀ input providerPort suggestions provenance coverage,
      runSemantic host input intentQuery providerPort =
        .ok (.answered (.suggestions suggestions) provenance coverage) →
      ∃ request, semanticRequest host input intentQuery = .ok (some request) ∧
        ∀ suggestion ∈ suggestions, suggestion.endpointId ∈ input.endpointIds ∧
          ∀ id ∈ suggestion.evidenceIds, ∃ context ∈ request.endpoints,
            context.endpointId = suggestion.endpointId ∧
              ∃ document ∈ context.documents, id ∈ document.evidenceIds) ∧
    (∀ left right request request', SameContext left right →
      semanticRequest host left intentQuery = .ok request →
      semanticRequest host right intentQuery = .ok request' → request = request') ∧
    (∀ input providerPort result coverage,
      runSemantic host input intentQuery providerPort = .ok result →
      result.contextCoverage? = some coverage →
      ∃ request, semanticRequest host input intentQuery = .ok request ∧
        CoversRequest input.endpointIds request coverage) := by
  refine ⟨fun input request h context hcontext => ?_, fun input providerPort suggestions provenance
    coverage => cited_of_runSemantic, fun left right request request' hsame => semanticRequest_congr
    hsame, fun input providerPort result coverage => coversRequest_of_runSemantic⟩
  obtain ⟨sourceProfile, hendpoints⟩ := (isRequest_of_semanticRequest h).endpoints
  have hgrounded :=
    (isGroundedProjection_preparedEndpoints hendpoints).grounded context hcontext
  exact ⟨hgrounded.selected, hgrounded.mem, hgrounded.grounded⟩

/-! ### A discovery -/

def sampleEvidence (id kind : String) (method : EvidenceMethod) (endpointId : Option String) :
    Evidence where
  evidenceId := id
  sourceKind := kind
  sourceId := "repo"
  sourceVersion := "0123456789ab"
  location := { path := some "a.ts" }
  method := method
  scope :=
    { serviceId := "svc"
      snapshotId := some "snap"
      endpointId
      revision := some "0123456789ab" }
  limitations := []
  accessLabel := "internal"

/-- The sample snapshot with a documented endpoint and its registered route. -/
def sampleDescribedSnapshot : ContractSnapshot :=
  { sampleSnapshot with
    evidence := sampleSnapshot.evidence ++
      [sampleEvidence "doc" "api_document" .typeDeclaration none,
        sampleEvidence "code" "source_code" .deterministicAnalysis (some "ep")]
    claims := [
      { claimId := "summary"
        subject := { serviceId := "svc", endpointId := some "ep" }
        predicate := "operation.summary"
        value := .str "List the items"
        verification := .declared
        evidenceIds := ["doc"] },
      { claimId := "route"
        subject := { serviceId := "svc", endpointId := some "ep" }
        predicate := "route.registration"
        value := .obj [("method", .str "GET"), ("path", .str "/a")]
        verification := .establishedByAnalysis
        evidenceIds := ["code"] }] }

def sampleDiscoveryInput : SemanticAnalysisInput where
  snapshot := sampleDescribedSnapshot
  pin :=
    { snapshotId := "snap"
      revision := "0123456789ab"
      configFingerprint := "cfg"
      checkpointVersion := some "7" }
  selection :=
    { tenantId := "tenant"
      repositoryId := "repo"
      serviceId := "svc"
      selector := .environment "production" (some "7") }
  inference := .enabled .openai "model-1"
  endpointIds := ["ep"]

def sampleDiscoveryRequest : SemanticProviderRequest where
  promptVersion := .discoverySource
  intentQuery := some "list items"
  provider := .openai
  model := "model-1"
  source := ⟨"repo", "svc", sampleDiscoveryInput.selection.selector, sampleDiscoveryInput.pin⟩
  endpoints := [⟨"ep", "GET", "/a",
    [⟨.operationSummary, "List the items", ["doc"]⟩, ⟨.codeRoute, "GET /a", ["code"]⟩]⟩]

theorem semanticRequest_sampleDiscovery :
    semanticRequest .ascii sampleDiscoveryInput (some "list items") =
      .ok (some sampleDiscoveryRequest) := by
  decide +kernel

theorem grounded_sample_discovery :
    semanticRequest .ascii sampleDiscoveryInput (some "list items") =
        .ok (some sampleDiscoveryRequest) ∧
      ∀ context ∈ sampleDiscoveryRequest.endpoints, ∀ document ∈ context.documents,
        IsGrounded sampleDescribedSnapshot context.endpointId document := by
  exact ⟨semanticRequest_sampleDiscovery, fun context hcontext =>
    ((model_context_grounded_and_isolated .ascii (some "list items")).1 sampleDiscoveryInput _
      semanticRequest_sampleDiscovery context hcontext).2.2⟩

end ApiTruth.Semantics
