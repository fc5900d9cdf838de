import ApiTruth.Foundation.Traverse
import ApiTruth.Semantics.Kernel

/-!
# Grounded and isolated model context

Every text of a request comes from claims about its endpoint whose evidence belongs to the service,
the snapshot and the revision of the request and covers the endpoint.  The kernel has three
projections; each of them produces documents of single claims, and the join of documents of one
kind and text joins their claims.

## Main definitions

* `ClaimText`, `Covers`, `IsEligibleClaim`, `IsGrounded` : where a document comes from.
* `IsGroundedContext` : a selected endpoint with grounded documents.

## Main results

* `isGroundedContext_preparedEndpoints` : every projection is grounded.
-/

namespace ApiTruth.Semantics

open Checked Ir List OrderedMap

/-! ### Grounded documents -/

/-- A kind and a text that are read from a claim. -/
inductive ClaimText (claim : Claim) : SemanticDocumentKind → String → Prop
  | declaration {kind : SemanticDocumentKind} {text : String}
      (h : documentText claim = some (kind, text)) : ClaimText claim kind text
  | route {method path : String} (hmethod : claim.value.member "method" = .str method)
      (hpath : claim.value.member "path" = .str path) :
      ClaimText claim .codeRoute (method ++ " " ++ path)
  | handler {name text : String} (hname : name ∈ ["handler", "symbol"])
      (h : claim.value.member name = .str text) : ClaimText claim .codeHandler text
  | action {controller action : String}
      (hcontroller : claim.value.member "controller" = .str controller)
      (haction : claim.value.member "action" = .str action) :
      ClaimText claim .codeAction (controller ++ "." ++ action)

section Snapshot

variable (snapshot : ContractSnapshot)

/-- The evidence belongs to the service, the snapshot and the revision, is a declaration of a
document or the analysis of source code, and covers the endpoint. -/
structure Covers (endpointId : String) (evidence : Evidence) : Prop where
  isLocal : isLocalEvidence snapshot evidence = true
  origin : evidence.sourceKind = "api_document" ∧ evidence.method = .typeDeclaration ∧
      evidence.scope.endpointId = none ∨
    evidence.sourceKind = "api_document" ∧ evidence.method = .typeDeclaration ∧
      evidence.scope.endpointId = some endpointId ∨
    evidence.sourceKind = "source_code" ∧
      (evidence.method = .deterministicAnalysis ∨ evidence.method = .typeDeclaration) ∧
      evidence.scope.endpointId = some endpointId

/-- A claim about the endpoint, all of whose evidence covers it. -/
structure IsEligibleClaim (endpointId : String) (claim : Claim) : Prop where
  mem : claim ∈ snapshot.claims
  endpoint : claim.subject.endpointId = some endpointId
  service : claim.subject.serviceId = snapshot.service.serviceId
  evidence : ∀ id ∈ claim.evidenceIds, ∃ item ∈ snapshot.evidence,
    item.evidenceId = id ∧ Covers snapshot endpointId item

/-- The document is the text of eligible claims and cites exactly their evidence. -/
def IsGrounded (endpointId : String) (document : SemanticDocument) : Prop :=
  ∃ claims : List Claim, claims ≠ [] ∧
    (∀ claim ∈ claims, IsEligibleClaim snapshot endpointId claim ∧
      ClaimText claim document.kind document.text) ∧
    ∀ id, id ∈ document.evidenceIds ↔ ∃ claim ∈ claims, id ∈ claim.evidenceIds

variable {snapshot} {endpointId : String} {claim : Claim} {kind : SemanticDocumentKind}

theorem isGrounded_of_claim {text : String}
    (hclaim : IsEligibleClaim snapshot endpointId claim) (htext : ClaimText claim kind text) :
    IsGrounded snapshot endpointId ⟨kind, text, claim.evidenceIds⟩ :=
  ⟨[claim], by simp, by simpa using ⟨hclaim, htext⟩, by simp⟩

variable {id : String} {document : SemanticDocument} {endpoint : Endpoint}
  {byContent next : OrderedMap (SemanticDocumentKind × String) (List String)}

theorem evidenceAt_eq_some {item : Evidence}
    (h : evidenceAt snapshot id = some item) : item ∈ snapshot.evidence ∧ item.evidenceId = id := by
  have hmem := mem_of_mem_ofEntries ((get?_eq_some_iff _).mp h)
  obtain ⟨other, hother, heq⟩ := List.mem_map.mp hmem
  obtain ⟨hid, rfl⟩ := Prod.mk.inj heq
  exact ⟨hother, hid⟩

theorem covers_of_evidenceFor
    (h : evidenceFor snapshot (evidenceAt snapshot id) endpointId = true) :
    ∃ item ∈ snapshot.evidence, item.evidenceId = id ∧ Covers snapshot endpointId item := by
  obtain ⟨item, hitem, hfor⟩ := (Option.any_eq_true _ _).mp h
  simp only [Bool.and_eq_true, Bool.or_eq_true, Option.isNone_iff_eq_none, beq_iff_eq] at hfor
  obtain ⟨⟨⟨hlocal, hkind⟩, hmethod⟩, hscope⟩ := hfor
  obtain ⟨hmem, hid⟩ := evidenceAt_eq_some hitem
  refine ⟨item, hmem, hid, hlocal, ?_⟩
  rcases hscope with hnone | hsome
  · exact .inl ⟨hkind, hmethod, hnone⟩
  · exact .inr (.inl ⟨hkind, hmethod, hsome⟩)

theorem covers_of_sourceEvidenceFor
    (h : sourceEvidenceFor snapshot (evidenceAt snapshot id) endpointId = true) :
    ∃ item ∈ snapshot.evidence, item.evidenceId = id ∧ Covers snapshot endpointId item := by
  obtain ⟨item, hitem, hfor⟩ := (Option.any_eq_true _ _).mp h
  simp only [Bool.and_eq_true, Bool.or_eq_true, beq_iff_eq] at hfor
  obtain ⟨⟨⟨hlocal, hkind⟩, hmethod⟩, hscope⟩ := hfor
  obtain ⟨hmem, hid⟩ := evidenceAt_eq_some hitem
  exact ⟨item, hmem, hid, hlocal, .inr (.inr ⟨hkind, hmethod, hscope⟩)⟩

/-! ### Declarations -/

theorem claimDocument_eq_some (h : claimDocument snapshot endpoint claim = some document) :
    claim.subject.endpointId = some endpoint.endpointId ∧
      claim.subject.serviceId = snapshot.service.serviceId ∧ (∀ id ∈ claim.evidenceIds,
        evidenceFor snapshot (evidenceAt snapshot id) endpoint.endpointId = true) ∧
      documentText claim = some (document.kind, document.text) ∧
      document.evidenceIds = claim.evidenceIds := by
  unfold claimDocument at h
  split_ifs at h with hclaim
  simp only [Bool.and_eq_true, beq_iff_eq, List.all_eq_true] at hclaim
  obtain ⟨doc, hdoc, rfl⟩ := Option.map_eq_some_iff.mp h
  exact ⟨hclaim.1.1.1.1, hclaim.1.1.1.2, hclaim.2, hdoc, rfl⟩

theorem isGrounded_declarationDocuments (h : document ∈ declarationDocuments snapshot endpoint) :
    IsGrounded snapshot endpoint.endpointId document := by
  obtain ⟨claim, hmem, hclaim⟩ := List.mem_filterMap.mp h
  obtain ⟨hendpoint, hservice, hevidence, htext, hids⟩ := claimDocument_eq_some hclaim
  have heligible : IsEligibleClaim snapshot endpoint.endpointId claim :=
    ⟨hmem, hendpoint, hservice, fun id hid => covers_of_evidenceFor (hevidence id hid)⟩
  have := isGrounded_of_claim heligible (.declaration htext)
  rwa [← hids] at this

/-! ### Source code -/

theorem safeIdentifier_eq_some {value : Json} {name text : String}
    (h : safeIdentifier value name = some text) : value.member name = .str text := by
  unfold safeIdentifier at h
  split at h
  · split_ifs at h
    cases h
    assumption
  · cases h

theorem mem_routeDocuments {claims : List Claim} {route : Claim}
    (h : document ∈ routeDocuments snapshot claims endpoint route) :
    ∃ claim, (claim = route ∨ claim ∈ claims ∧
        sourceClaimEvidence snapshot claim endpoint.endpointId = true) ∧
      ClaimText claim document.kind document.text ∧ document.evidenceIds = claim.evidenceIds := by
  have hroute (hmethod : hasText route.value "method" endpoint.identity.method = true)
      (hpath : hasText route.value "path" endpoint.applicationPath = true) :
      ClaimText route .codeRoute (routeDocument endpoint route).text :=
    .route (eq_of_beq hmethod) (eq_of_beq hpath)
  simp only [routeDocuments] at h
  split_ifs at h with hjava hdeclared hregistered haction
  · split at h
    · next handler hhandler =>
      unfold javaRouteHandler at hhandler
      split_ifs at hhandler with hvalue
      simp only [Bool.and_eq_true] at hvalue
      simp only [mem_cons, not_mem_nil, or_false] at h
      rcases h with rfl | rfl
      · exact ⟨route, .inl rfl, hroute hvalue.1.1.1.2 hvalue.1.1.2, rfl⟩
      · exact ⟨route, .inl rfl, .handler (by simp) (safeIdentifier_eq_some hhandler), rfl⟩
    · simp at h
  · simp at h
  · simp only [Bool.and_eq_true] at hregistered
    rcases List.mem_cons.mp h with rfl | h
    · exact ⟨route, .inl rfl, hroute hregistered.2.1.1 hregistered.2.1.2, rfl⟩
    · unfold handlerDocuments at h
      split at h
      · next handler hhandlers =>
        split_ifs at h with hhandler
        · simp only [Bool.and_eq_true] at hhandler
          obtain ⟨symbol, hsymbol, rfl⟩ := Option.map_eq_some_iff.mp (Option.mem_toList.mp h)
          have hmem : handler ∈ claims :=
            mem_of_mem_filter (hhandlers ▸ mem_singleton_self handler)
          exact ⟨handler, .inr ⟨hmem, hhandler.2⟩,
            .handler (by simp) (safeIdentifier_eq_some hsymbol), rfl⟩
        · simp at h
      · simp at h
  · simp only [Bool.and_eq_true] at haction
    split at h
    · next controller action hcontroller haction' =>
      simp only [mem_cons, not_mem_nil, or_false] at h
      rcases h with rfl | rfl
      · exact ⟨route, .inl rfl, hroute haction.2.1.1 haction.2.1.2, rfl⟩
      · exact ⟨route, .inl rfl,
          .action (safeIdentifier_eq_some hcontroller) (safeIdentifier_eq_some haction'), rfl⟩
    · simp at h
  · simp at h

theorem eligible_of_endpointClaims (hmem : claim ∈ endpointClaims snapshot endpoint)
    (hevidence : sourceClaimEvidence snapshot claim endpoint.endpointId = true) :
    IsEligibleClaim snapshot endpoint.endpointId claim := by
  simp only [endpointClaims, mem_filter, Bool.and_eq_true, beq_iff_eq] at hmem
  simp only [sourceClaimEvidence, Bool.and_eq_true, List.all_eq_true] at hevidence
  exact ⟨hmem.1, hmem.2.1.1, hmem.2.1.2,
    fun id hid => covers_of_sourceEvidenceFor (hevidence.2 id hid)⟩

theorem isGrounded_sourceDocuments (h : document ∈ sourceDocuments snapshot endpoint) :
    IsGrounded snapshot endpoint.endpointId document := by
  simp only [sourceDocuments] at h
  split_ifs at h
  · split at h
    · next route hroutes =>
      split_ifs at h with hroute
      · obtain ⟨claim, hclaim, htext, hids⟩ := mem_routeDocuments h
        have hmem : route ∈ endpointClaims snapshot endpoint :=
          mem_of_mem_filter (hroutes ▸ mem_singleton_self route)
        have heligible : IsEligibleClaim snapshot endpoint.endpointId claim := by
          rcases hclaim with rfl | ⟨hclaims, hevidence⟩
          · exact eligible_of_endpointClaims hmem hroute
          · exact eligible_of_endpointClaims hclaims hevidence
        have := isGrounded_of_claim heligible htext
        rwa [← hids] at this
      · simp at h
    · simp at h
  · simp at h

/-! ### Joined documents -/

theorem IsGrounded.join {text : String} {ids others joined : List String}
    (h : IsGrounded snapshot endpointId ⟨kind, text, ids⟩)
    (h' : IsGrounded snapshot endpointId ⟨kind, text, others⟩)
    (hjoined : ∀ id, id ∈ joined ↔ id ∈ ids ∨ id ∈ others) :
    IsGrounded snapshot endpointId ⟨kind, text, joined⟩ := by
  obtain ⟨claims, hne, hclaims, hids⟩ := h
  obtain ⟨claims', -, hclaims', hids'⟩ := h'
  refine ⟨claims ++ claims', by simp [hne], fun claim hclaim => ?_, fun id => ?_⟩
  · rcases List.mem_append.mp hclaim with hclaim | hclaim
    · exact hclaims claim hclaim
    · exact hclaims' claim hclaim
  · have hleft := hids id
    have hright := hids' id
    rw [hjoined, hleft, hright]
    simp only [mem_append, or_and_right, exists_or]

theorem mem_addMissing {ids others : List String} :
    id ∈ addMissing ids others ↔ id ∈ ids ∨ id ∈ others := by
  unfold addMissing
  induction others generalizing ids with
  | nil => simp
  | cons other others ih =>
    rw [foldl_cons, ih]
    split_ifs with h
    · constructor
      · rintro (hid | hid)
        · exact .inl hid
        · exact .inr (mem_cons_of_mem other hid)
      · rintro (hid | hid)
        · exact .inl hid
        · rcases List.mem_cons.mp hid with rfl | hid
          · exact .inl h
          · exact .inr hid
    · simp only [mem_append, mem_cons, not_mem_nil, or_false, or_assoc]

theorem joinDocument_eq_ok (h : joinDocument byContent document = .ok next) :
    ∃ ids, next = byContent.set (document.kind, document.text) ids ∧ (ids = document.evidenceIds ∨
        ∃ old, byContent.get? (document.kind, document.text) = some old ∧
          ids = addMissing old document.evidenceIds) := by
  unfold joinDocument at h
  split at h
  · next old hold =>
    obtain ⟨-, h⟩ := require_bind_eq_ok.mp h
    exact ⟨_, (pure_eq_ok.mp h).symm, .inr ⟨old, hold, rfl⟩⟩
  · exact ⟨_, (Except.ok.inj h).symm, .inl rfl⟩

/-- The documents that a joined map holds are grounded. -/
def JoinsGrounded (snapshot : ContractSnapshot) (endpointId : String)
    (byContent : OrderedMap (SemanticDocumentKind × String) (List String)) : Prop :=
  ∀ entry ∈ byContent.entries, IsGrounded snapshot endpointId ⟨entry.1.1, entry.1.2, entry.2⟩

theorem JoinsGrounded.step (hmap : JoinsGrounded snapshot endpointId byContent)
    (hdocument : IsGrounded snapshot endpointId document)
    (h : joinDocument byContent document = .ok next) : JoinsGrounded snapshot endpointId next := by
  obtain ⟨ids, rfl, hids⟩ := joinDocument_eq_ok h
  rintro ⟨key, value⟩ hentry
  rw [← get?_eq_some_iff, get?_set] at hentry
  split_ifs at hentry with hkey
  · cases hentry
    subst hkey
    rcases hids with rfl | ⟨old, hold, rfl⟩
    · exact hdocument
    · exact (hmap _ ((get?_eq_some_iff _).mp hold)).join hdocument fun id => mem_addMissing
  · exact hmap _ ((get?_eq_some_iff _).mp hentry)

theorem entries_ne_nil_of_joinDocument (h : joinDocument byContent document = .ok next) :
    next.entries ≠ [] := by
  obtain ⟨ids, rfl, -⟩ := joinDocument_eq_ok h
  refine ne_nil_of_mem (a := ((document.kind, document.text), ids)) ?_
  exact (get?_eq_some_iff _).mp (by simp)

theorem isGrounded_joinDocuments {documents joined : List SemanticDocument}
    (hdocuments : ∀ document ∈ documents, IsGrounded snapshot endpointId document)
    (h : joinDocuments documents = .ok joined) :
    (∀ document ∈ joined, IsGrounded snapshot endpointId document) ∧
      (documents ≠ [] → joined ≠ []) := by
  obtain ⟨byContent, hfold, h⟩ := bind_eq_ok.mp h
  cases h
  constructor
  · have hgrounded : JoinsGrounded snapshot endpointId byContent :=
      foldlM_invariant_of_mem (fun _ _ document hdocument hmap hstep =>
        hmap.step (hdocuments document hdocument) hstep) (by simp [JoinsGrounded, empty])
        hfold
    intro document hdocument
    obtain ⟨entry, hentry, rfl⟩ := List.mem_map.mp hdocument
    exact hgrounded entry hentry
  · intro hne
    obtain ⟨first, rest, rfl⟩ := exists_cons_of_ne_nil hne
    obtain ⟨next, hnext, hrest⟩ := bind_eq_ok.mp hfold
    have hkeeps : byContent.entries ≠ [] :=
      foldlM_invariant (fun _ _ _ _ hstep => entries_ne_nil_of_joinDocument hstep)
        (entries_ne_nil_of_joinDocument hnext) hrest
    simpa using hkeeps

end Snapshot

/-! ### Grounded contexts -/

section Input

variable (input : SemanticAnalysisInput)

/-- A selected endpoint, with at least one document, each of which is grounded. -/
structure IsGroundedContext (context : SemanticEndpointContext) : Prop where
  selected : context.endpointId ∈ input.endpointIds
  mem : context.endpointId ∈ input.snapshot.endpointIds
  documents : context.documents ≠ []
  grounded : ∀ document ∈ context.documents,
    IsGrounded input.snapshot context.endpointId document

variable {input}

theorem mem_selectedEndpoints {endpoint : Endpoint} (h : endpoint ∈ selectedEndpoints input) :
    endpoint.endpointId ∈ input.endpointIds ∧ endpoint.endpointId ∈ input.snapshot.endpointIds := by
  obtain ⟨hmem, hselected⟩ := List.mem_filter.mp h
  exact ⟨List.contains_iff_mem.mp hselected, List.mem_map_of_mem hmem⟩

/-- The contexts of a projection are grounded, and follow the order of the snapshot. -/
structure IsGroundedProjection (input : SemanticAnalysisInput)
    (contexts : List SemanticEndpointContext) : Prop where
  grounded : ∀ context ∈ contexts, IsGroundedContext input context
  nodup : input.snapshot.endpointIds.Nodup → (contexts.map (·.endpointId)).Nodup

theorem isGroundedProjection_filter {documents : Endpoint → List SemanticDocument}
    {keep : SemanticEndpointContext → Bool}
    (hkeep : ∀ context, keep context = true → context.documents ≠ [])
    (hgrounded : ∀ endpoint, ∀ document ∈ documents endpoint,
      IsGrounded input.snapshot endpoint.endpointId document) :
    IsGroundedProjection input (((selectedEndpoints input).map fun endpoint =>
      contextOf endpoint (documents endpoint)).filter keep) := by
  constructor
  · intro context hcontext
    obtain ⟨hmem, hkept⟩ := List.mem_filter.mp hcontext
    obtain ⟨endpoint, hendpoint, rfl⟩ := List.mem_map.mp hmem
    obtain ⟨hselected, hsnapshot⟩ := mem_selectedEndpoints hendpoint
    exact ⟨hselected, hsnapshot, hkeep _ hkept, hgrounded endpoint⟩
  · intro hnodup
    have hsub : (((selectedEndpoints input).map fun endpoint =>
        contextOf endpoint (documents endpoint)).map (·.endpointId)).Sublist
          input.snapshot.endpointIds := by
      rw [List.map_map]
      exact List.filter_sublist.map Endpoint.endpointId
    exact hnodup.sublist ((List.filter_sublist.map _).trans hsub)

variable {contexts : List SemanticEndpointContext}

theorem isGroundedProjection_sourceProjection
    (h : sourceProjection input = .ok contexts) : IsGroundedProjection input contexts := by
  obtain ⟨-, h⟩ := require_bind_eq_ok.mp h
  cases h
  refine isGroundedProjection_filter (fun context hkept => ?_)
    fun endpoint document => isGrounded_sourceDocuments
  simpa using hkept

theorem isGroundedProjection_projection
    (h : input.projection = .ok contexts) : IsGroundedProjection input contexts := by
  obtain ⟨-, h⟩ := require_bind_eq_ok.mp h
  obtain ⟨-, h⟩ := require_bind_eq_ok.mp h
  cases h
  refine isGroundedProjection_filter (fun context hkept => ?_)
    fun endpoint document => isGrounded_declarationDocuments
  rintro hnil
  simp [hnil] at hkept

variable {documentEndpoints : List SemanticEndpointContext}
  {context merged : SemanticEndpointContext}

theorem documents_of_documentsByEndpoint
    (hdocuments : IsGroundedProjection input documentEndpoints) {entry : String × SemanticEndpointContext}
    (hentry : entry ∈ (documentsByEndpoint documentEndpoints).entries) :
    entry.1 = entry.2.endpointId ∧ IsGroundedContext input entry.2 := by
  obtain ⟨context, hcontext, rfl⟩ :=
    List.mem_map.mp (mem_of_mem_ofEntries hentry)
  exact ⟨rfl, hdocuments.grounded context (mem_of_mem_filter hcontext)⟩

theorem endpointId_mergeEndpoint {declared : OrderedMap String SemanticEndpointContext}
    (h : mergeEndpoint declared context = .ok merged) :
    merged.endpointId = context.endpointId := by
  obtain ⟨documents, -, h⟩ := bind_eq_ok.mp h
  cases h
  rfl

theorem isGroundedContext_mergeEndpoint (hdocuments : IsGroundedProjection input documentEndpoints)
    (hcontext : IsGroundedContext input context)
    (h : mergeEndpoint (documentsByEndpoint documentEndpoints) context = .ok merged) :
    IsGroundedContext input merged := by
  obtain ⟨documents, hjoin, h⟩ := bind_eq_ok.mp h
  cases h
  have hall : ∀ document ∈ ((documentsByEndpoint documentEndpoints).get? context.endpointId).elim []
      (·.documents) ++ context.documents,
      IsGrounded input.snapshot context.endpointId document := by
    intro document hdocument
    rcases List.mem_append.mp hdocument with hdocument | hdocument
    · cases hdeclared : (documentsByEndpoint documentEndpoints).get? context.endpointId with
      | none => simp [hdeclared] at hdocument
      | some declared =>
        obtain ⟨hid, hgrounded⟩ := documents_of_documentsByEndpoint hdocuments
          ((get?_eq_some_iff _).mp hdeclared)
        simp only at hid
        rw [hid]
        exact hgrounded.grounded document (by simpa [hdeclared] using hdocument)
    · exact hcontext.grounded document hdocument
  obtain ⟨hgrounded, hne⟩ := isGrounded_joinDocuments hall hjoin
  exact ⟨hcontext.selected, hcontext.mem, hne (by simp [hcontext.documents]), hgrounded⟩

theorem isGroundedProjection_merge {sourceEndpoints documentEndpoints contexts :
    List SemanticEndpointContext} (hsource : IsGroundedProjection input sourceEndpoints)
    (hdocuments : IsGroundedProjection input documentEndpoints)
    (h : mergeSourceAndDocumentContext sourceEndpoints documentEndpoints = .ok contexts) :
    IsGroundedProjection input contexts := by
  obtain ⟨merged, hmerged, h⟩ := bind_eq_ok.mp h
  obtain ⟨-, h⟩ := require_bind_eq_ok.mp h
  cases h
  rw [mapM_eq_ok_iff] at hmerged
  have hids : sourceEndpoints.map (·.endpointId) = merged.map (·.endpointId) :=
    (hmerged.imp fun _ _ hmerge => (endpointId_mergeEndpoint hmerge).symm).map_eq
  constructor
  · intro context hcontext
    rcases List.mem_append.mp hcontext with hcontext | hcontext
    · obtain ⟨source, hsourceMem, hmerge⟩ := hmerged.exists_left hcontext
      exact isGroundedContext_mergeEndpoint hdocuments (hsource.grounded _ hsourceMem) hmerge
    · obtain ⟨entry, hentry, rfl⟩ := List.mem_map.mp hcontext
      exact (documents_of_documentsByEndpoint hdocuments (mem_of_mem_filter hentry)).2
  · intro hnodup
    rw [map_append, ← hids, nodup_append]
    refine ⟨hsource.nodup hnodup, ?_, ?_⟩
    · have hkeys : ((documentsByEndpoint documentEndpoints).entries.map fun entry =>
          entry.2.endpointId).Nodup := by
        have hfst : (documentsByEndpoint documentEndpoints).entries.map (fun entry =>
            entry.2.endpointId) = (documentsByEndpoint documentEndpoints).entries.map Prod.fst :=
          map_congr_left fun entry hentry =>
            (documents_of_documentsByEndpoint hdocuments hentry).1.symm
        rw [hfst]
        exact (documentsByEndpoint documentEndpoints).nodup
      rw [List.map_map]
      exact hkeys.sublist (List.filter_sublist.map _)
    · intro id hid other hother heq
      obtain ⟨context, hcontext, rfl⟩ := List.mem_map.mp hother
      obtain ⟨entry, hentry, rfl⟩ := List.mem_map.mp hcontext
      obtain ⟨hmem, hnot⟩ := List.mem_filter.mp hentry
      rw [(documents_of_documentsByEndpoint hdocuments hmem).1] at hnot
      simp only [Bool.not_eq_true', ← Bool.not_eq_true, contains_iff_mem] at hnot
      exact hnot (heq ▸ hid)

theorem isGroundedProjection_inRequestedOrder (h : IsGroundedProjection input contexts) :
    IsGroundedProjection input (inRequestedOrder input.endpointIds contexts) := by
  have hperm : (inRequestedOrder input.endpointIds contexts).Perm contexts :=
    perm_insertionSort _ contexts
  exact ⟨fun context hcontext => h.grounded context (hperm.mem_iff.mp hcontext),
    fun hnodup => ((hperm.map _).nodup_iff).mpr (h.nodup hnodup)⟩

theorem isGroundedProjection_preparedEndpoints {intentQuery : Option String} {sourceProfile : Bool}
    (h : preparedEndpoints input intentQuery = .ok (sourceProfile, contexts)) :
    IsGroundedProjection input contexts := by
  cases intentQuery with
  | none =>
    obtain ⟨documentEndpoints, hprojection, h⟩ := bind_eq_ok.mp h
    obtain ⟨-, rfl⟩ := Prod.mk.inj (pure_eq_ok.mp h)
    exact isGroundedProjection_projection hprojection
  | some query =>
    obtain ⟨sourceEndpoints, hsource, h⟩ := bind_eq_ok.mp h
    obtain ⟨documentEndpoints, hprojection, h⟩ := bind_eq_ok.mp h
    have hdocuments := isGroundedProjection_projection hprojection
    split_ifs at h with hempty
    · obtain ⟨-, rfl⟩ := Prod.mk.inj (pure_eq_ok.mp h)
      exact isGroundedProjection_inRequestedOrder hdocuments
    · obtain ⟨merged, hmerge, h⟩ := bind_eq_ok.mp h
      obtain ⟨-, rfl⟩ := Prod.mk.inj (pure_eq_ok.mp h)
      exact isGroundedProjection_inRequestedOrder (isGroundedProjection_merge
        (isGroundedProjection_sourceProjection hsource) hdocuments hmerge)

end Input

end ApiTruth.Semantics
