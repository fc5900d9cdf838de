import ApiTruth.Updates.PlainReferences

/-!
# Snapshots up to the order of their lists

Two snapshots are the same up to the order of their lists when corresponding lists have the same
members, at every level.  Only what the planner reads is compared.  The attributions of the planner
do not tell such snapshots apart.

## Main definitions

* `SameMembers`, `SameSchema`, `SameSnapshot`.

## Main results

* `attributed_iff_of_sameSnapshot` : the attributions do not depend on the order of lists.
-/

namespace ApiTruth.Updates

open Json ApiTruth.Ir List

/-! ### Lists and schemas -/

/-- Two lists have the same members, up to a relation between members. -/
def SameMembers {α : Type*} (same : α → α → Prop) (xs ys : List α) : Prop :=
  (∀ x ∈ xs, ∃ y ∈ ys, same x y) ∧ ∀ y ∈ ys, ∃ x ∈ xs, same x y

theorem SameMembers.symm {α : Type*} {same : α → α → Prop} (hsymm : ∀ x y, same x y → same y x)
    {xs ys : List α} (h : SameMembers same xs ys) : SameMembers same ys xs := by
  constructor
  · intro y hy
    obtain ⟨x, hx, hxy⟩ := h.2 y hy
    exact ⟨x, hx, hsymm x y hxy⟩
  · intro x hx
    obtain ⟨y, hy, hxy⟩ := h.1 x hx
    exact ⟨y, hy, hsymm x y hxy⟩

/-- Two lists of identifiers have the same members. -/
def SameIds (ids ids' : List String) : Prop := ∀ id, id ∈ ids ↔ id ∈ ids'

theorem SameIds.symm {ids ids' : List String} (h : SameIds ids ids') : SameIds ids' ids :=
  fun id => (h id).symm

/-- Two schemas are the same up to the order of the arrays in them. -/
inductive SameSchema : Json → Json → Prop
  | refl (value : Json) : SameSchema value value
  | arr {xs ys : List Json} (forth back : Json → Json) (forthMem : ∀ x ∈ xs, forth x ∈ ys)
      (forthSame : ∀ x ∈ xs, SameSchema x (forth x)) (backMem : ∀ y ∈ ys, back y ∈ xs)
      (backSame : ∀ y ∈ ys, SameSchema (back y) y) : SameSchema (.arr xs) (.arr ys)
  | obj {ms ns : List (String × Json)} (names : ms.map Prod.fst = ns.map Prod.fst)
      (values : ∀ m n, (m, n) ∈ ms.zip ns → SameSchema m.2 n.2) : SameSchema (.obj ms) (.obj ns)

theorem SameSchema.symm {v w : Json} (h : SameSchema v w) : SameSchema w v := by
  induction h with
  | refl v => exact .refl v
  | arr forth back forthMem _ backMem _ ihForth ihBack =>
    exact .arr back forth backMem ihBack forthMem ihForth
  | obj hnames _ ih =>
    refine .obj hnames.symm fun n m hmem => ih m n ?_
    rw [← zip_swap] at hmem
    obtain ⟨p, hp, heq⟩ := List.mem_map.mp hmem
    rw [Prod.swap_eq_iff_eq_swap] at heq
    rwa [heq] at hp

variable {ms ns : List (String × Json)} {id : String} {x : Attribution}

section

variable (hnames : ms.map Prod.fst = ns.map Prod.fst)
  (hvalues : ∀ m n, (m, n) ∈ ms.zip ns → SameSchema m.2 n.2)
include hnames hvalues

theorem exists_lookup_of_sameMembers {key : String} {v : Json}
    (h : ms.lookup key = some v) : ∃ w, ns.lookup key = some w ∧ SameSchema v w := by
  induction ms generalizing ns with
  | nil => simp at h
  | cons m ms ih =>
    cases ns with
    | nil => simp at hnames
    | cons n ns =>
      obtain ⟨hname, hnames⟩ := List.cons.inj hnames
      rw [OrderedMap.lookup_cons_ite] at h ⊢
      rw [← hname]
      split_ifs at h ⊢ with hkey
      · cases h
        exact ⟨n.2, rfl, hvalues m n mem_cons_self⟩
      · exact ih hnames (fun m' n' hmem => hvalues m' n' (mem_cons_of_mem _ hmem)) h

theorem exists_mem_of_sameMembers {m : String × Json} (h : m ∈ ms) :
    ∃ n ∈ ns, m.1 = n.1 ∧ SameSchema m.2 n.2 := by
  induction ms generalizing ns with
  | nil => cases h
  | cons m' ms ih =>
    cases ns with
    | nil => simp at hnames
    | cons n ns =>
      obtain ⟨hname, hnames⟩ := List.cons.inj hnames
      rcases List.mem_cons.mp h with rfl | h
      · exact ⟨n, mem_cons_self, hname, hvalues _ _ mem_cons_self⟩
      · obtain ⟨n', hn', hsame⟩ :=
          ih hnames (fun m n hmem => hvalues m n (mem_cons_of_mem _ hmem)) h
        exact ⟨n', mem_cons_of_mem _ hn', hsame⟩

theorem exists_isSchemaChild {c : Json}
    (h : IsSchemaChild ms c) : ∃ d, IsSchemaChild ns d ∧ SameSchema c d := by
  cases h with
  | @property name _ hmem =>
    unfold propertySchemas at hmem
    split at hmem
    · next properties hlookup =>
      obtain ⟨w, hw, hsame⟩ := exists_lookup_of_sameMembers hnames hvalues hlookup
      cases hsame with
      | refl =>
        have hproperty : (name, c) ∈ propertySchemas ns := by
          rw [propertySchemas, hw]
          exact hmem
        exact ⟨c, .property hproperty, .refl c⟩
      | obj hnames' hvalues' =>
        obtain ⟨n, hn, -, hsame⟩ := exists_mem_of_sameMembers hnames' hvalues' hmem
        have hproperty : (n.1, n.2) ∈ propertySchemas ns := by
          rw [propertySchemas, hw]
          exact hn
        exact ⟨n.2, .property hproperty, hsame⟩
    · cases hmem
  | schema hkey hlookup =>
    obtain ⟨w, hw, hsame⟩ := exists_lookup_of_sameMembers hnames hvalues hlookup
    cases hsame with
    | refl => exact ⟨_, .schema hkey hw, .refl _⟩
    | obj hnames' hvalues' => exact ⟨_, .schema hkey hw, .obj hnames' hvalues'⟩
  | @item key _ hkey hitem =>
    unfold schemasUnder at hitem
    split at hitem
    · next xs hlookup =>
      obtain ⟨w, hw, hsame⟩ := exists_lookup_of_sameMembers hnames hvalues hlookup
      cases hsame with
      | refl =>
        refine ⟨c, .item hkey ?_, .refl c⟩
        rw [schemasUnder, hw]
        exact hitem
      | arr forth back hforth hforthSame hback hbackSame =>
        refine ⟨forth c, .item hkey ?_, hforthSame c hitem⟩
        rw [schemasUnder, hw]
        exact hforth c hitem
    · cases hitem

end

theorem SameSchema.exists_position {v w : Json} (h : SameSchema v w) {node : List (String × Json)}
    (hnode : SchemaPosition v node) {reference : String} (href : refOf node = some reference) :
    ∃ node', SchemaPosition w node' ∧ refOf node' = some reference := by
  induction hnode generalizing w with
  | root node =>
    cases h with
    | refl => exact ⟨node, .root node, href⟩
    | obj hnames hvalues =>
      refine ⟨_, .root _, ?_⟩
      unfold refOf at href ⊢
      cases hlookup : node.lookup "$ref" with
      | none => simp [hlookup] at href
      | some value =>
        obtain ⟨value', hlookup', hsame⟩ := exists_lookup_of_sameMembers hnames hvalues hlookup
        rw [hlookup] at href
        cases value with
        | str text =>
          cases hsame with
          | refl => simpa [hlookup'] using href
        | null => simp at href
        | bool _ => simp at href
        | num _ => simp at href
        | arr _ => simp at href
        | obj _ => simp at href
  | child hchild hposition ih =>
    cases h with
    | refl => exact ⟨_, .child hchild hposition, href⟩
    | obj hnames hvalues =>
      obtain ⟨d, hd, hsame⟩ := exists_isSchemaChild hnames hvalues hchild
      obtain ⟨node', hnode', href'⟩ := ih hsame href
      exact ⟨node', .child hd hnode', href'⟩

theorem Refers.of_sameSchema {read : String → Option String} {v w : Json}
    (hsame : SameSchema v w) (h : Refers read v id) : Refers read w id := by
  obtain ⟨node, reference, hnode, href, hread⟩ := h
  obtain ⟨node', hnode', href'⟩ := hsame.exists_position hnode href
  exact ⟨node', reference, hnode', href', hread⟩

/-! ### Records of a snapshot -/

/-- The same parameter, as far as the planner reads it. -/
structure SameParameter (a b : Parameter) : Prop where
  evidence : SameIds a.presence.evidenceIds b.presence.evidenceIds
  schema : SameSchema a.schema b.schema

structure SameRequestBody (a b : RequestBody) : Prop where
  evidence : SameIds a.presence.evidenceIds b.presence.evidenceIds
  schema : SameSchema a.schema b.schema

structure SameResponse (a b : Response) : Prop where
  content : SameMembers (fun c d => SameSchema c.schema d.schema) a.content b.content
  headers : SameMembers (fun c d => SameSchema c.schema d.schema) (a.headers.getD [])
    (b.headers.getD [])

structure SameEndpoint (a b : Endpoint) : Prop where
  id : a.endpointId = b.endpointId
  evidence : SameIds a.evidenceIds b.evidenceIds
  parameters : SameMembers SameParameter a.parameters b.parameters
  requestBodies : SameMembers SameRequestBody a.requestBodies b.requestBodies
  responses : SameMembers SameResponse a.responses b.responses

structure SameClaim (a b : Claim) : Prop where
  id : a.claimId = b.claimId
  endpoint : a.subject.endpointId = b.subject.endpointId
  evidence : SameIds a.evidenceIds b.evidenceIds

def EligibilityStatus.evidenceIds? : EligibilityStatus → Option (List String)
  | .eligible _ ids => some ids
  | .ineligible _ => none

structure SameEligibility (a b : ExportEligibility) : Prop where
  claim : a.claimId = b.claimId
  evidence : Option.Rel SameIds (EligibilityStatus.evidenceIds? a.status)
    (EligibilityStatus.evidenceIds? b.status)

structure SameEvidence (a b : Evidence) : Prop where
  id : a.evidenceId = b.evidenceId
  endpoint : a.scope.endpointId = b.scope.endpointId

structure SameDependency (a b : Dependency) : Prop where
  endpoint : a.fromEndpointId = b.fromEndpointId
  target : a.target = b.target
  evidence : SameIds a.evidenceIds b.evidenceIds

structure SameComponent (a b : SchemaComponent) : Prop where
  schema : SameSchema a.schema b.schema
  evidence : SameIds a.evidenceIds b.evidenceIds

/-- Two snapshots are the same up to the order of their lists, as far as the planner reads them. -/
structure SameSnapshot (a b : ContractSnapshot) : Prop where
  endpoints : SameMembers SameEndpoint a.endpoints b.endpoints
  claims : SameMembers SameClaim a.claims b.claims
  eligibilities : SameMembers SameEligibility a.exportEligibility b.exportEligibility
  evidence : SameMembers SameEvidence a.evidence b.evidence
  dependencies : SameMembers SameDependency a.dependencies b.dependencies
  schemas : ∀ id, Option.Rel SameComponent (a.schemas.lookup id) (b.schemas.lookup id)

theorem optionRel_symm {α : Type*} {same : α → α → Prop} (hsymm : ∀ x y, same x y → same y x)
    {a b : Option α} (h : Option.Rel same a b) : Option.Rel same b a := by
  cases h with
  | some hab => exact .some (hsymm _ _ hab)
  | none => exact .none

theorem SameResponse.symm {a b : Response} (h : SameResponse a b) : SameResponse b a :=
  ⟨h.content.symm fun _ _ => SameSchema.symm, h.headers.symm fun _ _ => SameSchema.symm⟩

theorem SameEndpoint.symm {a b : Endpoint} (h : SameEndpoint a b) : SameEndpoint b a where
  id := h.id.symm
  evidence := h.evidence.symm
  parameters := h.parameters.symm fun _ _ hab => ⟨hab.evidence.symm, hab.schema.symm⟩
  requestBodies := h.requestBodies.symm fun _ _ hab => ⟨hab.evidence.symm, hab.schema.symm⟩
  responses := h.responses.symm fun _ _ => SameResponse.symm

theorem SameSnapshot.symm {a b : ContractSnapshot} (h : SameSnapshot a b) : SameSnapshot b a where
  endpoints := h.endpoints.symm fun _ _ => SameEndpoint.symm
  claims := h.claims.symm fun _ _ hab => ⟨hab.id.symm, hab.endpoint.symm, hab.evidence.symm⟩
  eligibilities := h.eligibilities.symm fun _ _ hab =>
    ⟨hab.claim.symm, optionRel_symm (fun _ _ => SameIds.symm) hab.evidence⟩
  evidence := h.evidence.symm fun _ _ hab => ⟨hab.id.symm, hab.endpoint.symm⟩
  dependencies := h.dependencies.symm fun _ _ hab =>
    ⟨hab.endpoint.symm, hab.target.symm, hab.evidence.symm⟩
  schemas id := optionRel_symm (fun _ _ hab => ⟨hab.schema.symm, hab.evidence.symm⟩)
    (h.schemas id)

/-! ### Attributions -/

theorem Evidenced.of_sameIds {ids ids' : List String} {route : OwnershipRoute}
    (hsame : SameIds ids ids') (h : Evidenced ids route x) : Evidenced ids' route x := by
  obtain ⟨id, hid, hx⟩ := h
  exact ⟨id, (hsame id).mp hid, hx⟩

theorem SameEndpoint.exists_schema {a b : Endpoint} (h : SameEndpoint a b) {schema : Json}
    (hschema : schema ∈ a.schemas) : ∃ schema' ∈ b.schemas, SameSchema schema schema' := by
  simp only [Endpoint.schemas, mem_append, List.mem_map, mem_flatMap] at hschema ⊢
  rcases hschema with (⟨parameter, hmem, rfl⟩ | ⟨body, hmem, rfl⟩) |
      ⟨response, hmem, ⟨content, hcontent, rfl⟩ | ⟨header, hheader, rfl⟩⟩
  · obtain ⟨parameter', hmem', hsame⟩ := h.parameters.1 _ hmem
    exact ⟨_, .inl (.inl ⟨parameter', hmem', rfl⟩), hsame.schema⟩
  · obtain ⟨body', hmem', hsame⟩ := h.requestBodies.1 _ hmem
    exact ⟨_, .inl (.inr ⟨body', hmem', rfl⟩), hsame.schema⟩
  · obtain ⟨response', hmem', hsame⟩ := h.responses.1 _ hmem
    obtain ⟨content', hcontent', hschema⟩ := hsame.content.1 _ hcontent
    exact ⟨_, .inr ⟨response', hmem', .inl ⟨content', hcontent', rfl⟩⟩, hschema⟩
  · obtain ⟨response', hmem', hsame⟩ := h.responses.1 _ hmem
    obtain ⟨header', hheader', hschema⟩ := hsame.headers.1 _ hheader
    exact ⟨_, .inr ⟨response', hmem', .inr ⟨header', hheader', rfl⟩⟩, hschema⟩

variable {a b : ContractSnapshot}

namespace SameSnapshot

section

variable (h : SameSnapshot a b)
include h

theorem exists_component {component : SchemaComponent}
    (hlookup : a.schemas.lookup id = some component) :
    ∃ component', b.schemas.lookup id = some component' ∧ SameComponent component component' := by
  have hrel := h.schemas id
  rw [hlookup] at hrel
  cases hlookup' : b.schemas.lookup id with
  | none => rw [hlookup'] at hrel; cases hrel
  | some component' =>
    rw [hlookup'] at hrel
    cases hrel with
    | some hsame => exact ⟨component', rfl, hsame⟩

theorem composed {roots roots' : List String} (hroots : roots ⊆ roots')
    {route : OwnershipRoute} (hx : Composed a.schemas roots route x) :
    Composed b.schemas roots' route x := by
  obtain ⟨id, hid, hx⟩ := hx
  rw [mem_componentClosure_iff_path] at hid
  obtain ⟨hmem, root, hroot, hpath⟩ := hid
  obtain ⟨component, hcomponent⟩ := OrderedMap.exists_lookup_of_mem_keys hmem
  obtain ⟨component', hcomponent', hsame⟩ := h.exists_component hcomponent
  refine ⟨id, mem_componentClosure_iff_path.mpr ⟨?_, root, hroots hroot, ?_⟩, hx.imp_right ?_⟩
  · exact List.mem_map.mpr ⟨_, mem_of_lookup_eq_some hcomponent', rfl⟩
  · refine Relation.ReflTransGen.mono (fun id child hstep => ?_) _ _ hpath
    obtain ⟨found, hfound, hrefers⟩ := hstep
    obtain ⟨found', hfound', hsame⟩ := h.exists_component hfound
    exact ⟨found', hfound', hrefers.of_sameSchema hsame.schema⟩
  · rintro ⟨found, hfound, hx⟩
    rw [hcomponent] at hfound
    cases hfound
    exact ⟨component', hcomponent', hx.of_sameIds hsame.evidence⟩

theorem endpointFacts {endpoint endpoint' : Endpoint} (hsame : SameEndpoint endpoint endpoint')
    (hx : EndpointFacts a.schemas endpoint x) : EndpointFacts b.schemas endpoint' x := by
  rcases hx with hx | ⟨parameter, hmem, hx⟩ | ⟨body, hmem, hx⟩ | hx
  · exact .inl (hx.of_sameIds hsame.evidence)
  · obtain ⟨parameter', hmem', hparameter⟩ := hsame.parameters.1 _ hmem
    exact .inr (.inl ⟨parameter', hmem', hx.of_sameIds hparameter.evidence⟩)
  · obtain ⟨body', hmem', hbody⟩ := hsame.requestBodies.1 _ hmem
    exact .inr (.inr (.inl ⟨body', hmem', hx.of_sameIds hbody.evidence⟩))
  · refine .inr (.inr (.inr (h.composed (fun root hroot => ?_) hx)))
    rw [mem_endpointSchemaReferences] at hroot ⊢
    obtain ⟨schema, hschema, hrefers⟩ := hroot
    obtain ⟨schema', hschema', hsame⟩ := hsame.exists_schema hschema
    exact ⟨schema', hschema', hrefers.of_sameSchema hsame⟩

theorem claimFacts {claim claim' : Claim} (hsame : SameClaim claim claim')
    (hx : ClaimFacts a.exportEligibility claim id x) :
    ClaimFacts b.exportEligibility claim' id x := by
  obtain ⟨hsubject, hx⟩ := hx
  refine ⟨hsame.endpoint ▸ hsubject, hx.imp (fun hx => hx.of_sameIds hsame.evidence) ?_⟩
  rintro ⟨eligibility, hmem, hclaim, kind, ids, hstatus, hx⟩
  obtain ⟨eligibility', hmem', hrel⟩ := h.eligibilities.1 _ hmem
  refine ⟨eligibility', hmem', by rw [← hrel.claim, hclaim, hsame.id], ?_⟩
  have hevidence := hrel.evidence
  rw [hstatus, EligibilityStatus.evidenceIds?] at hevidence
  cases hstatus' : eligibility'.status with
  | ineligible reason =>
    rw [hstatus', EligibilityStatus.evidenceIds?] at hevidence
    cases hevidence
  | eligible kind' ids' =>
    rw [hstatus', EligibilityStatus.evidenceIds?] at hevidence
    cases hevidence with
    | some hids => exact ⟨kind', ids', rfl, hx.of_sameIds hids⟩

theorem initialFacts (hx : InitialFacts a id x) : InitialFacts b id x := by
  cases hx with
  | endpoint hmem hx =>
    obtain ⟨endpoint', hmem', hsame⟩ := h.endpoints.1 _ hmem
    exact hsame.id ▸ .endpoint hmem' (h.endpointFacts hsame hx)
  | claim hmem hx =>
    obtain ⟨claim', hmem', hsame⟩ := h.claims.1 _ hmem
    exact .claim hmem' (h.claimFacts hsame hx)
  | scope hmem hx =>
    obtain ⟨evidence', hmem', hsame⟩ := h.evidence.1 _ hmem
    exact .scope hmem' ⟨hsame.endpoint ▸ hx.1, hsame.id ▸ hx.2⟩

theorem targetFacts {dependency dependency' : Dependency}
    (hsame : SameDependency dependency dependency')
    (hx : TargetFacts a.schemas dependency x) : TargetFacts b.schemas dependency' x := by
  rcases hx with hx | ⟨id, htarget, hx⟩ | ⟨id, htarget, hx⟩
  · exact .inl (hx.of_sameIds hsame.evidence)
  · exact .inr (.inl ⟨id, hsame.target ▸ htarget, hx⟩)
  · exact .inr (.inr ⟨id, hsame.target ▸ htarget, h.composed (List.Subset.refl _) hx⟩)

theorem attributed (hx : Attributed a id x) : Attributed b id x := by
  induction hx with
  | initial hfacts => exact .initial (h.initialFacts hfacts)
  | target hmem hfacts =>
    obtain ⟨dependency', hmem', hsame⟩ := h.dependencies.1 _ hmem
    exact hsame.endpoint ▸ .target hmem' (h.targetFacts hsame hfacts)
  | evidence hmem htarget _ ih =>
    obtain ⟨dependency', hmem', hsame⟩ := h.dependencies.1 _ hmem
    exact hsame.endpoint ▸ .evidence hmem' (hsame.target ▸ htarget) ih
  | schema hmem htarget _ ih =>
    obtain ⟨dependency', hmem', hsame⟩ := h.dependencies.1 _ hmem
    exact hsame.endpoint ▸ .schema hmem' (hsame.target ▸ htarget) ih
  | route hmem htarget _ ih =>
    obtain ⟨dependency', hmem', hsame⟩ := h.dependencies.1 _ hmem
    exact hsame.endpoint ▸ .route hmem' (hsame.target ▸ htarget) ih

end

end SameSnapshot

/-- The attributions do not depend on the order of lists. -/
theorem attributed_iff_of_sameSnapshot (h : SameSnapshot a b) :
    Attributed a id x ↔ Attributed b id x :=
  ⟨h.attributed, h.symm.attributed⟩

end ApiTruth.Updates
