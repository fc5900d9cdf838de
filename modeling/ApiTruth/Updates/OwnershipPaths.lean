import ApiTruth.Updates.OwnershipReach

/-!
# Reachability in a snapshot

An endpoint reaches other endpoints along dependencies, components along references, and the
evidence that is attached to what it reaches.

## Main definitions

* `Refers` : a schema refers to a component, for a reading of references.
* `DependsOn`, `ReachesSchema`, `Attached`, `ReachesEvidence`.

## Main results

* `attributed_schema_iff`, `attributed_evidence_iff` : the least fixpoint is what can be reached
  when references are read as segments of JSON pointers.
-/

namespace ApiTruth.Updates

open Json ApiTruth.Ir List

section Reachability

variable (read : String → Option String) (snapshot : ContractSnapshot)

/-- A schema refers to a component at one of its schema positions. -/
def Refers (schema : Json) (id : String) : Prop :=
  ∃ node ref, SchemaPosition schema node ∧ refOf node = some ref ∧ read ref = some id

def ComponentRefers (id child : String) : Prop :=
  ∃ component, snapshot.schemas.lookup id = some component ∧ Refers read component.schema child

/-- A parameter, body, response or header of an endpoint refers to a component. -/
def EndpointRefers (endpointId id : String) : Prop :=
  ∃ endpoint ∈ snapshot.endpoints, endpoint.endpointId = endpointId ∧
    ∃ schema ∈ endpoint.schemas, Refers read schema id

/-- A dependency of an endpoint points to this target. -/
def HasDependency (endpointId : String) (target : DependencyTarget) : Prop :=
  ∃ dependency ∈ snapshot.dependencies, dependency.fromEndpointId = endpointId ∧
    dependency.target = target

/-- Zero or more dependencies lead from an endpoint to another one. -/
def DependsOn : String → String → Prop :=
  Relation.ReflTransGen fun endpointId target => HasDependency snapshot endpointId (.endpoint target)

/-- The components that an endpoint names itself lead to this one. -/
def NamesSchema (endpointId id : String) : Prop :=
  id ∈ snapshot.schemaIds ∧ ∃ root,
    (EndpointRefers read snapshot endpointId root ∨ HasDependency snapshot endpointId (.schema root)) ∧
      Relation.ReflTransGen (ComponentRefers read snapshot) root id

/-- A component that is reached from an endpoint. -/
def ReachesSchema (endpointId id : String) : Prop :=
  ∃ target, DependsOn snapshot endpointId target ∧ NamesSchema read snapshot target id

/-- The evidence attached to an endpoint or to one of its dependencies. -/
inductive Attached (endpointId : String) : String → Prop
  | endpoint {endpoint : Endpoint} {id : String} (mem : endpoint ∈ snapshot.endpoints)
      (names : endpoint.endpointId = endpointId) (evidence : id ∈ endpoint.evidenceIds) :
      Attached endpointId id
  | parameter {endpoint : Endpoint} {parameter : Parameter} {id : String}
      (mem : endpoint ∈ snapshot.endpoints) (names : endpoint.endpointId = endpointId)
      (memParameter : parameter ∈ endpoint.parameters)
      (evidence : id ∈ parameter.presence.evidenceIds) : Attached endpointId id
  | requestBody {endpoint : Endpoint} {body : RequestBody} {id : String}
      (mem : endpoint ∈ snapshot.endpoints) (names : endpoint.endpointId = endpointId)
      (memBody : body ∈ endpoint.requestBodies) (evidence : id ∈ body.presence.evidenceIds) :
      Attached endpointId id
  | claim {claim : Claim} {id : String} (mem : claim ∈ snapshot.claims)
      (names : claim.subject.endpointId = some endpointId) (evidence : id ∈ claim.evidenceIds) :
      Attached endpointId id
  | eligibility {claim : Claim} {eligibility : ExportEligibility} {kind : BasisKind}
      {ids : List String} {id : String} (mem : claim ∈ snapshot.claims)
      (names : claim.subject.endpointId = some endpointId)
      (memEligibility : eligibility ∈ snapshot.exportEligibility)
      (claims : eligibility.claimId = claim.claimId)
      (eligible : eligibility.status = .eligible kind ids) (evidence : id ∈ ids) :
      Attached endpointId id
  | scope {evidence : Evidence} (mem : evidence ∈ snapshot.evidence)
      (names : evidence.scope.endpointId = some endpointId) : Attached endpointId evidence.evidenceId
  | dependency {dependency : Dependency} {id : String} (mem : dependency ∈ snapshot.dependencies)
      (names : dependency.fromEndpointId = endpointId) (evidence : id ∈ dependency.evidenceIds) :
      Attached endpointId id
  | target {id : String} (target : HasDependency snapshot endpointId (.evidence id)) :
      Attached endpointId id

/-- A piece of evidence that is attached to something that is reached from an endpoint. -/
def ReachesEvidence (endpointId id : String) : Prop :=
  (∃ target, DependsOn snapshot endpointId target ∧ Attached snapshot target id) ∨
    ∃ schemaId component, ReachesSchema read snapshot endpointId schemaId ∧
      snapshot.schemas.lookup schemaId = some component ∧ id ∈ component.evidenceIds

end Reachability

/-! ### Components -/

variable {id : String} {roots : List String} {route : OwnershipRoute}

theorem mem_collectSchemaReferences {schema : Json} :
    id ∈ collectSchemaReferences schema ↔ Refers localComponentId schema id := by
  simp only [collectSchemaReferences, Traversal.mem_collect, Option.bind_eq_some_iff, Refers]
  exact exists_congr fun node => by tauto

theorem lookup_componentGraph (schemas : List (String × SchemaComponent)) (id : String) :
    (componentGraph schemas).lookup id =
      (schemas.lookup id).map fun component => (collectSchemaReferences component.schema).dedup := by
  rw [componentGraph, lookup_map_snd fun component : SchemaComponent =>
    (collectSchemaReferences component.schema).dedup]

variable {snapshot : ContractSnapshot} {endpointId : String}

theorem mem_componentClosure_iff_path :
    id ∈ componentClosure roots snapshot.schemas ↔ id ∈ snapshot.schemaIds ∧ ∃ root ∈ roots,
      Relation.ReflTransGen (ComponentRefers localComponentId snapshot) root id := by
  rw [mem_componentClosure, and_comm]
  refine and_congr_right' ⟨fun h => ?_, ?_⟩
  · induction h with
    | root hmem => exact ⟨_, hmem, .refl⟩
    | step _ hnode hmem ih =>
      obtain ⟨root, hroot, hpath⟩ := ih
      rw [lookup_componentGraph, Option.map_eq_some_iff] at hnode
      obtain ⟨component, hcomponent, rfl⟩ := hnode
      rw [mem_dedup, mem_collectSchemaReferences] at hmem
      exact ⟨root, hroot, hpath.tail ⟨component, hcomponent, hmem⟩⟩
  · rintro ⟨root, hroot, h⟩
    induction h with
    | refl => exact .root hroot
    | tail _ hstep ih =>
      obtain ⟨component, hcomponent, hrefers⟩ := hstep
      refine .step ih ?_ (List.mem_dedup.mpr (mem_collectSchemaReferences.mpr hrefers))
      rw [lookup_componentGraph, hcomponent]
      rfl

theorem mem_endpointSchemaReferences {endpoint : Endpoint} :
    id ∈ (endpointSchemaReferences endpoint).dedup ↔
      ∃ schema ∈ endpoint.schemas, Refers localComponentId schema id := by
  simp only [mem_dedup, endpointSchemaReferences, mem_flatMap, mem_collectSchemaReferences]

/-! ### What an endpoint has of its own -/

/-- What an endpoint has without the endpoints that it depends on. -/
def Own (snapshot : ContractSnapshot) (endpointId : String) (x : Attribution) : Prop :=
  InitialFacts snapshot endpointId x ∨ ∃ dependency ∈ snapshot.dependencies,
    dependency.fromEndpointId = endpointId ∧ TargetFacts snapshot.schemas dependency x

theorem attributed_iff_own {x : Attribution} (hx : x.IsOwned) :
    Attributed snapshot endpointId x ↔
      ∃ target, DependsOn snapshot endpointId target ∧ Own snapshot target x := by
  constructor
  · intro h
    induction h with
    | initial hfacts => exact ⟨_, .refl, .inl hfacts⟩
    | target hmem hfacts => exact ⟨_, .refl, .inr ⟨_, hmem, rfl, hfacts⟩⟩
    | evidence hmem htarget _ ih =>
      obtain ⟨target, hpath, hown⟩ := ih trivial
      exact ⟨target, hpath.head ⟨_, hmem, rfl, htarget⟩, hown⟩
    | schema hmem htarget _ ih =>
      obtain ⟨target, hpath, hown⟩ := ih trivial
      exact ⟨target, hpath.head ⟨_, hmem, rfl, htarget⟩, hown⟩
    | route _ _ _ => exact hx.elim
  · rintro ⟨target, hpath, hown⟩
    induction hpath using Relation.ReflTransGen.head_induction_on with
    | refl =>
      rcases hown with hfacts | ⟨dependency, hmem, rfl, hfacts⟩
      · exact .initial hfacts
      · exact .target hmem hfacts
    | head hstep _ ih =>
      obtain ⟨dependency, hmem, rfl, htarget⟩ := hstep
      cases x with
      | evidence id => exact .evidence hmem htarget ih
      | schema id => exact .schema hmem htarget ih
      | route id route => exact hx.elim

variable {ids : List String} {schemas : List (String × SchemaComponent)}

@[simp] theorem evidenced_evidence :
    Evidenced ids route (.evidence id) ↔ id ∈ ids := by
  simp [Evidenced]

@[simp] theorem not_evidenced_schema :
    ¬ Evidenced ids route (.schema id) := by
  simp [Evidenced]

@[simp] theorem composed_schema :
    Composed schemas roots route (.schema id) ↔ id ∈ componentClosure roots schemas := by
  simp [Composed]

@[simp] theorem composed_evidence :
    Composed schemas roots route (.evidence id) ↔ ∃ schemaId component,
      Composed schemas roots route (.schema schemaId) ∧
        schemas.lookup schemaId = some component ∧ id ∈ component.evidenceIds := by
  simp [Composed]

theorem own_schema_iff :
    Own snapshot endpointId (.schema id) ↔ NamesSchema localComponentId snapshot endpointId id := by
  constructor
  · rintro (h | ⟨dependency, hmem, hfrom, h⟩)
    · cases h with
      | endpoint hmem h =>
        simp only [EndpointFacts, not_evidenced_schema, and_false, exists_false, false_or,
          composed_schema, mem_componentClosure_iff_path, mem_endpointSchemaReferences] at h
        obtain ⟨hid, root, hroot, hpath⟩ := h
        exact ⟨hid, root, .inl ⟨_, hmem, rfl, hroot⟩, hpath⟩
      | claim _ h => simp [ClaimFacts] at h
      | scope _ h => simp [ScopeFacts] at h
    · simp only [TargetFacts, not_evidenced_schema, and_false, exists_false, false_or,
        composed_schema, mem_componentClosure_iff_path, mem_singleton, exists_eq_left] at h
      obtain ⟨root, htarget, hid, hpath⟩ := h
      exact ⟨hid, root, .inr ⟨dependency, hmem, hfrom, htarget⟩, hpath⟩
  · rintro ⟨hid, root, ⟨endpoint, hmem, rfl, hroot⟩ | ⟨dependency, hmem, hfrom, htarget⟩, hpath⟩
    · refine .inl (.endpoint hmem (.inr (.inr (.inr ?_))))
      rw [composed_schema, mem_componentClosure_iff_path]
      exact ⟨hid, root, mem_endpointSchemaReferences.mpr hroot, hpath⟩
    · refine .inr ⟨dependency, hmem, hfrom, .inr (.inr ⟨root, htarget, ?_⟩)⟩
      rw [composed_schema, mem_componentClosure_iff_path]
      exact ⟨hid, root, mem_singleton_self root, hpath⟩

theorem own_evidence_iff :
    Own snapshot endpointId (.evidence id) ↔ Attached snapshot endpointId id ∨
      ∃ schemaId component, Own snapshot endpointId (.schema schemaId) ∧
        snapshot.schemas.lookup schemaId = some component ∧ id ∈ component.evidenceIds := by
  constructor
  · rintro (h | ⟨dependency, hmem, hfrom, h | ⟨target, htarget, h⟩ | ⟨root, htarget, h⟩⟩)
    · cases h with
      | endpoint hmem h =>
        rcases h with h | ⟨parameter, hparameter, h⟩ | ⟨body, hbody, h⟩ | h
        · exact .inl (.endpoint hmem rfl (evidenced_evidence.mp h))
        · exact .inl (.parameter hmem rfl hparameter (evidenced_evidence.mp h))
        · exact .inl (.requestBody hmem rfl hbody (evidenced_evidence.mp h))
        · obtain ⟨schemaId, component, hschema, h⟩ := composed_evidence.mp h
          exact .inr ⟨schemaId, component, .inl (.endpoint hmem (.inr (.inr (.inr hschema)))), h⟩
      | claim hmem h =>
        obtain ⟨hsubject, h | ⟨eligibility, heligibility, hclaim, kind, ids, hstatus, h⟩⟩ := h
        · exact .inl (.claim hmem hsubject (evidenced_evidence.mp h))
        · exact .inl (.eligibility hmem hsubject heligibility hclaim hstatus
            (evidenced_evidence.mp h))
      | scope hmem h =>
        obtain rfl := List.mem_singleton.mp (evidenced_evidence.mp h.2)
        exact .inl (.scope hmem h.1)
    · exact .inl (.dependency hmem hfrom (evidenced_evidence.mp h))
    · obtain rfl := List.mem_singleton.mp (evidenced_evidence.mp h)
      exact .inl (.target ⟨dependency, hmem, hfrom, htarget⟩)
    · obtain ⟨schemaId, component, hschema, h⟩ := composed_evidence.mp h
      exact .inr ⟨schemaId, component,
        .inr ⟨dependency, hmem, hfrom, .inr (.inr ⟨root, htarget, hschema⟩)⟩, h⟩
  · rintro (h | ⟨schemaId, component, hown, hcomponent, hid⟩)
    · cases h with
      | endpoint hmem hnames h =>
        exact .inl (hnames ▸ .endpoint hmem (.inl (evidenced_evidence.mpr h)))
      | parameter hmem hnames hparameter h =>
        exact .inl (hnames ▸ .endpoint hmem (.inr (.inl ⟨_, hparameter, evidenced_evidence.mpr h⟩)))
      | requestBody hmem hnames hbody h =>
        exact .inl (hnames ▸ .endpoint hmem
          (.inr (.inr (.inl ⟨_, hbody, evidenced_evidence.mpr h⟩))))
      | claim hmem hnames h =>
        exact .inl (.claim hmem ⟨hnames, .inl (evidenced_evidence.mpr h)⟩)
      | eligibility hmem hnames heligibility hclaim hstatus h =>
        exact .inl (.claim hmem ⟨hnames, .inr ⟨_, heligibility, hclaim, _, _, hstatus,
          evidenced_evidence.mpr h⟩⟩)
      | scope hmem hnames =>
        exact .inl (.scope hmem ⟨hnames, evidenced_evidence.mpr (mem_singleton_self _)⟩)
      | dependency hmem hnames h =>
        exact .inr ⟨_, hmem, hnames, .inl (evidenced_evidence.mpr h)⟩
      | target htarget =>
        obtain ⟨dependency, hmem, hfrom, htarget⟩ := htarget
        exact .inr ⟨dependency, hmem, hfrom, .inr (.inl ⟨id, htarget,
          evidenced_evidence.mpr (mem_singleton_self id)⟩)⟩
    · have hcomposed {roots : List String} {route : OwnershipRoute}
          (h : Composed snapshot.schemas roots route (.schema schemaId)) :
          Composed snapshot.schemas roots route (.evidence id) :=
        composed_evidence.mpr ⟨schemaId, component, h, hcomponent, hid⟩
      rcases hown with h | ⟨dependency, hmem, hfrom, h⟩
      · cases h with
        | endpoint hmem h =>
          simp only [EndpointFacts, not_evidenced_schema, and_false, exists_false, false_or] at h
          exact .inl (.endpoint hmem (.inr (.inr (.inr (hcomposed h)))))
        | claim _ h => simp [ClaimFacts] at h
        | scope _ h => simp [ScopeFacts] at h
      · simp only [TargetFacts, not_evidenced_schema, and_false, exists_false, false_or] at h
        obtain ⟨root, htarget, h⟩ := h
        exact .inr ⟨dependency, hmem, hfrom, .inr (.inr ⟨root, htarget, hcomposed h⟩)⟩

/-- The components attributed to an endpoint are those that it reaches. -/
theorem attributed_schema_iff : Attributed snapshot endpointId (.schema id) ↔
    ReachesSchema localComponentId snapshot endpointId id := by
  rw [attributed_iff_own (x := .schema id) trivial, ReachesSchema]
  simp only [own_schema_iff]

/-- The evidence attributed to an endpoint is attached to what it reaches. -/
theorem attributed_evidence_iff : Attributed snapshot endpointId (.evidence id) ↔
    ReachesEvidence localComponentId snapshot endpointId id := by
  rw [attributed_iff_own (x := .evidence id) trivial, ReachesEvidence]
  simp only [own_evidence_iff, own_schema_iff, ReachesSchema, and_or_left, exists_or]
  refine or_congr_right ⟨?_, ?_⟩
  · rintro ⟨target, hpath, schemaId, component, hown, h⟩
    exact ⟨schemaId, component, ⟨target, hpath, hown⟩, h⟩
  · rintro ⟨schemaId, component, ⟨target, hpath, hown⟩, h⟩
    exact ⟨target, hpath, schemaId, component, hown, h⟩

end ApiTruth.Updates
