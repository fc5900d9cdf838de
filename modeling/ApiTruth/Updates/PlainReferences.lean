import ApiTruth.Updates.OwnershipPaths

/-!
# References with escapes

A snapshot names the component of a reference by the raw suffix of the reference.  The planner
decodes this suffix, which changes it when it has a `~`.  As long as no component that is referred
to has a `~` in its identifier, both readings reach the same; and an endpoint that refers to such a
component loses the longest one, unless a dependency names it.

## Main definitions

* `namedComponentId` : the component that a reference of a snapshot names.
* `PlainReferences` : no component that an endpoint leads to by a reference has a `~`.

## Main results

* `reachesSchema_iff_of_plainReferences` : both readings reach the same components.
* `plainReferences_of_reachesSchema_iff` : the converse, when no dependency names a `~`.
-/

namespace ApiTruth.Updates

open Json ApiTruth.Ir List

def namedComponentId (reference : String) : Option String :=
  if isComponentRef reference then some (referencedComponent reference) else none

/-- A component that an endpoint, or a component that it names, refers to. -/
def LeadsTo (snapshot : ContractSnapshot) (endpointId id : String) : Prop :=
  EndpointRefers namedComponentId snapshot endpointId id ∨
    ∃ schemaId, NamesSchema namedComponentId snapshot endpointId schemaId ∧
      ComponentRefers namedComponentId snapshot schemaId id

/-- No component that an endpoint leads to by a reference has a `~` in its identifier. -/
def PlainReferences (snapshot : ContractSnapshot) : Prop :=
  ∀ endpointId id, LeadsTo snapshot endpointId id → '~' ∉ id.toList

/-- No dependency names a component with a `~` in its identifier. -/
def PlainDependencies (snapshot : ContractSnapshot) : Prop :=
  ∀ dependency ∈ snapshot.dependencies, ∀ id, dependency.target = .schema id → '~' ∉ id.toList

/-! ### Readings of one reference -/

theorem length_decodeSegment_lt {cs : List Char} (hvalid : hasInvalidEscape cs = false)
    (hmem : '~' ∈ cs) : (decodeSegment cs).length < cs.length := by
  have hle := length_replaceAllPair_le '~' '0' '~' (replaceAllPair '~' '1' '/' cs)
  have hle' := length_replaceAllPair_le '~' '1' '/' cs
  rw [decodeSegment]
  by_cases hfirst : replaceAllPair '~' '1' '/' cs = cs
  · have := length_replaceAllPair_lt hvalid hmem hfirst
    rw [hfirst]
    exact this
  · have hne : (replaceAllPair '~' '1' '/' cs).length ≠ cs.length :=
      fun heq => hfirst (replaceAllPair_eq_of_length_eq heq)
    omega

theorem length_lt_of_localComponentId {reference id : String}
    (h : localComponentId reference = some id) (hid : '~' ∈ id.toList) :
    ∃ named, namedComponentId reference = some named ∧ '~' ∈ named.toList ∧
      id.toList.length < named.toList.length := by
  unfold localComponentId at h
  split_ifs at h with hlocal
  set encoded := (referencedComponent reference).toList with hencoded
  simp only at h
  split_ifs at h with hempty
  cases h
  rw [Bool.or_eq_true, not_or, Bool.not_eq_true, Bool.not_eq_true] at hempty
  rw [String.toList_ofList] at hid ⊢
  have hmem : '~' ∈ encoded := by
    by_contra hmem
    rw [(decodeSegment_eq_self_iff hempty.2).mpr hmem] at hid
    exact hmem hid
  exact ⟨referencedComponent reference, by rw [namedComponentId, if_pos hlocal], hmem,
    length_decodeSegment_lt hempty.2 hmem⟩

variable {host : Host} {snapshot : ContractSnapshot} {endpointId id : String}

/-! ### References of an accepted snapshot -/

def IsSchemaOf (snapshot : ContractSnapshot) (schema : Json) : Prop :=
  schema ∈ snapshot.schemas.map (fun entry => entry.2.schema) ++
    snapshot.endpoints.flatMap Endpoint.schemas

variable {schema : Json} {component : SchemaComponent} {schemaId : String}

theorem isSchemaOf_endpoint {endpoint : Endpoint} (hmem : endpoint ∈ snapshot.endpoints)
    (hschema : schema ∈ endpoint.schemas) : IsSchemaOf snapshot schema :=
  mem_append_right _ (mem_flatMap.mpr ⟨endpoint, hmem, hschema⟩)

theorem mem_of_lookup_eq_some {schemas : List (String × SchemaComponent)}
    (h : schemas.lookup id = some component) :
    (id, component) ∈ schemas := by
  induction schemas with
  | nil => simp at h
  | cons entry schemas ih =>
    rw [OrderedMap.lookup_cons_ite] at h
    split_ifs at h with hid
    · cases h
      simp [hid]
    · exact mem_cons_of_mem _ (ih h)

theorem isSchemaOf_component
    (h : snapshot.schemas.lookup id = some component) : IsSchemaOf snapshot component.schema :=
  mem_append_left _ (mem_map.mpr ⟨_, mem_of_lookup_eq_some h, rfl⟩)

section

variable (h : snapshot.Accepted host) (hschema : IsSchemaOf snapshot schema)
include h hschema

/-- A schema of an accepted snapshot refers to existing components with nonempty identifiers. -/
theorem exists_namedComponentId {node : List (String × Json)} {reference : String}
    (hnode : SchemaPosition schema node) (href : refOf node = some reference) :
    namedComponentId reference = some (referencedComponent reference) ∧
      isComponentRef reference = true ∧ referencedComponent reference ∈ snapshot.schemaIds ∧
      referencedComponent reference ≠ "" := by
  obtain ⟨hlocal, hmem⟩ :=
    h.ref (ContractSnapshot.mem_schemaRefs.mpr ⟨schema, hschema, node, hnode, href⟩)
  obtain ⟨entry, hentry, heq⟩ := mem_map.mp hmem
  exact ⟨by rw [namedComponentId, if_pos hlocal], hlocal, hmem, heq ▸ (h.component hentry).2⟩

theorem mem_schemaIds_of_refers (hrefers : Refers namedComponentId schema id) :
    id ∈ snapshot.schemaIds := by
  obtain ⟨node, reference, hnode, href, hread⟩ := hrefers
  obtain ⟨hnamed, -, hmem, -⟩ := exists_namedComponentId h hschema hnode href
  rw [hnamed, Option.some.injEq] at hread
  exact hread ▸ hmem

theorem refers_iff_of_plain (hplain : ∀ id, Refers namedComponentId schema id → '~' ∉ id.toList) :
    Refers localComponentId schema id ↔ Refers namedComponentId schema id := by
  refine exists_congr fun node => exists_congr fun reference => and_congr_right fun hnode =>
    and_congr_right fun href => ?_
  obtain ⟨hnamed, hlocal, -, hne⟩ := exists_namedComponentId h hschema hnode href
  rw [hnamed, (localComponentId_eq_some_iff hlocal hne).mpr
    (hplain _ ⟨node, reference, hnode, href, hnamed⟩)]

end

/-- The planner reads a `~` in a schema where the schema refers to a longer component. -/
theorem exists_refers_of_tilde (hrefers : Refers localComponentId schema id)
    (hid : '~' ∈ id.toList) : ∃ named, Refers namedComponentId schema named ∧
      '~' ∈ named.toList ∧ id.toList.length < named.toList.length := by
  obtain ⟨node, reference, hnode, href, hread⟩ := hrefers
  obtain ⟨named, hnamed, htilde, hlt⟩ := length_lt_of_localComponentId hread hid
  exact ⟨named, ⟨node, reference, hnode, href, hnamed⟩, htilde, hlt⟩

theorem leadsTo_mem_schemaIds (h : snapshot.Accepted host) (hleads : LeadsTo snapshot endpointId id) :
    id ∈ snapshot.schemaIds := by
  rcases hleads with ⟨endpoint, hmem, -, schema, hschema, hrefers⟩ | ⟨_, -, component, hlookup, hrefers⟩
  · exact mem_schemaIds_of_refers h (isSchemaOf_endpoint hmem hschema) hrefers
  · exact mem_schemaIds_of_refers h (isSchemaOf_component hlookup) hrefers

theorem namesSchema_of_leadsTo (h : snapshot.Accepted host)
    (hleads : LeadsTo snapshot endpointId id) :
    NamesSchema namedComponentId snapshot endpointId id := by
  refine ⟨leadsTo_mem_schemaIds h hleads, ?_⟩
  rcases hleads with hrefers | ⟨schemaId, ⟨-, root, hroot, hpath⟩, hrefers⟩
  · exact ⟨id, .inl hrefers, .refl⟩
  · exact ⟨root, hroot, hpath.tail hrefers⟩

/-! ### Plain references -/

theorem endpointRefers_iff_of_plainReferences (h : snapshot.Accepted host)
    (hplain : PlainReferences snapshot) :
    EndpointRefers localComponentId snapshot endpointId id ↔
      EndpointRefers namedComponentId snapshot endpointId id := by
  refine exists_congr fun endpoint => and_congr_right fun hmem => and_congr_right fun hid =>
    exists_congr fun schema => and_congr_right fun hschema => ?_
  exact refers_iff_of_plain h (isSchemaOf_endpoint hmem hschema) fun named hnamed =>
    hplain endpointId named (.inl ⟨endpoint, hmem, hid, schema, hschema, hnamed⟩)

theorem componentRefers_iff_of_plainReferences (h : snapshot.Accepted host)
    (hplain : PlainReferences snapshot)
    (hnames : NamesSchema namedComponentId snapshot endpointId schemaId) :
    ComponentRefers localComponentId snapshot schemaId id ↔
      ComponentRefers namedComponentId snapshot schemaId id := by
  refine exists_congr fun component => and_congr_right fun hlookup => ?_
  exact refers_iff_of_plain h (isSchemaOf_component hlookup) fun named hnamed =>
    hplain endpointId named (.inr ⟨schemaId, hnames, component, hlookup, hnamed⟩)

theorem mem_schemaIds_of_componentRefers {read : String → Option String}
    (h : ComponentRefers read snapshot schemaId id) : schemaId ∈ snapshot.schemaIds := by
  obtain ⟨component, hlookup, -⟩ := h
  exact mem_map.mpr ⟨_, mem_of_lookup_eq_some hlookup, rfl⟩

theorem reflTransGen_iff_of_plainReferences (h : snapshot.Accepted host)
    (hplain : PlainReferences snapshot) {root : String}
    (hroot : EndpointRefers namedComponentId snapshot endpointId root ∨
      HasDependency snapshot endpointId (.schema root)) :
    Relation.ReflTransGen (ComponentRefers localComponentId snapshot) root id ↔
      Relation.ReflTransGen (ComponentRefers namedComponentId snapshot) root id := by
  constructor
  · intro hpath
    induction hpath with
    | refl => exact .refl
    | tail _ hstep ih =>
      have hmem := mem_schemaIds_of_componentRefers hstep
      exact ih.tail ((componentRefers_iff_of_plainReferences h hplain
        ⟨hmem, root, hroot, ih⟩).mp hstep)
  · intro hpath
    induction hpath with
    | refl => exact .refl
    | tail hprefix hstep ih =>
      have hmem := mem_schemaIds_of_componentRefers hstep
      exact ih.tail ((componentRefers_iff_of_plainReferences h hplain
        ⟨hmem, root, hroot, hprefix⟩).mpr hstep)

/-- Both readings reach the same components. -/
theorem reachesSchema_iff_of_plainReferences (h : snapshot.Accepted host)
    (hplain : PlainReferences snapshot) :
    ReachesSchema localComponentId snapshot endpointId id ↔
      ReachesSchema namedComponentId snapshot endpointId id := by
  refine exists_congr fun target => and_congr_right fun _ => and_congr_right fun _ =>
    exists_congr fun root => ?_
  rw [endpointRefers_iff_of_plainReferences h hplain]
  exact and_congr_right fun hroot => reflTransGen_iff_of_plainReferences h hplain hroot

/-! ### The converse -/

/-- Where both readings reach the same, a component with a `~` that is led to comes from a longer
one. -/
theorem exists_longer (h : snapshot.Accepted host) (hplain : PlainDependencies snapshot)
    (hsame : ∀ id, ReachesSchema localComponentId snapshot endpointId id ↔
      ReachesSchema namedComponentId snapshot endpointId id)
    {target : String} (hdepends : DependsOn snapshot endpointId target)
    (hleads : LeadsTo snapshot target id) (hid : '~' ∈ id.toList) :
    ∃ target' named, DependsOn snapshot endpointId target' ∧ LeadsTo snapshot target' named ∧
      '~' ∈ named.toList ∧ id.toList.length < named.toList.length := by
  obtain ⟨target', hdepends', -, root, hroot, hpath⟩ :=
    (hsame id).mpr ⟨target, hdepends, namesSchema_of_leadsTo h hleads⟩
  cases hpath with
  | refl =>
    rcases hroot with ⟨endpoint, hmem, hends, schema, hschema, hrefers⟩ |
        ⟨dependency, hmem, -, htarget⟩
    · obtain ⟨named, hnamed, htilde, hlt⟩ := exists_refers_of_tilde hrefers hid
      exact ⟨target', named, hdepends', .inl ⟨endpoint, hmem, hends, schema, hschema, hnamed⟩,
        htilde, hlt⟩
    · exact absurd hid (hplain dependency hmem _ htarget)
  | tail hprefix hstep =>
    have hmem := mem_schemaIds_of_componentRefers hstep
    obtain ⟨component, hlookup, hrefers⟩ := hstep
    obtain ⟨named, hnamed, htilde, hlt⟩ := exists_refers_of_tilde hrefers hid
    obtain ⟨target'', hdepends'', hnames⟩ :=
      (hsame _).mp ⟨target', hdepends', hmem, root, hroot, hprefix⟩
    exact ⟨target'', named, hdepends'', .inr ⟨_, hnames, component, hlookup, hnamed⟩, htilde, hlt⟩

/-- Where both readings reach the same, no component that is led to has a `~`: there would be ever
longer ones. -/
theorem plainReferences_of_reachesSchema_iff (h : snapshot.Accepted host)
    (hplain : PlainDependencies snapshot)
    (hsame : ∀ endpointId id, ReachesSchema localComponentId snapshot endpointId id ↔
      ReachesSchema namedComponentId snapshot endpointId id) : PlainReferences snapshot := by
  obtain ⟨bound, hbound⟩ : ∃ bound, ∀ id ∈ snapshot.schemaIds, id.toList.length ≤ bound :=
    ⟨snapshot.schemaIds.toFinset.sup fun id => id.toList.length, fun id hid =>
      Finset.le_sup (f := fun id : String => id.toList.length) (mem_toFinset.mpr hid)⟩
  intro endpointId
  suffices hlong : ∀ rest id target, bound - id.toList.length ≤ rest →
      DependsOn snapshot endpointId target → LeadsTo snapshot target id → '~' ∉ id.toList from
    fun id => hlong _ id endpointId le_rfl .refl
  intro rest
  induction rest with
  | zero =>
    intro id target hrest hdepends hleads hid
    obtain ⟨target', named, hdepends', hleads', htilde, hlt⟩ :=
      exists_longer h hplain (hsame endpointId) hdepends hleads hid
    have := hbound named (leadsTo_mem_schemaIds h hleads')
    omega
  | succ rest ih =>
    intro id target hrest hdepends hleads hid
    obtain ⟨target', named, hdepends', hleads', htilde, hlt⟩ :=
      exists_longer h hplain (hsame endpointId) hdepends hleads hid
    exact ih named target' (by omega) hdepends' hleads' htilde

end ApiTruth.Updates
