import ApiTruth.Updates.SnapshotOrder

/-!
# What the ownership index says

The index of the planner says what the least fixpoint says, whatever the order of the lists of the
snapshot.  It is what can be reached in the snapshot where no reference needs to be decoded.

## Main definitions

* `YieldsIndex` : the planner ends with an index.
* `EndpointOwnershipIndex.IsExact` : the index says what can be reached in the snapshot.

## Main results

* `exists_describes` : the planner ends, and its index says what is attributed.
* `yieldsIndex_isExact_iff` : when the index is exact.
-/

namespace ApiTruth.Updates

open Json ApiTruth.Ir List

/-! ### The owners of an identifier -/

def ownersOf (owners : OrderedMap String (List String)) (id : String) : List String :=
  (owners.get? id).getD []

theorem mem_ownersOf_set {owners : OrderedMap String (List String)} {id : String}
    {values : List String} {key x : String} :
    x ∈ ownersOf (owners.set id values) key ↔
      if key = id then x ∈ values else x ∈ ownersOf owners key := by
  rw [ownersOf, OrderedMap.get?_set]
  split_ifs <;> rfl

theorem mem_ownersOf_foldl_ids (ids : List String) (owners : OrderedMap String (List String))
    (endpointId : String) {key x : String} :
    x ∈ ownersOf (ids.foldl (fun owners id =>
        owners.set id (setAdd ((owners.get? id).getD []) endpointId)) owners) key ↔
      x ∈ ownersOf owners key ∨ x = endpointId ∧ key ∈ ids := by
  induction ids generalizing owners with
  | nil => simp
  | cons id ids ih =>
    rw [foldl_cons, ih, mem_ownersOf_set]
    by_cases hkey : key = id
    · subst hkey
      simp only [if_true, mem_setAdd, mem_cons, true_or, and_true, ownersOf]
      tauto
    · rw [if_neg hkey]
      simp only [mem_cons, hkey, false_or]

theorem OwnershipState.mem_owners (state : OwnershipState) (ids : EndpointOwnership → List String)
    {key endpointId : String} : endpointId ∈ ownersOf (state.owners ids) key ↔
      ∃ ownership, state.endpointOwnership.get? endpointId = some ownership ∧
        key ∈ ids ownership := by
  have hfold (entries : List (String × EndpointOwnership))
      (owners : OrderedMap String (List String)) :
      endpointId ∈ ownersOf (entries.foldl (fun owners entry =>
          (ids entry.2).foldl (fun owners id =>
            owners.set id (setAdd ((owners.get? id).getD []) entry.1)) owners) owners) key ↔
        endpointId ∈ ownersOf owners key ∨ ∃ entry ∈ entries, endpointId = entry.1 ∧
          key ∈ ids entry.2 := by
    induction entries generalizing owners with
    | nil => simp
    | cons entry entries ih =>
      rw [foldl_cons, ih, mem_ownersOf_foldl_ids, exists_mem_cons_iff, or_assoc]
  rw [owners, hfold]
  have hempty : ownersOf (.empty : OrderedMap String (List String)) key = [] := rfl
  rw [hempty, or_iff_right not_mem_nil]
  constructor
  · rintro ⟨entry, hentry, rfl, hkey⟩
    exact ⟨entry.2, (state.endpointOwnership.get?_eq_some_iff).mpr hentry, hkey⟩
  · rintro ⟨ownership, hown, hkey⟩
    exact ⟨_, (state.endpointOwnership.get?_eq_some_iff).mp hown, rfl, hkey⟩

/-! ### The index -/

namespace EndpointOwnershipIndex

variable (index : EndpointOwnershipIndex)

/-- The index says that an endpoint owns a component. -/
def OwnsSchema (endpointId id : String) : Prop := endpointId ∈ ownersOf index.schemaOwners id

/-- The index says that an endpoint owns a piece of evidence. -/
def OwnsEvidence (endpointId id : String) : Prop := endpointId ∈ ownersOf index.evidenceOwners id

def Tells (endpointId : String) : Attribution → Prop
  | .evidence id => index.OwnsEvidence endpointId id
  | .schema id => index.OwnsSchema endpointId id
  | .route id route => (id, endpointId, route) ∈ index.evidenceOwnerRoutes

def Lists (endpointId : String) : Attribution → Prop
  | .evidence id => ∃ ownership, index.endpointOwnership.get? endpointId = some ownership ∧
      id ∈ ownership.evidenceIds
  | .schema id => ∃ ownership, index.endpointOwnership.get? endpointId = some ownership ∧
      id ∈ ownership.schemaIds
  | .route id route => (id, endpointId, route) ∈ index.evidenceOwnerRoutes

/-- The index says of every endpoint what can be reached from it in the snapshot. -/
structure IsExact (snapshot : ContractSnapshot) : Prop where
  schemas : ∀ endpointId id, index.OwnsSchema endpointId id ↔
    ReachesSchema namedComponentId snapshot endpointId id
  evidence : ∀ endpointId id, index.OwnsEvidence endpointId id ↔
    ReachesEvidence namedComponentId snapshot endpointId id

structure Same (index' : EndpointOwnershipIndex) : Prop where
  endpointIds : index.endpointIds = index'.endpointIds
  tells : ∀ endpointId x, index.Tells endpointId x ↔ index'.Tells endpointId x
  lists : ∀ endpointId x, index.Lists endpointId x ↔ index'.Lists endpointId x

/-- An index of a snapshot says and lists what is attributed. -/
structure Describes (snapshot : ContractSnapshot) : Prop where
  endpointIds : index.endpointIds = snapshot.endpointIds.insertionSort (· ≤ ·)
  tells : ∀ endpointId x, index.Tells endpointId x ↔ Attributed snapshot endpointId x
  lists : ∀ endpointId x, index.Lists endpointId x ↔ Attributed snapshot endpointId x

end EndpointOwnershipIndex

def YieldsIndex (snapshot : ContractSnapshot) (index : EndpointOwnershipIndex) : Prop :=
  ∃ bound, ∀ rounds, bound ≤ rounds → buildEndpointOwnershipIndex rounds snapshot = some index

theorem insertionSort_eq_of_sameIds {ids ids' : List String} (hids : ids.Nodup) (hids' : ids'.Nodup)
    (h : SameIds ids ids') : ids.insertionSort (· ≤ ·) = ids'.insertionSort (· ≤ ·) := by
  have hperm : ids.Perm ids' := (perm_ext_iff_of_nodup hids hids').mpr h
  have hsorted (ids : List String) : (ids.insertionSort (· ≤ ·)).Pairwise (· ≤ ·) :=
    pairwise_insertionSort (· ≤ ·) ids
  refine Perm.eq_of_pairwise (fun a b _ _ => le_antisymm) (hsorted ids) (hsorted ids') ?_
  exact (perm_insertionSort _ ids).trans (hperm.trans (perm_insertionSort _ ids').symm)

/-- The planner ends, and its index says what is attributed. -/
theorem exists_describes {host : Host} {snapshot : ContractSnapshot}
    (h : snapshot.Accepted host) :
    ∃ index, YieldsIndex snapshot index ∧ index.Describes snapshot := by
  obtain ⟨state, final, bound, hstate, hrounds, hids, hhas⟩ :=
    exists_saturated (joinsEndpoints_of_accepted h)
  refine ⟨final.index, ⟨bound, fun rounds hle => ?_⟩, ?_, fun endpointId x => ?_,
    fun endpointId x => ?_⟩
  · rw [buildEndpointOwnershipIndex, hstate, Option.bind_eq_bind, Option.bind_some,
      hrounds rounds hle]
    rfl
  · refine insertionSort_eq_of_sameIds final.endpointOwnership.nodup h.nodup_ids.1 fun id => ?_
    have hkeys := final.endpointOwnership.get?_isSome_iff id
    rw [hids, decide_eq_true_eq] at hkeys
    exact hkeys.symm
  · rw [← hhas]
    cases x with
    | evidence id => exact final.mem_owners EndpointOwnership.evidenceIds
    | schema id => exact final.mem_owners EndpointOwnership.schemaIds
    | route id route => rfl
  · rw [← hhas]
    cases x with
    | evidence id => rfl
    | schema id => rfl
    | route id route => rfl

/-! ### Exact indexes -/

section Exact

variable {host : Host} {snapshot : ContractSnapshot} {index : EndpointOwnershipIndex}

theorem isExact_of_plainReferences (h : snapshot.Accepted host) (hindex : index.Describes snapshot)
    (hplain : PlainReferences snapshot) : index.IsExact snapshot where
  schemas endpointId id := by
    rw [← reachesSchema_iff_of_plainReferences h hplain, ← attributed_schema_iff]
    exact hindex.tells endpointId (.schema id)
  evidence endpointId id := by
    have hsame (schemaId : String) : ReachesSchema localComponentId snapshot endpointId schemaId ↔
        ReachesSchema namedComponentId snapshot endpointId schemaId :=
      reachesSchema_iff_of_plainReferences h hplain
    have htells := hindex.tells endpointId (.evidence id)
    rw [attributed_evidence_iff, ReachesEvidence] at htells
    simp only [hsame] at htells
    exact htells

theorem plainReferences_of_isExact (h : snapshot.Accepted host) (hindex : index.Describes snapshot)
    (hplain : PlainDependencies snapshot) (hexact : index.IsExact snapshot) :
    PlainReferences snapshot := by
  refine plainReferences_of_reachesSchema_iff h hplain fun endpointId id => ?_
  rw [← hexact.schemas, ← attributed_schema_iff]
  exact (hindex.tells endpointId (.schema id)).symm

theorem same_of_sameSnapshot {host' : Host} {snapshot' : ContractSnapshot}
    {index' : EndpointOwnershipIndex} (h : snapshot.Accepted host) (h' : snapshot'.Accepted host')
    (hindex : index.Describes snapshot) (hindex' : index'.Describes snapshot')
    (hsame : SameSnapshot snapshot snapshot') : index.Same index' where
  endpointIds := by
    rw [hindex.endpointIds, hindex'.endpointIds]
    refine insertionSort_eq_of_sameIds h.nodup_ids.1 h'.nodup_ids.1 fun id => ?_
    simp only [ContractSnapshot.endpointIds, List.mem_map]
    constructor
    · rintro ⟨endpoint, hmem, rfl⟩
      obtain ⟨endpoint', hmem', hsame⟩ := hsame.endpoints.1 endpoint hmem
      exact ⟨endpoint', hmem', hsame.id.symm⟩
    · rintro ⟨endpoint, hmem, rfl⟩
      obtain ⟨endpoint', hmem', hsame⟩ := hsame.endpoints.2 endpoint hmem
      exact ⟨endpoint', hmem', hsame.id⟩
  tells endpointId x := by
    rw [hindex.tells, hindex'.tells, attributed_iff_of_sameSnapshot hsame]
  lists endpointId x := by
    rw [hindex.lists, hindex'.lists, attributed_iff_of_sameSnapshot hsame]

/-- The planner ends with an index, whatever the order of the lists of a snapshot.  The index is
exact where no component that an endpoint leads to by a reference has a `~` in its identifier, and
only there unless a dependency names such a component. -/
theorem yieldsIndex_isExact_iff (h : snapshot.Accepted host) :
    ∃ index, YieldsIndex snapshot index ∧
      (PlainReferences snapshot → index.IsExact snapshot) ∧
      (PlainDependencies snapshot → (index.IsExact snapshot ↔ PlainReferences snapshot)) ∧
      ∀ {host' : Host} {snapshot' : ContractSnapshot}, snapshot'.Accepted host' →
        SameSnapshot snapshot snapshot' →
          ∃ index', YieldsIndex snapshot' index' ∧ index.Same index' := by
  obtain ⟨index, hyields, hindex⟩ := exists_describes h
  have hexact := isExact_of_plainReferences h hindex
  refine ⟨index, hyields, hexact, fun hplain =>
    ⟨plainReferences_of_isExact h hindex hplain, hexact⟩, fun h' hsame => ?_⟩
  obtain ⟨index', hyields', hindex'⟩ := exists_describes h'
  exact ⟨index', hyields', same_of_sameSnapshot h h' hindex hindex' hsame⟩

end Exact

/-- A snapshot whose only endpoint returns the component with this identifier. -/
def returningSnapshot (id : String) : ContractSnapshot :=
  { sampleSnapshot with
    schemas := [(id, { schemaId := id, schema := .obj [], evidenceIds := ["ev"] })]
    endpoints := [
      { sampleEndpoint with
        responses := [
          { status := .exact 200
            content := [
              { mediaType := "application/json"
                schema := .obj [("$ref", .str (componentPrefix ++ id))]
                serialization := { format := some "json" } }] }] }] }

theorem plainReferences_returningSnapshot {host : Host} {id : String} (hid : '~' ∉ id.toList)
    (h : (returningSnapshot id).Accepted host) : PlainReferences (returningSnapshot id) := by
  intro endpointId other hleads
  have hmem : other ∈ [id] := leadsTo_mem_schemaIds h hleads
  rwa [List.mem_singleton.mp hmem]

theorem yieldsIndex_isExact_iff_returning : (returningSnapshot "Pet").Accepted .ascii ∧
    ∃ index, YieldsIndex (returningSnapshot "Pet") index ∧ index.IsExact (returningSnapshot "Pet") :=
  have h : (returningSnapshot "Pet").Accepted .ascii := by decide +kernel
  have ⟨index, hyields, hexact, _⟩ := yieldsIndex_isExact_iff h
  ⟨h, index, hyields, hexact (plainReferences_returningSnapshot (by decide +kernel) h)⟩

/-- The endpoint returns the component `a~1b`, which the planner looks for under `a/b`. -/
theorem not_isExact_tilde : (returningSnapshot "a~1b").Accepted .ascii ∧
    ∃ index, YieldsIndex (returningSnapshot "a~1b") index ∧
      ¬ index.IsExact (returningSnapshot "a~1b") := by
  have h : (returningSnapshot "a~1b").Accepted .ascii := by decide +kernel
  obtain ⟨index, hyields, hindex⟩ := exists_describes h
  refine ⟨h, index, hyields, fun hexact => ?_⟩
  have hplain : PlainDependencies (returningSnapshot "a~1b") :=
    fun dependency hmem => absurd hmem not_mem_nil
  have hleads : LeadsTo (returningSnapshot "a~1b") "ep" "a~1b" :=
    .inl ⟨_, mem_singleton_self _, rfl, _, mem_singleton_self _, _, "#/schemas/a~1b",
      .root _, by decide +kernel, by decide +kernel⟩
  exact plainReferences_of_isExact h hindex hplain hexact "ep" "a~1b" hleads (by decide +kernel)

end ApiTruth.Updates
