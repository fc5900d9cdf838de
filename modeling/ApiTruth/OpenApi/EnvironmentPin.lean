import ApiTruth.Environment.Views
import ApiTruth.Ir.Validation

/-!
# The pin of an environment publication

A publication for an environment is pinned to the snapshot, the checkpoint version and the
configuration it was prepared for.  `checkEnvironmentPin` checks the pin against the rows that
`getEnvironment` reads, inside the transaction that moves the publication pointer.

## Main definitions

* `EnvironmentSelector` : what a publication is pinned to.
* `checkEnvironmentPin` : the check; a match returns the scopes the publication rests on.

## Main results

* `checkEnvironmentPin_eq_ok_iff` : the pin matches exactly when its snapshot is served.
* `environmentPin_agrees_with_view` : the pin matches exactly when the view reports it.
-/

namespace ApiTruth.OpenApi

open Catalog Checked Environment Ir List Option

/-- The selector of a publication for an environment. -/
structure EnvironmentSelector where
  repositoryId : String
  serviceId : String
  snapshotId : String
  revision : String
  configFingerprint : String
  environment : String
  checkpointVersion : String
  resolvedSnapshotIds : List String
deriving DecidableEq, Repr

/-- The environment that a selector names. -/
def EnvironmentSelector.key (selector : EnvironmentSelector) : EnvironmentKey :=
  ⟨selector.repositoryId, selector.serviceId, selector.environment⟩

inductive PinRefusal
  | stale
  | denied
  | corrupt
deriving DecidableEq, Repr

def singleItem : Option Json → Option Json
  | some (.arr [item]) => some item
  | _ => none

/-- The revision of a reference whose state is known. -/
def knownRevision (reference : List (String × Json)) : Option String :=
  if reference.lookup "state" = some (.str "known") then nonEmptyMember "revision" reference
  else none

section

variable (rows : TenantRows) (principalId : String)

/-- `hasScopes`: the two queries, sorted, return the sorted scopes. -/
def pinHasScopes (scopeIds : List String) : Bool :=
  let scopes := scopeIds.dedup.insertionSort (· ≤ ·)
  let activeScopes := (rows.accessScopes.select scopes AccessScope.active).map
    AccessScope.accessScopeId
  let grants := (rows.scopeGrants.select (scopes.map (principalId, ·)) ScopeGrant.active).map
    ScopeGrant.accessScopeId
  activeScopes.insertionSort (· ≤ ·) == scopes && grants.insertionSort (· ≤ ·) == scopes

/-- The authorized candidates; one that lacks scopes is skipped unless it is the pinned one. -/
def authorizedCandidates (snapshotId : String) :
    List SnapshotRow → Except PinRefusal (List String)
  | [] => .ok []
  | candidate :: rest => do
    require (candidate.requiredScopeIds ≠ []) .corrupt
    require (pinHasScopes rows principalId candidate.requiredScopeIds = true ∨
      candidate.snapshotId ≠ snapshotId) .denied
    let authorized ← authorizedCandidates snapshotId rest
    return if pinHasScopes rows principalId candidate.requiredScopeIds
      then candidate.snapshotId :: authorized else authorized

/-- The candidates of a selector, in the order of their ids. -/
def pinCandidates (selector : EnvironmentSelector) : List SnapshotRow :=
  (rows.snapshots.rows.filter
    (TenantRows.isCandidate selector.key selector.configFingerprint selector.revision)).insertionSort
      (·.snapshotId ≤ ·.snapshotId)

def checkEnvironmentPin (hash : InstallationConfig → String) (selector : EnvironmentSelector) :
    Except PinRefusal (List String) := do
  let configuration ← orRaise rows.activeConfiguration .stale
  let document ← orRaise (configuration.read hash) .corrupt
  require (configuration.configFingerprint = selector.configFingerprint) .stale
  let (repository, environment) ← orRaise (document.findEnvironment selector.key) .denied
  require (pinHasScopes rows principalId
    [repository.accessScopeId, environment.deploymentAuthority] = true) .denied
  let state ← orRaise (rows.checkpoints.find? selector.key) .stale
  require (toString state.version = selector.checkpointVersion ∧
    state.reconciliationRequired = false) .stale
  let id ← orRaise state.current .stale
  require (id.producerId ≠ "" ∧ id.eventId ≠ "") .stale
  let observation ← orRaise (rows.currentObservation state) .corrupt
  require (observation.activeConfigFingerprint = configuration.configFingerprint) .stale
  require (pinHasScopes rows principalId [observation.sourceAccessLabel] = true) .denied
  require (observation.completeness = .complete ∧ observation.servingKnown = true) .stale
  let item ← orRaise (singleItem observation.inventory) .stale
  let (artifactId, reference) ← orRaise (readArtifact item) .corrupt
  let revision ← orRaise (knownRevision reference) .stale
  require (revision = selector.revision) .stale
  require ((rows.artifactBindings.find? (selector.repositoryId, selector.serviceId,
    artifactId)).map ArtifactBindingRow.revision = some selector.revision) .stale
  let authorized ← authorizedCandidates rows principalId selector.snapshotId
    (pinCandidates rows selector)
  require (authorized = [selector.snapshotId] ∧
    selector.resolvedSnapshotIds = [selector.snapshotId]) .stale
  return [repository.accessScopeId, environment.deploymentAuthority,
    observation.sourceAccessLabel].dedup.insertionSort (· ≤ ·)

end

/-! ### What the check reads -/

variable {rows : TenantRows} {principalId : String}

variable {scopeIds : List String} {parses : ContractSnapshot → Bool}

theorem pinHasScopes_iff :
    pinHasScopes rows principalId scopeIds = true ↔
      ∀ scopeId ∈ scopeIds, rows.Holds principalId scopeId := by
  have hperm := perm_insertionSort (· ≤ ·) scopeIds.dedup
  have hnodup := hperm.nodup_iff.mpr scopeIds.nodup_dedup
  have hsorted : (scopeIds.dedup.insertionSort (· ≤ ·)).Pairwise (· ≤ ·) :=
    pairwise_insertionSort _ _
  have hmem (scopeId : String) : scopeId ∈ scopeIds.dedup.insertionSort (· ≤ ·) ↔
      scopeId ∈ scopeIds := hperm.mem_iff.trans mem_dedup
  have hactive := rows.accessScopes.sort_column_eq_iff AccessScope.accessScopeId
    Function.injective_id hnodup hsorted fun row (_ : row ∈ rows.accessScopes.select _
      AccessScope.active) => rfl
  have hgrants := rows.scopeGrants.sort_column_eq_iff ScopeGrant.accessScopeId
    (Prod.mk_right_injective principalId) hnodup hsorted
    fun row (hrow : row ∈ rows.scopeGrants.select _ ScopeGrant.active) => by
      obtain ⟨-, hkey, -⟩ := rows.scopeGrants.mem_select.mp hrow
      obtain ⟨scopeId, -, hscope⟩ := List.mem_map.mp hkey
      exact congrArg (·.1, row.accessScopeId) hscope
  rw [List.map_id] at hactive
  simp only [pinHasScopes, Bool.and_eq_true, beq_iff_eq]
  rw [hactive, hgrants]
  simp only [hmem, id_eq]
  exact forall₂_and.symm

theorem knownRevision_eq_some_iff {reference : List (String × Json)} {revision : String} :
    knownRevision reference = some revision ↔ readRevision reference = some (.known revision) := by
  unfold knownRevision readRevision
  by_cases hstate : reference.lookup "state" = some (.str "known")
  · rw [if_pos hstate, hstate]
    cases nonEmptyMember "revision" reference <;> simp
  · rw [if_neg hstate]
    split
    · next hknown _ => exact absurd hknown hstate
    · simp
    · simp

theorem singleItem_eq_some_iff {inventory : Option Json} {item : Json} :
    singleItem inventory = some item ↔ inventory = some (.arr [item]) := by
  unfold singleItem
  split
  · simp
  · next hnot =>
    simp only [reduceCtorEq, false_iff]
    exact hnot item

theorem readItem_eq_known_iff {item : Json} {artifactId revision : String} :
    readItem item = some ⟨artifactId, .known revision⟩ ↔
      ∃ reference, readArtifact item = some (artifactId, reference) ∧
        knownRevision reference = some revision := by
  unfold readItem
  cases readArtifact item with
  | none => simp
  | some found =>
    obtain ⟨artifact, reference⟩ := found
    simp only [knownRevision_eq_some_iff, Option.some.injEq, Prod.mk.injEq]
    cases hread : readRevision reference <;> simp [hread, eq_comm]

/-- The loop over the candidates returns those the principal may see, unless a candidate has no
scopes or the pinned one may not be seen. -/
theorem authorizedCandidates_eq_ok_iff {snapshotId : String} {candidates : List SnapshotRow}
    {authorized : List String} :
    authorizedCandidates rows principalId snapshotId candidates = .ok authorized ↔
      (∀ candidate ∈ candidates, candidate.requiredScopeIds ≠ [] ∧
        (pinHasScopes rows principalId candidate.requiredScopeIds = true ∨
          candidate.snapshotId ≠ snapshotId)) ∧
      (candidates.filter fun candidate =>
        pinHasScopes rows principalId candidate.requiredScopeIds).map SnapshotRow.snapshotId =
          authorized := by
  induction candidates generalizing authorized with
  | nil => simp only [authorizedCandidates, Except.ok.injEq, not_mem_nil, false_imp_iff,
      implies_true, true_and, filter_nil, map_nil]
  | cons candidate rest ih =>
    have hids : (if pinHasScopes rows principalId candidate.requiredScopeIds = true then
          candidate.snapshotId :: (rest.filter fun candidate =>
            pinHasScopes rows principalId candidate.requiredScopeIds).map SnapshotRow.snapshotId
        else (rest.filter fun candidate =>
          pinHasScopes rows principalId candidate.requiredScopeIds).map SnapshotRow.snapshotId) =
        ((candidate :: rest).filter fun candidate =>
          pinHasScopes rows principalId candidate.requiredScopeIds).map SnapshotRow.snapshotId := by
      rw [filter_cons]
      split_ifs <;> rfl
    rw [authorizedCandidates, require_bind_eq_ok, require_bind_eq_ok, bind_eq_ok]
    simp only [ih, pure_eq_ok, forall_mem_cons]
    constructor
    · rintro ⟨hnonempty, hpinned, _, ⟨hrest, rfl⟩, rfl⟩
      exact ⟨⟨⟨hnonempty, hpinned⟩, hrest⟩, hids.symm⟩
    · rintro ⟨⟨⟨hnonempty, hpinned⟩, hrest⟩, rfl⟩
      exact ⟨hnonempty, hpinned, _, ⟨hrest, rfl⟩, hids⟩

/-- One candidate is authorized and it is the pinned one exactly when the pinned snapshot is the
one the principal may see. -/
theorem authorizedCandidates_eq_single_iff
    (hintact : rows.SnapshotsIntact parses) {selector : EnvironmentSelector} :
    authorizedCandidates rows principalId selector.snapshotId (pinCandidates rows selector) =
        .ok [selector.snapshotId] ↔
      ∃ snapshot, rows.revisionSnapshots principalId selector.key selector.configFingerprint
        [selector.revision] = [snapshot] ∧ snapshot.snapshotId = selector.snapshotId := by
  have hperm := perm_insertionSort (fun a b : SnapshotRow => a.snapshotId ≤ b.snapshotId)
    (rows.snapshots.rows.filter
      (TenantRows.isCandidate selector.key selector.configFingerprint selector.revision))
  -- the loop keeps exactly the snapshots that the view selects
  have hkept : ((pinCandidates rows selector).filter fun candidate =>
      pinHasScopes rows principalId candidate.requiredScopeIds).Perm
        (rows.revisionSnapshots principalId selector.key selector.configFingerprint
          [selector.revision]) := by
    refine (hperm.filter _).trans (List.Perm.of_eq ?_)
    rw [List.filter_filter, TenantRows.revisionSnapshots]
    refine filter_congr fun row hrow => ?_
    rw [Bool.eq_iff_iff]
    have hnonempty := (hintact row hrow).2
    simp [pinHasScopes_iff, TenantRows.holdsRequired_iff, hnonempty, and_comm]
  have hcandidate (row : SnapshotRow) : row ∈ pinCandidates rows selector →
      row ∈ rows.snapshots.rows := fun hrow =>
    mem_of_mem_filter (hperm.mem_iff.mp hrow)
  rw [authorizedCandidates_eq_ok_iff, map_eq_singleton_iff]
  constructor
  · rintro ⟨-, snapshot, hsingle, hid⟩
    exact ⟨snapshot, List.perm_singleton.mp (hsingle ▸ hkept.symm), hid⟩
  · rintro ⟨snapshot, hsingle, hid⟩
    have hfiltered := List.perm_singleton.mp (hsingle ▸ hkept)
    refine ⟨fun row hrow => ⟨(hintact row (hcandidate row hrow)).2, ?_⟩, snapshot, hfiltered, hid⟩
    by_cases hpinned : row.snapshotId = selector.snapshotId
    · left
      have hmem : snapshot ∈ (pinCandidates rows selector).filter fun candidate =>
          pinHasScopes rows principalId candidate.requiredScopeIds := by
        rw [hfiltered]
        exact mem_singleton_self snapshot
      obtain ⟨hsnapshot, hscopes⟩ := List.mem_filter.mp hmem
      rw [rows.snapshots.eq_of_key_eq (hcandidate row hrow) (hcandidate snapshot hsnapshot)
        (hpinned.trans hid.symm)]
      exact hscopes
    · exact .inr hpinned

/-! ### A match is what is served -/

/-- The selector pins what is served, and asserts the pinned snapshot as the only one. -/
structure EnvironmentSelector.Pins (selector : EnvironmentSelector)
    (served : TenantRows.Served) : Prop where
  revision : served.revision = selector.revision
  snapshotId : served.snapshot.snapshotId = selector.snapshotId
  checkpointVersion : toString served.state.version = selector.checkpointVersion
  configFingerprint : served.configuration.configFingerprint = selector.configFingerprint
  asserted : selector.resolvedSnapshotIds = [selector.snapshotId]

def pinnedScopes (served : TenantRows.Served) : List String :=
  [served.repository.accessScopeId, served.environment.deploymentAuthority,
    served.observation.sourceAccessLabel].dedup.insertionSort (· ≤ ·)

variable {hash : InstallationConfig → String} {selector : EnvironmentSelector}

/-- The pin matches exactly when the environment serves what the selector pins. -/
theorem checkEnvironmentPin_eq_ok_iff (hintact : rows.SnapshotsIntact parses) :
    checkEnvironmentPin rows principalId hash selector = .ok scopeIds ↔
      ∃ served, rows.Serves hash principalId selector.key served ∧ selector.Pins served ∧
        pinnedScopes served = scopeIds := by
  simp only [checkEnvironmentPin, require_bind_eq_ok, orRaise_bind_eq_ok]
  constructor
  · rintro ⟨configuration, hconfiguration, document, hdocument, hfingerprint,
      ⟨repository, environment⟩, hfound, hscopes, state, hstate, ⟨hversion, hsettled⟩, id, hid,
      -, observation, hobserved, hcurrent, hlabel, ⟨hcomplete, hknown⟩, item, hitem,
      ⟨artifactId, reference⟩, hartifact, revision, hrevision, hsame, hbound, h⟩
    obtain ⟨authorized, hauthorized, hrest⟩ := bind_eq_ok.mp h
    obtain ⟨⟨rfl, hasserted⟩, hscopeIds⟩ := require_bind_eq_ok.mp hrest
    cases hscopeIds
    obtain ⟨snapshot, hvisible, hsnapshot⟩ :=
      (authorizedCandidates_eq_single_iff hintact).mp hauthorized
    subst hsame
    refine ⟨⟨configuration, repository, environment, state, observation, artifactId,
      selector.revision, snapshot⟩, ?_, ⟨rfl, hsnapshot, hversion, hfingerprint, hasserted⟩, rfl⟩
    exact {
      configuration := hconfiguration
      configured := bind_eq_some_iff.mpr ⟨document, hdocument, hfound⟩
      scopes := by
        have hconfigured := pinHasScopes_iff.mp hscopes
        have hsource := pinHasScopes_iff.mp hlabel
        simp only [forall_mem_cons] at hconfigured hsource ⊢
        exact ⟨hconfigured.1, hconfigured.2.1, hsource⟩
      state := hstate
      settled := hsettled
      observed := hobserved
      current := hcurrent
      complete := hcomplete
      known := hknown
      inventory := ⟨item, singleItem_eq_some_iff.mp hitem,
        readItem_eq_known_iff.mpr ⟨reference, hartifact, hrevision⟩⟩
      bound := hbound
      visible := by rw [hfingerprint]; exact hvisible }
  · rintro ⟨served, h, hpins, rfl⟩
    obtain ⟨document, hdocument, hfound⟩ := bind_eq_some_iff.mp h.configured
    obtain ⟨item, hitem, hread⟩ := h.inventory
    obtain ⟨reference, hartifact, hrevision⟩ := readItem_eq_known_iff.mp hread
    obtain ⟨id, hid, hobservation⟩ : ∃ id, served.state.current = some id ∧
        rows.observations.find? id = some served.observation := by
      have hobserved := (filter_eq_some_iff.mp h.observed).1
      exact bind_eq_some_iff.mp hobserved
    have hname : id.producerId ≠ "" ∧ id.eventId ≠ "" := by
      have hkey := (rows.observations.find?_eq_some_iff.mp hobservation).2
      exact hkey ▸ served.observation.named
    have hscopes := h.scopes
    simp only [forall_mem_cons] at hscopes
    refine ⟨_, h.configuration, document, hdocument, hpins.configFingerprint, _, hfound,
      pinHasScopes_iff.mpr (by simpa using ⟨hscopes.1, hscopes.2.1⟩), _, h.state,
      ⟨hpins.checkpointVersion, h.settled⟩, id, hid, hname, _, h.observed, h.current,
      pinHasScopes_iff.mpr (by simpa using hscopes.2.2.1), ⟨h.complete, h.known⟩, item,
      singleItem_eq_some_iff.mpr hitem, _, hartifact, _, hrevision, hpins.revision,
      by rw [← hpins.revision]; exact h.bound, ?_⟩
    have hvisible := h.visible
    rw [hpins.revision, hpins.configFingerprint] at hvisible
    have hauthorized := (authorizedCandidates_eq_single_iff hintact).mpr
      ⟨served.snapshot, hvisible, hpins.snapshotId⟩
    exact bind_eq_ok.mpr ⟨_, hauthorized, require_bind_eq_ok.mpr ⟨⟨rfl, hpins.asserted⟩, rfl⟩⟩

/-- For identifiers that the view accepts, the pin of a selector matches exactly when the view
reports its snapshot, checkpoint version and configuration as deployed and resolved, with the
revision of the selector as the deployed one. -/
theorem environmentPin_agrees_with_view (hash : InstallationConfig → String)
    (principal : Principal) (selector : EnvironmentSelector) {parses : ContractSnapshot → Bool}
    (hintact : rows.SnapshotsIntact parses)
    (hprincipal : principal.isValid = true) (hkey : selector.key.isValid = true) :
    ((checkEnvironmentPin rows principal.principalId hash selector).isOk = true ↔
      selector.resolvedSnapshotIds = [selector.snapshotId] ∧
        ∃ view, rows.getEnvironment hash parses principal selector.key = .ok view ∧
          view.Reports selector.snapshotId selector.checkpointVersion selector.configFingerprint ∧
          view.active.map ActiveArtifact.revision = [some selector.revision]) ∧
    ((∃ revision asserted, (checkEnvironmentPin rows principal.principalId hash
        { selector with revision, resolvedSnapshotIds := asserted }).isOk = true) ↔
      ∃ view, rows.getEnvironment hash parses principal selector.key = .ok view ∧
        view.Reports selector.snapshotId selector.checkpointVersion
          selector.configFingerprint) := by
  have hagree (selector : EnvironmentSelector) (hkey : selector.key.isValid = true) :
      (checkEnvironmentPin rows principal.principalId hash selector).isOk = true ↔
        selector.resolvedSnapshotIds = [selector.snapshotId] ∧
          ∃ view, rows.getEnvironment hash parses principal selector.key = .ok view ∧
            view.Reports selector.snapshotId selector.checkpointVersion
              selector.configFingerprint ∧
            view.active.map ActiveArtifact.revision = [some selector.revision] := by
    rw [isOk_iff]
    simp only [checkEnvironmentPin_eq_ok_iff hintact]
    constructor
    · rintro ⟨_, served, hserves, hpins, -⟩
      obtain ⟨view, hview, hreports, hrevision⟩ :=
        TenantRows.getEnvironment_of_serves hintact hprincipal hkey hserves
      rw [hpins.snapshotId, hpins.checkpointVersion, hpins.configFingerprint] at hreports
      rw [hpins.revision] at hrevision
      exact ⟨hpins.asserted, view, hview, hreports, hrevision⟩
    · rintro ⟨hasserted, view, hview, hreports, hrevision⟩
      obtain ⟨-, -, served, hserves, hid, hversion, hfingerprint, hserved⟩ :=
        TenantRows.serves_of_reports hview hreports
      rw [hserved] at hrevision
      have hsame : served.revision = selector.revision := by simpa using hrevision
      exact ⟨_, served, hserves, ⟨hsame, hid, hversion, hfingerprint, hasserted⟩, rfl⟩
  refine ⟨hagree selector hkey, ?_⟩
  constructor
  · rintro ⟨revision, asserted, hmatch⟩
    obtain ⟨-, view, hview, hreports, -⟩ :=
      (hagree { selector with revision, resolvedSnapshotIds := asserted } hkey).mp hmatch
    exact ⟨view, hview, hreports⟩
  · rintro ⟨view, hview, hreports⟩
    obtain ⟨-, -, served, -, -, -, -, hserved⟩ := TenantRows.serves_of_reports hview hreports
    refine ⟨served.revision, [selector.snapshotId], ?_⟩
    rw [hagree { selector with
      revision := served.revision, resolvedSnapshotIds := [selector.snapshotId] } hkey]
    exact ⟨rfl, view, hview, hreports, hserved⟩

def sampleRow : SnapshotRow := Store.snapshotRow ⟨sampleSnapshot, ["team"], .success⟩

/-- A tenant whose environment `prod` serves the sample snapshot to the given principal. -/
def servingRows (principalId : String) : TenantRows where
  activeConfiguration := some
    { configFingerprint := "cfg"
      documentSha256 := "sha256:config"
      document :=
        { accessScopes := ["team"]
          repositories := [
            { repositoryId := "repo"
              accessScopeId := "team"
              services := [
                { serviceId := "svc"
                  environments := [{ name := "prod", deploymentAuthority := "team" }] }] }] } }
  accessScopes := .singleton ⟨"team", true⟩
  scopeGrants := .singleton ⟨principalId, "team", true⟩
  checkpoints := .singleton
    ⟨⟨"repo", "svc", "prod"⟩, 3, false, some ⟨"deploy", "observation-1"⟩⟩
  observations := .singleton
    { id := ⟨"deploy", "observation-1"⟩
      key := ⟨"repo", "svc", "prod"⟩
      activeConfigFingerprint := "cfg"
      sourceAccessLabel := "team"
      completeness := .complete
      servingKnown := true
      inventory := some (.arr [.obj [("artifact_id", .str "image-1"),
        ("revision", .obj [("state", .str "known"), ("revision", .str "0123456789ab")])]])
      named := by decide }
  artifactBindings := .singleton ⟨"repo", "svc", "image-1", "0123456789ab"⟩
  snapshots := .singleton sampleRow
  deploymentAttempts := []

def sampleSelector : EnvironmentSelector where
  repositoryId := "repo"
  serviceId := "svc"
  snapshotId := "snap"
  revision := "0123456789ab"
  configFingerprint := "cfg"
  environment := "prod"
  checkpointVersion := "3"
  resolvedSnapshotIds := ["snap"]

theorem servingRows_intact (principalId : String) :
    (servingRows principalId).SnapshotsIntact fun snapshot => decide (snapshot.Accepted .ascii) := by
  intro row hrow
  obtain rfl := List.mem_singleton.mp hrow
  exact ⟨by decide +kernel, by decide⟩

def sampleHash (_ : InstallationConfig) : String := "sha256:config"

/-- A principal whose id has a control character holds all scopes: the pin matches, but the view
refuses the principal. -/
theorem environmentPin_matches_refused_view :
    (servingRows "deploy\tbot").SnapshotsIntact (fun snapshot => decide (snapshot.Accepted .ascii)) ∧
      (checkEnvironmentPin (servingRows "deploy\tbot") "deploy\tbot" sampleHash
        sampleSelector).isOk = true ∧
      ¬ ∃ view, (servingRows "deploy\tbot").getEnvironment sampleHash
        (fun snapshot => decide (snapshot.Accepted .ascii)) ⟨"acme", "deploy\tbot"⟩
        sampleSelector.key = .ok view := by
  refine ⟨servingRows_intact _, by decide +kernel, ?_⟩
  rintro ⟨view, hview⟩
  simp only [TenantRows.getEnvironment, require_bind_eq_ok] at hview
  exact absurd hview.1 (by decide +kernel)

theorem environmentPin_agrees_with_view_reader :
    (checkEnvironmentPin (servingRows "reader") "reader" sampleHash sampleSelector).isOk = true ∧
      ∃ view, (servingRows "reader").getEnvironment sampleHash
          (fun snapshot => decide (snapshot.Accepted .ascii)) ⟨"acme", "reader"⟩
          sampleSelector.key = .ok view ∧
        view.Reports "snap" "3" "cfg" := by
  have hmatch : (checkEnvironmentPin (servingRows "reader") "reader" sampleHash
      sampleSelector).isOk = true := by decide +kernel
  have hagree := environmentPin_agrees_with_view sampleHash ⟨"acme", "reader"⟩ sampleSelector
    (servingRows_intact "reader") (by decide +kernel) (by decide +kernel)
  obtain ⟨-, view, hview, hreports, -⟩ := hagree.1.mp hmatch
  exact ⟨hmatch, view, hview, hreports⟩

end ApiTruth.OpenApi
