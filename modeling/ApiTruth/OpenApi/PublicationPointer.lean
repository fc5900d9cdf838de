import ApiTruth.Foundation.Runs
import ApiTruth.OpenApi.Publication

/-!
# The publication pointer

Publications of one key are linearised by its current pointer: every change is one successful
publication against the version it expected, under the next version.  What is read back is pinned
to the versions that are current at the time of the read, whatever happened to the branch or the
environment since it was published.

## Main definitions

* `PublicationDb.Step` : a publication, a promotion of a branch, or any transaction on the rows of
  the environments, the configuration, the snapshots and the branch checkpoints.
* `PublicationDb.PinIsCurrent` : the versions that a selector is pinned to are the current ones.

## Main results

* `PublicationDb.publish_succeeds` : a checked preparation is published.
* `PublicationDb.publish_again` : publishing twice is publishing once.
* `PublicationDb.publish_of_readCurrent` : publishing what is read changes nothing.
* `PublicationDb.readCurrent_sound` : what is read is pinned to current versions.
* `PublicationDb.publication_pointer_linearised`.
-/

namespace ApiTruth.OpenApi

open Catalog Checked Environment Ir TransitionSystem Option Bool Function

/-- A transaction of one of the processes that share the rows. -/
inductive PublicationAction
  | publish (context : Principal) (prepared : Preparation) (expected : ExpectedPublicationPointer)
  | promoteBranch (input : PromoteBranchInput)
  | environment (rows : TenantRows)
  | branchCheckpoint (key : BranchKey) (row : Option BranchCheckpointRow)

namespace PublicationDb

/-- The rows as the catalog sees them. -/
def store (db : PublicationDb) : Store where
  activeScope scopeId := decide (db.rows.accessScopes.Has scopeId AccessScope.active)
  snapshots := db.rows.snapshots.find?
  pointers := db.branchPointers

/-- The rows after a transaction; one that raises changes nothing. -/
def perform (tools : Toolchain) (db : PublicationDb) : PublicationAction → PublicationDb
  | .publish context prepared expected =>
    match db.publish tools context prepared expected with
    | .ok (next, _) => next
    | .error _ => db
  | .promoteBranch input =>
    match db.store.promoteBranch input with
    | .ok (store, _) => { db with branchPointers := store.pointers }
    | .error _ => db
  | .environment rows => { db with rows }
  | .branchCheckpoint key row =>
    { db with branchCheckpoints := Function.update db.branchCheckpoints key row }

def Step (tools : Toolchain) (db : PublicationDb) (action : PublicationAction)
    (next : PublicationDb) : Prop :=
  next = db.perform tools action

/-- The number of transactions of a run that change the current pointer of a key. -/
def changes (tools : Toolchain) (key : PublicationKey) :
    PublicationDb → List PublicationAction → ℕ
  | _, [] => 0
  | db, action :: rest =>
    let next := db.perform tools action
    (if next.currentPointers key = db.currentPointers key then 0 else 1) + changes tools key next rest

/-- The versions that a selector is pinned to are the current ones. -/
def PinIsCurrent (db : PublicationDb) : PublicationSelector → Prop
  | .revision _ => True
  | .branch base name pointerVersion =>
    ∃ pointer, db.branchPointers ⟨base.repositoryId, base.serviceId, name⟩ = some pointer ∧
      pointer.snapshotId = base.snapshotId ∧ toString pointer.pointerVersion = pointerVersion
  | .environment selector =>
    ∃ state, db.rows.checkpoints.find? selector.key = some state ∧
      toString state.version = selector.checkpointVersion ∧ state.reconciliationRequired = false ∧
      ∃ configuration, db.rows.activeConfiguration = some configuration ∧
        configuration.configFingerprint = selector.configFingerprint

/-! ### What publishing writes -/

/-- The rows that pins and snapshots are checked against are the same. -/
structure SamePins (db next : PublicationDb) : Prop where
  rows : next.rows = db.rows
  branchPointers : next.branchPointers = db.branchPointers
  branchCheckpoints : next.branchCheckpoints = db.branchCheckpoints

variable {tools : Toolchain} {db next : PublicationDb}

theorem SamePins.checkedManifest (h : SamePins db next) (context : Principal)
    (prepared : Preparation) (expected : ExpectedPublicationPointer) :
    next.checkedManifest tools context prepared expected =
      db.checkedManifest tools context prepared expected := by
  obtain ⟨rows, branchPointers, branchCheckpoints⟩ := h
  obtain ⟨_, _, _, _, _, _⟩ := next
  subst rows branchPointers branchCheckpoints
  rfl

/-- What a successful promotion of a publication leaves: the pins alone, the artifact stored, and
the pointer at the publication, either untouched or moved once from the expected version. -/
structure Promoted (db next : PublicationDb) (manifest : Manifest)
    (expected : ExpectedPublicationPointer) (published : PublishedOpenApi) : Prop where
  pins : SamePins db next
  artifact : next.artifacts manifest.row.contentSha256 = some manifest.bytes
  pointer : next.currentPointers manifest.row.key =
    some ⟨manifest.publicationId, published.pointerVersion⟩
  document : published = manifest.published published.pointerVersion
  others : ∀ key, key ≠ manifest.row.key → next.currentPointers key = db.currentPointers key
  once : next = db ∨ expected.agrees (db.currentPointers manifest.row.key) = true ∧
    published.pointerVersion = db.pointerVersion manifest.row.key + 1

theorem insertArtifact_pins (contentSha256 : String) (bytes : List UInt8) :
    SamePins db (db.insertArtifact contentSha256 bytes) ∧
      (db.insertArtifact contentSha256 bytes).currentPointers = db.currentPointers := by
  unfold insertArtifact
  split <;> exact ⟨⟨rfl, rfl, rfl⟩, rfl⟩

theorem insertPublication_frame (publicationId : String) (row : PublicationRow) :
    SamePins db (db.insertPublication publicationId row) ∧
      (db.insertPublication publicationId row).currentPointers = db.currentPointers ∧
      (db.insertPublication publicationId row).artifacts = db.artifacts := by
  unfold insertPublication
  split <;> exact ⟨⟨rfl, rfl, rfl⟩, rfl, rfl⟩

theorem setPointer_self (key : PublicationKey) (publicationId : String) :
    (db.setPointer key publicationId).currentPointers key =
      some ⟨publicationId, db.pointerVersion key + 1⟩ :=
  update_self ..

theorem setPointer_of_ne {key other : PublicationKey} (hother : other ≠ key)
    (publicationId : String) :
    (db.setPointer key publicationId).currentPointers other = db.currentPointers other :=
  update_of_ne hother ..

variable {expected : ExpectedPublicationPointer} {published : PublishedOpenApi}
  {prepared : Preparation} {context : Principal} {selector : PublicationSelector}
  {key : PublicationKey}

variable {manifest : Manifest} {scopeIds : Option (List String)} {read : ValidatedOpenApiRead}

theorem promotePublication_eq_ok
    (h : db.promotePublication manifest expected = .ok (next, published)) :
    Promoted db next manifest expected published := by
  obtain ⟨id, bytes, row⟩ := manifest
  by_cases hcurrent : (db.currentPointers row.key).any (·.publicationId == id) = true
  · simp only [promotePublication, hcurrent, ↓reduceIte, require_bind_eq_ok, pure_eq_ok,
      Prod.mk.injEq] at h
    obtain ⟨hartifact, rfl, rfl⟩ := h
    obtain ⟨pointer, hpointer, hid⟩ := (Option.any_eq_true ..).mp hcurrent
    refine ⟨⟨rfl, rfl, rfl⟩, hartifact, ?_, rfl, fun _ _ => rfl, .inl rfl⟩
    rw [hpointer, ← beq_iff_eq.mp hid]
    simp [Manifest.published, pointerVersion, hpointer]
  · simp only [promotePublication, hcurrent, false_eq_true, ↓reduceIte, require_bind_eq_ok,
      pure_eq_ok, Prod.mk.injEq] at h
    obtain ⟨hagrees, hartifact, rfl, rfl⟩ := h
    obtain ⟨hpins, hpointers⟩ := db.insertArtifact_pins row.contentSha256 bytes
    obtain ⟨hpins', hpointers', hartifacts⟩ :=
      (db.insertArtifact row.contentSha256 bytes).insertPublication_frame id row
    have hversion : (((db.insertArtifact row.contentSha256 bytes).insertPublication id
        row).pointerVersion row.key) = db.pointerVersion row.key := by
      rw [pointerVersion, hpointers', hpointers, pointerVersion]
    refine ⟨⟨hpins'.rows.trans hpins.rows, hpins'.branchPointers.trans hpins.branchPointers,
      hpins'.branchCheckpoints.trans hpins.branchCheckpoints⟩, ?_, ?_, rfl, fun key hkey => ?_,
      .inr ⟨hagrees, rfl⟩⟩
    · exact (congrFun hartifacts _).trans hartifact
    · rw [setPointer_self, hversion]
      rfl
    · rw [setPointer_of_ne hkey, hpointers', hpointers]

theorem promotePublication_current (manifest : Manifest) {pointerVersion : ℕ}
    (hpointer : db.currentPointers manifest.row.key =
      some ⟨manifest.publicationId, pointerVersion⟩)
    (hartifact : db.artifacts manifest.row.contentSha256 = some manifest.bytes)
    (expected : ExpectedPublicationPointer) :
    db.promotePublication manifest expected = .ok (db, manifest.published pointerVersion) := by
  obtain ⟨id, bytes, row⟩ := manifest
  have hcurrent : (db.currentPointers row.key).any (·.publicationId == id) = true := by
    simp [hpointer]
  have hversion : db.pointerVersion row.key = pointerVersion := by
    simp [PublicationDb.pointerVersion, hpointer]
  simp only [promotePublication, hcurrent, ↓reduceIte, require_bind_eq_ok, pure_eq_ok]
  exact ⟨hartifact, by rw [hversion]⟩

/-- A publication that the pointer does not name yet moves the expected pointer, unless other bytes
are stored under its digest. -/
theorem promotePublication_of_agrees (manifest : Manifest)
    (hnew : ∀ pointer, db.currentPointers manifest.row.key = some pointer →
      pointer.publicationId ≠ manifest.publicationId)
    (hagrees : expected.agrees (db.currentPointers manifest.row.key) = true)
    (hartifact : ∀ stored, db.artifacts manifest.row.contentSha256 = some stored →
      stored = manifest.bytes) :
    ∃ next, db.promotePublication manifest expected =
      .ok (next, manifest.published (db.pointerVersion manifest.row.key + 1)) := by
  obtain ⟨id, bytes, row⟩ := manifest
  have hcurrent : (db.currentPointers row.key).any (·.publicationId == id) = false := by
    cases hpointer : db.currentPointers row.key with
    | none => rfl
    | some pointer => simpa using hnew pointer hpointer
  have hstored : (db.insertArtifact row.contentSha256 bytes).artifacts row.contentSha256 =
      some bytes := by
    unfold insertArtifact
    split
    · next stored hfound => rw [hfound, hartifact stored hfound]
    · exact update_self ..
  simp only [promotePublication, hcurrent, false_eq_true, ↓reduceIte, require_bind_eq_ok,
    pure_eq_ok]
  exact ⟨_, hagrees, hstored, rfl⟩

/-- A wrong expectation is refused, or meets the publication that is current already. -/
theorem promotePublication_of_not_agrees
    (hexpected : expected.agrees (db.currentPointers manifest.row.key) = false)
    (h : db.promotePublication manifest expected = .ok (next, published)) : next = db := by
  rcases (promotePublication_eq_ok h).once with hsame | ⟨hagrees, -⟩
  · exact hsame
  · rw [hexpected] at hagrees
    exact absurd hagrees false_ne_true

/-! ### One publication -/

/-- A preparation that passes the checks of `publish` is of a pinned and authorized snapshot. -/
structure Checked (tools : Toolchain) (db : PublicationDb) (context : Principal)
    (prepared : Preparation) (manifest : Manifest) : Prop where
  key : manifest.row.key = prepared.provenance.selector.key
  pinned : ∃ scopeIds, db.checkPin tools context.principalId prepared.provenance.selector =
    .ok scopeIds

variable {expected expected' : ExpectedPublicationPointer}

variable (h : db.checkedManifest tools context prepared expected = .ok manifest)

include h in
theorem checkedManifest_expected (hexpected : expected'.isValid = true) :
    db.checkedManifest tools context prepared expected' = .ok manifest := by
  simp only [checkedManifest, require_bind_eq_ok, orRaise_bind_eq_ok] at h ⊢
  obtain ⟨hcontext, hprepared, contentSha256, hsha, bytes, hbytes, ⟨hkey, hversion, -, hdigest⟩,
    hrest⟩ := h
  exact ⟨hcontext, hprepared, contentSha256, hsha, bytes, hbytes,
    ⟨hkey, hversion, hexpected, hdigest⟩, hrest⟩

include h in
theorem checked_of_checkedManifest :
    Checked tools db context prepared manifest := by
  simp only [checkedManifest, require_bind_eq_ok, orRaise_bind_eq_ok] at h
  obtain ⟨-, -, contentSha256, -, bytes, -, -, h⟩ := h
  obtain ⟨scopeIds, hpin, h⟩ := bind_eq_ok.mp h
  obtain ⟨stored, -, h⟩ := bind_eq_ok.mp h
  obtain ⟨checked, -, h⟩ := orRaise_bind_eq_ok.mp h
  obtain ⟨⟨-, -, -, hprovenance⟩, h⟩ := require_bind_eq_ok.mp h
  obtain ⟨-, h⟩ := require_bind_eq_ok.mp h
  cases h
  exact ⟨congrArg (·.selector.key) hprovenance, scopeIds, hpin⟩

theorem publish_eq_ok_iff :
    db.publish tools context prepared expected = .ok (next, published) ↔
      ∃ manifest, db.checkedManifest tools context prepared expected = .ok manifest ∧
        db.promotePublication manifest expected = .ok (next, published) :=
  bind_eq_ok

/-- Publishing again what has just been published succeeds and changes nothing, whatever version
is expected. -/
theorem publish_again (h : db.publish tools context prepared expected = .ok (next, published))
    (hexpected : expected'.isValid = true) :
    next.publish tools context prepared expected' = .ok (next, published) := by
  obtain ⟨manifest, hchecked, hpromoted⟩ := publish_eq_ok_iff.mp h
  have hnext := promotePublication_eq_ok hpromoted
  have hagain := promotePublication_current manifest hnext.pointer hnext.artifact expected'
  rw [← hnext.document] at hagain
  refine publish_eq_ok_iff.mpr ⟨manifest, ?_, hagain⟩
  rw [hnext.pins.checkedManifest]
  exact checkedManifest_expected hchecked hexpected

/-! ### Reading -/

/-- A prepared document that is publishable was compiled strictly and without diagnostics. -/
theorem prepareOpenApiPublication_eq_some {snapshot : ContractSnapshot}
    (h : prepareOpenApiPublication tools snapshot .strict selector = some prepared)
    (hpublishable : prepared.publishable = true) :
    prepared.mode = .strict ∧ prepared.diagnostics = [] ∧
      prepared.provenance.selector = selector ∧
      prepared.contentSha256 = prepared.bytes.map tools.sha256 := by
  unfold prepareOpenApiPublication at h
  split_ifs at h
  obtain ⟨compiled, -, rfl⟩ := Option.map_eq_some_iff.mp h
  simp only [and_eq_true, List.isEmpty_iff] at hpublishable
  exact ⟨rfl, hpublishable.2, rfl, rfl⟩

variable {stored : SnapshotRow} {bytes : List UInt8} {row : PublicationRow} {principalId : String}

theorem checkedManifest_of_prepared (hcontext : context.tenantId ≠ "" ∧ context.principalId ≠ "")
    (hkey : selector.key.isValid = true) (hversion : selector.pinnedVersion.all isVersion = true)
    (hexpected : expected.isValid = true)
    (hpin : db.checkPin tools context.principalId selector = .ok scopeIds)
    (hstored : db.authorizedSnapshot tools.host context.principalId selector.base.snapshotId =
      .ok stored)
    (hprepared : prepareOpenApiPublication tools stored.document .strict selector = some prepared)
    (hpublishable : prepared.publishable = true) (hbytes : prepared.bytes = some bytes)
    (hvalidated : isValidated tools prepared = true) :
    db.checkedManifest tools context prepared expected = .ok
      ⟨publicationId tools context.tenantId prepared, bytes,
        publicationRow prepared (tools.sha256 bytes) scopeIds stored⟩ := by
  obtain ⟨hmode, hdiagnostics, hselector, hcontent⟩ :=
    prepareOpenApiPublication_eq_some hprepared hpublishable
  have hsha : prepared.contentSha256 = some (tools.sha256 bytes) := by rw [hcontent, hbytes]; rfl
  simp only [checkedManifest, require_bind_eq_ok, orRaise_bind_eq_ok]
  rw [hselector]
  refine ⟨hcontext, ⟨hmode, hpublishable, hdiagnostics⟩, _, hsha, _, hbytes,
    ⟨hkey, hversion, hexpected, rfl⟩, ?_⟩
  refine bind_eq_ok.mpr ⟨scopeIds, hpin, bind_eq_ok.mpr ⟨stored, hstored,
    orRaise_bind_eq_ok.mpr ⟨prepared, hprepared, ?_⟩⟩⟩
  exact require_bind_eq_ok.mpr ⟨⟨hpublishable, hsha, hbytes, rfl⟩,
    require_bind_eq_ok.mpr ⟨hvalidated, rfl⟩⟩

theorem publish_succeeds (context : Principal) (selector : PublicationSelector)
    (expected : ExpectedPublicationPointer)
    (hcontext : context.tenantId ≠ "" ∧ context.principalId ≠ "")
    (hkey : selector.key.isValid = true) (hversion : selector.pinnedVersion.all isVersion = true)
    (hexpected : expected.isValid = true)
    (hpin : db.checkPin tools context.principalId selector = .ok scopeIds)
    (hstored : db.authorizedSnapshot tools.host context.principalId selector.base.snapshotId =
      .ok stored)
    (hprepared : prepareOpenApiPublication tools stored.document .strict selector = some prepared)
    (hpublishable : prepared.publishable = true) (hbytes : prepared.bytes = some bytes)
    (hvalidated : isValidated tools prepared = true)
    (hnew : ∀ pointer, db.currentPointers selector.key = some pointer →
      pointer.publicationId ≠ publicationId tools context.tenantId prepared)
    (hagrees : expected.agrees (db.currentPointers selector.key) = true)
    (hartifact : ∀ other, db.artifacts (tools.sha256 bytes) = some other → other = bytes) :
    ∃ next published, db.publish tools context prepared expected = .ok (next, published) ∧
      published.pointerVersion = db.pointerVersion selector.key + 1 := by
  have hmanifest := checkedManifest_of_prepared hcontext hkey hversion hexpected hpin hstored
    hprepared hpublishable hbytes hvalidated
  have hrow : (publicationRow prepared (tools.sha256 bytes) scopeIds stored).key =
      selector.key := by
    rw [publicationRow, (prepareOpenApiPublication_eq_some hprepared hpublishable).2.2.1]
  rw [← hrow] at hnew hagrees
  obtain ⟨next, hpromoted⟩ := promotePublication_of_agrees
    ⟨publicationId tools context.tenantId prepared, bytes,
      publicationRow prepared (tools.sha256 bytes) scopeIds stored⟩ hnew hagrees hartifact
  exact ⟨next, _, publish_eq_ok_iff.mpr ⟨_, hmanifest, hpromoted⟩, by rw [← hrow]; rfl⟩

theorem manifestSelector_eq_some (h : manifestSelector row = some selector) :
    selector.key = row.key ∧ selector.pinnedVersion.all isVersion = true ∧
      selector.base = ⟨row.key.repositoryId, row.key.serviceId, row.snapshotId,
        row.immutableRevision, row.configFingerprint⟩ := by
  obtain ⟨⟨repositoryId, serviceId, kind, value⟩, branchVersion, environmentVersion, _⟩ := row
  unfold manifestSelector at h
  split at h
  case h_1 hkind _ _ =>
    obtain rfl : kind = .revision := hkind
    simp only [ite_none_right_eq_some, Option.some.injEq] at h
    obtain ⟨hvalue, rfl⟩ := h
    exact ⟨congrArg (PublicationKey.mk repositoryId serviceId .revision) hvalue.symm, rfl, rfl⟩
  case h_2 hkind _ _ =>
    obtain rfl : kind = .branch := hkind
    simp only [ite_none_right_eq_some, Option.some.injEq] at h
    obtain ⟨⟨-, hversion⟩, rfl⟩ := h
    exact ⟨rfl, hversion, rfl⟩
  case h_3 hkind _ _ =>
    obtain rfl : kind = .environment := hkind
    simp only [ite_none_right_eq_some, Option.some.injEq] at h
    obtain ⟨⟨-, hversion⟩, rfl⟩ := h
    exact ⟨rfl, hversion, rfl⟩
  case h_4 => simp at h

theorem checkPin_of_checkStoredPin (hselector : manifestSelector row = some selector)
    (h : db.checkStoredPin tools principalId row = .ok ()) :
    ∃ scopeIds, db.checkPin tools principalId selector = .ok scopeIds := by
  obtain ⟨⟨repositoryId, serviceId, kind, value⟩, branchVersion, environmentVersion, _⟩ := row
  unfold manifestSelector at hselector
  split at hselector
  case h_1 =>
    simp only [ite_none_right_eq_some, Option.some.injEq] at hselector
    obtain ⟨-, rfl⟩ := hselector
    exact ⟨none, rfl⟩
  case h_2 version hkind hversion _ =>
    obtain rfl : kind = .branch := hkind
    obtain rfl : branchVersion = some version := hversion
    simp only [ite_none_right_eq_some, Option.some.injEq] at hselector
    obtain ⟨-, rfl⟩ := hselector
    obtain ⟨pointer, hpointer, h⟩ := bind_eq_ok.mp h
    obtain ⟨hsnapshot, hpinned⟩ := require_eq_ok.mp h
    exact ⟨none, bind_eq_ok.mpr ⟨pointer, hpointer,
      require_bind_eq_ok.mpr ⟨⟨hsnapshot, Option.some.inj hpinned⟩, rfl⟩⟩⟩
  case h_3 version hkind _ hversion =>
    obtain rfl : kind = .environment := hkind
    obtain rfl : environmentVersion = some version := hversion
    simp only [ite_none_right_eq_some, Option.some.injEq] at hselector
    obtain ⟨-, rfl⟩ := hselector
    obtain ⟨scopeIds, hscopes, -⟩ := bind_eq_ok.mp h
    exact ⟨some scopeIds, map_eq_ok.mpr ⟨scopeIds, hscopes, rfl⟩⟩
  case h_4 => simp at hselector

theorem pinIsCurrent_of_checkPin
    (h : db.checkPin tools principalId selector = .ok scopeIds) : db.PinIsCurrent selector := by
  cases selector with
  | revision base => exact trivial
  | branch base name pointerVersion =>
    obtain ⟨pointer, hpointer, h⟩ := bind_eq_ok.mp h
    obtain ⟨hpinned, -⟩ := require_bind_eq_ok.mp h
    simp only [branchPointer, orRaise_bind_eq_ok] at hpointer
    obtain ⟨row, hrow, _, -, h⟩ := hpointer
    obtain ⟨-, hsame⟩ := require_bind_eq_ok.mp h
    obtain rfl := pure_eq_ok.mp hsame
    exact ⟨row, hrow, hpinned⟩
  | environment selector =>
    obtain ⟨scopes, hscopes, -⟩ := map_eq_ok.mp h
    have hmatch : checkEnvironmentPin db.rows principalId tools.configHash selector =
        .ok scopes := by
      unfold environmentScopes at hscopes
      cases hcheck : checkEnvironmentPin db.rows principalId tools.configHash selector with
      | error refusal => simp [hcheck, Except.mapError] at hscopes
      | ok found => simpa [hcheck, Except.mapError] using hscopes
    simp only [checkEnvironmentPin, require_bind_eq_ok, orRaise_bind_eq_ok] at hmatch
    obtain ⟨configuration, hconfiguration, -, -, hfingerprint, -, -, -, state, hstate,
      ⟨hversion, hsettled⟩, -⟩ := hmatch
    exact ⟨state, hstate, hversion, hsettled, configuration, hconfiguration, hfingerprint⟩

/-- What a successful read has found and checked. -/
structure ReadFacts (tools : Toolchain) (db : PublicationDb) (context : Principal)
    (key : PublicationKey) (read : ValidatedOpenApiRead) (manifest : Manifest)
    (stored : SnapshotRow) (checked : Preparation) : Prop where
  named : context.tenantId ≠ "" ∧ context.principalId ≠ ""
  valid : key.isValid = true
  pointer : db.currentPointers key = some ⟨manifest.publicationId, db.pointerVersion key⟩
  row : manifest.row.key = key
  artifact : db.artifacts manifest.row.contentSha256 = some manifest.bytes
  pinned : db.checkStoredPin tools context.principalId manifest.row = .ok ()
  authorized : db.authorizedSnapshot tools.host context.principalId manifest.row.snapshotId =
    .ok stored
  selector : manifestSelector manifest.row = some read.selector
  prepared : prepareOpenApiPublication tools stored.document .strict read.selector = some checked
  publishable : checked.publishable = true
  contentSha256 : checked.contentSha256 = some manifest.row.contentSha256
  bytes : checked.bytes = some manifest.bytes
  publicationId : publicationId tools context.tenantId checked = manifest.publicationId
  validated : isValidated tools checked = true
  digest : tools.sha256 manifest.bytes = manifest.row.contentSha256
  publication : read.publication = manifest.published (db.pointerVersion key)
  snapshot : read.snapshot = stored.document

theorem readFacts_of_readCurrent (h : db.readCurrent tools context key = .ok read) :
    ∃ manifest stored checked, ReadFacts tools db context key read manifest stored checked := by
  simp only [readCurrent, require_bind_eq_ok, orRaise_bind_eq_ok] at h
  obtain ⟨hcontext, hvalid, manifest, hmanifest, h⟩ := h
  obtain ⟨_, hpinned, h⟩ := bind_eq_ok.mp h
  obtain ⟨stored, hstored, h⟩ := bind_eq_ok.mp h
  obtain ⟨-, h⟩ := require_bind_eq_ok.mp h
  obtain ⟨selector, hverified, h⟩ := bind_eq_ok.mp h
  obtain ⟨-, h⟩ := require_bind_eq_ok.mp h
  obtain ⟨hdigest, h⟩ := require_bind_eq_ok.mp h
  cases h
  simp only [verifyManifest, orRaise_bind_eq_ok, require_bind_eq_ok] at hverified
  obtain ⟨found, hselector, checked, hchecked, ⟨hpublishable, hsha, hbytes, hid, hvalidated⟩,
    hsame⟩ := hverified
  cases hsame
  simp only [currentManifest, bind_eq_bind, bind_eq_some_iff,
    filter_eq_some_iff, beq_iff_eq] at hmanifest
  obtain ⟨current, hcurrent, row, ⟨-, hrow⟩, bytes, hartifact, hsome⟩ := hmanifest
  cases hsome
  refine ⟨⟨current.publicationId, bytes, row⟩, stored, checked, ?_⟩
  exact {
    named := hcontext
    valid := hvalid
    pointer := by simp [pointerVersion, hcurrent]
    row := hrow
    artifact := hartifact
    pinned := hpinned
    authorized := hstored
    selector := hselector
    prepared := hchecked
    publishable := hpublishable
    contentSha256 := hsha
    bytes := hbytes
    publicationId := hid
    validated := hvalidated
    digest := hdigest
    publication := rfl
    snapshot := rfl }

/-- Publishing what is read succeeds, whatever version is expected, and changes nothing. -/
theorem publish_of_readCurrent (h : db.readCurrent tools context key = .ok read) :
    ∃ prepared, prepareOpenApiPublication tools read.snapshot .strict read.selector =
        some prepared ∧
      ∀ expected, expected.isValid = true →
        db.publish tools context prepared expected = .ok (db, read.publication) := by
  obtain ⟨manifest, stored, checked, hread⟩ := readFacts_of_readCurrent h
  refine ⟨checked, by rw [hread.snapshot]; exact hread.prepared, fun expected hexpected => ?_⟩
  obtain ⟨-, -, hselector, -⟩ := prepareOpenApiPublication_eq_some hread.prepared hread.publishable
  obtain ⟨hkey, hversion, hbase⟩ := manifestSelector_eq_some hread.selector
  obtain ⟨scopeIds, hpin⟩ := checkPin_of_checkStoredPin hread.selector hread.pinned
  rw [hread.row] at hkey
  have hmanifest := checkedManifest_of_prepared hread.named (by rw [hkey]; exact hread.valid)
    hversion hexpected hpin (by rw [hbase]; exact hread.authorized) hread.prepared
    hread.publishable hread.bytes hread.validated
  rw [hread.digest, hread.publicationId] at hmanifest
  have hrow : (publicationRow checked manifest.row.contentSha256 scopeIds stored).key = key := by
    rw [publicationRow, hselector, hkey]
  refine publish_eq_ok_iff.mpr ⟨_, hmanifest, ?_⟩
  rw [promotePublication_current ⟨manifest.publicationId, manifest.bytes,
    publicationRow checked manifest.row.contentSha256 scopeIds stored⟩
      (by rw [hrow]; exact hread.pointer) hread.artifact, hread.publication]
  have hsnapshot : checked.provenance.selector.base.snapshotId = manifest.row.snapshotId := by
    rw [hselector, hbase]
  simp [Manifest.published, publicationRow, hsnapshot]

/-- A document is read only while its pin is current, and its bytes are those that the pinned
snapshot compiles to. -/
theorem readCurrent_sound (h : db.readCurrent tools context key = .ok read) :
    read.selector.key = key ∧ db.PinIsCurrent read.selector ∧
      (∃ stored, db.rows.snapshots.find? read.selector.base.snapshotId = some stored ∧
        stored.document = read.snapshot) ∧
      ∃ prepared, prepareOpenApiPublication tools read.snapshot .strict read.selector =
          some prepared ∧
        prepared.bytes = some read.publication.bytes ∧
        prepared.contentSha256 = some read.publication.contentSha256 := by
  obtain ⟨manifest, stored, checked, hread⟩ := readFacts_of_readCurrent h
  obtain ⟨hkey, -, hbase⟩ := manifestSelector_eq_some hread.selector
  obtain ⟨scopeIds, hpin⟩ := checkPin_of_checkStoredPin hread.selector hread.pinned
  have hfind : db.rows.snapshots.find? manifest.row.snapshotId = some stored := by
    have hstored := hread.authorized
    simp only [authorizedSnapshot, orRaise_bind_eq_ok, require_bind_eq_ok] at hstored
    obtain ⟨row, hrow, -, -, -, hsame⟩ := hstored
    cases hsame
    exact hrow
  refine ⟨hkey.trans hread.row, pinIsCurrent_of_checkPin hpin, ⟨stored, ?_, hread.snapshot.symm⟩,
    checked, by rw [hread.snapshot]; exact hread.prepared, ?_, ?_⟩
  · rw [hbase]
    exact hfind
  · rw [hread.publication]
    exact hread.bytes
  · rw [hread.publication]
    exact hread.contentSha256

/-! ### Runs -/

theorem perform_publish_of_eq_ok
    (h : db.publish tools context prepared expected = .ok (next, published)) :
    db.perform tools (.publish context prepared expected) = next := by
  simp [perform, h]

theorem perform_publish_of_not_ok
    (h : ∀ next published, db.publish tools context prepared expected ≠ .ok (next, published)) :
    db.perform tools (.publish context prepared expected) = db := by
  cases hpublish : db.publish tools context prepared expected with
  | error error => simp only [perform, hpublish]
  | ok result => exact absurd hpublish (h result.1 result.2)

theorem perform_publish_of_not_agrees
    (hexpected : expected.agrees (db.currentPointers prepared.provenance.selector.key) = false) :
    db.perform tools (.publish context prepared expected) = db := by
  by_cases hpublish : ∃ next published,
      db.publish tools context prepared expected = .ok (next, published)
  · obtain ⟨next, published, hpublish⟩ := hpublish
    obtain ⟨manifest, hchecked, hpromoted⟩ := publish_eq_ok_iff.mp hpublish
    rw [← (checked_of_checkedManifest hchecked).key] at hexpected
    rw [perform_publish_of_eq_ok hpublish]
    exact promotePublication_of_not_agrees hexpected hpromoted
  · exact perform_publish_of_not_ok fun next published h => hpublish ⟨next, published, h⟩

theorem perform_publish_of_stale
    (hstale : ∀ scopeIds, db.checkPin tools context.principalId prepared.provenance.selector ≠
      .ok scopeIds) :
    db.perform tools (.publish context prepared expected) = db := by
  refine perform_publish_of_not_ok fun next published h => ?_
  obtain ⟨manifest, hchecked, -⟩ := publish_eq_ok_iff.mp h
  obtain ⟨scopeIds, hpin⟩ := (checked_of_checkedManifest hchecked).pinned
  exact hstale scopeIds hpin

/-- The action publishes under the key, from the version it expects to the next one. -/
structure Advances (tools : Toolchain) (db : PublicationDb) (key : PublicationKey)
    (action : PublicationAction) (context : Principal) (prepared : Preparation)
    (expected : ExpectedPublicationPointer) (published : PublishedOpenApi) : Prop where
  publishes : action = .publish context prepared expected
  selected : prepared.provenance.selector.key = key
  succeeds : db.publish tools context prepared expected =
    .ok (db.perform tools (.publish context prepared expected), published)
  agrees : expected.agrees (db.currentPointers key) = true
  version : published.pointerVersion = db.pointerVersion key + 1
  pointer : (db.perform tools (.publish context prepared expected)).currentPointers key =
    some ⟨published.publicationId, published.pointerVersion⟩

theorem advances_of_ne {action : PublicationAction}
    (h : (db.perform tools action).currentPointers key ≠ db.currentPointers key) :
    ∃ context prepared expected published,
      Advances tools db key action context prepared expected published := by
  cases action with
  | publish context prepared expected =>
    by_cases hpublish : ∃ next published,
        db.publish tools context prepared expected = .ok (next, published)
    case neg =>
      exact absurd (by rw [perform_publish_of_not_ok fun next published hok =>
        hpublish ⟨next, published, hok⟩]) h
    obtain ⟨next, published, hpublish⟩ := hpublish
    have hperform := perform_publish_of_eq_ok hpublish
    rw [hperform] at h
    obtain ⟨manifest, hchecked, hpromoted⟩ := publish_eq_ok_iff.mp hpublish
    have hnext := promotePublication_eq_ok hpromoted
    have hrow := (checked_of_checkedManifest hchecked).key
    have hkey : key = manifest.row.key := by
      by_contra hne
      exact h (hnext.others key hne)
    subst hkey
    rcases hnext.once with rfl | ⟨hagrees, hversion⟩
    · exact absurd rfl h
    · refine ⟨context, prepared, expected, published, rfl, hrow.symm, ?_, hagrees, hversion, ?_⟩
      · rw [hperform]
        exact hpublish
      · rw [hperform, hnext.pointer, hnext.document]
        rfl
  | promoteBranch input =>
    refine absurd ?_ h
    simp only [perform]
    split <;> rfl
  | environment rows => exact absurd rfl h
  | branchCheckpoint branch row => exact absurd rfl h

theorem pointerVersion_run {start : PublicationDb} {actions : List PublicationAction}
    (hrun : Run (Step tools) start actions db) (key : PublicationKey) :
    db.pointerVersion key = start.pointerVersion key + changes tools key start actions := by
  induction hrun with
  | nil start => rfl
  | @cons start next db action rest hstep _ ih =>
    obtain rfl : next = start.perform tools action := hstep
    rw [ih, changes, ← Nat.add_assoc]
    congr 1
    split_ifs with hsame
    · rw [pointerVersion, hsame]
      rfl
    · obtain ⟨context, prepared, expected, published, hadvances⟩ := advances_of_ne hsame
      obtain rfl := hadvances.publishes
      rw [pointerVersion, hadvances.pointer]
      exact hadvances.version

/-- Publications of a key are linearised, and reads are never stale.  After any run, the version
of the pointer has counted its changes, and each change is a publication from the version it
expected to the next one; publishing what was just published or what is read succeeds and changes
nothing; a wrong version and a stale pin change nothing; and what is read is pinned to current
versions, with the bytes that the pinned snapshot compiles to. -/
theorem publication_pointer_linearised (tools : Toolchain) {start db : PublicationDb}
    {actions : List PublicationAction} (hrun : Run (Step tools) start actions db)
    (key : PublicationKey) :
    db.pointerVersion key = start.pointerVersion key + changes tools key start actions ∧
    (∀ action, (db.perform tools action).currentPointers key ≠ db.currentPointers key →
      ∃ context prepared expected published,
        Advances tools db key action context prepared expected published) ∧
    (∀ context prepared expected next published,
      db.publish tools context prepared expected = .ok (next, published) →
      ∀ expected' : ExpectedPublicationPointer, expected'.isValid = true →
        next.publish tools context prepared expected' = .ok (next, published)) ∧
    (∀ context read, db.readCurrent tools context key = .ok read →
      ∃ prepared, prepareOpenApiPublication tools read.snapshot .strict read.selector =
          some prepared ∧
        ∀ expected : ExpectedPublicationPointer, expected.isValid = true →
          db.publish tools context prepared expected = .ok (db, read.publication)) ∧
    (∀ context prepared expected, prepared.provenance.selector.key = key →
      expected.agrees (db.currentPointers key) = false →
      db.perform tools (.publish context prepared expected) = db) ∧
    (∀ context prepared expected, prepared.provenance.selector.key = key →
      (¬ db.PinIsCurrent prepared.provenance.selector ∨ ∀ scopeIds,
        db.checkPin tools context.principalId prepared.provenance.selector ≠ .ok scopeIds) →
      db.perform tools (.publish context prepared expected) = db) ∧
    ∀ context read, db.readCurrent tools context key = .ok read →
      read.selector.key = key ∧ db.PinIsCurrent read.selector ∧
      (∃ stored, db.rows.snapshots.find? read.selector.base.snapshotId = some stored ∧
        stored.document = read.snapshot) ∧
      ∃ prepared, prepareOpenApiPublication tools read.snapshot .strict read.selector =
          some prepared ∧
        prepared.bytes = some read.publication.bytes ∧
        prepared.contentSha256 = some read.publication.contentSha256 := by
  refine ⟨pointerVersion_run hrun key, fun action => advances_of_ne, ?_, ?_, ?_, ?_, ?_⟩
  · intro context prepared expected next published hpublish expected' hexpected
    exact publish_again hpublish hexpected
  · intro context read hread
    exact publish_of_readCurrent hread
  · rintro context prepared expected rfl hexpected
    exact perform_publish_of_not_agrees hexpected
  · rintro context prepared expected - (hstale | hstale)
    · exact perform_publish_of_stale fun scopeIds hpin => hstale (pinIsCurrent_of_checkPin hpin)
    · exact perform_publish_of_stale hstale
  · intro context read hread
    exact readCurrent_sound hread

/-! ### A first publication -/

def publishedSnapshot : ContractSnapshot := sampleExport (.obj [("type", .str "string")])

/-- Tools that tell documents apart by their version. -/
def sampleTools : Toolchain where
  host := .ascii
  encode document _ := document.version.toUTF8.toList
  sha256 bytes := "sha256:" ++ toString bytes.length
  publicationIdOf identity := identity.snapshotId ++ identity.pinnedVersion.getD ""
  validates _ _ := true
  configHash := sampleHash

def publishedRow : SnapshotRow := Store.snapshotRow ⟨publishedSnapshot, ["team"], .success⟩

/-- The snapshot is stored, and the branch `main` points to it. -/
def promotedDb : PublicationDb where
  rows := { servingRows "reader" with
    snapshots := .singleton publishedRow }
  branchPointers := Function.update (fun _ => none) ⟨"repo", "svc", "main"⟩
    (some ⟨"snap", 4, ⟨"git", "refs/heads/main", none⟩⟩)
  branchCheckpoints _ := none
  artifacts _ := none
  publications _ := none
  currentPointers _ := none

/-- The selector of the branch `main`. -/
def branchSelector : PublicationSelector :=
  .branch ⟨"repo", "svc", "snap", "0123456789ab", "cfg"⟩ "main" "4"

theorem exists_preparation : ∃ prepared,
    prepareOpenApiPublication sampleTools publishedSnapshot .strict branchSelector =
        some prepared ∧
      prepared.publishable = true ∧ prepared.bytes.isSome = true ∧
      isValidated sampleTools prepared = true := by
  have haccepted : publishedSnapshot.Accepted .ascii := by decide +kernel
  have hdiagnostics : (compileDocument .ascii publishedSnapshot).diagnostics = [] := by
    delta compileDocument compileGroups compileGroup compileSelected compileVariants
      compileEndpoints compileEndpoint reachableSchemas
    simp only [AdjacencyList.queueClosure_eq_queueWithin]
    decide +kernel
  have hnames : (branchSelector.parses && branchSelector.names publishedSnapshot) = true := by
    decide +kernel
  refine ⟨_, by rw [prepareOpenApiPublication, if_pos hnames, sampleTools, compileOpenApiSnapshot,
    if_pos haccepted]; rfl, ?_, ?_, ?_⟩
  · simp [compileSnapshot, hdiagnostics, sortedBy]
  · simp [compileSnapshot, hdiagnostics]
  · simp [compileSnapshot, hdiagnostics, isValidated, sampleTools]

theorem publication_pointer_linearised_first : ∃ prepared,
    prepareOpenApiPublication sampleTools publishedSnapshot .strict branchSelector =
        some prepared ∧
      changes sampleTools branchSelector.key promotedDb
        [.publish ⟨"acme", "reader"⟩ prepared .absent] = 1 := by
  obtain ⟨prepared, hprepared, hpublishable, hbytes, hvalidated⟩ := exists_preparation
  obtain ⟨bytes, hbytes⟩ := Option.isSome_iff_exists.mp hbytes
  have hpin : promotedDb.checkPin sampleTools "reader" branchSelector = .ok none := by
    decide +kernel
  have hstored : promotedDb.authorizedSnapshot sampleTools.host "reader"
      branchSelector.base.snapshotId = .ok publishedRow := by decide +kernel
  obtain ⟨next, published, hpublish, hversion⟩ := publish_succeeds ⟨"acme", "reader"⟩
    branchSelector .absent (by decide) (by decide) (by decide +kernel) rfl hpin hstored hprepared
    hpublishable hbytes hvalidated (fun _ h => by cases h) rfl (fun _ h => by cases h)
  refine ⟨prepared, hprepared, ?_⟩
  have hselector := (prepareOpenApiPublication_eq_some hprepared hpublishable).2.2.1
  obtain ⟨manifest, hchecked, hpromoted⟩ := publish_eq_ok_iff.mp hpublish
  have hpointer := (promotePublication_eq_ok hpromoted).pointer
  rw [(checked_of_checkedManifest hchecked).key, hselector] at hpointer
  have hcount := (publication_pointer_linearised sampleTools
    (.cons (perform_publish_of_eq_ok hpublish).symm (.nil next)) branchSelector.key).1
  rw [pointerVersion, hpointer] at hcount
  simp only [elim_some] at hcount
  omega

end PublicationDb

end ApiTruth.OpenApi
