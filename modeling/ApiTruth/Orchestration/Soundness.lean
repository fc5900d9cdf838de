import ApiTruth.Orchestration.Operations

/-!
# Invariants of the operations

Every operation keeps the work of the jobs, the coherence of branches and jobs, and the current
jobs in the active configuration.  A third invariant compares branches and pointers: the evidence
of a branch does not undercut the evidence its pointer was promoted with, and a job that may still
be completed brings a larger sequence or repeats the promotion.  Authoritative reconciliations keep
it only under a condition.

## Main definitions

* `Database.Configured`, `Database.Sound` : the invariants besides coherence.
* `Database.KeepsOrder` : the condition on authoritative reconciliations.

## Main results

* `Database.Coherent.perform`, `Database.Configured.perform`, `Database.KeepsJobs.perform`.
* `Database.Sound.perform` : every operation that meets the condition keeps the order.
* `Database.Sound.promoteBranch_succeeds` : an eligible completion promotes.
-/

namespace ApiTruth.Orchestration

open Catalog Checked Ir TransitionSystem

namespace Database

variable {parses : ContractSnapshot → Bool} {db db' : Database} {action : Action}
  {issued : JobIdentity → LeaseHolder → Prop}

/-! ### Jobs and coherence -/

theorem KeepsJobs.of_active (db : Database) (active : Option ActiveConfiguration) :
    KeepsJobs issued db { db with active := active } :=
  .of_eq rfl

variable {worker : WorkerIdentity} {material : Materialized} {lease : JobLease}

variable (issued) in
theorem keepsBranches_completion (hc : db.Coherent) {outcome : PromotionOutcome}
    (h : db.completion parses worker lease material = .ok (db', outcome)) :
    KeepsBranches issued db db' := by
  obtain ⟨written, input, catalog, hbefore, -, rfl⟩ := completion_eq_ok h
  obtain ⟨_, _, _, -, hs, -⟩ := completionBeforePromotion_eq_ok issued hc hbefore
  exact { hs.toKeepsBranches with }

/-- The operations that neither change the active configuration nor schedule or complete a job. -/
def onlySettles : Action → Bool
  | .setAccessScope .. | .registerConfiguration _ | .reconciliationRequest _ | .claim ..
  | .heartbeat .. | .fail .. | .cancel _ => true
  | _ => false

theorem Settles.attempt (hsettles : onlySettles action = true)
    (h : db.attempt parses action = .ok db') : Settles action.issues db db' := by
  cases action with
  | setAccessScope scopeId active =>
    cases h
    exact .of_catalog rfl fun _ _ h => h
  | registerConfiguration configuration => exact .registerConfiguration h
  | reconciliationRequest request => exact .ingestReconciliationRequest h
  | claim worker id token =>
    cases h
    exact .claimJob ⟨rfl, rfl⟩
  | heartbeat worker lease => exact .heartbeatJob h
  | fail worker lease => exact .failJob h
  | cancel id => exact .cancelJob h
  | _ => cases hsettles

theorem keepsJobs_attempt (hc : db.Coherent) (h : db.attempt parses action = .ok db') :
    KeepsJobs action.issues db db' ∧ db'.Coherent := by
  have hsettles (hs : Settles action.issues db db') :
      KeepsJobs action.issues db db' ∧ db'.Coherent :=
    ⟨hs.toKeepsJobs, hc.keepsBranches hs.toKeepsBranches⟩
  cases action with
  | tick milliseconds =>
    cases h
    exact ⟨.of_eq rfl, hc.identity, hc.fresh, hc.current, hc.isOpen⟩
  | activateInitialConfiguration fingerprint =>
    obtain ⟨-, -, rfl⟩ := activateInitialConfiguration_eq_ok h
    exact ⟨.of_active db _, hc.of_active _⟩
  | activateConfiguration fingerprint expected evidence =>
    rcases activateConfigurationByCas_cases _ h with rfl | ⟨active, current, next, -, hs⟩
    · exact ⟨.refl _, hc⟩
    · have hcancelled := (Settles.cancelBranchWork _).trans hs
      exact ⟨(KeepsJobs.of_active db _).trans hcancelled.toKeepsJobs,
        (hc.of_active _).keepsBranches hcancelled.toKeepsBranches⟩
  | branchEvent event =>
    refine ingestBranchEvent_induction (Action.branchEvent event).issues
      (I := fun last => KeepsJobs _ db last) h hc (.refl db) ?_ ?_
    · intro _ _ _ before after _ _ _ hbefore _ _ _ hreplaces
      exact hbefore.trans hreplaces.toKeepsJobs
    · intro before after hbefore hs
      exact hbefore.trans hs.toKeepsJobs
  | reconcile worker lease reference observation =>
    obtain ⟨-, -, -, -, _, _, _, _, scheduled, -, -, -, hreplaces, hs, -⟩ :=
      executeReconciliation_eq_ok _ hc h
    exact ⟨hreplaces.toKeepsJobs.trans hs.toKeepsJobs,
      (hc.replacesCheckpoint hreplaces).keepsBranches hs.toKeepsBranches⟩
  | complete worker lease material =>
    obtain ⟨⟨written, outcome⟩, hcompletion, rfl⟩ := map_eq_ok.mp h
    have hkeeps : KeepsBranches (Action.complete worker lease material).issues db written :=
      keepsBranches_completion _ hc hcompletion
    exact ⟨hkeeps.toKeepsJobs, hc.keepsBranches hkeeps⟩
  | _ => exact hsettles (.attempt rfl h)

theorem Coherent.perform (hc : db.Coherent) (action : Action) :
    (db.perform parses action).Coherent := by
  rcases perform_eq_or parses db action with hsame | hok
  · rwa [hsame]
  · exact (keepsJobs_attempt hc hok).2

variable (parses) in
theorem keepsJobs_perform (hc : db.Coherent) (action : Action) :
    KeepsJobs action.issues db (db.perform parses action) := by
  rcases perform_eq_or parses db action with hsame | hok
  · rw [hsame]
    exact .refl db
  · exact (keepsJobs_attempt hc hok).1

theorem IsInitial.coherent (h : db.IsInitial) : db.Coherent where
  identity id job hjob := by simp [h.jobs id] at hjob
  fresh id job hjob := by simp [h.jobs id] at hjob
  current key checkpoint id hcheckpoint := by simp [h.branches key] at hcheckpoint
  isOpen id job hjob := by simp [h.jobs id] at hjob

/-! ### Current jobs and the active configuration -/

/-- The current job of a branch belongs to the active configuration, which names its service. -/
def Configured (db : Database) : Prop :=
  ∀ key checkpoint id, db.branches key = some checkpoint → checkpoint.currentJob = some id →
    ∃ active configuration, db.readActive = .ok (active, configuration) ∧
      id.configFingerprint = configuration.fingerprint ∧
      key.serviceId ∈ configuration.document.serviceIds

theorem KeepsBranches.readActive (h : KeepsBranches issued db db') {active : ActiveConfiguration}
    {configuration : SchedulingConfiguration} (hread : db.readActive = .ok (active, configuration)) :
    db'.readActive = .ok (active, configuration) := by
  obtain ⟨hactive, hdocument, hfingerprint⟩ := readActive_eq_ok.mp hread
  exact readActive_eq_ok.mpr ⟨h.active.trans hactive, h.configurations _ _ hdocument, hfingerprint⟩

namespace Configured

theorem keepsBranches (hcfg : db.Configured) (h : KeepsBranches issued db db') :
    db'.Configured := by
  intro key checkpoint' id hcheckpoint' hcurrent'
  obtain ⟨checkpoint, hcheckpoint, htarget⟩ := h.checkpoint_from hcheckpoint'
  obtain ⟨active, configuration, hread, hrest⟩ :=
    hcfg key checkpoint id hcheckpoint (htarget.currentJob_eq hcurrent')
  exact ⟨active, configuration, h.readActive hread, hrest⟩

theorem replacesCheckpoint (hcfg : db.Configured) {active : ActiveConfiguration}
    {configuration : SchedulingConfiguration} {target : TargetConfig} {branch : String}
    {desired : DesiredState} {evidence : ProviderReference} {forceRepair : Bool}
    {checkpoint : BranchCheckpoint} (hread : db.readActive = .ok (active, configuration))
    (htarget : target ∈ configuration.document.targets)
    (h : ReplacesCheckpoint issued configuration target branch desired evidence forceRepair db db'
      checkpoint) :
    db'.Configured ∧ db'.readActive = .ok (active, configuration) := by
  have hread' : db'.readActive = .ok (active, configuration) := by
    simpa only [readActive, h.active, h.configurations] using hread
  refine ⟨fun key checkpoint' id hcheckpoint' hcurrent' => ?_, hread'⟩
  by_cases hkey : key = target.key branch
  · subst hkey
    cases h.branches_self.symm.trans hcheckpoint'
    rcases h.current id hcurrent' with
      ⟨before, hbefore, hcurrent, -⟩ | ⟨revision, -, -, hid, -, -⟩
    · obtain ⟨active', configuration', hreadBefore, hrest⟩ := hcfg _ before id hbefore hcurrent
      cases hread.symm.trans hreadBefore
      exact ⟨active, configuration, hread', hrest⟩
    · exact ⟨active, configuration, hread', by rw [hid]; rfl, List.mem_map_of_mem htarget⟩
  · rw [h.branches_of_ne hkey] at hcheckpoint'
    obtain ⟨active', configuration', hreadBefore, hrest⟩ :=
      hcfg key checkpoint' id hcheckpoint' hcurrent'
    cases hread.symm.trans hreadBefore
    exact ⟨active, configuration, hread', hrest⟩

theorem attempt (hcfg : db.Configured) (hc : db.Coherent)
    (h : db.attempt parses action = .ok db') : db'.Configured := by
  have hsettles (hs : Settles action.issues db db') : db'.Configured :=
    hcfg.keepsBranches hs.toKeepsBranches
  cases action with
  | tick milliseconds =>
    cases h
    exact hcfg
  | activateInitialConfiguration fingerprint =>
    obtain ⟨hnone, -, rfl⟩ := activateInitialConfiguration_eq_ok h
    intro key checkpoint id hcheckpoint hcurrent
    obtain ⟨active, configuration, hread, -⟩ := hcfg key checkpoint id hcheckpoint hcurrent
    rw [(readActive_eq_ok.mp hread).1] at hnone
    cases hnone
  | activateConfiguration fingerprint expected evidence =>
    rcases activateConfigurationByCas_cases Nobody h with
      rfl | ⟨active, current, next, hread, hs⟩
    · exact hcfg
    · -- the current jobs all belong to services of the configuration that was active
      intro key checkpoint' id hcheckpoint' hcurrent'
      obtain ⟨cancelled, hcancelled, htarget⟩ := hs.checkpoint_from hcheckpoint'
      have hcurrent := htarget.currentJob_eq hcurrent'
      simp only [cancelBranchWork] at hcancelled
      split_ifs at hcancelled with haffected
      · obtain ⟨checkpoint, -, rfl⟩ := Option.map_eq_some_iff.mp hcancelled
        cases hcurrent
      · obtain ⟨_, configuration, hread', -, hservice⟩ := hcfg key cancelled id hcancelled hcurrent
        cases hread.symm.trans hread'
        exact absurd (List.mem_append_left _ hservice) haffected
  | branchEvent event =>
    refine (ingestBranchEvent_induction (Action.branchEvent event).issues (I := fun last =>
      last.Configured ∧ ∀ active configuration, db.readActive = .ok (active, configuration) →
        last.readActive = .ok (active, configuration)) h hc ⟨hcfg, fun _ _ h => h⟩ ?_ ?_).1.1
    · rintro active configuration target before after checkpoint hread - ⟨hbefore, hsame⟩ htarget -
        - hreplaces
      obtain ⟨hafter, hread'⟩ := hbefore.replacesCheckpoint (hsame _ _ hread) htarget hreplaces
      refine ⟨hafter, fun active' configuration' hother => ?_⟩
      cases hread.symm.trans hother
      exact hread'
    · rintro before after ⟨hbefore, hsame⟩ hs
      exact ⟨hbefore.keepsBranches hs.toKeepsBranches, fun _ _ h => hs.readActive (hsame _ _ h)⟩
  | reconcile worker lease reference observation =>
    obtain ⟨-, -, -, -, _, _, target, _, scheduled, hread, htarget, -, hreplaces, hs, -⟩ :=
      executeReconciliation_eq_ok Nobody hc h
    exact (hcfg.replacesCheckpoint hread (targetConfig_eq_some htarget).1 hreplaces).1.keepsBranches
      hs.toKeepsBranches
  | complete worker lease material =>
    obtain ⟨⟨written, outcome⟩, hcompletion, rfl⟩ := map_eq_ok.mp h
    exact hcfg.keepsBranches (keepsBranches_completion Nobody hc hcompletion)
  | _ => exact hsettles (.attempt rfl h)

theorem perform (hcfg : db.Configured) (hc : db.Coherent) (action : Action) :
    (db.perform parses action).Configured := by
  rcases perform_eq_or parses db action with hsame | hok
  · rwa [hsame]
  · exact hcfg.attempt hc hok

end Configured

theorem IsInitial.configured (h : db.IsInitial) : db.Configured :=
  fun key checkpoint id hcheckpoint => by simp [h.branches key] at hcheckpoint

/-! ### Branches and pointers -/

/-- The evidence repeats the reference of a pointer, and the analysis is associated with its
snapshot. -/
def Repeats (db : Database) (evidence : ProviderReference) (analysis : AnalysisIdentity)
    (pointer : BranchPointer) : Prop :=
  evidence.providerReference = pointer.provider.providerReference ∧
    ∃ association, db.revisionSnapshots analysis = some association ∧
      association.snapshotId = pointer.snapshotId

/-- The evidence of a branch does not undercut its pointer, and the job that is still to be
completed comes with a larger sequence or repeats the promotion. -/
structure Sound (db : Database) : Prop where
  eligible : ∀ key pointer, db.catalog.pointers key = some pointer →
    db.catalog.isEligible key pointer.snapshotId = true
  ordered : ∀ key pointer, db.catalog.pointers key = some pointer →
    ∃ checkpoint, db.branches key = some checkpoint ∧
      ¬ checkpoint.evidence.Before pointer.provider
  pending : ∀ id job checkpoint pointer, db.jobs id = some job →
    job.state.isNonterminal = true → db.branches id.key = some checkpoint →
    checkpoint.currentJob = some id → db.catalog.pointers id.key = some pointer →
      ¬ job.evidence.Before pointer.provider ∧
        ∀ revision, id.targetRevision = some revision →
          job.evidence.SameSequence pointer.provider →
            db.Repeats job.evidence (job.analysisOf revision) pointer

namespace Sound

theorem settles (hs : db.Sound) (hc : db.Coherent) (h : Settles issued db db') : db'.Sound where
  eligible key pointer hpointer := by
    rw [h.pointers] at hpointer
    obtain ⟨row, hrow, hservice⟩ := Store.isEligible_iff.mp (hs.eligible key pointer hpointer)
    exact Store.isEligible_iff.mpr ⟨row, h.snapshots _ row hrow, hservice⟩
  ordered key pointer hpointer := by
    rw [h.pointers] at hpointer
    obtain ⟨checkpoint, hcheckpoint, hbefore⟩ := hs.ordered key pointer hpointer
    obtain ⟨checkpoint', hcheckpoint', htarget⟩ := h.checkpoint_of hcheckpoint
    exact ⟨checkpoint', hcheckpoint', htarget.evidence ▸ hbefore⟩
  pending id job' checkpoint' pointer hjob' hstate hcheckpoint' hcurrent' hpointer := by
    rw [h.pointers] at hpointer
    obtain ⟨checkpoint, hcheckpoint, htarget⟩ := h.checkpoint_from hcheckpoint'
    have hcurrent := htarget.currentJob_eq hcurrent'
    obtain ⟨job, hjob, hwork⟩ := h.job_from (hc.current _ _ id hcheckpoint hcurrent).1 hjob'
    obtain ⟨hbefore, hrepeats⟩ := hs.pending id job checkpoint pointer hjob
      (hwork.nonterminal hstate) hcheckpoint hcurrent hpointer
    rw [hwork.evidence]
    refine ⟨hbefore, fun revision hrevision hsame => ?_⟩
    obtain ⟨hreference, association, hassociation, hsnapshot⟩ := hrepeats revision hrevision hsame
    rw [hwork.analysis]
    exact ⟨hreference, association, h.associations _ _ hassociation, hsnapshot⟩

section

variable {configuration : SchedulingConfiguration} {target : TargetConfig} {branch : String}
  {desired : DesiredState} {evidence : ProviderReference} {forceRepair : Bool}
  {checkpoint : BranchCheckpoint}

/-- An update keeps the order when its evidence does not undercut the pointer, and repeats the
promotion when it queues an analysis with the same sequence. -/
theorem replacesCheckpoint (hs : db.Sound) (hc : db.Coherent)
    (h : ReplacesCheckpoint issued configuration target branch desired evidence forceRepair db db'
      checkpoint)
    (hbefore : ∀ pointer, db.catalog.pointers (target.key branch) = some pointer →
      ¬ evidence.Before pointer.provider)
    (hrepeats : ∀ pointer revision, db.catalog.pointers (target.key branch) = some pointer →
      desired = .present revision →
      db.sameSemanticTarget configuration (target.key branch) desired forceRepair = false →
      evidence.SameSequence pointer.provider →
      db.Repeats evidence (analysisIdentity configuration target revision) pointer) : db'.Sound where
  eligible key pointer hpointer := by
    rw [h.catalog] at hpointer ⊢
    exact hs.eligible key pointer hpointer
  ordered key pointer hpointer := by
    rw [h.catalog] at hpointer
    by_cases hkey : key = target.key branch
    · subst hkey
      exact ⟨checkpoint, h.branches_self, h.evidence_eq ▸ hbefore pointer hpointer⟩
    · rw [h.branches_of_ne hkey]
      exact hs.ordered key pointer hpointer
  pending id job' checkpoint' pointer hjob' hstate hcheckpoint' hcurrent' hpointer := by
    rw [h.catalog] at hpointer
    -- a job that was current before keeps its evidence
    have hkept (before : BranchCheckpoint) (hbefore : db.branches id.key = some before)
        (hcurrent : before.currentJob = some id) :
        ¬ job'.evidence.Before pointer.provider ∧ ∀ revision, id.targetRevision = some revision →
          job'.evidence.SameSequence pointer.provider →
            db'.Repeats job'.evidence (job'.analysisOf revision) pointer := by
      obtain ⟨-, -, ⟨job, hjob⟩, -⟩ := hc.current _ before id hbefore hcurrent
      obtain ⟨other, hother, hwork⟩ := h.jobs id job hjob
      cases hjob'.symm.trans hother
      obtain ⟨hnot, hrepeat⟩ := hs.pending id job before pointer hjob (hwork.nonterminal hstate)
        hbefore hcurrent hpointer
      rw [hwork.evidence]
      refine ⟨hnot, fun revision hrevision hsame => ?_⟩
      rw [hwork.analysis, Repeats, h.revisionSnapshots]
      exact hrepeat revision hrevision hsame
    by_cases hkey : id.key = target.key branch
    · obtain rfl : checkpoint = checkpoint' :=
        Option.some.inj (h.branches_self.symm.trans (hkey ▸ hcheckpoint'))
      rcases h.current id hcurrent' with
        ⟨before, hbranch, hcurrent, -⟩ | ⟨revision, hdesired, hsemantic, hid, -, hnew⟩
      · exact hkept before (hkey ▸ hbranch) hcurrent
      · cases hnew.symm.trans hjob'
        rw [hkey] at hpointer
        refine ⟨hbefore pointer hpointer, fun other hother hsame => ?_⟩
        obtain rfl : revision = other := by
          rw [hid] at hother
          exact Option.some.inj hother
        have hanalysis : (db.newJob configuration target id evidence).analysisOf revision
            = analysisIdentity configuration target revision := by
          rw [hid]
          rfl
        rw [hanalysis, Repeats, h.revisionSnapshots]
        exact hrepeats pointer revision hpointer hdesired hsemantic hsame
    · rw [h.branches_of_ne hkey] at hcheckpoint'
      exact hkept checkpoint' hcheckpoint' hcurrent'

/-- An event that is accepted brings a larger sequence than every promotion of the branch. -/
theorem after_of_acceptsUpdate (hs : db.Sound) {key : BranchKey}
    (haccepts : db.AcceptsUpdate key desired evidence none) {pointer : BranchPointer}
    (hpointer : db.catalog.pointers key = some pointer) :
    ¬ evidence.Before pointer.provider ∧ ¬ evidence.SameSequence pointer.provider := by
  obtain ⟨current, hcurrent, hordered⟩ := hs.ordered key pointer hpointer
  have hnewer : current.evidence.Before evidence := by
    have haccepts := haccepts rfl
    rw [hcurrent, Option.map_some] at haccepts
    rcases haccepts with hfirst | hnewer
    · exact absurd hfirst (classifyProviderUpdate_ne_first _ _)
    · exact before_of_newer hnewer
  exact ⟨fun h => hordered (hnewer.trans h), fun h => hordered (hnewer.trans_sameSequence h)⟩

end

/-! ### Completion and promotion -/

theorem completionBeforePromotion (hs : db.Sound) (hc : db.Coherent)
    {written : Database} {input : PromoteBranchInput}
    (h : db.completionBeforePromotion parses worker lease material = .ok (written, input)) :
    written.Sound := by
  obtain ⟨_, _, _, -, hsettles, -⟩ :=
    completionBeforePromotion_eq_ok Nobody hc h
  exact hs.settles hc hsettles

/-- An eligible completion promotes. -/
theorem promoteBranch_succeeds (hs : db.Sound) (hc : db.Coherent)
    {written : Database} {input : PromoteBranchInput}
    (h : db.completionBeforePromotion parses worker lease material = .ok (written, input)) :
    ∃ catalog outcome, written.catalog.promoteBranch input = .ok (catalog, outcome) := by
  have hwritten := hs.completionBeforePromotion hc h
  obtain ⟨job, checkpoint, revision, hmay, hsettles, -, ⟨stored, hstored, hsnapshot⟩, hkey,
    hprovider, ⟨expected, hexpected, hmatches⟩, htarget⟩ :=
      completionBeforePromotion_eq_ok Nobody hc h
  have heligible : written.catalog.isEligible lease.jobId.key input.snapshotId = true := by
    rcases htarget with heligible | ⟨pointer, hpointer, hshows⟩
    · exact heligible
    · exact hshows ▸ hwritten.eligible _ pointer hpointer
  have hbefore : ∀ pointer, written.catalog.pointers lease.jobId.key = some pointer →
      ¬ input.provider.Before pointer.provider := by
    intro pointer hpointer
    rw [hsettles.pointers] at hpointer
    obtain ⟨current, hcurrent, hnot⟩ := hs.ordered _ pointer hpointer
    cases hmay.branchRow.symm.trans hcurrent
    exact hprovider ▸ hnot
  have hsame : ∀ pointer, written.catalog.pointers lease.jobId.key = some pointer →
      input.provider.SameSequence pointer.provider →
        pointer.snapshotId = input.snapshotId ∧
          pointer.provider.providerReference = input.provider.providerReference := by
    intro pointer hpointer hsequence
    rw [hsettles.pointers] at hpointer
    rw [hprovider] at hsequence ⊢
    obtain ⟨hnot, hrepeats⟩ := hs.pending _ job checkpoint pointer hmay.jobRow
      (by simp [hmay.leased, JobState.isNonterminal]) hmay.branchRow hmay.currentJob hpointer
    -- the job was queued with the sequence of the checkpoint or a smaller one
    have hrepeated : job.evidence.SameSequence pointer.provider ∧
        job.evidence.providerReference = checkpoint.evidence.providerReference := by
      rcases before_or_sameEvidence_of_confirmation hmay.confirmed with
        hearlier | hequal | ⟨hsequence', hreference⟩
      · exact absurd (hearlier.trans_sameSequence hsequence) hnot
      · have hequal : job.evidence = checkpoint.evidence := hequal
        exact ⟨hequal ▸ hsequence, congrArg _ hequal⟩
      · exact ⟨hsequence'.trans hsequence, hreference⟩
    obtain ⟨hreference, association, hassociation, hshows⟩ :=
      hrepeats revision hmay.targetRevision hrepeated.1
    cases (hsettles.associations _ _ hassociation).symm.trans hstored
    exact ⟨hshows.symm.trans hsnapshot, hreference.symm.trans hrepeated.2⟩
  rw [← hkey] at heligible hbefore hsame hmatches
  rcases Store.promoteBranch_succeeds heligible hexpected hmatches hbefore hsame with
    ⟨hok, -⟩ | hok
  · exact ⟨_, _, hok⟩
  · exact ⟨_, _, hok⟩

/-- A completion keeps the order: the pointer takes over the evidence of the branch, and the job
is over. -/
theorem completion (hs : db.Sound) (hc : db.Coherent) {outcome : PromotionOutcome}
    (h : db.completion parses worker lease material = .ok (db', outcome)) : db'.Sound := by
  obtain ⟨written, input, catalog, hbefore, hpromote, rfl⟩ := completion_eq_ok h
  have hwritten := hs.completionBeforePromotion hc hbefore
  obtain ⟨job, checkpoint, revision, hmay, hsettles, ⟨job', hjob', hover⟩, -, hkey, hprovider, -⟩ :=
    completionBeforePromotion_eq_ok Nobody hc hbefore
  obtain ⟨checkpoint', hcheckpoint', htarget⟩ := hsettles.checkpoint_of hmay.branchRow
  obtain ⟨heligible, hsnapshots, hothers, pointer, hpointer, hshows, hevidence⟩ :=
    Store.promoteBranch_eq_ok hpromote
  rw [hkey] at heligible hothers hpointer
  have hstays (key : BranchKey) (snapshotId : String) :
      catalog.isEligible key snapshotId = written.catalog.isEligible key snapshotId := by
    simp only [Store.isEligible, hsnapshots]
  constructor
  · intro key other hother
    rw [hstays]
    by_cases heq : key = lease.jobId.key
    · subst heq
      cases hpointer.symm.trans hother
      exact hshows ▸ heligible
    · exact hwritten.eligible key other ((hothers key heq).symm.trans hother)
  · intro key other hother
    by_cases heq : key = lease.jobId.key
    · subst heq
      cases hpointer.symm.trans hother
      refine ⟨checkpoint', hcheckpoint', ?_⟩
      rw [hevidence, hprovider, htarget.evidence]
      exact ProviderReference.Before.irrefl _
    · exact hwritten.ordered key other ((hothers key heq).symm.trans hother)
  · intro id row branchRow other hrow hstate hbranch hcurrent hother
    by_cases heq : id.key = lease.jobId.key
    · -- the current job of this branch is the one that is over
      rw [heq] at hbranch
      cases hcheckpoint'.symm.trans hbranch
      obtain rfl : lease.jobId = id :=
        Option.some.inj (hmay.currentJob.symm.trans (htarget.currentJob_eq hcurrent))
      cases hjob'.symm.trans hrow
      simp [hover, JobState.isNonterminal] at hstate
    · exact hwritten.pending id row branchRow other hrow hstate hbranch hcurrent
        ((hothers id.key heq).symm.trans hother)

end Sound

/-! ### The condition on reconciliations -/

/-- An authoritative observation does not undercut the evidence its branch was promoted with, and
one with the same sequence queues an analysis only when it repeats the reference, for a revision
that is associated with the promoted snapshot. -/
def KeepsOrder (db : Database) : Action → Prop
  | .reconcile _ lease _ observation =>
    ∀ pointer, db.catalog.pointers lease.jobId.key = some pointer →
      ¬ observation.providerEvidence.Before pointer.provider ∧
      ∀ active configuration target revision, db.readActive = .ok (active, configuration) →
        configuration.document.targetConfig lease.jobId.key.serviceId = some target →
        observation.state = .present revision →
        db.sameSemanticTarget configuration lease.jobId.key observation.state
          (db.forceRepair configuration lease.jobId.key observation.state) = false →
        observation.providerEvidence.SameSequence pointer.provider →
        db.Repeats observation.providerEvidence (analysisIdentity configuration target revision)
          pointer
  | _ => True

theorem Sound.attempt (hs : db.Sound) (hc : db.Coherent) (hkeeps : db.KeepsOrder action)
    (h : db.attempt parses action = .ok db') : db'.Sound := by
  have hsettles (hsettle : Settles action.issues db db') : db'.Sound := hs.settles hc hsettle
  cases action with
  | tick milliseconds =>
    cases h
    exact ⟨hs.eligible, hs.ordered, hs.pending⟩
  | activateInitialConfiguration fingerprint =>
    obtain ⟨-, -, rfl⟩ := activateInitialConfiguration_eq_ok h
    exact ⟨hs.eligible, hs.ordered, hs.pending⟩
  | activateConfiguration fingerprint expected evidence =>
    rcases activateConfigurationByCas_cases Nobody h with
      rfl | ⟨active, current, next, -, hsettle⟩
    · exact hs
    · have hactive : Sound { db with active := some active } := ⟨hs.eligible, hs.ordered, hs.pending⟩
      exact hactive.settles (hc.of_active _) ((Settles.cancelBranchWork _).trans hsettle)
  | branchEvent event =>
    refine (ingestBranchEvent_induction (Action.branchEvent event).issues
      (I := fun last => last.Sound ∧ last.Coherent) h hc ⟨hs, hc⟩ ?_ ?_).1.1
    · rintro active configuration target before after checkpoint - hcoherent ⟨hsound, -⟩ - -
        haccepts hreplaces
      refine ⟨hsound.replacesCheckpoint hcoherent hreplaces (fun pointer hpointer => ?_)
        (fun pointer revision hpointer _ _ hsame => ?_), hcoherent.replacesCheckpoint hreplaces⟩
      · exact (hsound.after_of_acceptsUpdate haccepts hpointer).1
      · exact absurd hsame (hsound.after_of_acceptsUpdate haccepts hpointer).2
    · rintro before after ⟨hsound, hcoherent⟩ hsettle
      exact ⟨hsound.settles hcoherent hsettle, hcoherent.keepsBranches hsettle.toKeepsBranches⟩
  | reconcile worker lease reference observation =>
    obtain ⟨-, -, -, -, active, configuration, target, _, scheduled, hread, htarget, hkey, hreplaces,
      hsettle, -⟩ := executeReconciliation_eq_ok Nobody hc h
    refine (hs.replacesCheckpoint hc hreplaces (fun pointer hpointer => ?_)
      (fun pointer revision hpointer hstate hsemantic hsame => ?_)).settles
        (hc.replacesCheckpoint hreplaces) hsettle
    · rw [hkey] at hpointer
      exact (hkeeps pointer hpointer).1
    · rw [hkey] at hpointer hsemantic
      exact (hkeeps pointer hpointer).2 active configuration target revision hread htarget hstate
        hsemantic hsame
  | complete worker lease material =>
    obtain ⟨⟨written, outcome⟩, hcompletion, rfl⟩ := map_eq_ok.mp h
    exact hs.completion hc hcompletion
  | _ => exact hsettles (.attempt rfl h)

/-- Every operation that meets the condition keeps the order. -/
theorem Sound.perform (hs : db.Sound) (hc : db.Coherent) (hkeeps : db.KeepsOrder action) :
    (db.perform parses action).Sound := by
  rcases perform_eq_or parses db action with hsame | hok
  · rwa [hsame]
  · exact hs.attempt hc hkeeps hok

theorem IsInitial.sound (h : db.IsInitial) : db.Sound where
  eligible key pointer hpointer := by simp [h.pointers key] at hpointer
  ordered key pointer hpointer := by simp [h.pointers key] at hpointer
  pending id job checkpoint pointer hjob := by simp [h.jobs id] at hjob

end Database

end ApiTruth.Orchestration
