import ApiTruth.Orchestration.Frame

/-!
# Updates of a branch

An update that is accepted replaces the checkpoint of its branch: it confirms the target, records
the absence, or queues the next analysis.  This file says what the three have in common, so that
the invariants of the store are proved once.

## Main definitions

* `Database.Coherent` : an open analysis is the current job of its branch.
* `Database.AcceptsUpdate` : the classification lets the update through.
* `Database.ReplacesCheckpoint` : what an accepted update does.

## Main results

* `Database.Coherent.keepsBranches`, `Database.Coherent.replacesCheckpoint`.
* `Database.scheduleBranch_cases` : an update changes nothing or is accepted and replaces the
  checkpoint.
-/

namespace ApiTruth.Orchestration

open Catalog Checked Option Function Except

namespace Database

variable {db db' : Database} {issued : JobIdentity → LeaseHolder → Prop}

/-! ### Coherence -/

/-- Jobs are stored under their identity, analyses have generations that their branch has
reached, and the job of a checkpoint and the open analysis of a branch are the same job, for the
desired revision. -/
structure Coherent (db : Database) : Prop where
  identity : ∀ id job, db.jobs id = some job → job.identity = id
  fresh : ∀ id job, db.jobs id = some job → id.kind = .branchAnalysis →
    ∃ checkpoint, db.branches id.key = some checkpoint ∧
      id.generation ≤ checkpoint.analysisGeneration
  current : ∀ key checkpoint id, db.branches key = some checkpoint →
    checkpoint.currentJob = some id → id.kind = .branchAnalysis ∧ id.key = key ∧
      (∃ job, db.jobs id = some job) ∧
      ∃ revision, checkpoint.desired = .present revision ∧ id.targetRevision = some revision
  isOpen : ∀ id job, db.jobs id = some job → id.kind = .branchAnalysis → job.IsOpen →
    ∃ checkpoint, db.branches id.key = some checkpoint ∧ checkpoint.currentJob = some id

namespace Coherent

theorem keepsBranches (hc : db.Coherent) (h : KeepsBranches issued db db') : db'.Coherent where
  identity id job' hjob' := by
    cases hjob : db.jobs id with
    | none => exact (h.newJobs id job' hjob hjob').1
    | some job =>
      obtain ⟨other, hother, hwork⟩ := h.jobs id job hjob
      cases hjob'.symm.trans hother
      exact hwork.identity.trans (hc.identity id job hjob)
  fresh id job' hjob' hkind := by
    obtain ⟨job, hjob, -⟩ := h.job_from hkind hjob'
    obtain ⟨checkpoint, hcheckpoint, hle⟩ := hc.fresh id job hjob hkind
    obtain ⟨checkpoint', hcheckpoint', htarget⟩ := h.checkpoint_of hcheckpoint
    exact ⟨checkpoint', hcheckpoint', htarget.analysisGeneration ▸ hle⟩
  current key checkpoint' id hcheckpoint' hcurrent' := by
    obtain ⟨checkpoint, hcheckpoint, htarget⟩ := h.checkpoint_from hcheckpoint'
    obtain ⟨hkind, hkey, ⟨job, hjob⟩, revision, hdesired, hrevision⟩ :=
      hc.current key checkpoint id hcheckpoint (htarget.currentJob_eq hcurrent')
    obtain ⟨job', hjob', -⟩ := h.jobs id job hjob
    exact ⟨hkind, hkey, ⟨job', hjob'⟩, revision, htarget.desired.trans hdesired, hrevision⟩
  isOpen id job' hjob' hkind hopen := by
    obtain ⟨job, hjob, hwork⟩ := h.job_from hkind hjob'
    obtain ⟨checkpoint, hcheckpoint, hcurrent⟩ := hc.isOpen id job hjob hkind (hwork.isOpen hopen)
    obtain ⟨checkpoint', hcheckpoint', -⟩ := h.checkpoint_of hcheckpoint
    refine ⟨checkpoint', hcheckpoint', ?_⟩
    by_contra hnot
    exact h.released id checkpoint checkpoint' job' hkind hcheckpoint hcurrent hcheckpoint' hnot
      hjob' hopen

theorem of_active (hc : db.Coherent) (active : Option ActiveConfiguration) :
    Coherent { db with active := active } :=
  ⟨hc.identity, hc.fresh, hc.current, hc.isOpen⟩

theorem jobs_nextGeneration (hc : db.Coherent) (configuration : SchedulingConfiguration)
    (target : TargetConfig) (branch revision : String) :
    db.jobs (branchAnalysisIdentity configuration target branch revision
      (db.nextGeneration (target.key branch))) = none := by
  by_contra hsome
  obtain ⟨job, hjob⟩ := Option.ne_none_iff_exists'.mp hsome
  obtain ⟨checkpoint, hcheckpoint, hle⟩ := hc.fresh _ job hjob rfl
  simp only [branchAnalysisIdentity] at hcheckpoint hle
  simp only [nextGeneration, hcheckpoint] at hle
  omega

end Coherent

/-! ### What an accepted update does -/

/-- The classification lets the update through; authoritative ones always pass. -/
def AcceptsUpdate (db : Database) (key : BranchKey) (desired : DesiredState)
    (evidence : ProviderReference) (authoritative : Option Bool) : Prop :=
  authoritative = none →
    classifyProviderUpdate ((db.branches key).map BranchCheckpoint.providerCheckpoint)
        ⟨evidence, desired⟩ = .first ∨
      classifyProviderUpdate ((db.branches key).map BranchCheckpoint.providerCheckpoint)
        ⟨evidence, desired⟩ = .newer

/-- The checkpoint of the branch is replaced by one with the state and the evidence of the update.
Its current job is the one before or the newly queued one, and no other job stays open. -/
structure ReplacesCheckpoint (issued : JobIdentity → LeaseHolder → Prop)
    (configuration : SchedulingConfiguration) (target : TargetConfig) (branch : String)
    (desired : DesiredState) (evidence : ProviderReference) (forceRepair : Bool)
    (db db' : Database) (checkpoint : BranchCheckpoint) : Prop
    extends KeepsJobs issued db db' where
  active : db'.active = db.active
  configurations : db'.configurations = db.configurations
  reconciliations : db'.reconciliations = db.reconciliations
  revisionSnapshots : db'.revisionSnapshots = db.revisionSnapshots
  catalog : db'.catalog = db.catalog
  branches : db'.branches = Function.update db.branches (target.key branch) (some checkpoint)
  desired_eq : checkpoint.desired = desired
  evidence_eq : checkpoint.evidence = evidence
  generation : ∀ current, db.branches (target.key branch) = some current →
    current.analysisGeneration ≤ checkpoint.analysisGeneration
  newJob : ∀ id job', db.jobs id = none → db'.jobs id = some job' →
    checkpoint.currentJob = some id
  reconciliationJobs : ∀ id, id.kind = .branchReconciliation → db'.jobs id = db.jobs id
  current : ∀ id, checkpoint.currentJob = some id →
    (∃ before, db.branches (target.key branch) = some before ∧ before.currentJob = some id ∧
        before.desired = desired) ∨
      ∃ revision, desired = .present revision ∧
        db.sameSemanticTarget configuration (target.key branch) desired forceRepair = false ∧
        id = branchAnalysisIdentity configuration target branch revision
          checkpoint.analysisGeneration ∧
        db.jobs id = none ∧ db'.jobs id = some (db.newJob configuration target id evidence)
  released : ∀ before id job', db.branches (target.key branch) = some before →
    before.currentJob = some id → checkpoint.currentJob ≠ some id → db'.jobs id = some job' →
    ¬ job'.IsOpen
  confirms : db.sameSemanticTarget configuration (target.key branch) desired forceRepair = true →
    db'.jobs = db.jobs ∧ ∃ before, db.branches (target.key branch) = some before ∧
      checkpoint = { before with
        evidence := evidence
        checkpointVersion := before.checkpointVersion + 1 }

section

variable {configuration : SchedulingConfiguration} {target : TargetConfig} {branch : String}
  {desired : DesiredState} {evidence : ProviderReference} {forceRepair : Bool}
  {checkpoint : BranchCheckpoint}

namespace ReplacesCheckpoint

variable (h : ReplacesCheckpoint issued configuration target branch desired evidence forceRepair db db' checkpoint)

include h in
theorem branches_self : db'.branches (target.key branch) = some checkpoint := by
  rw [h.branches, update_self]

include h in
theorem branches_of_ne {key : BranchKey} (hkey : key ≠ target.key branch) :
    db'.branches key = db.branches key := by
  rw [h.branches, update_of_ne hkey]

end ReplacesCheckpoint

theorem Coherent.replacesCheckpoint (hc : db.Coherent)
    (h : ReplacesCheckpoint issued configuration target branch desired evidence forceRepair db db'
      checkpoint) : db'.Coherent where
  identity id job' hjob' := by
    cases hjob : db.jobs id with
    | none => exact (h.newJobs id job' hjob hjob').1
    | some job =>
      obtain ⟨other, hother, hwork⟩ := h.jobs id job hjob
      cases hjob'.symm.trans hother
      exact hwork.identity.trans (hc.identity id job hjob)
  fresh id job' hjob' hkind := by
    cases hjob : db.jobs id with
    | none =>
      rcases h.current id (h.newJob id job' hjob hjob') with
        ⟨before, hbefore, hcurrent, -⟩ | ⟨revision, -, -, hid, -, -⟩
      · obtain ⟨-, -, ⟨job, hsome⟩, -⟩ := hc.current _ before id hbefore hcurrent
        simp [hjob] at hsome
      · exact ⟨checkpoint, by rw [hid]; exact h.branches_self, by rw [hid]; exact le_refl _⟩
    | some job =>
      obtain ⟨before, hbefore, hle⟩ := hc.fresh id job hjob hkind
      by_cases hkey : id.key = target.key branch
      · exact ⟨checkpoint, hkey ▸ h.branches_self, hle.trans (h.generation before (hkey ▸ hbefore))⟩
      · exact ⟨before, (h.branches_of_ne hkey).trans hbefore, hle⟩
  current key checkpoint' id hcheckpoint' hcurrent' := by
    by_cases hkey : key = target.key branch
    · subst hkey
      cases h.branches_self.symm.trans hcheckpoint'
      rcases h.current id hcurrent' with
        ⟨before, hbefore, hcurrent, hdesired⟩ | ⟨revision, hdesired, -, hid, -, hjob'⟩
      · obtain ⟨hkind, hidkey, ⟨job, hjob⟩, revision, hrevision, htarget⟩ :=
          hc.current _ before id hbefore hcurrent
        obtain ⟨job', hjob', -⟩ := h.jobs id job hjob
        exact ⟨hkind, hidkey, ⟨job', hjob'⟩, revision,
          h.desired_eq.trans (hdesired.symm.trans hrevision), htarget⟩
      · refine ⟨by rw [hid]; rfl, by rw [hid]; rfl, ⟨_, hjob'⟩, revision,
          h.desired_eq.trans hdesired, by rw [hid]; rfl⟩
    · rw [h.branches_of_ne hkey] at hcheckpoint'
      obtain ⟨hkind, hidkey, ⟨job, hjob⟩, hrest⟩ := hc.current key checkpoint' id hcheckpoint' hcurrent'
      obtain ⟨job', hjob', -⟩ := h.jobs id job hjob
      exact ⟨hkind, hidkey, ⟨job', hjob'⟩, hrest⟩
  isOpen id job' hjob' hkind hopen := by
    cases hjob : db.jobs id with
    | none =>
      have hcurrent := h.newJob id job' hjob hjob'
      rcases h.current id hcurrent with ⟨before, hbefore, hbeforeJob, -⟩ | ⟨revision, -, -, hid, -, -⟩
      · obtain ⟨-, -, ⟨job, hsome⟩, -⟩ := hc.current _ before id hbefore hbeforeJob
        simp [hjob] at hsome
      · exact ⟨checkpoint, by rw [hid]; exact h.branches_self, hcurrent⟩
    | some job =>
      obtain ⟨other, hother, hwork⟩ := h.jobs id job hjob
      cases hjob'.symm.trans hother
      obtain ⟨before, hbefore, hcurrent⟩ := hc.isOpen id job hjob hkind (hwork.isOpen hopen)
      by_cases hkey : id.key = target.key branch
      · refine ⟨checkpoint, hkey ▸ h.branches_self, ?_⟩
        by_contra hnot
        exact h.released before id job' (hkey ▸ hbefore) hcurrent hnot hjob' hopen
      · exact ⟨before, (h.branches_of_ne hkey).trans hbefore, hcurrent⟩

/-! ### The three updates -/

theorem replacesCheckpoint_confirmBranch {current : BranchCheckpoint}
    (hcurrent : db.branches (target.key branch) = some current)
    (hdesired : current.desired = desired) :
    ReplacesCheckpoint issued configuration target branch desired evidence forceRepair db
      (db.confirmBranch (target.key branch) evidence)
      { current with evidence := evidence, checkpointVersion := current.checkpointVersion + 1 } :=
  { (KeepsJobs.of_eq rfl : KeepsJobs issued db (db.confirmBranch (target.key branch) evidence)) with
    active := rfl
    configurations := rfl
    reconciliations := rfl
    revisionSnapshots := rfl
    catalog := rfl
    branches := by simp only [confirmBranch, hcurrent, map_some]
    desired_eq := hdesired
    evidence_eq := rfl
    generation := fun before hbefore => by
      cases hcurrent.symm.trans hbefore
      exact le_refl _
    newJob := fun id job' hnone hsome => by
      simp only [confirmBranch, hnone] at hsome
      cases hsome
    reconciliationJobs := fun _ _ => rfl
    current := fun id hid => .inl ⟨current, hcurrent, hid, hdesired⟩
    released := fun before id job' hbefore hid hnot => by
      cases hcurrent.symm.trans hbefore
      exact absurd hid hnot
    confirms := fun _ => ⟨rfl, current, hcurrent, rfl⟩ }

theorem rows_persistCancel (old : Option JobIdentity) :
    db.persistCancel old = { db with jobs := (db.persistCancel old).jobs } := by
  cases old <;> rfl

variable (job : Job)

theorem rows_persistJob :
    db.persistJob job = { db with jobs := (db.persistJob job).jobs } := by
  unfold persistJob
  split <;> rfl

theorem rows_persistJob_persistSupersede (old : Option JobIdentity) (next : JobIdentity) :
    (db.persistJob job).persistSupersede old next =
      { db with jobs := ((db.persistJob job).persistSupersede old next).jobs } := by
  cases old with
  | none => exact rows_persistJob job
  | some old =>
    simp only [persistSupersede]
    split_ifs
    · exact rows_persistJob job
    · unfold updateJob persistJob
      split <;> rfl

variable {old : Option JobIdentity} {id : JobIdentity}

theorem jobs_persistCancel_of_none
    (hnone : db.jobs id = none) : (db.persistCancel old).jobs id = none := by
  cases old with
  | none => exact hnone
  | some old =>
    by_cases hid : id = old
    · subst hid
      simp [persistCancel, updateJob, hnone]
    · simp [persistCancel, updateJob, hid, hnone]

theorem not_isOpen_of_persistCancel {job' : Job}
    (hjob' : (db.persistCancel (some id)).jobs id = some job') : ¬ job'.IsOpen := by
  simp only [persistCancel, updateJob, update_self, map_eq_some_iff] at hjob'
  obtain ⟨job, -, rfl⟩ := hjob'
  exact not_isOpen_cancel job

theorem not_isOpen_of_persistSupersede {id next : JobIdentity} {job' : Job} (hne : id ≠ next)
    (hjob' : (db.persistSupersede (some id) next).jobs id = some job') : ¬ job'.IsOpen := by
  simp only [persistSupersede, hne, ↓reduceIte, updateJob, update_self, map_eq_some_iff] at hjob'
  obtain ⟨job, -, rfl⟩ := hjob'
  exact not_isOpen_supersede job next

theorem jobs_persistCancel_of_ne
    (hid : old ≠ some id) : (db.persistCancel old).jobs id = db.jobs id := by
  cases old with
  | none => rfl
  | some old =>
    have hne : id ≠ old := by
      rintro rfl
      exact hid rfl
    simp [persistCancel, updateJob, hne]

theorem Coherent.currentJob_ne (hc : db.Coherent) (key : BranchKey)
    (hkind : id.kind = .branchReconciliation) :
    (db.branches key).bind BranchCheckpoint.currentJob ≠ some id := by
  intro hid
  obtain ⟨before, hbefore, hcurrent⟩ := Option.bind_eq_some_iff.mp hid
  have hanalysis := (hc.current key before id hbefore hcurrent).1
  simp [hkind] at hanalysis

theorem replacesCheckpoint_scheduleAbsence (hc : db.Coherent)
    (hsame : db.sameSemanticTarget configuration (target.key branch) .absent forceRepair = false) :
    ∃ checkpoint,
    ReplacesCheckpoint issued configuration target branch .absent evidence forceRepair db
      (db.scheduleAbsence (target.key branch) evidence) checkpoint := by
  unfold scheduleAbsence
  refine ⟨_, {
    toKeepsJobs := (KeepsJobs.of_branches db _).trans (KeepsJobs.persistCancel _)
    active := by rw [rows_persistCancel]
    configurations := by rw [rows_persistCancel]
    reconciliations := by rw [rows_persistCancel]
    revisionSnapshots := by rw [rows_persistCancel]
    catalog := by rw [rows_persistCancel]
    branches := by rw [rows_persistCancel]
    desired_eq := ?_
    evidence_eq := ?_
    generation := fun current hcurrent => ?_
    newJob := fun id job' hnone hsome => ?_
    reconciliationJobs := fun id hkind => jobs_persistCancel_of_ne (hc.currentJob_ne _ hkind)
    current := fun id hid => ?_
    released := fun before id job' hbefore hid hnot hjob' => ?_
    confirms := fun hconfirms => absurd hconfirms (by simp [hsame]) }⟩
  · split <;> rfl
  · split <;> rfl
  · simp only [hcurrent]
    exact le_refl _
  · exact absurd (hsome.symm.trans (jobs_persistCancel_of_none hnone)) (some_ne_none job')
  · split at hid <;> cases hid
  · simp only [hbefore, bind_some, hid] at hjob'
    exact not_isOpen_of_persistCancel hjob'

theorem jobs_persistSupersede_of_ne {next id : JobIdentity}
    (hid : old ≠ some id) : (db.persistSupersede old next).jobs id = db.jobs id := by
  cases old with
  | none => rfl
  | some old =>
    have hne : id ≠ old := by
      rintro rfl
      exact hid rfl
    simp only [persistSupersede]
    split_ifs
    · rfl
    · simp [updateJob, hne]

theorem jobs_persistSupersede_of_none {next id : JobIdentity}
    (hnone : db.jobs id = none) : (db.persistSupersede old next).jobs id = none := by
  by_cases hid : old = some id
  · subst hid
    simp only [persistSupersede]
    split_ifs
    · exact hnone
    · simp [updateJob, hnone]
  · rw [jobs_persistSupersede_of_ne hid, hnone]

theorem jobs_persistJob_of_ne (hid : id ≠ job.identity) :
    (db.persistJob job).jobs id = db.jobs id := by
  unfold persistJob
  split
  · rfl
  · simp [hid]

theorem jobs_persistJob_self (hnone : db.jobs job.identity = none) :
    (db.persistJob job).jobs job.identity = some job := by
  simp [persistJob, hnone]

/-- Queueing an analysis replaces the checkpoint, when the identity of the job is new. -/
theorem replacesCheckpoint_scheduleAnalysis (hc : db.Coherent) {revision : String}
    (hsame : db.sameSemanticTarget configuration (target.key branch) (.present revision)
      forceRepair = false) : ∃ checkpoint,
    ReplacesCheckpoint issued configuration target branch (.present revision) evidence forceRepair
      db (db.scheduleAnalysis configuration target branch revision evidence) checkpoint := by
  have hnew := hc.jobs_nextGeneration configuration target branch revision
  unfold scheduleAnalysis
  dsimp only
  generalize hid : branchAnalysisIdentity configuration target branch revision
    (db.nextGeneration (target.key branch)) = id at hnew ⊢
  -- the superseded job has a row, so it is not the new one
  have hold : (db.branches (target.key branch)).bind BranchCheckpoint.currentJob ≠ some id := by
    intro hold
    obtain ⟨before, hbefore, hcurrent⟩ := Option.bind_eq_some_iff.mp hold
    obtain ⟨-, -, ⟨job, hjob⟩, -⟩ := hc.current _ before id hbefore hcurrent
    simp [hnew] at hjob
  refine ⟨_, {
    toKeepsJobs := ((KeepsJobs.of_branches db _).trans (KeepsJobs.persistJob rfl)).trans
      (KeepsJobs.persistSupersede _ _)
    active := by rw [rows_persistJob_persistSupersede]
    configurations := by rw [rows_persistJob_persistSupersede]
    reconciliations := by rw [rows_persistJob_persistSupersede]
    revisionSnapshots := by rw [rows_persistJob_persistSupersede]
    catalog := by rw [rows_persistJob_persistSupersede]
    branches := by rw [rows_persistJob_persistSupersede]
    desired_eq := ?_
    evidence_eq := ?_
    generation := fun current hcurrent => ?_
    newJob := fun other job' hnone hsome => ?_
    reconciliationJobs := fun other hkind => ?_
    current := fun other hother => .inr ⟨revision, rfl, hsame, ?_⟩
    released := fun before other job' hbefore hother hnot hjob' => ?_
    confirms := fun hconfirms => absurd hconfirms (by simp [hsame]) }⟩
  · split <;> rfl
  · split <;> rfl
  · simp only [hcurrent, nextGeneration]
    omega
  · have hother : other = id := by
      by_contra hne
      exact some_ne_none job' (hsome.symm.trans
        (jobs_persistSupersede_of_none ((jobs_persistJob_of_ne _ hne).trans hnone)))
    subst hother
    split <;> rfl
  · refine (jobs_persistSupersede_of_ne (hc.currentJob_ne _ hkind)).trans
      (jobs_persistJob_of_ne _ fun h => ?_)
    rw [show other = id from h, ← hid] at hkind
    cases hkind
  · have hother : other = id := by
      split at hother <;> exact (Option.some.inj hother).symm
    subst hother
    refine ⟨?_, hnew, ?_⟩
    · rw [← hid]
      split <;> rfl
    · rw [jobs_persistSupersede_of_ne hold]
      exact jobs_persistJob_self (db.newJob configuration target other evidence) hnew
  · simp only [hbefore, bind_some, hother] at hjob' hold
    exact not_isOpen_of_persistSupersede (fun h => hold (congrArg some h)) hjob'

/-! ### Scheduling -/

theorem replacesCheckpoint_of_accepted (hc : db.Coherent) {disposition : EventDisposition}
    (h : (if db.sameSemanticTarget configuration (target.key branch) desired forceRepair = true then
        ok (ε := OrchestrationError) (db.confirmBranch (target.key branch) evidence,
          if ((db.branches (target.key branch)).bind fun current =>
            db.currentJobRow current.currentJob).any (·.state.isNonterminal) then
            EventDisposition.scheduled else .noWork)
      else match desired with
        | .absent => .ok (db.scheduleAbsence (target.key branch) evidence, .scheduled)
        | .present revision =>
          .ok (db.scheduleAnalysis configuration target branch revision evidence, .scheduled))
        = .ok (db', disposition)) :
    ∃ checkpoint, ReplacesCheckpoint issued configuration target branch desired evidence forceRepair
      db db' checkpoint := by
  by_cases hsame : db.sameSemanticTarget configuration (target.key branch) desired forceRepair = true
  · rw [if_pos hsame] at h
    obtain ⟨rfl, -⟩ := Prod.mk.inj (ok.inj h)
    simp only [sameSemanticTarget, Bool.and_eq_true, Option.any_eq_true] at hsame
    obtain ⟨-, current, hcurrent, hdesired, -⟩ := hsame
    exact ⟨_, replacesCheckpoint_confirmBranch hcurrent (beq_iff_eq.mp hdesired)⟩
  · rw [if_neg hsame] at h
    cases desired with
    | absent =>
      obtain ⟨rfl, -⟩ := Prod.mk.inj (ok.inj h)
      exact replacesCheckpoint_scheduleAbsence hc (by simpa using hsame)
    | present revision =>
      obtain ⟨rfl, -⟩ := Prod.mk.inj (ok.inj h)
      exact replacesCheckpoint_scheduleAnalysis hc (by simpa using hsame)

theorem scheduleBranch_cases (hc : db.Coherent) {authoritative : Option Bool}
    {disposition : EventDisposition} (h : db.scheduleBranch configuration target branch desired
      evidence authoritative = .ok (db', disposition)) :
    (db' = db ∧ (branch ∈ target.service.intendedBranches → authoritative = none)) ∨
      branch ∈ target.service.intendedBranches ∧
      db.AcceptsUpdate (target.key branch) desired evidence authoritative ∧
      ∃ checkpoint, ReplacesCheckpoint issued configuration target branch desired evidence
        (authoritative.getD false) db db' checkpoint := by
  unfold scheduleBranch at h
  by_cases hbranch : branch ∉ target.service.intendedBranches
  · rw [if_pos hbranch] at h
    exact .inl ⟨(Prod.mk.inj (ok.inj h)).1.symm, fun h => absurd h hbranch⟩
  · rw [if_neg hbranch] at h
    have hbranch := not_not.mp hbranch
    cases authoritative with
    | some forceRepair =>
      exact .inr ⟨hbranch, fun h => (by cases h), replacesCheckpoint_of_accepted hc h⟩
    | none =>
      dsimp only at h
      split at h
      · cases h
      · exact .inl ⟨(Prod.mk.inj (ok.inj h)).1.symm, fun _ => rfl⟩
      · exact .inl ⟨(Prod.mk.inj (ok.inj h)).1.symm, fun _ => rfl⟩
      · exact .inl ⟨(Prod.mk.inj (ok.inj h)).1.symm, fun _ => rfl⟩
      · next hfirst =>
        exact .inr ⟨hbranch, fun _ => .inl hfirst, replacesCheckpoint_of_accepted hc h⟩
      · next hnewer =>
        exact .inr ⟨hbranch, fun _ => .inr hnewer, replacesCheckpoint_of_accepted hc h⟩

end

end Database

end ApiTruth.Orchestration
