import ApiTruth.Orchestration.Queue.Stagings

/-!
# Valid plans

A part is staged after checks of the planner.  Such a part queues a job of the next generation of
its checkpoint that the configuration allows, and displaces the current job unless that is over or
is the reconciliation that the plan completes.  A plan is made of such parts about distinct
checkpoints, and of dependencies of its previews.

## Main definitions

* `Staging.Valid` : what the planner has checked when it stages a part.
* `Planned` : the plans made of valid parts.

## Main results

* `StagedJob.Sound.of_valid` : the job of a valid part.
* `Database.current_afterWrites_part` : the current job after the write of a part.
* `Planned.pointers` : the current jobs after the writes of a plan.
-/

namespace ApiTruth.Orchestration.Queue

open Catalog Checked List Option OrderedMap

/-! ### Checks of the planner -/

/-- What the planner has checked when it stages a part of a plan, which may complete a
reconciliation of a pull request. -/
def Staging.Valid (db : Database) (configuration : SchedulingConfiguration)
    (finishing : Option JobIdentity) : Staging → Prop
  | baseline event target revision =>
    Listed configuration target ∧ revision ≠ "" ∧ isNamedEvidence event.evidence = true ∧
      ∀ row, db.analyses.get? (analysisIdentity configuration target revision) = some row →
        row.currentJob = none ∨ row.lastTerminalOutcome.isSome = true
  | confirmation key row evidence =>
    db.branches.get? key = some row ∧ isNamedEvidence evidence = true
  | absence target branch evidence =>
    Listed configuration target ∧ branch ∈ target.service.intendedBranches ∧
      isNamedEvidence evidence = true ∧ finishing = none
  | analysis _ target branch revision evidence =>
    Listed configuration target ∧ branch ∈ target.service.intendedBranches ∧ revision ≠ "" ∧
      isNamedEvidence evidence = true ∧ finishing = none
  | reconciliation _ target branch reference evidence =>
    Listed configuration target ∧ branch ∈ target.service.intendedBranches ∧ reference ≠ "" ∧
      isNamedEvidence evidence = true ∧ finishing = none
  | pullRequestReconciliation event target pullRequestId update =>
    Listed configuration target ∧ target.service.intendedBranches ≠ [] ∧
      isNamedUpdate pullRequestId update = true ∧ isNamedEvidence event.evidence = true ∧
      finishing = none
  | acceptance _ target pullRequestId update reconciliationJob =>
    Listed configuration target ∧ target.service.intendedBranches ≠ [] ∧
      isNamedUpdate pullRequestId update = true ∧ reconciliationJob = finishing
  | branchCancellation key row => db.branches.get? key = some row ∧ finishing = none
  | pullRequestCancellation key row => db.pullRequests.get? key = some row ∧ finishing = none
  | reconciliationCancellation key row => db.reconciliations.get? key = some row ∧ finishing = none
  | baselineCancellation key row => db.analyses.get? key = some row ∧ finishing = none

/-- The job of a part, in relation to its checkpoint and the configuration. -/
structure StagedJob.Sound (db : Database) (configuration : SchedulingConfiguration) (slot : Slot)
    (staged : StagedJob) : Prop where
  slot_eq : (staged.id configuration).slot = some slot
  service : slot.serviceId = (staged.id configuration).serviceId
  generation_eq : (staged.id configuration).generation =
    db.generation (staged.id configuration).kind slot + 1
  listed : Listed configuration staged.target
  allowed : allows configuration (staged.id configuration) = true

section Parts

variable {db db₁ : Database} {configuration : SchedulingConfiguration}
  {finishing : Option JobIdentity} {staging : Staging} {staged : StagedJob}

theorem allows_jobIdentity_iff {target : TargetConfig} {input : JobInput}
    (htarget : Listed configuration target) :
    allows configuration (jobIdentity configuration target input) = true ↔
      match input.kind with
      | .branchAnalysis | .branchReconciliation =>
        input.branch.any (· ∈ target.service.intendedBranches) = true
      | .prPreviewAnalysis | .prReconciliation => target.service.intendedBranches ≠ []
      | .baselineAnalysis => True := by
  unfold Listed at htarget
  obtain ⟨kind⟩ := input
  cases kind <;> simp [allows, jobIdentity, htarget, length_pos_iff]

theorem StagedJob.Sound.of_valid (hvalid : staging.Valid db configuration finishing)
    (hstaged : db.stagedJob configuration staging = some staged) :
    staged.Sound db configuration (staging.slot configuration) := by
  cases staging with
  | acceptance event target pullRequestId update reconciliationJob =>
    simp only [Database.stagedJob] at hstaged
    split_ifs at hstaged with hterminal
    cases hstaged
    exact
      { slot_eq := rfl
        service := rfl
        generation_eq := rfl
        listed := hvalid.1
        allowed := (allows_jobIdentity_iff hvalid.1).mpr hvalid.2.1 }
  | baseline event target revision =>
    cases hstaged
    exact
      { slot_eq := rfl
        service := rfl
        generation_eq := rfl
        listed := hvalid.1
        allowed := (allows_jobIdentity_iff hvalid.1).mpr trivial }
  | analysis event target branch revision evidence =>
    cases hstaged
    exact
      { slot_eq := rfl
        service := rfl
        generation_eq := rfl
        listed := hvalid.1
        allowed := (allows_jobIdentity_iff hvalid.1).mpr (by simpa using hvalid.2.1) }
  | reconciliation event target branch reference evidence =>
    cases hstaged
    exact
      { slot_eq := rfl
        service := rfl
        generation_eq := rfl
        listed := hvalid.1
        allowed := (allows_jobIdentity_iff hvalid.1).mpr (by simpa using hvalid.2.1) }
  | pullRequestReconciliation event target pullRequestId update =>
    cases hstaged
    exact
      { slot_eq := rfl
        service := rfl
        generation_eq := rfl
        listed := hvalid.1
        allowed := (allows_jobIdentity_iff hvalid.1).mpr hvalid.2.1 }
  | _ => cases hstaged

end Parts

/-! ### Current jobs after the write of a part -/

namespace Database

def afterWrites (db : Database) (plan : SchedulingPlan) : Database :=
  plan.checkpointWrites.foldl writeCheckpoint db

/-- A checkpoint points to the same job, and has asked for the same jobs, in both databases. -/
def AgreeAt (slot : Slot) (db db₁ : Database) : Prop :=
  db₁.current slot = db.current slot ∧ ∀ kind, db₁.generation kind slot = db.generation kind slot

variable {db db₁ : Database} {configuration : SchedulingConfiguration}
  {finishing : Option JobIdentity} {staging : Staging} {staged : StagedJob} {slot : Slot}

@[refl] theorem AgreeAt.refl (db : Database) : AgreeAt slot db db := ⟨rfl, fun _ => rfl⟩

theorem AgreeAt.trans {db₂ : Database} (h : AgreeAt slot db db₁) (h' : AgreeAt slot db₁ db₂) :
    AgreeAt slot db db₂ :=
  ⟨h'.1.trans h.1, fun kind => (h'.2 kind).trans (h.2 kind)⟩

theorem bind_fst_of_map_eq {ρ α β : Type} {f : ρ → Option α × β} {row row' : Option ρ}
    (h : row.map f = row'.map f) :
    (row.bind fun row => (f row).1) = row'.bind fun row => (f row).1 := by
  simpa only [bind_map, Function.comp_def] using congrArg (·.bind Prod.fst) h

theorem getD_of_map_eq {ρ α : Type} {f : ρ → α} {row row' : Option ρ} (g : α → ℕ)
    (h : row.map f = row'.map f) :
    (row.map fun row => g (f row)).getD 0 = (row'.map fun row => g (f row)).getD 0 := by
  simpa only [Option.map_map, Function.comp_def] using congrArg (fun row => (row.map g).getD 0) h

theorem agreeAt_branch {key : BranchKey}
    (h : (db₁.branches.get? key).map (fun row => (row.currentJob, row.analysisGeneration)) =
      (db.branches.get? key).map fun row => (row.currentJob, row.analysisGeneration)) :
    AgreeAt (.branch key) db db₁ := by
  refine ⟨bind_fst_of_map_eq h, fun kind => ?_⟩
  cases kind with
  | branchAnalysis => exact getD_of_map_eq Prod.snd h
  | _ => rfl

theorem agreeAt_pullRequest {key : PullRequestKey}
    (h : (db₁.pullRequests.get? key).map (fun row =>
        (row.currentJob, row.analysisGeneration, row.reconciliationGeneration)) =
      (db.pullRequests.get? key).map fun row =>
        (row.currentJob, row.analysisGeneration, row.reconciliationGeneration)) :
    AgreeAt (.pullRequest key) db db₁ := by
  refine ⟨bind_fst_of_map_eq h, fun kind => ?_⟩
  cases kind with
  | prPreviewAnalysis => exact getD_of_map_eq (·.2.1) h
  | prReconciliation => exact getD_of_map_eq (·.2.2) h
  | _ => rfl

theorem agreeAt_reconciliation {key : BranchKey}
    (h : (db₁.reconciliations.get? key).map (fun row => (row.currentJob, row.generation)) =
      (db.reconciliations.get? key).map fun row => (row.currentJob, row.generation)) :
    AgreeAt (.reconciliation key) db db₁ := by
  refine ⟨bind_fst_of_map_eq h, fun kind => ?_⟩
  cases kind with
  | branchReconciliation => exact getD_of_map_eq Prod.snd h
  | _ => rfl

theorem agreeAt_analysis {key : AnalysisIdentity}
    (h : (db₁.analyses.get? key).map (fun row => (row.currentJob, row.attemptGeneration)) =
      (db.analyses.get? key).map fun row => (row.currentJob, row.attemptGeneration)) :
    AgreeAt (.analysis key) db db₁ := by
  refine ⟨bind_fst_of_map_eq h, fun kind => ?_⟩
  cases kind with
  | baselineAnalysis => exact getD_of_map_eq Prod.snd h
  | _ => rfl

theorem agreeAt_writeCheckpoint {write : CheckpointWrite} (hslot : slot ≠ write.slot) :
    AgreeAt slot db (db.writeCheckpoint write) := by
  cases slot with
  | branch key =>
    refine agreeAt_branch ?_
    cases write <;> simp_all [writeCheckpoint, CheckpointWrite.slot]
  | pullRequest key =>
    refine agreeAt_pullRequest ?_
    cases write <;> simp_all [writeCheckpoint, CheckpointWrite.slot]
  | reconciliation key =>
    refine agreeAt_reconciliation ?_
    cases write <;> simp_all [writeCheckpoint, CheckpointWrite.slot]
  | analysis key =>
    refine agreeAt_analysis ?_
    cases write <;> simp_all [writeCheckpoint, CheckpointWrite.slot]

variable (db configuration) in
theorem exists_checkpointWrites_part (staging : Staging) :
    ∃ write, (db.part configuration staging).checkpointWrites = [write] ∧
      write.slot = staging.slot configuration := by
  cases staging with
  | acceptance event target pullRequestId update reconciliationJob =>
    simp only [part, stage, acceptPullRequest]
    split_ifs <;> exact ⟨_, by simp [SchedulingPlan.stageCheckpoint, SchedulingPlan.stageJob]; rfl, rfl⟩
  | _ =>
    exact ⟨_, by
      simp [part, stage, stageBaseline, confirmBranch, scheduleAbsence, scheduleAnalysis,
        queueReconciliation, requestPullRequestReconciliation, cancelBranchWork,
        cancelPullRequestWork, cancelObsoleteReconciliation, cancelBaseline,
        SchedulingPlan.stageCheckpoint, SchedulingPlan.stageJob]
      rfl, rfl⟩

/-- The current job of the checkpoint after a part. -/
def nextJob (db : Database) (configuration : SchedulingConfiguration) (staging : Staging) :
    Option JobIdentity :=
  match staging with
  | .confirmation _ row _ => row.currentJob
  | staging => (db.stagedJob configuration staging).map (·.id configuration)

variable (hvalid : staging.Valid db configuration finishing)

include hvalid in
theorem current_afterWrites_part (hagree : AgreeAt (staging.slot configuration) db db₁) :
    (db₁.afterWrites (db.part configuration staging)).current (staging.slot configuration) =
      db.nextJob configuration staging := by
  cases staging with
  | confirmation key row evidence =>
    have hcurrent : db₁.current (.branch key) = row.currentJob := by
      rw [show db₁.current (.branch key) = db.current (.branch key) from hagree.1]
      simp [current, hvalid.1]
    simp only [afterWrites, part, stage, confirmBranch, SchedulingPlan.stageCheckpoint,
      nil_append, foldl_cons, foldl_nil, writeCheckpoint, current, Staging.slot,
      get?_set, if_pos, bind_some, nextJob]
    cases hrow : db₁.branches.get? key with
    | none => rfl
    | some stored => simpa [current, hrow] using hcurrent
  | acceptance event target pullRequestId update reconciliationJob =>
    simp only [afterWrites, part, stage, acceptPullRequest, nextJob, stagedJob]
    split_ifs with hterminal <;>
      simp [SchedulingPlan.stageCheckpoint, SchedulingPlan.stageJob, writeCheckpoint, current,
        Staging.slot, pullRequestKey, acceptedPullRequest, StagedJob.id]
  | absence target branch evidence =>
    simp only [afterWrites, part, stage, scheduleAbsence, SchedulingPlan.stageCheckpoint,
      SchedulingPlan.checkpointWrites_stageCancel, nil_append, foldl_cons,
      foldl_nil, writeCheckpoint, current, Staging.slot, get?_set, if_pos,
      bind_some, nextJob, stagedJob, map_none]
    cases db₁.branches.get? (target.key branch) <;> rfl
  | pullRequestReconciliation event target pullRequestId update =>
    simp only [afterWrites, part, stage, requestPullRequestReconciliation, nextJob, stagedJob,
      SchedulingPlan.stageCheckpoint, SchedulingPlan.checkpointWrites_stageSupersede,
      SchedulingPlan.stageJob, nil_append, foldl_cons, foldl_nil, writeCheckpoint,
      current, Staging.slot, pullRequestKey, get?_set, if_pos, bind_some]
    split <;> rfl
  | _ =>
    simp [afterWrites, part, stage, stageBaseline, scheduleAnalysis, queueReconciliation,
      cancelBranchWork, cancelPullRequestWork, cancelObsoleteReconciliation, cancelBaseline,
      SchedulingPlan.stageCheckpoint, SchedulingPlan.stageJob, writeCheckpoint, current, nextJob,
      stagedJob, Staging.slot, StagedJob.id, baselineIdentity]

theorem generation_afterWrites_part (db₁ : Database) (hstaged : db.stagedJob configuration staging = some staged) :
    (db₁.afterWrites (db.part configuration staging)).generation
        (staged.id configuration).kind (staging.slot configuration) =
      (staged.id configuration).generation := by
  cases staging with
  | acceptance event target pullRequestId update reconciliationJob =>
    simp only [stagedJob] at hstaged
    split_ifs at hstaged with hterminal
    cases hstaged
    simp [afterWrites, part, stage, acceptPullRequest, hterminal, SchedulingPlan.stageCheckpoint,
      SchedulingPlan.stageJob, writeCheckpoint, Staging.slot, pullRequestKey, acceptedPullRequest,
      generation, StagedJob.id, jobIdentity]
  | baseline event target revision =>
    cases hstaged
    simp [afterWrites, part, stage, stageBaseline, SchedulingPlan.stageCheckpoint,
        SchedulingPlan.stageJob, writeCheckpoint, generation, Staging.slot, StagedJob.id,
        jobIdentity]
  | analysis event target branch revision evidence =>
    cases hstaged
    simp [afterWrites, part, stage, scheduleAnalysis, SchedulingPlan.stageCheckpoint,
      SchedulingPlan.stageJob, writeCheckpoint, generation, Staging.slot, StagedJob.id, jobIdentity]
  | reconciliation event target branch reference evidence =>
    cases hstaged
    simp [afterWrites, part, stage, queueReconciliation, SchedulingPlan.stageCheckpoint,
      SchedulingPlan.stageJob, writeCheckpoint, generation, Staging.slot, StagedJob.id, jobIdentity]
  | pullRequestReconciliation event target pullRequestId update =>
    cases hstaged
    cases hrow : db₁.pullRequests.get? (pullRequestKey target pullRequestId) <;>
      simp_all [afterWrites, part, stage, requestPullRequestReconciliation,
        SchedulingPlan.stageCheckpoint, SchedulingPlan.stageJob, writeCheckpoint, generation,
        Staging.slot, pullRequestKey, StagedJob.id, jobIdentity]
  | _ => cases hstaged

include hvalid in
theorem generation_le_afterWrites_part (hagree : AgreeAt (staging.slot configuration) db db₁)
    (kind : JobKind) :
    db.generation kind (staging.slot configuration) ≤
      (db₁.afterWrites (db.part configuration staging)).generation kind
        (staging.slot configuration) := by
  have hstored := hagree.2 kind
  cases staging with
  | confirmation key row evidence =>
    cases kind <;> cases hrow : db₁.branches.get? key <;>
      simp_all [afterWrites, part, stage, confirmBranch, SchedulingPlan.stageCheckpoint,
        writeCheckpoint, generation, Staging.slot, Staging.Valid]
  | acceptance event target pullRequestId update reconciliationJob =>
    simp only [afterWrites, part, stage, acceptPullRequest]
    split_ifs with hterminal <;> cases kind <;>
      cases hrow : db₁.pullRequests.get? (pullRequestKey target pullRequestId) <;>
      simp_all [SchedulingPlan.stageCheckpoint, SchedulingPlan.stageJob, writeCheckpoint,
        Staging.slot, pullRequestKey, acceptedPullRequest, generation]
  | absence target branch evidence =>
    cases kind with
    | branchAnalysis =>
      cases hrow : db₁.branches.get? (target.key branch) with
      | none =>
        simp [afterWrites, part, stage, scheduleAbsence, SchedulingPlan.stageCheckpoint,
          writeCheckpoint, generation, Staging.slot, hrow]
      | some stored =>
        rw [← hstored]
        simp [afterWrites, part, stage, scheduleAbsence, SchedulingPlan.stageCheckpoint,
          writeCheckpoint, generation, Staging.slot, hrow]
    | _ => exact Nat.zero_le _
  | analysis event target branch revision evidence =>
    cases kind <;>
      simp_all [afterWrites, part, stage, scheduleAnalysis, SchedulingPlan.stageCheckpoint,
        SchedulingPlan.stageJob, writeCheckpoint, generation, Staging.slot]
  | baseline event target revision =>
    cases kind <;>
      simp_all [afterWrites, part, stage, stageBaseline, SchedulingPlan.stageCheckpoint,
        SchedulingPlan.stageJob, writeCheckpoint, generation, Staging.slot, nextBaselineGeneration]
  | reconciliation event target branch reference evidence =>
    cases kind <;>
      simp_all [afterWrites, part, stage, queueReconciliation, SchedulingPlan.stageCheckpoint,
        SchedulingPlan.stageJob, writeCheckpoint, generation, Staging.slot]
  | pullRequestReconciliation event target pullRequestId update =>
    cases hrow : db₁.pullRequests.get? (pullRequestKey target pullRequestId) with
    | none =>
      rw [← hstored, Staging.slot]
      cases kind <;> simp [generation, hrow]
    | some stored =>
      cases kind with
      | prReconciliation =>
        exact (Nat.le_succ _).trans (generation_afterWrites_part db₁
          (show db.stagedJob configuration
            (.pullRequestReconciliation event target pullRequestId update) = some _ from rfl)).ge
      | prPreviewAnalysis =>
        rw [← hstored]
        simp only [pullRequestKey] at hrow
        simp [afterWrites, part, stage, requestPullRequestReconciliation, pullRequestKey, hrow,
          SchedulingPlan.stageCheckpoint, SchedulingPlan.stageJob, writeCheckpoint, Staging.slot,
          generation]
      | _ => exact Nat.zero_le _
  | branchCancellation key row =>
    cases kind <;> cases hrow : db₁.branches.get? key <;>
      simp_all [afterWrites, part, stage, cancelBranchWork, SchedulingPlan.stageCheckpoint,
        writeCheckpoint, generation, Staging.slot, Staging.Valid]
  | pullRequestCancellation key row =>
    cases kind <;> cases hrow : db₁.pullRequests.get? key <;>
      simp_all [afterWrites, part, stage, cancelPullRequestWork, SchedulingPlan.stageCheckpoint,
        writeCheckpoint, generation, Staging.slot, Staging.Valid]
  | reconciliationCancellation key row =>
    cases kind <;> cases hrow : db₁.reconciliations.get? key <;>
      simp_all [afterWrites, part, stage, cancelObsoleteReconciliation,
        SchedulingPlan.stageCheckpoint, writeCheckpoint, generation, Staging.slot, Staging.Valid]
  | baselineCancellation key row =>
    cases kind <;> cases hrow : db₁.analyses.get? key <;>
      simp_all [afterWrites, part, stage, cancelBaseline, SchedulingPlan.stageCheckpoint,
        writeCheckpoint, generation, Staging.slot, Staging.Valid]

/-! ### The contents of a part -/

variable {old : JobIdentity}

include hvalid in
theorem current_of_displacedJob (hold : db.displacedJob configuration staging = some old) :
    db.current (staging.slot configuration) = some old ∧ some old ≠ finishing := by
  cases staging with
  | baseline | confirmation => cases hold
  | absence => exact ⟨hold, by rw [hvalid.2.2.2]; nofun⟩
  | analysis | reconciliation | pullRequestReconciliation =>
    exact ⟨hold, by rw [hvalid.2.2.2.2]; nofun⟩
  | acceptance event target pullRequestId update reconciliationJob =>
    obtain ⟨hcurrent, hne⟩ := Option.filter_eq_some_iff.mp hold
    rw [← hvalid.2.2.2]
    exact ⟨hcurrent, by simpa using hne⟩
  | branchCancellation key row | pullRequestCancellation key row
  | reconciliationCancellation key row | baselineCancellation key row =>
    refine ⟨?_, by rw [hvalid.2]; nofun⟩
    simpa [current, displacedJob, Staging.slot, hvalid.1] using hold

theorem get?_eq_none_of_stagedJob (hdb : db.Coherent)
    (hvalid : staging.Valid db configuration finishing)
    (hstaged : db.stagedJob configuration staging = some staged) :
    db.jobs.get? (staged.id configuration) = none := by
  have hsound := StagedJob.Sound.of_valid hvalid hstaged
  exact hdb.get?_eq_none_of_lt hsound.slot_eq (by rw [hsound.generation_eq]; omega)

theorem displaced_of_current (hdb : db.Coherent)
    (hvalid : staging.Valid db configuration finishing)
    (hold : db.current (staging.slot configuration) = some old)
    (hfinishing : some old ≠ finishing) :
    db.displacedJob configuration staging = some old ∨
      (∃ key row evidence, staging = .confirmation key row evidence) ∨
        ∀ job, db.jobs.get? old = some job → job.state.isNonterminal = false := by
  cases staging with
  | baseline event target revision =>
    refine .inr (.inr fun job hjob => ?_)
    obtain ⟨row, hrow, hcurrent⟩ := Option.bind_eq_some_iff.mp hold
    rcases hvalid.2.2.2 row hrow with hnone | hsome
    · rw [hcurrent] at hnone
      cases hnone
    · exact hdb.settled _ row hrow hsome old job hcurrent hjob
  | confirmation key row evidence => exact .inr (.inl ⟨key, row, evidence, rfl⟩)
  | absence | analysis | reconciliation | pullRequestReconciliation => exact .inl hold
  | acceptance event target pullRequestId update reconciliationJob =>
    refine .inl (Option.filter_eq_some_iff.mpr ⟨hold, ?_⟩)
    rw [hvalid.2.2.2]
    simpa using hfinishing
  | branchCancellation key row | pullRequestCancellation key row
  | reconciliationCancellation key row | baselineCancellation key row =>
    left
    simpa [current, displacedJob, Staging.slot, hvalid.1] using hold

end Database

/-! ### Plans of valid parts -/

def SchedulingPlan.oldJobs (plan : SchedulingPlan) : List JobIdentity :=
  plan.transitions.map PreparedTransition.oldJob

/-- The plans made of valid parts about the listed checkpoints, of dependencies of previews and of
reports. -/
inductive Planned (db : Database) (configuration : SchedulingConfiguration)
    (finishing : Option JobIdentity) : List Slot → SchedulingPlan → Prop
  | nil : Planned db configuration finishing [] {}
  | report {slots : List Slot} {plan : SchedulingPlan} (targets : List ScheduledTarget) :
      Planned db configuration finishing slots plan →
        Planned db configuration finishing slots { plan with targets := targets }
  | dependency {slots : List Slot} {plan : SchedulingPlan} {jobId prerequisite : JobIdentity} :
      Planned db configuration finishing slots plan → jobId ∈ plan.jobIds →
        jobId.kind = .prPreviewAnalysis →
        (prerequisite ∈ plan.jobIds ∨ ∃ job, db.jobs.get? prerequisite = some job) →
        Planned db configuration finishing slots (plan.stageDependency jobId prerequisite)
  | stage {slots : List Slot} {plan : SchedulingPlan} (staging : Staging) :
      Planned db configuration finishing slots plan →
        staging.Valid db configuration finishing → staging.slot configuration ∉ slots →
        Planned db configuration finishing (staging.slot configuration :: slots)
          (db.stage configuration plan staging)

/-- A job that gives up its checkpoint has been displaced or is over, unless it is about to be
completed. -/
def Displaced (db : Database) (oldJobs : List JobIdentity) (finishing : Option JobIdentity)
    (slot : Slot) : Prop :=
  ∀ old, db.current slot = some old → some old ≠ finishing →
    old ∈ oldJobs ∨ ∀ job, db.jobs.get? old = some job → job.state.isNonterminal = false

/-- What a plan that asks for some jobs and displaces others makes of a checkpoint. -/
inductive SlotChange (db db₂ : Database) (jobIds oldJobs : List JobIdentity)
    (finishing : Option JobIdentity) (slot : Slot) : Prop
  | kept (hcurrent : db₂.current slot = db.current slot)
      (hkept : ∀ old, db.current slot = some old → old ∉ oldJobs)
  | released (hcurrent : db₂.current slot = none) (hdisplaced : Displaced db oldJobs finishing slot)
  | replaced (id : JobIdentity) (hid : id ∈ jobIds) (hslot : id.slot = some slot)
      (hcurrent : db₂.current slot = some id) (hdisplaced : Displaced db oldJobs finishing slot)

namespace Planned

variable {db db₁ : Database} {configuration : SchedulingConfiguration}
  {finishing : Option JobIdentity} {slots : List Slot} {plan : SchedulingPlan}

open ApiTruth.Orchestration.Queue.Database

variable {id : JobIdentity} {staging : Staging}

theorem mem_jobIds_extend {part : SchedulingPlan} :
    id ∈ (plan.extend part).jobIds ↔ id ∈ plan.jobIds ∨ id ∈ part.jobIds := by
  by_cases hid : id ∈ part.jobIds
  · simp only [hid, or_true, iff_true]
    exact List.mem_map.mpr (by
      obtain ⟨prepared, hprepared, rfl⟩ := List.mem_map.mp hid
      exact ⟨prepared, mem_append_right _ hprepared, rfl⟩)
  · simp only [SchedulingPlan.jobIds, SchedulingPlan.extend, map_append, mem_append] at hid ⊢
    refine or_congr_left ⟨fun h => ?_, fun h => ?_⟩
    · obtain ⟨prepared, hprepared, rfl⟩ := List.mem_map.mp h
      exact List.mem_map_of_mem (mem_of_mem_filter hprepared)
    · obtain ⟨prepared, hprepared, rfl⟩ := List.mem_map.mp h
      exact List.mem_map_of_mem (List.mem_filter.mpr ⟨hprepared, by simpa using hid⟩)

theorem mem_jobIds_part :
    id ∈ (db.part configuration staging).jobIds ↔
      ∃ staged, db.stagedJob configuration staging = some staged ∧ staged.id configuration = id := by
  rw [SchedulingPlan.jobIds, jobs_part]
  cases db.stagedJob configuration staging with
  | none => simp
  | some staged => simp [StagedJob.prepared, eq_comm]

section

variable (hplan : Planned db configuration finishing slots plan)
include hplan

theorem exists_sound {prepared : PreparedJob} (hprepared : prepared ∈ plan.jobs) :
    ∃ slot ∈ slots, ∃ staged : StagedJob, staged.prepared configuration = prepared ∧
      staged.Sound db configuration slot := by
  induction hplan with
  | nil => cases hprepared
  | report _ _ ih => exact ih hprepared
  | dependency _ _ _ _ ih => exact ih hprepared
  | @stage slots plan staging _ hvalid _ ih =>
    rw [stage_eq_extend] at hprepared
    rcases List.mem_append.mp hprepared with hold | hnew
    · obtain ⟨slot, hslot, hstaged⟩ := ih (mem_of_mem_filter hold)
      exact ⟨slot, mem_cons_of_mem _ hslot, hstaged⟩
    · rw [jobs_part] at hnew
      obtain ⟨staged, hstaged, rfl⟩ : ∃ staged, db.stagedJob configuration staging = some staged ∧
          staged.prepared configuration = prepared := by
        simpa using hnew
      exact ⟨_, mem_cons_self, staged, rfl, StagedJob.Sound.of_valid hvalid hstaged⟩

theorem exists_sound_of_mem_jobIds (hid : id ∈ plan.jobIds) :
    ∃ slot ∈ slots, ∃ staged : StagedJob, staged.id configuration = id ∧
      staged.Sound db configuration slot := by
  obtain ⟨prepared, hprepared, rfl⟩ := List.mem_map.mp hid
  obtain ⟨slot, hslot, staged, rfl, hsound⟩ := hplan.exists_sound hprepared
  exact ⟨slot, hslot, staged, rfl, hsound⟩

theorem get?_eq_none (hdb : db.Coherent) (hid : id ∈ plan.jobIds) : db.jobs.get? id = none := by
  obtain ⟨slot, -, staged, rfl, hsound⟩ := hplan.exists_sound_of_mem_jobIds hid
  exact hdb.get?_eq_none_of_lt hsound.slot_eq (by rw [hsound.generation_eq]; omega)

theorem nodup_jobIds :
    plan.jobIds.Nodup := by
  induction hplan with
  | nil => exact nodup_nil
  | report _ _ ih => exact ih
  | dependency _ _ _ _ ih => exact ih
  | @stage slots plan staging _ _ _ ih =>
    rw [stage_eq_extend, SchedulingPlan.jobIds, SchedulingPlan.extend, map_append]
    refine List.nodup_append.mpr ⟨?_, ?_, ?_⟩
    · exact ih.sublist (List.filter_sublist.map _)
    · rw [jobs_part]
      cases db.stagedJob configuration staging <;> simp
    · rintro id hid _ hid' rfl
      obtain ⟨prepared, hprepared, rfl⟩ := List.mem_map.mp hid
      exact absurd hid' (by simpa using (List.mem_filter.mp hprepared).2)

end

theorem oldJobs_extend (plan part : SchedulingPlan) :
    (plan.extend part).oldJobs = plan.oldJobs ++ part.oldJobs := by
  simp [SchedulingPlan.oldJobs, SchedulingPlan.extend]

theorem oldJobs_part (hdb : db.Coherent) (hvalid : staging.Valid db configuration finishing) :
    (db.part configuration staging).oldJobs = (db.displacedJob configuration staging).toList := by
  rw [SchedulingPlan.oldJobs, transitions_part]
  cases hold : db.displacedJob configuration staging with
  | none => cases db.stagedJob configuration staging <;> rfl
  | some old =>
    cases hstaged : db.stagedJob configuration staging with
    | none => rfl
    | some staged =>
      have hne : old ≠ staged.id configuration := by
        rintro rfl
        have hcurrent := (current_of_displacedJob hvalid hold).1
        obtain ⟨job, hjob, -⟩ := (hdb.pointed _ _ hcurrent).2
        rw [get?_eq_none_of_stagedJob hdb hvalid hstaged] at hjob
        cases hjob
      simp [Option.filter, hne, PreparedTransition.oldJob]

section

variable (hplan : Planned db configuration finishing slots plan)
include hplan

/-- A displaced job was current at a checkpoint of the plan, and gives way to a job of the plan
unless it is cancelled. -/
theorem exists_current
    {transition : PreparedTransition} (htransition : transition ∈ plan.transitions) :
    ∃ slot ∈ slots, db.current slot = some transition.oldJob ∧
      some transition.oldJob ≠ finishing ∧ (transition = .cancel transition.oldJob ∨
        ∃ next ∈ plan.jobIds, transition = .supersede transition.oldJob next) := by
  induction hplan with
  | nil => cases htransition
  | report _ _ ih => exact ih htransition
  | dependency _ _ _ _ ih => exact ih htransition
  | @stage slots plan staging _ hvalid _ ih =>
    rw [stage_eq_extend] at htransition ⊢
    rcases List.mem_append.mp htransition with hold | hnew
    · obtain ⟨slot, hslot, hcurrent, hne, hkind⟩ := ih hold
      exact ⟨slot, mem_cons_of_mem _ hslot, hcurrent, hne, hkind.imp_right
        fun ⟨next, hnext, heq⟩ => ⟨next, mem_jobIds_extend.mpr (.inl hnext), heq⟩⟩
    · rw [transitions_part] at hnew
      cases hstaged : db.stagedJob configuration staging with
      | none =>
        rw [hstaged] at hnew
        obtain ⟨old, hold, rfl⟩ := List.mem_map.mp hnew
        obtain ⟨hcurrent, hne⟩ := current_of_displacedJob hvalid (Option.mem_toList.mp hold)
        exact ⟨_, mem_cons_self, hcurrent, hne, .inl rfl⟩
      | some staged =>
        rw [hstaged] at hnew
        obtain ⟨old, hold, rfl⟩ := List.mem_map.mp hnew
        obtain ⟨hcurrent, hne⟩ := current_of_displacedJob hvalid
          (Option.filter_eq_some_iff.mp (Option.mem_toList.mp hold)).1
        exact ⟨_, mem_cons_self, hcurrent, hne, .inr ⟨_, mem_jobIds_extend.mpr
          (.inr (mem_jobIds_part.mpr ⟨staged, hstaged, rfl⟩)), rfl⟩⟩

theorem exists_current_of_mem_oldJobs (hold : old ∈ plan.oldJobs) :
    ∃ slot ∈ slots, db.current slot = some old ∧ some old ≠ finishing := by
  obtain ⟨transition, htransition, rfl⟩ := List.mem_map.mp hold
  obtain ⟨slot, hslot, hcurrent, hne, -⟩ := hplan.exists_current htransition
  exact ⟨slot, hslot, hcurrent, hne⟩

theorem nodup_oldJobs (hdb : db.Coherent) :
    plan.oldJobs.Nodup := by
  induction hplan with
  | nil => exact nodup_nil
  | report _ _ ih => exact ih
  | dependency _ _ _ _ ih => exact ih
  | @stage slots plan staging hplan hvalid hslot ih =>
    rw [stage_eq_extend, oldJobs_extend, oldJobs_part hdb hvalid]
    refine List.nodup_append.mpr ⟨ih, ?_, ?_⟩
    · cases db.displacedJob configuration staging <;> simp
    · rintro old hold _ hnew rfl
      obtain ⟨slot, hmem, hcurrent, -⟩ := hplan.exists_current_of_mem_oldJobs hold
      have hcurrent' := (current_of_displacedJob hvalid (Option.mem_toList.mp hnew)).1
      exact hslot (hdb.eq_of_current_eq hcurrent' hcurrent ▸ hmem)

theorem dependency_cases
    {dependency : JobDependency} (hdependency : dependency ∈ plan.dependencies) :
    dependency.jobId ∈ plan.jobIds ∧ dependency.jobId.kind = .prPreviewAnalysis ∧
      (dependency.prerequisiteJobId ∈ plan.jobIds ∨
        ∃ job, db.jobs.get? dependency.prerequisiteJobId = some job) := by
  induction hplan with
  | nil => cases hdependency
  | report _ _ ih => exact ih hdependency
  | dependency _ hid hkind hprerequisite ih =>
    rcases List.mem_append.mp hdependency with hold | hnew
    · exact ih hold
    · cases List.mem_singleton.mp hnew
      exact ⟨hid, hkind, hprerequisite⟩
  | @stage slots plan staging _ hvalid _ ih =>
    rw [stage_eq_extend] at hdependency ⊢
    rcases List.mem_append.mp hdependency with hold | hnew
    · obtain ⟨hid, hkind, hprerequisite⟩ := ih hold
      exact ⟨mem_jobIds_extend.mpr (.inl hid), hkind,
        hprerequisite.imp_left fun h => mem_jobIds_extend.mpr (.inl h)⟩
    · rw [dependencies_part] at hnew
      cases hnew

end

/-! ### Checkpoints after the writes of a plan -/

theorem afterWrites_extend (part : SchedulingPlan) :
    db₁.afterWrites (plan.extend part) = (db₁.afterWrites plan).afterWrites part := by
  simp [afterWrites, SchedulingPlan.extend]

variable (db db₁) in
theorem agreeAt_afterWrites_part {slot : Slot} (hslot : slot ≠ staging.slot configuration) :
    AgreeAt slot db₁ (db₁.afterWrites (db.part configuration staging)) := by
  obtain ⟨write, hwrites, hwrite⟩ := exists_checkpointWrites_part db configuration staging
  rw [afterWrites, hwrites]
  exact agreeAt_writeCheckpoint (hwrite ▸ hslot)

section

variable (hplan : Planned db configuration finishing slots plan)
  (hagree : ∀ slot, AgreeAt slot db db₁)
include hplan hagree

theorem agreeAt {slot : Slot} (hslot : slot ∉ slots) :
    AgreeAt slot db (db₁.afterWrites plan) := by
  induction hplan with
  | nil => exact hagree slot
  | report _ _ ih => exact ih hslot
  | dependency _ _ _ _ ih => exact ih hslot
  | @stage slots plan staging _ _ _ ih =>
    rw [mem_cons, not_or] at hslot
    rw [stage_eq_extend, afterWrites_extend]
    exact (ih hslot.2).trans (agreeAt_afterWrites_part db _ hslot.1)

theorem generation_le (slot : Slot) (kind : JobKind) :
    db.generation kind slot ≤ (db₁.afterWrites plan).generation kind slot := by
  induction hplan with
  | nil => exact ((hagree slot).2 kind).ge
  | report _ _ ih => exact ih
  | dependency _ _ _ _ ih => exact ih
  | @stage slots plan staging hplan hvalid hnew ih =>
    rw [stage_eq_extend, afterWrites_extend]
    by_cases hslot : slot = staging.slot configuration
    · subst hslot
      exact generation_le_afterWrites_part hvalid (hplan.agreeAt hagree hnew) kind
    · rwa [(agreeAt_afterWrites_part db _ hslot).2 kind]

theorem current_of_mem_jobIds {id : JobIdentity} (hid : id ∈ plan.jobIds) :
    ∃ slot ∈ slots, id.slot = some slot ∧ slot.serviceId = id.serviceId ∧
      (db₁.afterWrites plan).current slot = some id ∧
        (db₁.afterWrites plan).generation id.kind slot = id.generation := by
  induction hplan with
  | nil => cases hid
  | report _ _ ih => exact ih hid
  | dependency _ _ _ _ ih => exact ih hid
  | @stage slots plan staging hplan hvalid hnew ih =>
    rw [stage_eq_extend] at hid ⊢
    rw [afterWrites_extend]
    rcases mem_jobIds_extend.mp hid with hold | hpart
    · obtain ⟨slot, hmem, hslot, hservice, hcurrent, hgeneration⟩ := ih hold
      have hagree' := agreeAt_afterWrites_part db (db₁.afterWrites plan)
        (fun heq : slot = staging.slot configuration => hnew (heq ▸ hmem))
      exact ⟨slot, mem_cons_of_mem _ hmem, hslot, hservice, hagree'.1.trans hcurrent,
        (hagree'.2 _).trans hgeneration⟩
    · obtain ⟨staged, hstaged, rfl⟩ := mem_jobIds_part.mp hpart
      have hsound := StagedJob.Sound.of_valid hvalid hstaged
      refine ⟨_, mem_cons_self, hsound.slot_eq, hsound.service, ?_,
        generation_afterWrites_part _ hstaged⟩
      rw [current_afterWrites_part hvalid (hplan.agreeAt hagree hnew)]
      cases staging with
      | confirmation => cases hstaged
      | _ => simp only [nextJob, hstaged, map_some]

end

theorem slotChange_part (hdb : db.Coherent) (hvalid : staging.Valid db configuration finishing)
    (hagree : AgreeAt (staging.slot configuration) db db₁) :
    SlotChange db (db₁.afterWrites (db.part configuration staging))
      (db.part configuration staging).jobIds (db.part configuration staging).oldJobs finishing
      (staging.slot configuration) := by
  have hcurrent := current_afterWrites_part hvalid hagree
  rw [oldJobs_part hdb hvalid]
  by_cases hconfirm : ∃ key row evidence, staging = .confirmation key row evidence
  · obtain ⟨key, row, evidence, rfl⟩ := hconfirm
    refine .kept (hcurrent.trans ?_) fun _ _ => not_mem_nil
    simp [nextJob, current, Staging.slot, hvalid.1]
  · have hnext : db.nextJob configuration staging =
        (db.stagedJob configuration staging).map (·.id configuration) := by
      cases staging with
      | confirmation key row evidence => exact absurd ⟨key, row, evidence, rfl⟩ hconfirm
      | _ => rfl
    have hdisplaced : Displaced db (db.displacedJob configuration staging).toList finishing
        (staging.slot configuration) := by
      intro old hold hne
      rcases displaced_of_current hdb hvalid hold hne with hold | hkept | hover
      · exact .inl (Option.mem_toList.mpr hold)
      · exact absurd hkept hconfirm
      · exact .inr hover
    cases hstaged : db.stagedJob configuration staging with
    | none => exact .released (by rw [hcurrent, hnext, hstaged]; rfl) hdisplaced
    | some staged =>
      exact .replaced (staged.id configuration) (mem_jobIds_part.mpr ⟨staged, hstaged, rfl⟩)
        (StagedJob.Sound.of_valid hvalid hstaged).slot_eq (by rw [hcurrent, hnext, hstaged]; rfl)
        hdisplaced

theorem slotChange (hplan : Planned db configuration finishing slots plan) (hdb : db.Coherent)
    (hagree : ∀ slot, AgreeAt slot db db₁) (slot : Slot) :
    SlotChange db (db₁.afterWrites plan) plan.jobIds plan.oldJobs finishing slot := by
  induction hplan with
  | nil => exact .kept (hagree slot).1 fun _ _ => not_mem_nil
  | report _ _ ih => exact ih
  | dependency _ _ _ _ ih => exact ih
  | @stage slots plan staging hplan hvalid hnew ih =>
    rw [stage_eq_extend, afterWrites_extend, oldJobs_extend]
    have hwiden {list : List JobIdentity} (hdisplaced : Displaced db list finishing slot)
        (hsub : ∀ old ∈ list, old ∈ plan.oldJobs ++ (db.part configuration staging).oldJobs) :
        Displaced db (plan.oldJobs ++ (db.part configuration staging).oldJobs) finishing slot :=
      fun old hold hne => (hdisplaced old hold hne).imp_left (hsub old)
    by_cases hslot : slot = staging.slot configuration
    · subst hslot
      cases slotChange_part hdb hvalid (hplan.agreeAt hagree hnew) with
      | kept hcurrent hkept =>
        refine .kept hcurrent fun old hold => ?_
        rw [mem_append, not_or]
        refine ⟨fun hmem => ?_, hkept old hold⟩
        obtain ⟨slot, hslot, hcurrent', -⟩ := hplan.exists_current_of_mem_oldJobs hmem
        exact hnew (hdb.eq_of_current_eq hold hcurrent' ▸ hslot)
      | released hcurrent hdisplaced =>
        exact .released hcurrent (hwiden hdisplaced fun _ => mem_append_right _)
      | replaced id hid hslot hcurrent hdisplaced =>
        exact .replaced id (mem_jobIds_extend.mpr (.inr hid)) hslot hcurrent
          (hwiden hdisplaced fun _ => mem_append_right _)
    · have hframe := (agreeAt_afterWrites_part db (db₁.afterWrites plan) hslot).1
      cases ih with
      | kept hcurrent hkept =>
        refine .kept (hframe.trans hcurrent) fun old hold => ?_
        rw [mem_append, not_or, oldJobs_part hdb hvalid]
        refine ⟨hkept old hold, fun hmem => hslot ?_⟩
        exact hdb.eq_of_current_eq hold
          (current_of_displacedJob hvalid (Option.mem_toList.mp hmem)).1
      | released hcurrent hdisplaced =>
        exact .released (hframe.trans hcurrent) (hwiden hdisplaced fun _ => mem_append_left _)
      | replaced id hid hslot hcurrent hdisplaced =>
        exact .replaced id (mem_jobIds_extend.mpr (.inl hid)) hslot (hframe.trans hcurrent)
          (hwiden hdisplaced fun _ => mem_append_left _)

end Planned

end ApiTruth.Orchestration.Queue
