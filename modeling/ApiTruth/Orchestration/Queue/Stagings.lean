import ApiTruth.Orchestration.Queue.Coherent

/-!
# Plans as sequences of stagings

Every plan is made of elementary parts that are each about one checkpoint: a job is queued there
and the current one displaced, or the current job is let go, or newer evidence is noted.

## Main definitions

* `Staging`, `Database.stage` : an elementary part, and the plan with it.
* `Staging.Valid` : what scheduling has checked when it stages a part.
* `Planned` : a plan made of valid parts about distinct checkpoints.
-/

namespace ApiTruth.Orchestration.Queue

open Catalog Checked

inductive Staging
  | baseline (event : EventEnvelope) (target : TargetConfig) (revision : String)
  | confirmation (key : BranchKey) (row : BranchCheckpoint) (evidence : ProviderReference)
  | absence (target : TargetConfig) (branch : String) (evidence : ProviderReference)
  | analysis (event : Option EventKey) (target : TargetConfig) (branch revision : String)
      (evidence : ProviderReference)
  | reconciliation (event : Option EventKey) (target : TargetConfig) (branch reference : String)
      (evidence : ProviderReference)
  | pullRequestReconciliation (event : EventEnvelope) (target : TargetConfig)
      (pullRequestId : String) (update : PullRequestUpdate)
  | acceptance (event : EventEnvelope) (target : TargetConfig) (pullRequestId : String)
      (update : PullRequestUpdate) (reconciliationJob : Option JobIdentity)
  | branchCancellation (key : BranchKey) (row : BranchCheckpoint)
  | pullRequestCancellation (key : PullRequestKey) (row : PullRequestCheckpoint)
  | reconciliationCancellation (key : BranchKey) (row : ReconciliationCheckpoint)
  | baselineCancellation (key : AnalysisIdentity) (row : AnalysisCheckpoint)

def pullRequestKey (target : TargetConfig) (pullRequestId : String) : PullRequestKey :=
  ⟨target.repository.repositoryId, target.service.serviceId, pullRequestId⟩

def isNamedUpdate (pullRequestId : String) (update : PullRequestUpdate) : Bool :=
  isNamedEvidence update.evidence
    && isNamedPayload (.pullRequestUpdated pullRequestId update.relevantPayload)

def Listed (configuration : SchedulingConfiguration) (target : TargetConfig) : Prop :=
  configuration.document.findService target.repository.repositoryId target.service.serviceId =
    some target

/-- The checkpoint that a part is about. -/
def Staging.slot (configuration : SchedulingConfiguration) : Staging → Slot
  | baseline _ target revision => .analysis (analysisIdentity configuration target revision)
  | confirmation key _ _ | branchCancellation key _ => .branch key
  | absence target branch _ | analysis _ target branch _ _ => .branch (target.key branch)
  | reconciliation _ target branch _ _ => .reconciliation (target.key branch)
  | pullRequestReconciliation _ target pullRequestId _ | acceptance _ target pullRequestId _ _ =>
    .pullRequest (pullRequestKey target pullRequestId)
  | pullRequestCancellation key _ => .pullRequest key
  | reconciliationCancellation key _ => .reconciliation key
  | baselineCancellation key _ => .analysis key

/-- The parts of a plan followed by those of another. -/
def SchedulingPlan.extend (plan part : SchedulingPlan) : SchedulingPlan where
  targets := plan.targets ++ part.targets
  jobs := plan.jobs.filter (·.identity ∉ part.jobs.map PreparedJob.identity) ++ part.jobs
  transitions := plan.transitions ++ part.transitions
  dependencies := plan.dependencies ++ part.dependencies
  checkpointWrites := plan.checkpointWrites ++ part.checkpointWrites

namespace SchedulingPlan

def jobIds (plan : SchedulingPlan) : List JobIdentity := plan.jobs.map PreparedJob.identity

variable (plan part : SchedulingPlan)

@[simp] theorem extend_empty : plan.extend {} = plan := by
  simp [extend]

theorem stageJob_eq_extend (event : Option EventKey) (configuration : SchedulingConfiguration)
    (target : TargetConfig) (input : JobInput) (evidence : ProviderReference) :
    plan.stageJob event configuration target input evidence =
      plan.extend (({} : SchedulingPlan).stageJob event configuration target input evidence) := by
  simp [stageJob, extend]

variable (oldJob : Option JobIdentity)

theorem stageSupersede_extend (nextJob : JobIdentity) :
    (plan.extend part).stageSupersede oldJob nextJob =
      plan.extend (part.stageSupersede oldJob nextJob) := by
  cases oldJob with
  | none => rfl
  | some oldJob =>
    by_cases heq : oldJob = nextJob <;> simp [stageSupersede, extend, heq]

theorem stageCancel_extend :
    (plan.extend part).stageCancel oldJob = plan.extend (part.stageCancel oldJob) := by
  cases oldJob <;> simp [stageCancel, extend]

theorem stageCheckpoint_extend (write : CheckpointWrite) :
    (plan.extend part).stageCheckpoint write = plan.extend (part.stageCheckpoint write) := by
  simp [stageCheckpoint, extend]

theorem stageCancel_eq_extend :
    plan.stageCancel oldJob = plan.extend (({} : SchedulingPlan).stageCancel oldJob) := by
  rw [← stageCancel_extend, extend_empty]

theorem stageCheckpoint_eq_extend (write : CheckpointWrite) :
    plan.stageCheckpoint write = plan.extend (({} : SchedulingPlan).stageCheckpoint write) := by
  rw [← stageCheckpoint_extend, extend_empty]

end SchedulingPlan

namespace Database

variable (db : Database) (configuration : SchedulingConfiguration)

/-- The generation of the baseline that is queued next. -/
def nextBaselineGeneration (target : TargetConfig) (revision : String) : ℕ :=
  db.generation .baselineAnalysis (.analysis (analysisIdentity configuration target revision)) + 1

/-- The plan with a part added. -/
def stage (plan : SchedulingPlan) : Staging → SchedulingPlan
  | .baseline event target revision =>
    stageBaseline plan event configuration target revision
      (db.nextBaselineGeneration configuration target revision)
  | .confirmation key row evidence => confirmBranch plan key row evidence
  | .absence target branch evidence => db.scheduleAbsence plan (target.key branch) evidence
  | .analysis event target branch revision evidence =>
    (db.scheduleAnalysis plan event configuration target branch revision evidence).2
  | .reconciliation event target branch reference evidence =>
    (db.queueReconciliation plan event configuration target branch reference evidence).2
  | .pullRequestReconciliation event target pullRequestId update =>
    (db.requestPullRequestReconciliation plan event configuration target pullRequestId update).2
  | .acceptance event target pullRequestId update reconciliationJob =>
    (db.acceptPullRequest plan event configuration target pullRequestId update
      reconciliationJob).2
  | .branchCancellation key row => cancelBranchWork plan (key, row)
  | .pullRequestCancellation key row => cancelPullRequestWork plan (key, row)
  | .reconciliationCancellation key row => cancelObsoleteReconciliation plan (key, row)
  | .baselineCancellation key row => cancelBaseline plan (key, row)

/-- The part on its own. -/
def part (staging : Staging) : SchedulingPlan := db.stage configuration {} staging

variable {db configuration}

theorem stage_eq_extend (plan : SchedulingPlan) (staging : Staging) :
    db.stage configuration plan staging = plan.extend (db.part configuration staging) := by
  open SchedulingPlan in
  cases staging with
  | baseline event target revision =>
    rw [part, stage, stage, stageBaseline, stageBaseline, stageJob_eq_extend, stageCheckpoint_extend]
  | confirmation key row evidence =>
    rw [part, stage, stage, confirmBranch, confirmBranch, stageCheckpoint_eq_extend]
  | absence target branch evidence =>
    rw [part, stage, stage, scheduleAbsence, scheduleAbsence, stageCancel_eq_extend,
      stageCheckpoint_extend]
  | analysis event target branch revision evidence =>
    simp only [part, stage, scheduleAnalysis]
    rw [stageJob_eq_extend, stageSupersede_extend, stageCheckpoint_extend]
  | reconciliation event target branch reference evidence =>
    simp only [part, stage, queueReconciliation]
    rw [stageJob_eq_extend, stageSupersede_extend, stageCheckpoint_extend]
  | pullRequestReconciliation event target pullRequestId update =>
    simp only [part, stage, requestPullRequestReconciliation]
    rw [stageJob_eq_extend, stageSupersede_extend, stageCheckpoint_extend]
  | acceptance event target pullRequestId update reconciliationJob =>
    simp only [part, stage, acceptPullRequest]
    split_ifs with hterminal
    · rw [stageCancel_eq_extend, stageCheckpoint_extend]
    · rw [stageJob_eq_extend, stageSupersede_extend, stageCheckpoint_extend]
  | branchCancellation key row =>
    rw [part, stage, stage, cancelBranchWork, cancelBranchWork, stageCancel_eq_extend,
      stageCheckpoint_extend]
  | pullRequestCancellation key row =>
    rw [part, stage, stage, cancelPullRequestWork, cancelPullRequestWork, stageCancel_eq_extend,
      stageCheckpoint_extend]
  | reconciliationCancellation key row =>
    rw [part, stage, stage, cancelObsoleteReconciliation, cancelObsoleteReconciliation,
      stageCancel_eq_extend, stageCheckpoint_extend]
  | baselineCancellation key row =>
    rw [part, stage, stage, cancelBaseline, cancelBaseline, stageCancel_eq_extend,
      stageCheckpoint_extend]

end Database

/-! ### Contents of the parts -/

namespace SchedulingPlan

variable (plan : SchedulingPlan)

section

variable (oldJob : Option JobIdentity)
include oldJob

variable (nextJob : JobIdentity)

@[simp] theorem jobs_stageSupersede :
    (plan.stageSupersede oldJob nextJob).jobs = plan.jobs := by
  cases oldJob with
  | none => rfl
  | some oldJob => by_cases heq : oldJob = nextJob <;> simp [stageSupersede, heq]

@[simp] theorem checkpointWrites_stageSupersede :
    (plan.stageSupersede oldJob nextJob).checkpointWrites = plan.checkpointWrites := by
  cases oldJob with
  | none => rfl
  | some oldJob => by_cases heq : oldJob = nextJob <;> simp [stageSupersede, heq]

@[simp] theorem dependencies_stageSupersede :
    (plan.stageSupersede oldJob nextJob).dependencies = plan.dependencies := by
  cases oldJob with
  | none => rfl
  | some oldJob => by_cases heq : oldJob = nextJob <;> simp [stageSupersede, heq]

theorem transitions_stageSupersede :
    (plan.stageSupersede oldJob nextJob).transitions =
      plan.transitions ++ (oldJob.filter (· ≠ nextJob)).toList.map (.supersede · nextJob) := by
  cases oldJob with
  | none => simp [stageSupersede]
  | some oldJob =>
    by_cases heq : oldJob = nextJob <;> simp [stageSupersede, Option.filter, heq]

@[simp] theorem jobs_stageCancel :
    (plan.stageCancel oldJob).jobs = plan.jobs := by
  cases oldJob <;> rfl

@[simp] theorem checkpointWrites_stageCancel :
    (plan.stageCancel oldJob).checkpointWrites = plan.checkpointWrites := by
  cases oldJob <;> rfl

@[simp] theorem dependencies_stageCancel :
    (plan.stageCancel oldJob).dependencies = plan.dependencies := by
  cases oldJob <;> rfl

theorem transitions_stageCancel :
    (plan.stageCancel oldJob).transitions = plan.transitions ++ oldJob.toList.map .cancel := by
  cases oldJob <;> simp [stageCancel]

end

end SchedulingPlan

structure StagedJob extends JobInput where
  target : TargetConfig
  event : Option EventKey
  evidence : ProviderReference

namespace StagedJob

variable (configuration : SchedulingConfiguration) (staged : StagedJob)

def id : JobIdentity := jobIdentity configuration staged.target staged.toJobInput

/-- What is inserted. -/
def prepared : PreparedJob :=
  ⟨staged.id configuration, pinnedAnalysis configuration staged.target, staged.event,
    staged.evidence⟩

end StagedJob

namespace Database

variable {db : Database} {configuration : SchedulingConfiguration}

/-- The job of the part, which is of the next generation of its checkpoint. -/
def stagedJob (db : Database) (configuration : SchedulingConfiguration) :
    Staging → Option StagedJob
  | .baseline event target revision =>
    some
      { target := target
        kind := .baselineAnalysis
        targetRevision := some revision
        generation := db.nextBaselineGeneration configuration target revision
        event := event.key
        evidence := event.evidence }
  | .analysis event target branch revision evidence =>
    some
      { target := target
        kind := .branchAnalysis
        branch := some branch
        targetRevision := some revision
        generation := db.generation .branchAnalysis (.branch (target.key branch)) + 1
        event := event
        evidence := evidence }
  | .reconciliation event target branch _ evidence =>
    some
      { target := target
        kind := .branchReconciliation
        branch := some branch
        generation :=
          db.generation .branchReconciliation (.reconciliation (target.key branch)) + 1
        event := event
        evidence := evidence }
  | .pullRequestReconciliation event target pullRequestId update =>
    some
      { target := target
        kind := .prReconciliation
        pullRequestId := some pullRequestId
        baseRevision := some update.relevantPayload.baseRevision
        targetRevision := some update.relevantPayload.headRevision
        generation :=
          db.generation .prReconciliation (.pullRequest (pullRequestKey target pullRequestId)) + 1
        event := event.key
        evidence := event.evidence }
  | .acceptance event target pullRequestId update _ =>
    if update.relevantPayload.state.isTerminal then none
    else some
      { target := target
        kind := .prPreviewAnalysis
        pullRequestId := some pullRequestId
        baseRevision := some update.relevantPayload.baseRevision
        targetRevision := some update.relevantPayload.headRevision
        generation :=
          db.generation .prPreviewAnalysis (.pullRequest (pullRequestKey target pullRequestId)) + 1
        event := event.key
        evidence := update.evidence }
  | .confirmation .. | .absence .. | .branchCancellation .. | .pullRequestCancellation ..
  | .reconciliationCancellation .. | .baselineCancellation .. => none

def displacedJob (db : Database) (configuration : SchedulingConfiguration) (staging : Staging) :
    Option JobIdentity :=
  match staging with
  | .baseline .. | .confirmation .. => none
  | .absence .. | .analysis .. | .reconciliation .. | .pullRequestReconciliation .. =>
    db.current (staging.slot configuration)
  | .acceptance _ _ _ _ reconciliationJob =>
    (db.current (staging.slot configuration)).filter (some · ≠ reconciliationJob)
  | .branchCancellation _ row => row.currentJob
  | .pullRequestCancellation _ row => row.currentJob
  | .reconciliationCancellation _ row => row.currentJob
  | .baselineCancellation _ row => row.currentJob

variable (staging : Staging)

theorem jobs_part :
    (db.part configuration staging).jobs =
      ((db.stagedJob configuration staging).map (·.prepared configuration)).toList := by
  cases staging with
  | acceptance event target pullRequestId update reconciliationJob =>
    simp only [part, stage, acceptPullRequest, stagedJob]
    split_ifs with hterminal
    · simp [SchedulingPlan.stageCheckpoint]
    · simp [SchedulingPlan.stageCheckpoint, SchedulingPlan.stageJob, StagedJob.prepared,
        StagedJob.id, pullRequestKey]
  | _ =>
    simp [part, stage, stagedJob, StagedJob.prepared, StagedJob.id, pullRequestKey, stageBaseline,
      confirmBranch, scheduleAbsence, scheduleAnalysis, queueReconciliation,
      requestPullRequestReconciliation, cancelBranchWork, cancelPullRequestWork,
      cancelObsoleteReconciliation, cancelBaseline, SchedulingPlan.stageCheckpoint,
      SchedulingPlan.stageJob]

theorem transitions_part :
    (db.part configuration staging).transitions =
      match db.stagedJob configuration staging with
      | none => (db.displacedJob configuration staging).toList.map .cancel
      | some staged =>
        ((db.displacedJob configuration staging).filter (· ≠ staged.id configuration)).toList.map
          (.supersede · (staged.id configuration)) := by
  cases staging with
  | acceptance event target pullRequestId update reconciliationJob =>
    simp only [part, stage, acceptPullRequest, stagedJob]
    split_ifs with hterminal
    · exact SchedulingPlan.transitions_stageCancel _ _
    · exact SchedulingPlan.transitions_stageSupersede _ _ _
  | analysis | reconciliation | pullRequestReconciliation =>
    exact SchedulingPlan.transitions_stageSupersede _ _ _
  | baseline | confirmation => rfl
  | _ => exact SchedulingPlan.transitions_stageCancel _ _

@[simp] theorem dependencies_part :
    (db.part configuration staging).dependencies = [] := by
  cases staging with
  | acceptance event target pullRequestId update reconciliationJob =>
    simp only [part, stage, acceptPullRequest]
    split_ifs <;> simp [SchedulingPlan.stageCheckpoint, SchedulingPlan.stageJob]
  | _ =>
    simp [part, stage, stageBaseline, confirmBranch, scheduleAbsence,
      scheduleAnalysis, queueReconciliation, requestPullRequestReconciliation, cancelBranchWork,
      cancelPullRequestWork, cancelObsoleteReconciliation, cancelBaseline,
      SchedulingPlan.stageCheckpoint, SchedulingPlan.stageJob]

end Database

end ApiTruth.Orchestration.Queue
