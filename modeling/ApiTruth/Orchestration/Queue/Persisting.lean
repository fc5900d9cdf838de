import ApiTruth.Foundation.Worklist
import ApiTruth.Orchestration.Queue.Scheduling

/-!
# Changes of jobs and their dependents

A job that ends without a result takes the jobs with it that depend on it.  This file plans these
changes and writes plans: the checkpoints first, then one row of the job table after the other,
then the notices.  A row is written from the parts of the plan about its id only, so the loop over
the ids is written as a map over the table.

## Main definitions

* `PlannedJobChange` with its effect on the row, its checkpoint and its notice.
* `Database.planTerminalDependents` : the jobs that end because a prerequisite has ended.
* `Database.applyPlannedJobChanges` : write changes of jobs.
* `Database.persistScheduledJobs` : write a scheduling plan.
-/

namespace ApiTruth.Orchestration.Queue

open Catalog Checked

inductive PlannedJobChange
  | claim (worker : WorkerIdentity) (token : String)
  | retry (delay : ℕ) (code : Option OrchestrationErrorCode)
  | terminal (state : JobState) (code : Option OrchestrationErrorCode)
  | requestCancel
deriving DecidableEq, Repr

namespace PlannedJobChange

/-- The row that `writePlannedJobChange` leaves. -/
def apply (clock : ℕ) (job : Job) : PlannedJobChange → Job
  | claim worker token => job.claim clock worker token
  | retry delay code => job.retry clock delay code
  | terminal state code => job.terminate clock state code
  | requestCancel => job.requestCancel

/-- The notification of `writePlannedJobChange`. -/
def notice (id : JobIdentity) (job : Job) : PlannedJobChange → Option StateNotice
  | claim _ _ =>
    some { jobId := id, state := .leased, reason := some (.attempt (job.attemptCount + 1)) }
  | retry _ _ =>
    some { jobId := id, state := .retryWait, reason := some (.attempt job.attemptCount) }
  | terminal state code => some { jobId := id, state := state, reason := code.map .code }
  | requestCancel => none

end PlannedJobChange

/-- The states in which a job has ended without a result. -/
def isUnsuccessful : JobState → Bool
  | .failed | .cancelled | .superseded => true
  | .queued | .leased | .retryWait | .succeeded => false

/-- The state, and its error, in which a job ends that is superseded, cancelled, or lacks a
prerequisite. -/
def terminalState (job : Job) (dependencyFailed : Bool) :
    Option (JobState × Option OrchestrationErrorCode) :=
  if job.supersedingJob.isSome then some (.superseded, none)
  else if job.cancellationRequested then some (.cancelled, none)
  else if dependencyFailed then some (.failed, some .jobDependencyFailed)
  else none

namespace Database

variable (db : Database)

/-! ### Checkpoints -/

def writeCheckpoint : CheckpointWrite → Database
  | .branch key apply =>
    { db with branches := db.branches.set key (apply (db.branches.get? key)) }
  | .pullRequest key apply =>
    { db with pullRequests := db.pullRequests.set key (apply (db.pullRequests.get? key)) }
  | .reconciliation key apply =>
    { db with reconciliations := db.reconciliations.set key (apply (db.reconciliations.get? key)) }
  | .analysis identity apply =>
    { db with analyses := db.analyses.set identity (apply (db.analyses.get? identity)) }

/-- The outcome of a reconciliation whose job has ended without a result. -/
def endedReconciliation (state : JobState) (code : Option OrchestrationErrorCode)
    (checkpoint : ReconciliationCheckpoint) : ReconciliationCheckpoint :=
  { checkpoint with
    lastOutcome := some (if state = .failed then .failed else .obsolete)
    safeLastErrorCode := if state = .failed then some (code.getD .reconciliationFailed) else none }

/-- `updateCheckpointState`: the checkpoint whose current job changes repeats the state; a
reconciliation or a baseline only records how it ended. -/
def updateCheckpointState (id : JobIdentity) (state : JobState)
    (code : Option OrchestrationErrorCode) : Database :=
  match id.kind with
  | .branchAnalysis =>
    { db with branches := db.branches.mapValues fun _ checkpoint =>
        if checkpoint.currentJob = some id then { checkpoint with latestOutcome := .job state }
        else checkpoint }
  | .prPreviewAnalysis | .prReconciliation =>
    { db with pullRequests := db.pullRequests.mapValues fun _ checkpoint =>
        if checkpoint.currentJob = some id then { checkpoint with latestOutcome := state }
        else checkpoint }
  | .branchReconciliation =>
    if state.isNonterminal then db
    else { db with reconciliations := db.reconciliations.mapValues fun _ checkpoint =>
        if checkpoint.currentJob = some id then endedReconciliation state code checkpoint
        else checkpoint }
  | .baselineAnalysis =>
    if state.isNonterminal then db
    else { db with analyses := db.analyses.mapValues fun _ checkpoint =>
        if checkpoint.currentJob = some id then
          { checkpoint with lastTerminalOutcome := some state }
        else checkpoint }

def writeChangeCheckpoint (entry : JobIdentity × PlannedJobChange) : Database :=
  match entry.2 with
  | .claim _ _ => db.updateCheckpointState entry.1 .leased none
  | .retry _ _ => db.updateCheckpointState entry.1 .retryWait none
  | .terminal state code => db.updateCheckpointState entry.1 state code
  | .requestCancel => db

/-- `writePlannedCheckpoints`: the checkpoints of changed jobs, then the staged ones. -/
def writePlannedCheckpoints (changes : OrderedMap JobIdentity PlannedJobChange)
    (additional : List CheckpointWrite) : Database :=
  additional.foldl writeCheckpoint (changes.entries.foldl writeChangeCheckpoint db)

/-! ### Dependents -/

/-- A prerequisite of the job has ended without a result. -/
def failedPrerequisite (id : JobIdentity) : Bool :=
  db.dependencies.any fun dependency => dependency.jobId == id
    && (db.jobs.get? dependency.prerequisiteJobId).any (isUnsuccessful ·.state)

def readyPrerequisites (id : JobIdentity) : Bool :=
  !db.dependencies.any fun dependency => dependency.jobId == id
    && (db.jobs.get? dependency.prerequisiteJobId).any (·.state != .succeeded)

def dependents (id : JobIdentity) : List JobIdentity :=
  (db.dependencies.filter (·.prerequisiteJobId == id)).map (·.jobId)

/-- The loop over dependents goes on from a job that ends here or has ended without a result. -/
def continuesThrough (id : JobIdentity) : Bool :=
  (db.jobs.get? id).any fun job => job.state != .leased && job.state != .succeeded

/-- The dependents from which the loop goes on, listed by prerequisite. -/
def dependencyGraph : AdjacencyList JobIdentity :=
  (db.dependencies.map (·.prerequisiteJobId)).dedup.map fun id =>
    (id, (db.dependents id).filter db.continuesThrough)

/-- The jobs that the loop visits from the roots. -/
def terminalDependents (roots : List JobIdentity) : List JobIdentity :=
  ((db.dependencyGraph.queueClosure roots).flatMap db.dependents).dedup.filter (· ∉ roots)

/-- The change of a dependent that the loop visits: a leased job learns of it, a waiting one
ends. -/
def dependentChange (id : JobIdentity) : Option PlannedJobChange :=
  (db.jobs.get? id).bind fun job =>
    if !job.state.isNonterminal then none
    else if job.state = .leased then some .requestCancel
    else (terminalState job true).map fun (state, code) => .terminal state code

/-- `planTerminalDependents`: add the changes of the dependents of the roots. -/
def planTerminalDependents (roots : List JobIdentity)
    (changes : OrderedMap JobIdentity PlannedJobChange) :
    OrderedMap JobIdentity PlannedJobChange :=
  (db.terminalDependents roots).foldl (fun changes id =>
    match db.dependentChange id with
    | some change => changes.set id change
    | none => changes) changes

def changedRow (changes : OrderedMap JobIdentity PlannedJobChange) (id : JobIdentity) (job : Job) :
    Job :=
  match changes.get? id with
  | some change => change.apply db.clock job
  | none => job

def changeNotices (changes : OrderedMap JobIdentity PlannedJobChange) : List StateNotice :=
  changes.entries.filterMap fun (id, change) => (db.jobs.get? id).bind (change.notice id)

/-- `applyPlannedJobChanges` and the notices of the changes. -/
def applyPlannedJobChanges (changes : OrderedMap JobIdentity PlannedJobChange) : Database :=
  let staged := db.writePlannedCheckpoints changes []
  let changed : Database := { staged with jobs := db.jobs.mapValues (db.changedRow changes) }
  changed.insertNotices (db.changeNotices changes)

/-! ### Scheduling plans -/

def newJob (prepared : PreparedJob) : Job where
  identity := prepared.identity
  pinned := prepared.pinned
  event := prepared.event
  evidence := prepared.evidence
  availableAt := db.clock

def insertedJobs (jobs : List PreparedJob) : OrderedMap JobIdentity Job :=
  jobs.foldl (fun rows prepared => rows.setIfAbsent prepared.identity (db.newJob prepared)) db.jobs

/-- The row of a job after a transition of a plan. -/
def transitionRow (job : Job) : PreparedTransition → Job
  | .cancel _ => job.cancel db.clock
  | .supersede _ nextJob => job.supersede db.clock nextJob

/-- The row of a job after the transitions of a plan that are about it. -/
def transitionedRow (transitions : List PreparedTransition) (id : JobIdentity) (job : Job) : Job :=
  (transitions.filter (·.oldJob = id)).foldl db.transitionRow job

/-- The rows after the inserts and transitions of a plan. -/
def transitionedJobs (plan : SchedulingPlan) : OrderedMap JobIdentity Job :=
  (db.insertedJobs plan.jobs).mapValues (db.transitionedRow plan.transitions)

/-- The dependents of a job that a transition ends, or finds ended in its own way, are to end. -/
def isTransitionRoot (transition : PreparedTransition) : Bool :=
  (db.jobs.get? transition.oldJob).any fun job =>
    job.state == .queued || job.state == .retryWait || match transition with
      | .cancel _ => job.state == .cancelled
      | .supersede _ _ => job.state == .superseded

/-- The changes of dependents that come with a plan. -/
def stagedDependents (plan : SchedulingPlan) : OrderedMap JobIdentity PlannedJobChange :=
  db.planTerminalDependents
    ((plan.transitions.filter db.isTransitionRoot).map PreparedTransition.oldJob).dedup .empty

def queuedNotice (prepared : PreparedJob) : Option StateNotice :=
  if (db.jobs.get? prepared.identity).isSome then none
  else some { jobId := prepared.identity, state := .queued,
              transitionIdentity := some (.created prepared.identity) }

/-- The notice of a transition, which is given when the job is found in its state afterwards. -/
def transitionNotice (rows : OrderedMap JobIdentity Job) (transition : PreparedTransition) :
    Option StateNotice :=
  match transition, (rows.get? transition.oldJob).map Job.state with
  | .supersede oldJob nextJob, some .superseded =>
    some { jobId := oldJob, state := .superseded,
           transitionIdentity := some (.supersededBy nextJob) }
  | .cancel oldJob, some .cancelled =>
    some { jobId := oldJob, state := .cancelled, transitionIdentity := some .subjectClosed }
  | _, _ => none

def planNotices (plan : SchedulingPlan) : List StateNotice :=
  db.changeNotices (db.stagedDependents plan) ++ plan.jobs.filterMap db.queuedNotice ++
    plan.transitions.filterMap (transitionNotice (db.transitionedJobs plan))

/-- `INSERT INTO orchestration_job_dependencies … ON CONFLICT DO NOTHING`. -/
def insertDependencies (dependencies added : List JobDependency) : List JobDependency :=
  added.foldl (fun rows row => if row ∈ rows then rows else rows ++ [row]) dependencies

/-- `stageScheduledJobCheckpoints` and `persistScheduledJobs`. -/
def persistScheduledJobs (plan : SchedulingPlan) : Database :=
  let changes := db.stagedDependents plan
  let staged := db.writePlannedCheckpoints changes plan.checkpointWrites
  let persisted : Database := { staged with
    jobs := (db.transitionedJobs plan).mapValues (db.changedRow changes)
    dependencies := insertDependencies db.dependencies plan.dependencies }
  persisted.insertNotices (db.planNotices plan)

end Database

end ApiTruth.Orchestration.Queue
