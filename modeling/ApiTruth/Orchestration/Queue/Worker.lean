import ApiTruth.Orchestration.Queue.Persisting

/-!
# Workers and operators

A worker claims jobs under leases, extends a lease while it works, and gives the job back when it
fails; a claim also settles jobs whose lease has run out.  An operator cancels a job.  Which jobs a
claim discovers and locks, and what capacity allows, is left open.

## Main definitions

* `Database.claimJobs`, `Database.heartbeatJob`, `Database.failJob`.
* `Database.cancelJob` : cancellation by an operator.
* `Database.validateLease` : the lease check of every execution.
-/

namespace ApiTruth.Orchestration.Queue

open Catalog Checked

structure JobLease where
  jobId : JobIdentity
  leaseToken : String
deriving DecidableEq, Repr

def executionFailureCode (kind : JobKind) : OrchestrationErrorCode :=
  if kind.isReconciliation then .reconciliationFailed else .jobExecutionFailed

/-- What a claim meets: the candidates in the order of the queue, the tokens it draws, and what
capacity allows beside the claims that are pending. -/
structure ClaimBatch where
  worker : WorkerIdentity
  limit : ℕ
  candidates : List JobIdentity
  token : JobIdentity → String
  capacityAvailable : List JobIdentity → JobIdentity → Bool

structure ClaimProgress where
  changes : OrderedMap JobIdentity PlannedJobChange := .empty
  terminalRoots : List JobIdentity := []
  pendingClaims : List JobIdentity := []

namespace ClaimProgress

variable (progress : ClaimProgress) (id : JobIdentity)

/-- Plan that a candidate ends. -/
def finish (state : JobState) (code : Option OrchestrationErrorCode) : ClaimProgress :=
  { progress with
    changes := progress.changes.set id (.terminal state code)
    terminalRoots := progress.terminalRoots ++ [id] }

/-- Plan that a candidate waits for its next attempt. -/
def retry (delay : ℕ) : ClaimProgress :=
  { progress with changes := progress.changes.set id (.retry delay none) }

/-- Plan that a candidate is leased. -/
def claim (worker : WorkerIdentity) (token : String) : ClaimProgress :=
  { progress with
    changes := progress.changes.set id (.claim worker token)
    pendingClaims := progress.pendingClaims ++ [id] }

end ClaimProgress

namespace Database

variable (db : Database)

def readActive :
    Except OrchestrationErrorCode (ActiveConfiguration × SchedulingConfiguration) := do
  let active ← orRaise db.active .configurationNotFound
  let document ← orRaise (db.configurations.get? active.fingerprint) .configurationNotFound
  return (active, ⟨active.fingerprint, document⟩)

/-- `isAllowedByActiveConfig`: the job belongs to the active configuration, which lists its service,
the branch of a branch job, and some branch for a pull request job. -/
def isAllowedByActiveConfig (id : JobIdentity) : Bool :=
  match db.readActive with
  | .error _ => false
  | .ok (_, configuration) =>
    configuration.fingerprint == id.configFingerprint &&
      (configuration.document.findService id.repositoryId id.serviceId).any fun target =>
        match id.kind with
        | .branchAnalysis | .branchReconciliation =>
          id.branch.any (· ∈ target.service.intendedBranches)
        | .prPreviewAnalysis | .prReconciliation => 0 < target.service.intendedBranches.length
        | .baselineAnalysis => true

def jobLeaseIsLive (job : Job) : Bool :=
  job.lease.any fun columns => db.clock < columns.expiresAt

/-- How a candidate ends whose lease has run out, unless it is tried again. -/
def expiredOutcome (id : JobIdentity) (job : Job) :
    Option (JobState × Option OrchestrationErrorCode) :=
  (terminalState job (db.failedPrerequisite id)).orElse fun _ =>
    if job.maxAttempts ≤ job.attemptCount then
      some (.failed, some (executionFailureCode id.kind))
    else none

/-- How a candidate ends that waits in the queue, unless it can be leased. -/
def waitingOutcome (id : JobIdentity) (job : Job) :
    Option (JobState × Option OrchestrationErrorCode) :=
  if !db.isAllowedByActiveConfig id then some (.cancelled, none)
  else db.expiredOutcome id job

def claimCandidate (batch : ClaimBatch) (progress : ClaimProgress) (id : JobIdentity) :
    ClaimProgress :=
  match db.jobs.get? id with
  | none => progress
  | some job =>
    match job.state with
    | .leased =>
      if db.jobLeaseIsLive job then progress
      else match db.expiredOutcome id job with
        | some (state, code) => progress.finish id state code
        | none => progress.retry id (computeRetryDelayMs job.attemptCount)
    | .queued | .retryWait =>
      if batch.limit ≤ progress.pendingClaims.length ∨ db.clock < job.availableAt then progress
      else match db.waitingOutcome id job with
        | some (state, code) => progress.finish id state code
        | none =>
          if db.readyPrerequisites id && batch.capacityAvailable progress.pendingClaims id then
            progress.claim id batch.worker (batch.token id)
          else progress
    | .succeeded | .failed | .cancelled | .superseded => progress

/-- `claimJobs`: the changes of the candidates and of the dependents of those that end. -/
def claimJobs (batch : ClaimBatch) : Database :=
  let progress := batch.candidates.foldl (db.claimCandidate batch) {}
  db.applyPlannedJobChanges
    (db.planTerminalDependents progress.terminalRoots progress.changes)

/-! ### Leases -/

/-- The job is leased to the worker under the token, and the lease is live. -/
def validateLiveJobLease (worker : WorkerIdentity) (lease : JobLease) :
    Except OrchestrationErrorCode Job := do
  let job ← orRaise (db.jobs.get? lease.jobId) .jobLeaseConflict
  require (job.state = .leased
    ∧ job.lease.any (·.isHeldBy worker lease.leaseToken) = true
    ∧ db.jobLeaseIsLive job = true) .jobLeaseConflict
  return job

/-- The lease is live, and the job is neither superseded nor cancelled. -/
def validateLease (worker : WorkerIdentity) (lease : JobLease) :
    Except OrchestrationErrorCode Job := do
  let job ← db.validateLiveJobLease worker lease
  require (job.supersedingJob = none) .jobSuperseded
  require (job.cancellationRequested = false) .jobCancelled
  return job

def heartbeatJob (worker : WorkerIdentity) (lease : JobLease) :
    Except OrchestrationErrorCode Database := do
  let _ ← db.validateLease worker lease
  require (db.failedPrerequisite lease.jobId = false) .jobDependencyFailed
  return db.updateJob lease.jobId (·.heartbeat db.clock)

/-- The worker gives the job back: it ends when it is superseded, cancelled, lacks a prerequisite
or is out of attempts, and waits otherwise. -/
def failJob (worker : WorkerIdentity) (lease : JobLease) :
    Except OrchestrationErrorCode Database := do
  let job ← db.validateLiveJobLease worker lease
  match db.expiredOutcome lease.jobId job with
  | some (state, code) =>
    return db.applyPlannedJobChanges (db.planTerminalDependents [lease.jobId]
      (OrderedMap.empty.set lease.jobId (.terminal state code)))
  | none =>
    return db.applyPlannedJobChanges (OrderedMap.empty.set lease.jobId
      (.retry (computeRetryDelayMs job.attemptCount)
        (some (executionFailureCode lease.jobId.kind))))

/-! ### Cancellation -/

/-- The checkpoint whose current job is cancelled by an operator lets go of it. -/
def detachCheckpoint (id : JobIdentity) : Database :=
  match id.kind with
  | .branchAnalysis =>
    { db with branches := db.branches.mapValues fun _ checkpoint =>
        if checkpoint.currentJob = some id then
          { checkpoint with currentJob := none, latestOutcome := .job .cancelled }
        else checkpoint }
  | .prPreviewAnalysis | .prReconciliation =>
    { db with pullRequests := db.pullRequests.mapValues fun _ checkpoint =>
        if checkpoint.currentJob = some id then
          { checkpoint with currentJob := none, latestOutcome := .cancelled }
        else checkpoint }
  | .branchReconciliation =>
    { db with reconciliations := db.reconciliations.mapValues fun _ checkpoint =>
        if checkpoint.currentJob = some id then
          { checkpoint with currentJob := none, lastOutcome := some .obsolete }
        else checkpoint }
  | .baselineAnalysis =>
    { db with analyses := db.analyses.mapValues fun _ checkpoint =>
        if checkpoint.currentJob = some id then
          { checkpoint with currentJob := none, lastTerminalOutcome := some .cancelled }
        else checkpoint }

/-- The changes of the dependents of a job that an operator cancels. -/
def cancelledDependents (id : JobIdentity) : Database :=
  db.applyPlannedJobChanges (db.planTerminalDependents [id] .empty)

/-- An operator cancels a job that is not over; the dependents of a job that does not wait for its
worker end with it. -/
def cancelJob (id : JobIdentity) : Except OrchestrationErrorCode Database := do
  let job ← orRaise (db.jobs.get? id) .jobNotFoundOrDenied
  let _ ← db.readActive
  match job.state with
  | .succeeded | .failed | .superseded => return db
  | .cancelled => return db.cancelledDependents id
  | .leased => return (db.detachCheckpoint id).updateJob id (·.cancelByOperator db.clock)
  | .queued | .retryWait =>
    let changed := (db.cancelledDependents id).detachCheckpoint id
    return (changed.updateJob id (·.cancelByOperator db.clock)).insertNotice
      { ofTenant := false, jobId := id, state := .cancelled }

end Database

end ApiTruth.Orchestration.Queue
