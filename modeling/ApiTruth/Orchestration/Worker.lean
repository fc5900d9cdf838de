import ApiTruth.Orchestration.Scheduling

/-!
# Leases of jobs

A worker claims a queued job under a lease, extends the lease while it works, and gives the job
back when it fails.  A claim also settles a job whose lease has run out.  Which of the discovered
jobs a worker claims, and whether capacity allows it, is left open.

## Main definitions

* `Database.claimJob`, `Database.heartbeatJob`, `Database.failJob`.
* `Database.cancelJob` : cancellation by an operator.
* `Database.validateLease` : the lease check of every execution.
-/

namespace ApiTruth.Orchestration

open Catalog Checked

structure WorkerIdentity where
  workerId : String
  instanceId : String
deriving DecidableEq, Repr

structure JobLease where
  jobId : JobIdentity
  leaseToken : String
deriving DecidableEq, Repr

/-- `LEASE_DURATION_MS`. -/
def leaseDurationMs : ℕ := 30000

/-- `computeRetryDelayMs` with the base and the maximum of the worker. -/
def computeRetryDelayMs (attempt : ℕ) : ℕ :=
  if attempt > 53 then 60000 else min 60000 (1000 * 2 ^ (attempt - 1))

/-- The state in which a superseded or cancelled job ends. -/
def terminalState (job : Job) : Option JobState :=
  if job.supersedingJob.isSome then some .superseded
  else if job.cancellationRequested then some .cancelled
  else none

/-- The row of a job that an operator cancels: a leased one keeps its lease and learns of it. -/
def Job.cancelByOperator (job : Job) : Job :=
  { job with
    state := if job.state = .leased then .leased else .cancelled
    cancellationRequested := true }

/-- The lease columns belong to the worker and the token. -/
def LeaseColumns.isHeldBy (columns : LeaseColumns) (worker : WorkerIdentity) (token : String) :
    Bool :=
  columns.workerId == worker.workerId && columns.instanceId == worker.instanceId
    && columns.token == token

namespace Database

variable (db : Database)

/-- The job is leased to the worker and the lease has not run out. -/
def validateLiveJobLease (worker : WorkerIdentity) (lease : JobLease) :
    Except OrchestrationError Job := do
  let job ← orRaise (db.jobs lease.jobId) .jobLeaseConflict
  require (job.state = .leased ∧ job.lease.any (fun columns =>
    columns.isHeldBy worker lease.leaseToken && db.clock < columns.expiresAt) = true)
      .jobLeaseConflict
  return job

/-- The lease is live, and the job is neither superseded nor cancelled. -/
def validateLease (worker : WorkerIdentity) (lease : JobLease) :
    Except OrchestrationError Job := do
  let job ← db.validateLiveJobLease worker lease
  require (job.supersedingJob = none) .jobSuperseded
  require (job.cancellationRequested = false) .jobCancelled
  return job

/-- The lease of the row is the presented one, and the clock has not reached its end. -/
def HoldsLease (worker : WorkerIdentity) (lease : JobLease) (job : Job) : Prop :=
  ∃ columns, job.lease = some columns ∧ columns.workerId = worker.workerId ∧
    columns.instanceId = worker.instanceId ∧ columns.token = lease.leaseToken ∧
    db.clock < columns.expiresAt

variable {db} in
theorem validateLiveJobLease_eq_ok {worker : WorkerIdentity} {lease : JobLease} {job : Job} :
    db.validateLiveJobLease worker lease = .ok job ↔
      db.jobs lease.jobId = some job ∧ job.state = .leased ∧ db.HoldsLease worker lease job := by
  simp only [validateLiveJobLease, orRaise_bind_eq_ok, require_bind_eq_ok, pure_eq_ok, HoldsLease,
    Option.any_eq_true, LeaseColumns.isHeldBy, Bool.and_eq_true, beq_iff_eq, decide_eq_true_eq,
    and_assoc]
  constructor
  · rintro ⟨job, hjob, hstate, hlease, rfl⟩
    exact ⟨hjob, hstate, hlease⟩
  · rintro ⟨hjob, hstate, hlease⟩
    exact ⟨job, hjob, hstate, hlease, rfl⟩

variable {db} in
theorem validateLease_eq_ok {worker : WorkerIdentity} {lease : JobLease} {job : Job} :
    db.validateLease worker lease = .ok job ↔
      (db.jobs lease.jobId = some job ∧ job.state = .leased ∧ db.HoldsLease worker lease job) ∧
        job.supersedingJob = none ∧ job.cancellationRequested = false := by
  simp only [validateLease, bind_eq_ok (x := db.validateLiveJobLease worker lease),
    validateLiveJobLease_eq_ok, require_bind_eq_ok, pure_eq_ok]
  constructor
  · rintro ⟨job, hjob, hnext, hcancel, rfl⟩
    exact ⟨hjob, hnext, hcancel⟩
  · rintro ⟨hjob, hnext, hcancel⟩
    exact ⟨job, hjob, hnext, hcancel, rfl⟩

/-! ### Changes of one job -/

/-- `updateCheckpointState`: the checkpoint whose current job changes repeats the state; a
reconciliation only records how it ended. -/
def updateCheckpointState (id : JobIdentity) (state : JobState) : Database :=
  match id.kind with
  | .branchAnalysis =>
    { db with
      branches := Function.update db.branches id.key <| (db.branches id.key).map fun checkpoint =>
        if checkpoint.currentJob = some id then { checkpoint with latestOutcome := .job state }
        else checkpoint }
  | .branchReconciliation =>
    if state.isNonterminal then db
    else { db with
      reconciliations := Function.update db.reconciliations id.key <|
        (db.reconciliations id.key).map fun checkpoint =>
          if checkpoint.currentJob = some id then
            { checkpoint with
              lastOutcome := some (if state = .failed then .failed else .obsolete) }
          else checkpoint }

def terminateJob (id : JobIdentity) (state : JobState) : Database :=
  (db.updateCheckpointState id state).updateJob id fun job =>
    { job with state := state, lease := none }

def retryJob (id : JobIdentity) : Database :=
  (db.updateCheckpointState id .retryWait).updateJob id fun job =>
    { job with
      state := .retryWait
      lease := none
      availableAt := db.clock + computeRetryDelayMs job.attemptCount }

/-- The job is leased to a worker under a fresh token. -/
def leaseJob (id : JobIdentity) (worker : WorkerIdentity) (token : String) : Database :=
  (db.updateCheckpointState id .leased).updateJob id fun job =>
    { job with
      state := .leased
      attemptCount := job.attemptCount + 1
      lease := some ⟨worker.workerId, worker.instanceId, token, db.clock + leaseDurationMs⟩ }

/-- `isAllowedByActiveConfig`: the job belongs to the active configuration, which lists its
branch. -/
def isAllowedByActiveConfig (id : JobIdentity) : Bool :=
  match db.readActive with
  | .error _ => false
  | .ok (_, configuration) =>
    configuration.fingerprint == id.configFingerprint &&
      (configuration.document.findService id.key.repositoryId id.key.serviceId).any
        fun target => decide (id.key.branch ∈ target.service.intendedBranches)

/-- One job of `claimJobs`: a lease that has run out is settled, and an available job is leased
when the configuration allows it and attempts are left. -/
def claimJob (worker : WorkerIdentity) (id : JobIdentity) (token : String) : Database :=
  match db.jobs id with
  | none => db
  | some job =>
    match job.state with
    | .leased =>
      if job.lease.any (fun columns => db.clock < columns.expiresAt) then db
      else match terminalState job with
        | some state => db.terminateJob id state
        | none =>
          if job.maxAttempts ≤ job.attemptCount then db.terminateJob id .failed
          else db.retryJob id
    | .queued | .retryWait =>
      if db.clock < job.availableAt then db
      else if !db.isAllowedByActiveConfig id then db.terminateJob id .cancelled
      else match terminalState job with
        | some state => db.terminateJob id state
        | none =>
          if job.maxAttempts ≤ job.attemptCount then db.terminateJob id .failed
          else db.leaseJob id worker token
    | .succeeded | .failed | .cancelled | .superseded => db

def heartbeatJob (worker : WorkerIdentity) (lease : JobLease) :
    Except OrchestrationError Database := do
  let _ ← db.validateLease worker lease
  return db.updateJob lease.jobId fun job =>
    { job with lease := job.lease.map ({ · with expiresAt := db.clock + leaseDurationMs }) }

/-- The worker gives the job back: it ends when it is superseded, cancelled or out of attempts,
and waits otherwise. -/
def failJob (worker : WorkerIdentity) (lease : JobLease) : Except OrchestrationError Database := do
  let job ← db.validateLiveJobLease worker lease
  return match terminalState job with
    | some state => db.terminateJob lease.jobId state
    | none =>
      if job.maxAttempts ≤ job.attemptCount then db.terminateJob lease.jobId .failed
      else db.retryJob lease.jobId

/-- The checkpoint whose current job is cancelled by an operator lets go of it. -/
def detachCheckpoint (id : JobIdentity) : Database :=
  match id.kind with
  | .branchAnalysis =>
    { db with
      branches := Function.update db.branches id.key <| (db.branches id.key).map fun checkpoint =>
        if checkpoint.currentJob = some id then
          { checkpoint with currentJob := none, latestOutcome := .job .cancelled }
        else checkpoint }
  | .branchReconciliation =>
    { db with
      reconciliations := Function.update db.reconciliations id.key <|
        (db.reconciliations id.key).map fun checkpoint =>
          if checkpoint.currentJob = some id then
            { checkpoint with currentJob := none, lastOutcome := some .obsolete }
          else checkpoint }

def cancelJob (id : JobIdentity) : Except OrchestrationError Database := do
  let job ← orRaise (db.jobs id) .jobNotFoundOrDenied
  let _ ← db.readActive
  match job.state with
  | .succeeded | .failed | .superseded | .cancelled => return db
  | .queued | .retryWait | .leased =>
    return (db.detachCheckpoint id).updateJob id Job.cancelByOperator

end Database

end ApiTruth.Orchestration
