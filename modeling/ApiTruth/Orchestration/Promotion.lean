import ApiTruth.Ir.Validation
import ApiTruth.Orchestration.Soundness

/-!
# Completion and promotion

A completion promotes its snapshot with the evidence of the checkpoint.  Whatever the other
processes do, it commits only while its job is the current one of the branch, under its live lease
and for the active configuration; a job commits at most once.  The catalog accepts the promotion
as long as no authoritative reconciliation brings back the order of the pointer: branch events
cannot do so, but a forced repair keeps the sequence that was promoted.

## Main definitions

* `Database.commits`, `Database.commitCount` : the results committed for a job.

## Main results

* `Database.promoteBranch_after_checks` : every eligible completion promotes.
* `Database.not_promoteBranch_after_checks` : a configuration change, a repair and a conflict.
* `Database.promotion_safety` : what holds of every completion that commits.
-/

namespace ApiTruth.Orchestration

open Catalog Checked Ir TransitionSystem

namespace Database

variable {parses : ContractSnapshot → Bool} {start db db' : Database}

/-! ### Runs -/

theorem run_foldl (parses : ContractSnapshot → Bool) (db : Database) (actions : List Action) :
    Run (Step parses) db actions (actions.foldl (perform parses) db) := by
  induction actions generalizing db with
  | nil => exact .nil db
  | cons action actions ih => exact .cons rfl (ih (db.perform parses action))

variable {actions : List Action} {id : JobIdentity}

theorem coherent_of_run (hc : start.Coherent)
    (hrun : Run (Step parses) start actions db) : db.Coherent :=
  hrun.invariant (fun s action t hs (hstep : t = s.perform parses action) =>
    hstep ▸ hs.perform action) hc

theorem sound_of_run (hs : start.Sound) (hc : start.Coherent)
    (hrun : Run (Guarded (Step parses) KeepsOrder) start actions db) : db.Sound ∧ db.Coherent := by
  refine hrun.invariant (I := fun s => s.Sound ∧ s.Coherent) ?_ ⟨hs, hc⟩
  rintro s action t ⟨hs, hc⟩ ⟨hstep, hkeeps⟩
  exact hstep ▸ ⟨hs.perform hc hkeeps, hc.perform action⟩

/-! ### The catalog accepts the promotion -/

/-- After a run whose reconciliations meet the condition, a completion that passes its checks is
accepted by the catalog. -/
theorem promoteBranch_after_checks {actions : List Action} (hstart : start.IsInitial)
    (hrun : Run (Guarded (Step parses) KeepsOrder) start actions db) {worker : WorkerIdentity}
    {lease : JobLease} {material : Materialized} {written : Database} {input : PromoteBranchInput}
    (h : db.completionBeforePromotion parses worker lease material = .ok (written, input)) :
    ∃ catalog outcome, written.catalog.promoteBranch input = .ok (catalog, outcome) := by
  obtain ⟨hs, hc⟩ := sound_of_run hstart.sound hstart.coherent hrun
  exact hs.promoteBranch_succeeds hc h

/-! ### What commits -/

theorem mayPromote_of_completion (hc : db.Coherent) {worker : WorkerIdentity} {lease : JobLease}
    {material : Materialized} {outcome : PromotionOutcome}
    (h : db.completion parses worker lease material = .ok (db', outcome)) :
    ∃ job checkpoint revision, db.MayPromote worker lease job checkpoint revision := by
  obtain ⟨written, input, _, hbefore, -⟩ := completion_eq_ok h
  obtain ⟨job, checkpoint, revision, hmay, -⟩ :=
    completionBeforePromotion_eq_ok Nobody hc hbefore
  exact ⟨job, checkpoint, revision, hmay⟩

variable (parses) in
/-- The operation commits a result of the job. -/
def commits (db : Database) (id : JobIdentity) (action : Action) : Bool :=
  match action with
  | .reconcile _ lease _ _ => lease.jobId == id && (db.attempt parses action).isOk
  | .complete _ lease _ => lease.jobId == id && (db.attempt parses action).isOk
  | _ => false

variable (parses) in
/-- How many results of the job the operations commit, one after the other. -/
def commitCount (db : Database) (id : JobIdentity) : List Action → ℕ
  | [] => 0
  | action :: actions =>
    (if db.commits parses id action then 1 else 0) +
      commitCount (db.perform parses action) id actions

theorem of_commits (hc : db.Coherent) {action : Action} (h : db.commits parses id action = true) :
    (∃ job, db.jobs id = some job ∧ job.state.isNonterminal = true) ∧
      ∃ job', (db.perform parses action).jobs id = some job' ∧
        job'.state.isNonterminal = false := by
  have hperform {next : Database} (hok : db.attempt parses action = .ok next) :
      db.perform parses action = next := by
    rw [perform, hok]
  cases action with
  | reconcile worker lease reference observation =>
    simp only [commits, Bool.and_eq_true, beq_iff_eq, isOk_iff] at h
    obtain ⟨rfl, next, hok⟩ := h
    obtain ⟨⟨-, job, hlease⟩, ⟨job', hjob', hover⟩, -⟩ :=
      executeReconciliation_eq_ok Nobody hc hok
    obtain ⟨⟨hjob, hstate, -⟩, -⟩ := validateLease_eq_ok.mp hlease
    rw [hperform hok]
    exact ⟨⟨job, hjob, by rw [hstate]; rfl⟩, job', hjob', by rw [hover]; rfl⟩
  | complete worker lease material =>
    simp only [commits, Bool.and_eq_true, beq_iff_eq, isOk_iff] at h
    obtain ⟨rfl, next, hok⟩ := h
    obtain ⟨⟨committed, outcome⟩, hcompletion, rfl⟩ := map_eq_ok.mp hok
    obtain ⟨written, input, catalog, hbefore, -, rfl⟩ := completion_eq_ok hcompletion
    obtain ⟨job, _, _, hmay, -, ⟨job', hjob', hover⟩, -⟩ :=
      completionBeforePromotion_eq_ok Nobody hc hbefore
    rw [hperform hok]
    exact ⟨⟨job, hmay.jobRow, by rw [hmay.leased]; rfl⟩, job', hjob', by rw [hover]; rfl⟩
  | _ => cases h

/-- The row of a job after a run: it keeps its work, and is leased only to its holder or to one that
a claim of the run has issued. -/
theorem job_of_run (hc : start.Coherent) (hrun : Run (Step parses) start actions db) {job : Job}
    (hjob : start.jobs id = some job) :
    ∃ job', db.jobs id = some job' ∧
      SameWork (fun holder => ∃ action ∈ actions, action.issues id holder) job job' := by
  induction hrun generalizing job with
  | nil s => exact ⟨job, hjob, .refl job⟩
  | @cons s t u action actions hstep _ ih =>
    obtain rfl : t = s.perform parses action := hstep
    obtain ⟨middle, hmiddle, hwork⟩ := (keepsJobs_perform parses hc action).jobs id job hjob
    obtain ⟨job', hjob', hwork'⟩ := ih (hc.perform action) hmiddle
    refine ⟨job', hjob', (hwork.mono fun holder hissued => ?_).trans
      (hwork'.mono fun holder hissued => ?_)⟩
    · exact ⟨action, List.mem_cons_self, hissued⟩
    · obtain ⟨other, hother, hissues⟩ := hissued
      exact ⟨other, List.mem_cons_of_mem _ hother, hissues⟩

theorem commitCount_eq_zero {job : Job} (hc : db.Coherent)
    (hjob : db.jobs id = some job) (hover : job.state.isNonterminal = false)
    (actions : List Action) : db.commitCount parses id actions = 0 := by
  induction actions generalizing db job with
  | nil => rfl
  | cons action actions ih =>
    obtain ⟨job', hjob', hwork⟩ :=
      (keepsJobs_perform parses hc action).jobs id job hjob
    have hcommits : db.commits parses id action = false := by
      by_contra hcommits
      obtain ⟨⟨other, hother, hopen⟩, -⟩ := of_commits hc (by simpa using hcommits)
      cases hjob.symm.trans hother
      simp [hover] at hopen
    simp only [commitCount, hcommits, Bool.false_eq_true, ↓reduceIte, Nat.zero_add]
    exact ih (hc.perform action) hjob' (by rwa [hwork.terminal hover])

theorem commitCount_le_one (hc : db.Coherent) (id : JobIdentity) (actions : List Action) :
    db.commitCount parses id actions ≤ 1 := by
  induction actions generalizing db with
  | nil => exact Nat.zero_le 1
  | cons action actions ih =>
    simp only [commitCount]
    by_cases hcommits : db.commits parses id action = true
    · obtain ⟨-, job', hjob', hover⟩ := of_commits hc hcommits
      rw [if_pos hcommits, commitCount_eq_zero (hc.perform action) hjob' hover]
    · rw [if_neg hcommits, Nat.zero_add]
      exact ih (hc.perform action)

/-- Promotion is safe in every reachable state.  A completion that commits holds the live lease of
the current job of its branch, which wants exactly its revision, under the active configuration.
A job that has been superseded, cancelled or otherwise ended commits nothing later, and neither
does a worker whose lease has passed to another holder, as long as its token is not issued again.
No job commits twice. -/
theorem promotion_safety {actions : List Action} (hstart : start.IsInitial)
    (hrun : Run (Step parses) start actions db) :
    (∀ worker lease material db' outcome,
      db.completion parses worker lease material = .ok (db', outcome) →
        ∃ job checkpoint revision, db.MayPromote worker lease job checkpoint revision) ∧
    (∀ id job later db', db.jobs id = some job → ¬ job.IsOpen →
      Run (Step parses) db later db' → ∀ worker lease material, lease.jobId = id →
        db'.perform parses (.complete worker lease material) = db') ∧
    (∀ lease worker job later db', db.jobs lease.jobId = some job →
      job.holder ≠ some (worker, lease.leaseToken) → Run (Step parses) db later db' →
      (∀ action ∈ later, ¬ action.issues lease.jobId (worker, lease.leaseToken)) →
        ∀ material, db'.perform parses (.complete worker lease material) = db') ∧
    ∀ id, start.commitCount parses id actions ≤ 1 := by
  have hc := coherent_of_run hstart.coherent hrun
  -- a completion that changes rows commits
  have hcommitted {db' : Database} {worker : WorkerIdentity} {lease : JobLease}
      {material : Materialized} (hc' : db'.Coherent)
      (hrefused : ∀ job checkpoint revision,
        ¬ db'.MayPromote worker lease job checkpoint revision) :
      db'.perform parses (.complete worker lease material) = db' := by
    rcases perform_eq_or parses db' (.complete worker lease material) with hsame | hok
    · exact hsame
    · obtain ⟨⟨committed, outcome⟩, hcompletion, -⟩ := map_eq_ok.mp hok
      obtain ⟨job, checkpoint, revision, hmay⟩ := mayPromote_of_completion hc' hcompletion
      exact absurd hmay (hrefused job checkpoint revision)
  refine ⟨fun worker lease material db' outcome h => mayPromote_of_completion hc h, ?_, ?_,
    fun id => commitCount_le_one hstart.coherent id actions⟩
  · rintro id job later db' hjob hnot hlater worker lease material rfl
    obtain ⟨job', hjob', hwork⟩ := job_of_run hc hlater hjob
    refine hcommitted (coherent_of_run hc hlater) fun other checkpoint revision hmay => hnot ?_
    cases hjob'.symm.trans hmay.jobRow
    exact hwork.isOpen ⟨by rw [hmay.leased]; rfl, hmay.supersedingJob, hmay.cancellationRequested⟩
  · intro lease worker job later db' hjob hnot hlater hfresh material
    obtain ⟨job', hjob', hwork⟩ := job_of_run hc hlater hjob
    refine hcommitted (coherent_of_run hc hlater) fun other checkpoint revision hmay => ?_
    cases hjob'.symm.trans hmay.jobRow
    obtain ⟨columns, hcolumns, hworker, hinstance, htoken, -⟩ := hmay.holdsLease
    have hholder : job'.holder = some (worker, lease.leaseToken) := by
      simp [Job.holder, hcolumns, LeaseColumns.holder, hworker, hinstance, htoken]
    rcases hwork.holder _ hholder with ⟨action, haction, hissues⟩ | hheld
    · exact hfresh action haction hissues
    · exact hnot hheld

/-! ### A small tenant -/

/-- No rows at all. -/
def empty : Database where
  clock := 0
  configurations _ := none
  active := none
  jobs _ := none
  branches _ := none
  reconciliations _ := none
  revisionSnapshots _ := none
  catalog := { activeScope := fun _ => false, snapshots := fun _ => none, pointers := fun _ => none }

theorem isInitial_empty : empty.IsInitial := by
  constructor <;> intros <;> rfl

def sampleTarget : TargetConfig :=
  let service : ServiceConfig :=
    { serviceId := "svc"
      root := "."
      analyzer := { adapterId := "an", adapterVersion := "1", irVersion := some "1.1.0" }
      intendedBranches := ["main"]
      environments := [] }
  ⟨{ repositoryId := "repo", provider := "github", services := [service] }, service⟩

def sampleConfiguration (fingerprint : String) : SchedulingConfiguration :=
  ⟨fingerprint, { configVersion := "1.0.0", repositories := [sampleTarget.repository] }⟩

def sampleEvidence (sequence : String) : ProviderReference :=
  ⟨"github", "ref-" ++ sequence, some ⟨.sequence, sequence⟩⟩

def sampleRevision : String := "0123456789ab"

def sampleKey : BranchKey := ⟨"repo", "svc", "main"⟩

def sampleEvent (desired : DesiredState) (sequence : String) : BranchEvent :=
  ⟨["svc"], "main", desired, sampleEvidence sequence⟩

def sampleAnalysis (fingerprint : String) (generation : ℕ) : JobIdentity :=
  branchAnalysisIdentity (sampleConfiguration fingerprint) sampleTarget "main" sampleRevision
    generation

/-- The result of an analysis of the sample revision. -/
def sampleMaterial (fingerprint snapshotId : String) : Materialized where
  request := ⟨"repo", "svc", sampleRevision, "d", ⟨"an", "1"⟩, "inputs"⟩
  result :=
    { snapshot := { sampleSnapshot with
        snapshotId := snapshotId
        config := ⟨"1.0.0", fingerprint⟩
        evidence := sampleSnapshot.evidence.map fun evidence =>
          { evidence with scope := { evidence.scope with snapshotId := some snapshotId } } }
      requiredScopeIds := []
      analyzerStatus := .success }
  associationKind := .analyzed
  update := none
  baseSelection := none
  reused_base := by simp

def sampleWorker : WorkerIdentity := ⟨"worker", "instance"⟩

def sampleParses (snapshot : ContractSnapshot) : Bool := decide (snapshot.Accepted .ascii)

/-- A configuration is activated, an event arrives and its analysis is claimed. -/
def sampleActions : List Action := [
  .registerConfiguration (sampleConfiguration "A"),
  .activateInitialConfiguration "A",
  .branchEvent (sampleEvent (.present sampleRevision) "5"),
  .claim sampleWorker (sampleAnalysis "A" 1) "token-1"]


def sampleLease : JobLease := ⟨sampleAnalysis "A" 1, "token-1"⟩

theorem promotion_safety_sample :
    (∃ job checkpoint revision, (sampleActions.foldl (perform sampleParses) empty).MayPromote
      sampleWorker sampleLease job checkpoint revision) ∧
    empty.commitCount sampleParses (sampleAnalysis "A" 1) sampleActions ≤ 1 := by
  have hcommits : ((sampleActions.foldl (perform sampleParses) empty).completion sampleParses
      sampleWorker sampleLease (sampleMaterial "A" "s1")).isOk = true := by
    decide +kernel
  obtain ⟨⟨db', outcome⟩, hok⟩ := isOk_iff.mp hcommits
  obtain ⟨hmay, -, -, hcount⟩ :=
    promotion_safety isInitial_empty (run_foldl sampleParses empty sampleActions)
  exact ⟨hmay _ _ _ _ _ hok, hcount _⟩

/-- The observation that is queued when the configuration changes. -/
def sampleReconciliation : JobIdentity where
  kind := .branchReconciliation
  key := sampleKey
  targetRevision := none
  generation := 1
  analysis := none
  configFingerprint := "B"

/-- The analysis is completed, the configuration changes, the branch is observed unchanged, and the
forced repair is claimed. -/
def repairActions : List Action := sampleActions ++ [
  .complete sampleWorker sampleLease (sampleMaterial "A" "s1"),
  .registerConfiguration (sampleConfiguration "B"),
  .activateConfiguration "B" 1 (sampleEvidence "9"),
  .claim sampleWorker sampleReconciliation "token-2",
  .reconcile sampleWorker ⟨sampleReconciliation, "token-2"⟩ "ref-9"
    ⟨"repo", "main", .present sampleRevision, sampleEvidence "5"⟩,
  .claim sampleWorker (sampleAnalysis "B" 2) "token-3"]

theorem promoteBranch_after_checks_sample :
    ∃ written input catalog outcome,
      (sampleActions.foldl (perform sampleParses) empty).completionBeforePromotion sampleParses
        sampleWorker sampleLease (sampleMaterial "A" "s1") = .ok (written, input) ∧
      written.catalog.promoteBranch input = .ok (catalog, outcome) := by
  have hchecked : ((sampleActions.foldl (perform sampleParses) empty).completionBeforePromotion
      sampleParses sampleWorker sampleLease (sampleMaterial "A" "s1")).isOk = true := by
    decide +kernel
  have hrun : Run (Guarded (Step sampleParses) KeepsOrder) empty sampleActions
      (sampleActions.foldl (perform sampleParses) empty) :=
    .cons ⟨rfl, trivial⟩ (.cons ⟨rfl, trivial⟩ (.cons ⟨rfl, trivial⟩
      (.cons ⟨rfl, trivial⟩ (.nil _))))
  obtain ⟨⟨written, input⟩, hwritten⟩ := isOk_iff.mp hchecked
  obtain ⟨catalog, outcome, hok⟩ := promoteBranch_after_checks isInitial_empty hrun hwritten
  exact ⟨written, input, catalog, outcome, hwritten, hok⟩

/-- A forced repair under a new configuration queues an analysis with the sequence that was
promoted: its completion passes all checks, and the catalog refuses the promotion. -/
theorem not_promoteBranch_after_checks :
    ∃ db written input, Run (Step sampleParses) empty repairActions db ∧
      db.completionBeforePromotion sampleParses sampleWorker ⟨sampleAnalysis "B" 2, "token-3"⟩
        (sampleMaterial "B" "s2") = .ok (written, input) ∧
      written.catalog.promoteBranch input = .error .branchPointerConflict := by
  have hrefused : (match (repairActions.foldl (perform sampleParses) empty).completionBeforePromotion
      sampleParses sampleWorker ⟨sampleAnalysis "B" 2, "token-3"⟩ (sampleMaterial "B" "s2") with
    | .ok (written, input) => (match written.catalog.promoteBranch input with
      | .ok _ => false
      | .error error => error == .branchPointerConflict)
    | .error _ => false) = true := by
    decide +kernel
  have hrun := run_foldl sampleParses empty repairActions
  generalize repairActions.foldl (perform sampleParses) empty = db at hrefused hrun
  split at hrefused
  · next written input hwritten =>
    split at hrefused
    · cases hrefused
    · next error herror => exact ⟨db, written, input, hrun, hwritten, eq_of_beq hrefused ▸ herror⟩
  · cases hrefused

end Database

end ApiTruth.Orchestration
