import ApiTruth.Orchestration.Promotion

/-!
# Reconciliations of a branch whose analysis is under way

An authoritative observation of the revision that a branch already wants queues no work, but the
checkpoint takes over its evidence, while the running job keeps the evidence it was queued with.
The completion of the job then compares the two: evidence that cannot be ordered with that of the
job makes it ineligible for good.

## Main results

* `Database.executeReconciliation_keeps_promotable_iff` : when the job stays promotable.
* `Database.not_executeReconciliation_keeps_promotable` : a cursor after a sequence.
-/

namespace ApiTruth.Orchestration

open Catalog Checked Ir TransitionSystem Option

namespace Database

variable {parses : ContractSnapshot → Bool} {start db db' : Database}

theorem configured_of_run {actions : List Action} (hcfg : start.Configured) (hc : start.Coherent)
    (hrun : Run (Step parses) start actions db) : db.Configured := by
  refine (hrun.invariant (I := fun s => s.Configured ∧ s.Coherent) ?_ ⟨hcfg, hc⟩).1
  rintro s action t ⟨hcfg, hc⟩ hstep
  exact hstep ▸ ⟨hcfg.perform hc action, hc.perform action⟩

/-- The job is the current one of the branch, still to be done, and its evidence is confirmed by
the checkpoint. -/
structure PromotableJob (db : Database) (id : JobIdentity) (job : Job)
    (checkpoint : BranchCheckpoint) (revision : String) : Prop where
  jobRow : db.jobs id = some job
  nonterminal : job.state.isNonterminal = true
  branchRow : db.branches id.key = some checkpoint
  currentJob : checkpoint.currentJob = some id
  desired : checkpoint.desired = .present revision
  confirmed : isMonotoneProviderConfirmation ⟨job.evidence, .present revision⟩
    checkpoint.providerCheckpoint = true

def isPromotableJob (db : Database) (id : JobIdentity) (revision : String) : Bool :=
  (db.jobs id).any fun job => (db.branches id.key).any fun checkpoint =>
    job.state.isNonterminal && checkpoint.currentJob == some id
      && checkpoint.desired == .present revision
      && isMonotoneProviderConfirmation ⟨job.evidence, .present revision⟩
        checkpoint.providerCheckpoint

theorem isPromotableJob_iff {id : JobIdentity} {revision : String} :
    db.isPromotableJob id revision = true ↔
      ∃ job checkpoint, db.PromotableJob id job checkpoint revision := by
  simp only [isPromotableJob, any_eq_true, Bool.and_eq_true, beq_iff_eq]
  constructor
  · rintro ⟨job, hjob, checkpoint, hcheckpoint, ⟨⟨hstate, hcurrent⟩, hdesired⟩, hconfirmed⟩
    exact ⟨job, checkpoint, hjob, hstate, hcheckpoint, hcurrent, hdesired, hconfirmed⟩
  · rintro ⟨job, checkpoint, hjob, hstate, hcheckpoint, hcurrent, hdesired, hconfirmed⟩
    exact ⟨job, hjob, checkpoint, hcheckpoint, ⟨⟨hstate, hcurrent⟩, hdesired⟩, hconfirmed⟩

/-- A reconciliation that observes the wanted revision without repairing leaves the job under way,
and the job stays promotable exactly when the observed evidence is the one it was queued with, or
both are canonical sequences of one provider. -/
theorem executeReconciliation_keeps_promotable_iff {actions : List Action}
    (hstart : start.IsInitial) (hrun : Run (Step parses) start actions db) {id : JobIdentity}
    {job : Job} {checkpoint : BranchCheckpoint} {revision : String}
    (hjob : db.PromotableJob id job checkpoint revision) {worker : WorkerIdentity}
    {lease : JobLease} {reference : String} {observation : BranchObservation}
    (hkey : lease.jobId.key = id.key) (hobserved : observation.state = .present revision)
    {active : ActiveConfiguration} {configuration : SchedulingConfiguration}
    (hread : db.readActive = .ok (active, configuration))
    (hrepair : db.forceRepair configuration id.key observation.state = false)
    (h : db.executeReconciliation worker lease reference observation = .ok db') :
    (∃ checkpoint', db'.PromotableJob id job checkpoint' revision) ↔
      observation.providerEvidence = job.evidence ∨
        ∃ x y, job.evidence.provider = observation.providerEvidence.provider ∧
          job.evidence.HasSequence x ∧ observation.providerEvidence.HasSequence y := by
  have hc := coherent_of_run hstart.coherent hrun
  obtain ⟨⟨hkind, -⟩, -, hclassify, hcanonical, active', configuration', target, taken, scheduled, hread',
    -, htarget, hreplaces, -, hbranches, hjobs⟩ := executeReconciliation_eq_ok Nobody hc h
  cases hread.symm.trans hread'
  rw [hkey] at hclassify htarget hreplaces
  rw [hrepair] at hreplaces
  -- the job belongs to the active configuration, so the target of the checkpoint is confirmed
  have hsame : db.sameSemanticTarget configuration id.key observation.state false = true := by
    obtain ⟨_, configuration', hread', hfingerprint, -⟩ :=
      configured_of_run hstart.configured hstart.coherent hrun _ checkpoint id hjob.branchRow
        hjob.currentJob
    obtain ⟨-, rfl⟩ := Prod.mk.inj (Except.ok.inj (hread.symm.trans hread'))
    simp [sameSemanticTarget, currentJobRow, hjob.branchRow, hjob.currentJob, hjob.jobRow,
      hjob.desired, hobserved, hc.identity _ _ hjob.jobRow, hfingerprint]
  obtain ⟨hsameJobs, before, hbefore, htaken⟩ := hreplaces.confirms (by rw [htarget]; exact hsame)
  rw [htarget, hjob.branchRow] at hbefore
  cases hbefore
  have hrow : db'.branches id.key = some taken := by
    rw [hbranches, ← htarget]
    exact hreplaces.branches_self
  have hother : id ≠ lease.jobId := by
    rintro rfl
    have hanalysis := (hc.current _ checkpoint _ hjob.branchRow hjob.currentJob).1
    rw [hkind] at hanalysis
    cases hanalysis
  have hkept : db'.jobs id = some job := by
    rw [hjobs id hother, hsameJobs, hjob.jobRow]
  obtain ⟨hstale, hconflict⟩ := hclassify checkpoint hjob.branchRow
  simp only [BranchCheckpoint.providerCheckpoint, hjob.desired, hobserved] at hstale hconflict
  have hconfirmed := hjob.confirmed
  simp only [BranchCheckpoint.providerCheckpoint, hjob.desired] at hconfirmed
  rw [← isMonotoneProviderConfirmation_takeover_iff hcanonical hconfirmed hstale hconflict]
  constructor
  · rintro ⟨checkpoint', hjob'⟩
    cases hrow.symm.trans hjob'.branchRow
    have hconfirmed' := hjob'.confirmed
    rw [htaken] at hconfirmed'
    simpa only [BranchCheckpoint.providerCheckpoint, hjob.desired] using hconfirmed'
  · intro hconfirmed'
    refine ⟨taken, hkept, hjob.nonterminal, hrow, ?_, ?_, ?_⟩
    · rw [htaken]
      exact hjob.currentJob
    · rw [htaken]
      exact hjob.desired
    · rw [htaken]
      simpa only [BranchCheckpoint.providerCheckpoint, hjob.desired] using hconfirmed'

/-- The observation that is asked for while the analysis runs. -/
def requestedReconciliation : JobIdentity where
  kind := .branchReconciliation
  key := sampleKey
  targetRevision := none
  generation := 1
  analysis := none
  configFingerprint := "A"

/-- While the analysis runs, an observation of the branch is asked for and claimed. -/
def observedActions : List Action := sampleActions ++ [
  .reconciliationRequest ⟨["svc"], [], "ref-6", sampleEvidence "6"⟩,
  .claim sampleWorker requestedReconciliation "token-2"]

/-- The rows while the observation is under way. -/
def observedRows : Database := observedActions.foldl (perform sampleParses) empty

def sampleObservation (evidence : ProviderReference) : BranchObservation :=
  ⟨"repo", "main", .present sampleRevision, evidence⟩

theorem readActive_observedRows : observedRows.readActive = .ok (⟨"A", 1⟩, sampleConfiguration "A") :=
  readActive_eq_ok.mpr (by decide +kernel)

theorem executeReconciliation_keeps_promotable_sample :
    ∃ db' job checkpoint, observedRows.executeReconciliation sampleWorker
        ⟨requestedReconciliation, "token-2"⟩ "ref-6" (sampleObservation (sampleEvidence "6"))
          = .ok db' ∧
      observedRows.PromotableJob (sampleAnalysis "A" 1) job checkpoint sampleRevision ∧
      ∃ checkpoint', db'.PromotableJob (sampleAnalysis "A" 1) job checkpoint' sampleRevision := by
  obtain ⟨job, checkpoint, hjob⟩ := isPromotableJob_iff.mp
    (show observedRows.isPromotableJob (sampleAnalysis "A" 1) sampleRevision = true by
      decide +kernel)
  obtain ⟨db', hok⟩ := isOk_iff.mp (show (observedRows.executeReconciliation sampleWorker
    ⟨requestedReconciliation, "token-2"⟩ "ref-6" (sampleObservation (sampleEvidence "6"))).isOk
      = true by decide +kernel)
  have hevidence : (observedRows.jobs (sampleAnalysis "A" 1)).map Job.evidence =
      some (sampleEvidence "5") := by decide +kernel
  rw [hjob.jobRow, map_some, Option.some.injEq] at hevidence
  refine ⟨db', job, checkpoint, hok, hjob, (executeReconciliation_keeps_promotable_iff
    isInitial_empty (run_foldl sampleParses empty observedActions) hjob rfl rfl
    readActive_observedRows (by decide +kernel) hok).mpr (.inr ⟨"5", "6", ?_⟩)⟩
  rw [hevidence]
  exact ⟨rfl, ⟨rfl, by decide +kernel⟩, rfl, by decide +kernel⟩

/-- A cursor that is observed while a job with a sequence runs disables the job. -/
theorem not_executeReconciliation_keeps_promotable :
    ∃ db' job checkpoint, Run (Step sampleParses) empty observedActions observedRows ∧
      observedRows.PromotableJob (sampleAnalysis "A" 1) job checkpoint sampleRevision ∧
      observedRows.forceRepair (sampleConfiguration "A") sampleKey (.present sampleRevision)
        = false ∧
      observedRows.executeReconciliation sampleWorker ⟨requestedReconciliation, "token-2"⟩ "ref-6"
        (sampleObservation ⟨"github", "ref-6", some ⟨.cursor, "c"⟩⟩) = .ok db' ∧
      ∀ checkpoint', ¬ db'.PromotableJob (sampleAnalysis "A" 1) job checkpoint' sampleRevision := by
  obtain ⟨job, checkpoint, hjob⟩ := isPromotableJob_iff.mp
    (show observedRows.isPromotableJob (sampleAnalysis "A" 1) sampleRevision = true by
      decide +kernel)
  have hdisabled : (observedRows.executeReconciliation sampleWorker
      ⟨requestedReconciliation, "token-2"⟩ "ref-6"
        (sampleObservation ⟨"github", "ref-6", some ⟨.cursor, "c"⟩⟩)).toOption.map
          (·.isPromotableJob (sampleAnalysis "A" 1) sampleRevision) = some false := by
    decide +kernel
  obtain ⟨db', hdb', hpromotable⟩ := map_eq_some_iff.mp hdisabled
  refine ⟨db', job, checkpoint, run_foldl _ _ _, hjob, by decide +kernel,
    toOption_eq_some_iff.mp hdb', fun checkpoint' hjob' => ?_⟩
  exact absurd (isPromotableJob_iff.mpr ⟨job, checkpoint', hjob'⟩) (by simp [hpromotable])

end Database

end ApiTruth.Orchestration
