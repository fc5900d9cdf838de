import ApiTruth.Orchestration.Queue.Scheduled

/-!
# Runs of the job queue

Every operation that is performed on coherent job tables is a change of them, so the job tables are
coherent in every reachable state.

## Main results

* `evolves_perform` : what an operation does to the job tables.
* `coherent_of_reachable`, `meetsChecks_of_reachable`.
* `evolves_of_step` : what a committed operation does in a run.
-/

namespace ApiTruth.Orchestration.Queue

open Catalog Checked TransitionSystem

open ApiTruth.Orchestration.Queue.Database

variable {db db' : Database} {action : Action}

theorem evolves_registerConfiguration (hdb : db.Coherent) {configuration : SchedulingConfiguration}
    (h : db.registerConfiguration configuration = .ok db') : ∃ added, Evolves db db' added := by
  obtain ⟨⟨-, hvalid⟩, hrest⟩ := require_bind_eq_ok.mp h
  obtain ⟨-, hdone⟩ := require_bind_eq_ok.mp hrest
  cases pure_eq_ok.mp hdone
  refine ⟨_, evolves_of_idle hdb ⟨rfl, rfl, rfl, rfl, rfl, rfl, rfl, rfl⟩ (fun fingerprint document
    hdocument => ?_) (fun fingerprint document hdocument => ?_) (fun _ _ => .inl) (.inl rfl)⟩
  · rw [OrderedMap.get?_setIfAbsent]
    split_ifs with hsame
    · rw [← hsame, hdocument, Option.getD_some]
    · exact hdocument
  · rw [OrderedMap.get?_setIfAbsent] at hdocument
    split_ifs at hdocument with hsame
    · cases hstored : db.configurations.get? configuration.fingerprint with
      | some stored =>
        rw [hstored] at hdocument
        exact .inl (hsame ▸ hstored.trans hdocument)
      | none =>
        rw [hstored] at hdocument
        cases hdocument
        exact .inr hvalid
    · exact .inl hdocument

theorem not_isWanted_of_active_eq_none (hdb : db.Coherent) (hactive : db.active = none)
    {id : JobIdentity} {job : Job} (hjob : db.jobs.get? id = some job) : ¬ job.IsWanted := by
  intro hwanted
  obtain ⟨active, configuration, hread, -⟩ :=
    isAllowedByActiveConfig_iff.mp (hdb.held id job hjob hwanted).2
  rw [(readActive_eq_ok.mp hread).1] at hactive
  cases hactive

theorem evolves_activateInitialConfiguration (hdb : db.Coherent) {fingerprint : String}
    (h : db.activateInitialConfiguration fingerprint = .ok db') :
    ∃ added, Evolves db db' added := by
  obtain ⟨_, -, hrest⟩ := bind_eq_ok.mp h
  obtain ⟨hactive, hdone⟩ := require_bind_eq_ok.mp hrest
  cases pure_eq_ok.mp hdone
  exact ⟨_, evolves_of_idle hdb ⟨rfl, rfl, rfl, rfl, rfl, rfl, rfl, rfl⟩ (fun _ _ => id) (fun _ _ =>
    .inl) (fun _ _ => .inl) (.inr fun _ _ => not_isWanted_of_active_eq_none hdb hactive)⟩

/-- What an operation does to the job tables. -/
theorem evolves_perform (hdb : db.Coherent) (hchecks : db.MeetsChecks)
    (h : db.perform action = .ok db') : ∃ added, Evolves db db' added := by
  cases action with
  | wait ms =>
    cases h
    exact ⟨_, evolves_of_idle hdb ⟨rfl, rfl, rfl, rfl, rfl, rfl, rfl, rfl⟩ (fun _ _ => id)
      (fun _ _ => .inl) (fun _ _ => .inl) (.inl rfl)⟩
  | registerConfiguration configuration => exact evolves_registerConfiguration hdb h
  | activateInitialConfiguration fingerprint => exact evolves_activateInitialConfiguration hdb h
  | activateConfigurationByCas fingerprint expectedCheckpointVersion evidence =>
    exact evolves_activateConfigurationByCas hdb h
  | ingestEvent event => exact evolves_ingestEvent hdb h
  | claimJobs batch =>
    cases h
    exact evolves_claimJobs hdb batch
  | heartbeatJob worker lease => exact evolves_heartbeatJob hdb h
  | failJob worker lease => exact evolves_failJob hdb h
  | complete parses worker lease material => exact evolves_completion hdb h
  | reconcileBranch worker lease reference observation =>
    exact evolves_executeBranchReconciliation hdb h
  | reconcilePullRequest worker lease observation =>
    exact evolves_executePullRequestReconciliation hdb hchecks h
  | cancelJob id => exact evolves_cancelJob hdb h

theorem meetsChecks_initial (hdb : IsInitial db) : db.MeetsChecks := by
  obtain ⟨clock, catalog, rfl⟩ := hdb
  constructor <;> intros <;> simp_all [initial]

theorem meetsChecks_of_reachable (hdb : Reachable Step IsInitial db) : db.MeetsChecks :=
  hdb.invariant (fun _ => meetsChecks_initial) fun _ _ _ _ hstep => hstep.2

/-- The job tables are coherent in every reachable state. -/
theorem coherent_of_reachable (hdb : Reachable Step IsInitial db) : db.Coherent := by
  have hboth : db.Coherent ∧ db.MeetsChecks := by
    refine hdb.invariant (I := fun db => db.Coherent ∧ db.MeetsChecks)
      (fun _ h => ⟨coherent_initial h, meetsChecks_initial h⟩) ?_
    rintro db action db' ⟨hdb, hchecks⟩ ⟨hperform, hchecks'⟩
    obtain ⟨added, h⟩ := evolves_perform hdb hchecks hperform
    exact ⟨h.coherent hdb, hchecks'⟩
  exact hboth.1

/-- What a committed operation of a run does to the job tables. -/
theorem evolves_of_step (hdb : Reachable Step IsInitial db) (hstep : Step db action db') :
    ∃ added, Evolves db db' added ∧ db'.outbox = db.outbox ++ added := by
  have hcoherent := coherent_of_reachable hdb
  obtain ⟨added, h⟩ := evolves_perform hcoherent (meetsChecks_of_reachable hdb) hstep.1
  exact ⟨added, h, h.outbox_eq hcoherent⟩

/-! ### Running operations -/

namespace Database

/-- The rows after an operation, which is rolled back when it raises an error. -/
def next (db : Database) (action : Action) : Database :=
  match db.perform action with
  | .ok db' => db'
  | .error _ => db

/-- The rows after each of several operations. -/
def visits (db : Database) : List Action → List Database
  | [] => []
  | action :: actions => db.next action :: (db.next action).visits actions

/-- Every one of several operations is committed. -/
def commits (db : Database) : List Action → Bool
  | [] => true
  | action :: actions =>
    (db.perform action).isOk && decide (db.next action).MeetsChecks &&
      (db.next action).commits actions

theorem step_next (hok : (db.perform action).isOk = true) (hchecks : (db.next action).MeetsChecks) :
    Step db action (db.next action) := by
  obtain ⟨db', hdb'⟩ := isOk_iff.mp hok
  refine ⟨?_, hchecks⟩
  rw [next, hdb']

theorem isChain_visits {actions : List Action} (h : db.commits actions = true) :
    (db :: db.visits actions).IsChain fun db db' => ∃ action, Step db action db' := by
  induction actions generalizing db with
  | nil => exact .singleton db
  | cons action actions ih =>
    rw [commits, Bool.and_eq_true, Bool.and_eq_true, decide_eq_true_eq] at h
    exact .cons_cons ⟨action, step_next h.1.1 h.1.2⟩ (ih h.2)

end Database

/-- A configuration with one branch of one service. -/
def sampleConfiguration : SchedulingConfiguration where
  fingerprint := "config-a"
  document :=
    { configVersion := "1"
      repositories := [
        { repositoryId := "repo"
          provider := "git"
          services := [⟨"svc", ".", ⟨"nodejs", "1", none⟩, ["main"], []⟩] }] }

def sampleEvent (revision sequence : String) : EventEnvelope where
  key := ⟨"producer", sequence⟩
  repositoryId := some "repo"
  serviceIds := ["svc"]
  evidence := ⟨"git", "ref", some ⟨.sequence, sequence⟩⟩
  payload := .branchUpdated "main" revision false

/-- The analysis that the first update of the branch asks for. -/
def sampleJob : JobIdentity :=
  jobIdentity sampleConfiguration
    ⟨⟨"repo", "git", []⟩, ⟨"svc", ".", ⟨"nodejs", "1", none⟩, ["main"], []⟩⟩
    { kind := .branchAnalysis, branch := some "main", targetRevision := some "r1", generation := 1 }

def sampleDatabase : Database := .initial 0 ⟨fun _ => true, fun _ => none, fun _ => none⟩

def sampleWorker : WorkerIdentity := ⟨"worker", "instance"⟩

/-- The branch is updated, and its analysis is leased and fails for the first time. -/
def sampleActions : List Action := [
  .registerConfiguration sampleConfiguration,
  .activateInitialConfiguration "config-a",
  .ingestEvent (sampleEvent "r1" "1"),
  .claimJobs ⟨sampleWorker, 1, [sampleJob], fun _ => "token", fun _ _ => true⟩,
  .failJob sampleWorker ⟨sampleJob, "token"⟩]

theorem commits_sampleActions : sampleDatabase.commits sampleActions = true := by
  simp only [sampleActions, Database.commits, Database.next, Database.perform]
  delta Database.ingestEvent Database.ingestSchedulingEvent Database.persistScheduledJobs
    Database.planNotices Database.stagedDependents Database.claimJobs Database.failJob
    Database.planTerminalDependents Database.terminalDependents
  simp only [AdjacencyList.queueClosure_eq_queueWithin]
  decide +kernel

end ApiTruth.Orchestration.Queue
