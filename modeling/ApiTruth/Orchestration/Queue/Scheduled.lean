import ApiTruth.Orchestration.Queue.Transactions

/-!
# Transactions that persist a plan

An event, an activation and the observation of a reconciliation plan jobs, and persist the plan
together with the event, the active configuration or the end of the reconciliation.  An activation
displaces every job that is wanted, so that no wanted job belongs to another configuration.

## Main results

* `Database.persistScheduledJobs_withDocuments` : a plan is persisted without regard to
  configurations and events.
* `evolves_activation`, `evolves_ingestEvent`, `evolves_executeBranchReconciliation`,
  `evolves_executePullRequestReconciliation`.
-/

namespace ApiTruth.Orchestration.Queue

open Catalog Checked List Option OrderedMap Bool

open ApiTruth.Orchestration.Queue.Database

/-! ### Persisting beside other tables -/

namespace Database

variable {db : Database} {plan : SchedulingPlan}

def withDocuments (db other : Database) : Database :=
  { db with
    configurations := other.configurations
    active := other.active
    events := other.events
    eventTargets := other.eventTargets
    catalog := other.catalog }

section

variable (other : Database)
include other

theorem writeCheckpoint_withDocuments (write : CheckpointWrite) :
    (db.withDocuments other).writeCheckpoint write =
      (db.writeCheckpoint write).withDocuments other := by
  cases write <;> rfl

theorem updateCheckpointState_withDocuments (id : JobIdentity)
    (state : JobState) (code : Option OrchestrationErrorCode) :
    (db.withDocuments other).updateCheckpointState id state code =
      (db.updateCheckpointState id state code).withDocuments other := by
  unfold updateCheckpointState
  split <;> try split
  all_goals rfl

theorem writeChangeCheckpoint_withDocuments (entry : JobIdentity × PlannedJobChange) :
    (db.withDocuments other).writeChangeCheckpoint entry =
      (db.writeChangeCheckpoint entry).withDocuments other := by
  unfold writeChangeCheckpoint
  split
  · exact updateCheckpointState_withDocuments ..
  · exact updateCheckpointState_withDocuments ..
  · exact updateCheckpointState_withDocuments ..
  · rfl

theorem writePlannedCheckpoints_withDocuments
    (changes : OrderedMap JobIdentity PlannedJobChange) (additional : List CheckpointWrite) :
    (db.withDocuments other).writePlannedCheckpoints changes additional =
      (db.writePlannedCheckpoints changes additional).withDocuments other := by
  unfold writePlannedCheckpoints
  rw [foldl_hom (withDocuments · other)
      fun _ entry => writeChangeCheckpoint_withDocuments other entry,
    foldl_hom (withDocuments · other) fun _ write => writeCheckpoint_withDocuments other write]

theorem insertNotice_withDocuments (notice : StateNotice) :
    (db.withDocuments other).insertNotice notice =
      (db.insertNotice notice).withDocuments other := by
  rw [insertNotice, insertNotice]
  split <;> rename_i h <;> simp only [withDocuments] at h ⊢ <;> simp [h]

theorem insertNotices_withDocuments (notices : List StateNotice) :
    (db.withDocuments other).insertNotices notices =
      (db.insertNotices notices).withDocuments other :=
  foldl_hom (withDocuments · other) fun _ notice => insertNotice_withDocuments other notice

/-- A plan is persisted without regard to configurations and events. -/
theorem persistScheduledJobs_withDocuments (plan : SchedulingPlan) :
    (db.withDocuments other).persistScheduledJobs plan =
      (db.persistScheduledJobs plan).withDocuments other := by
  rw [persistScheduledJobs, writePlannedCheckpoints_withDocuments, persistScheduledJobs,
    ← insertNotices_withDocuments]
  rfl

end

theorem persistScheduledJobs_eq (plan : SchedulingPlan) : db.persistScheduledJobs plan =
    { db with
      jobs := (db.persistScheduledJobs plan).jobs
      dependencies := insertDependencies db.dependencies plan.dependencies
      branches := (db.persistScheduledJobs plan).branches
      pullRequests := (db.persistScheduledJobs plan).pullRequests
      reconciliations := (db.persistScheduledJobs plan).reconciliations
      analyses := (db.persistScheduledJobs plan).analyses
      outbox := (db.insertNotices (db.planNotices plan)).outbox } := by
  have hrows := @sameRows_writePlannedCheckpoints db (db.stagedDependents plan)
    plan.checkpointWrites
  have houtbox : (db.persistScheduledJobs plan).outbox =
      (db.insertNotices (db.planNotices plan)).outbox :=
    outbox_insertNotices_congr (by rw [hrows]) _
  rw [← houtbox, persistScheduledJobs, insertNotices_eq, hrows]

theorem isAllowedByActiveConfig_of_mem_jobIds {db' : Database}
    {configuration : SchedulingConfiguration} {finishing : Option JobIdentity} {slots : List Slot}
    (hplan : Planned db configuration finishing slots plan) {active : ActiveConfiguration}
    (hread : db'.readActive = .ok (active, configuration)) {id : JobIdentity}
    (hid : id ∈ plan.jobIds) : db'.isAllowedByActiveConfig id = true := by
  obtain ⟨slot, -, staged, rfl, hsound⟩ := hplan.exists_sound_of_mem_jobIds hid
  exact isAllowedByActiveConfig_iff.mpr ⟨active, configuration, hread, hsound.allowed⟩

end Database

section Plans

variable {db db' : Database} {configuration : SchedulingConfiguration} {slots : List Slot}
  {plan : SchedulingPlan}

theorem persists_withDocuments (plan : SchedulingPlan) (other : Database) :
    Persists db plan none ((db.persistScheduledJobs plan).withDocuments other) where
  jobs id := by simp [withDocuments]
  current slot := by cases slot <;> rfl
  generation kind slot := by cases kind <;> cases slot <;> rfl
  analyses := rfl
  dependencies := rfl
  revisionSnapshots := by
    rw [persistScheduledJobs_eq]
    rfl
  outbox := by
    rw [persistScheduledJobs_eq]
    simp [withDocuments]

variable {active : ActiveConfiguration}

theorem evolves_persistScheduledJobs (hdb : db.Coherent)
    (hplan : Planned db configuration none slots plan) (other : Database)
    (hconfigurations : other.configurations = db.configurations)
    (hrecorded : ∀ key stored, other.events.get? key = some stored → db.events.get? key = some stored ∨ isValidEvent stored.envelope = true)
    (hactive : other.active = db.active ∨ ∀ id job, db.jobs.get? id = some job → job.IsWanted → id ∈ plan.oldJobs)
    (hread : other.readActive = .ok (active, configuration)) :
    Evolves db ((db.withDocuments other).persistScheduledJobs plan) (db.planNotices plan) := by
  rw [persistScheduledJobs_withDocuments]
  simpa using evolves_of_plan hdb hplan (persists_withDocuments plan other)
    (fun _ h => by cases h) (fun _ h => by cases h)
    hconfigurations hrecorded hactive fun id =>
      isAllowedByActiveConfig_of_mem_jobIds hplan hread

/-! ### Events and activations -/

variable {active : ActiveConfiguration} {event : EventEnvelope}
  {current candidate : SchedulingConfiguration} {evidence : ProviderReference}
  {worker : WorkerIdentity} {lease : JobLease}

theorem configured_of_readActive (hdb : db.Coherent)
    (hread : db.readActive = .ok (active, configuration)) :
    isValidConfig configuration.document = true :=
  hdb.configured _ _ (readActive_eq_ok.mp hread).2.2

variable {fingerprint : String} {job : Job} {reference : String}
  {observation : PullRequestObservation}

theorem readConfiguration_eq_ok (h : db.readConfiguration fingerprint = .ok configuration) :
    configuration.fingerprint = fingerprint ∧
      db.configurations.get? configuration.fingerprint = some configuration.document := by
  obtain ⟨document, hdocument, hrest⟩ := orRaise_bind_eq_ok.mp h
  cases pure_eq_ok.mp hrest
  exact ⟨rfl, hdocument⟩

theorem recorded_of_storeEvent (hevent : isValidEvent event = true)
    {targets : List ScheduledTarget} {key : EventKey} {stored : StoredEvent}
    (hstored : (db.storeEvent event fingerprint targets).events.get? key = some stored) :
    db.events.get? key = some stored ∨ isValidEvent stored.envelope = true := by
  rw [storeEvent, get?_set] at hstored
  split_ifs at hstored
  · cases hstored
    exact .inr hevent
  · exact .inl hstored

theorem evolves_ingestSchedulingEvent (hdb : db.Coherent)
    (hevent : isValidEvent event = true) (h : db.ingestSchedulingEvent event = .ok db') :
    ∃ added, Evolves db db' added := by
  obtain ⟨⟨active, configuration⟩, hread, hrest⟩ := bind_eq_ok.mp h
  obtain ⟨-, -, hrest⟩ := bind_eq_ok.mp hrest
  obtain ⟨-, hrest⟩ := require_bind_eq_ok.mp hrest
  obtain ⟨plan, hscheduled, hrest⟩ := bind_eq_ok.mp hrest
  cases pure_eq_ok.mp hrest
  obtain ⟨slots, hplan⟩ :=
    planned_scheduleEventTargets hdb hevent (configured_of_readActive hdb hread) hscheduled
  exact ⟨_, evolves_persistScheduledJobs hdb hplan (db.storeEvent event active.fingerprint
    plan.targets) rfl (fun _ _ => recorded_of_storeEvent hevent) (.inl rfl) hread⟩

theorem mem_oldJobs_of_isWanted (hdb : db.Coherent) (hread : db.readActive = .ok (active, current))
    (hdocument : isValidConfig candidate.document = true)
    (hdiffers : current.fingerprint ≠ candidate.fingerprint)
    (hevidence : isNamedEvidence evidence = true) {event : Option EventKey} {id : JobIdentity}
    (hjob : db.jobs.get? id = some job) (hwanted : job.IsWanted) :
    id ∈ (db.scheduleConfigurationTransition candidate (configurationImpact current candidate)
      evidence event).oldJobs := by
  obtain ⟨⟨slot, hslot, hcurrent⟩, hallowed⟩ := hdb.held id job hjob hwanted
  refine mem_oldJobs_scheduleConfigurationTransition hdb hdocument hevidence ?_ hcurrent hjob
    hwanted.1
  obtain ⟨found, configuration, hfound, hallows⟩ := isAllowedByActiveConfig_iff.mp hallowed
  cases hread.symm.trans hfound
  obtain ⟨other, hother, hservice, -⟩ := hdb.slotted id job hjob
  cases hslot.symm.trans hother
  -- the job's service is listed by the configuration that was active
  have hlisted : id.serviceId ∈ current.document.serviceIds := by
    rw [allows, and_eq_true, Option.any_eq_true] at hallows
    obtain ⟨-, target, hfind, -⟩ := hallows
    obtain ⟨hmem, -, hid⟩ := mem_targets_of_findService hfind
    exact hid ▸ List.mem_map_of_mem hmem
  rw [configurationImpact, if_pos (.inl hdiffers), mem_canonicalStrings, hservice]
  exact mem_append_left _ hlisted

theorem nodup_configurationImpact (current candidate : SchedulingConfiguration) :
    (configurationImpact current candidate).Nodup := by
  unfold configurationImpact
  split_ifs
  · exact nodup_canonicalStrings _
  · exact nodup_nil

/-- An activation of a configuration that affects a service. -/
theorem evolves_activation (hdb : db.Coherent) (hread : db.readActive = .ok (active, current))
    (hstored : db.configurations.get? candidate.fingerprint = some candidate.document)
    (hdiffers : current.fingerprint ≠ candidate.fingerprint)
    (hevidence : isNamedEvidence evidence = true) {event : Option EventKey} (other : Database)
    (hactive : other.active = (db.activate active candidate.fingerprint evidence event).active)
    (hconfigurations : other.configurations = db.configurations)
    (hrecorded : ∀ key stored, other.events.get? key = some stored →
      db.events.get? key = some stored ∨ isValidEvent stored.envelope = true) :
    Evolves db ((db.withDocuments other).persistScheduledJobs
        (db.scheduleConfigurationTransition candidate (configurationImpact current candidate)
          evidence event)) (db.planNotices (db.scheduleConfigurationTransition candidate
        (configurationImpact current candidate) evidence event)) := by
  have hdocument := hdb.configured _ _ hstored
  obtain ⟨slots, hplan⟩ := planned_scheduleConfigurationTransition
    hdocument (nodup_configurationImpact current candidate) hevidence
  refine evolves_persistScheduledJobs hdb hplan other hconfigurations hrecorded
    (.inr fun id job => mem_oldJobs_of_isWanted hdb hread hdocument hdiffers hevidence)
    (readActive_eq_ok.mpr ⟨hactive, rfl, ?_⟩)
  rw [hconfigurations]
  exact hstored

theorem fingerprint_ne_of_configurationImpact (hread : db.readActive = .ok (active, current))
    (hstored : db.configurations.get? candidate.fingerprint = some candidate.document)
    (himpact : configurationImpact current candidate ≠ []) :
    current.fingerprint ≠ candidate.fingerprint := by
  intro heq
  obtain ⟨-, hfingerprint, hdocument⟩ := readActive_eq_ok.mp hread
  rw [← heq, hfingerprint, hdocument, some_inj] at hstored
  exact himpact (by simp [configurationImpact, heq, hstored])

theorem evolves_activateConfigurationByCas (hdb : db.Coherent) {expectedCheckpointVersion : ℕ}
    (h : db.activateConfigurationByCas fingerprint expectedCheckpointVersion evidence = .ok db') :
    ∃ added, Evolves db db' added := by
  obtain ⟨hevidence, hrest⟩ := require_bind_eq_ok.mp h
  obtain ⟨⟨active, current⟩, hread, hrest⟩ := bind_eq_ok.mp hrest
  obtain ⟨candidate, hcandidate, hrest⟩ := bind_eq_ok.mp hrest
  obtain ⟨-, hrest⟩ := require_bind_eq_ok.mp hrest
  obtain ⟨rfl, hstored⟩ := readConfiguration_eq_ok hcandidate
  split_ifs at hrest with hsame
  · cases pure_eq_ok.mp hrest
    exact ⟨_, evolves_refl hdb⟩
  · cases pure_eq_ok.mp hrest
    exact ⟨_, evolves_activation hdb hread hstored
      (fun heq => hsame (heq.symm.trans (readActive_eq_ok.mp hread).2.1)) hevidence
      (db.activate active candidate.fingerprint evidence none) rfl rfl fun _ _ => .inl⟩

theorem serviceIds_ne_nil (hevent : isValidEvent event = true) :
    event.serviceIds ≠ [] := by
  simp only [isValidEvent, and_eq_true, not_eq_true', isEmpty_eq_false_iff] at hevent
  exact hevent.1.1.1.1.2

theorem isNamedEvidence_of_isValidEvent
    (hevent : isValidEvent event = true) : isNamedEvidence event.evidence = true := by
  simp only [isValidEvent, and_eq_true] at hevent
  exact hevent.1.2

theorem evolves_ingestConfigurationChange (hdb : db.Coherent)
    {payload : ConfigurationPayload} (hevent : isValidEvent event = true)
    (h : db.ingestConfigurationChange event payload = .ok db') : ∃ added, Evolves db db' added := by
  obtain ⟨⟨active, current⟩, hread, hrest⟩ := bind_eq_ok.mp h
  obtain ⟨candidate, hcandidate, hrest⟩ := bind_eq_ok.mp hrest
  obtain ⟨targets, -, hrest⟩ := bind_eq_ok.mp hrest
  obtain ⟨⟨hservices, -⟩, hrest⟩ := require_bind_eq_ok.mp hrest
  obtain ⟨-, hrest⟩ := require_bind_eq_ok.mp hrest
  dsimp only at hrest
  split_ifs at hrest with hscheduled
  · obtain ⟨-, hrest⟩ := require_bind_eq_ok.mp hrest
    cases pure_eq_ok.mp hrest
    obtain ⟨-, hstored⟩ := readConfiguration_eq_ok hcandidate
    have hnonempty : configurationImpact current candidate ≠ [] := by
      obtain ⟨serviceId, hmem⟩ := exists_mem_of_ne_nil _ (serviceIds_ne_nil hevent)
      rw [← hservices]
      exact ne_nil_of_mem (mem_canonicalStrings.mpr hmem)
    exact ⟨_, evolves_activation hdb hread hstored
      (fingerprint_ne_of_configurationImpact hread hstored hnonempty) (isNamedEvidence_of_isValidEvent hevent)
      ((db.activate active candidate.fingerprint event.evidence event.key).storeEvent
        event active.fingerprint _) rfl rfl fun _ _ => recorded_of_storeEvent hevent⟩
  · cases pure_eq_ok.mp hrest
    exact ⟨_, evolves_of_idle hdb ⟨rfl, rfl, rfl, rfl, rfl, rfl, rfl, rfl⟩ (fun _ _ => id)
      (fun _ _ => .inl) (fun _ _ => recorded_of_storeEvent hevent) (.inl rfl)⟩

theorem evolves_ingestEvent (hdb : db.Coherent)
    (h : db.ingestEvent event = .ok db') : ∃ added, Evolves db db' added := by
  obtain ⟨hevent, hread⟩ := require_bind_eq_ok.mp h
  obtain ⟨_, -, hlocks⟩ := bind_eq_ok.mp hread
  obtain ⟨_, -, hrest⟩ := bind_eq_ok.mp hlocks
  cases hstored : db.events.get? event.key with
  | some stored =>
    rw [hstored] at hrest
    obtain ⟨-, hsame⟩ := require_bind_eq_ok.mp hrest
    cases pure_eq_ok.mp hsame
    exact ⟨_, evolves_refl hdb⟩
  | none =>
    rw [hstored] at hrest
    dsimp only at hrest
    split at hrest
    · exact evolves_ingestConfigurationChange hdb hevent hrest
    · exact evolves_ingestSchedulingEvent hdb hevent hrest

/-! ### Observations -/

theorem evolves_reconciliation (hdb : db.Coherent) {finishing : Option JobIdentity}
    (hplan : Planned db configuration finishing slots plan)
    (hvalid : db.validateLease worker lease = .ok job)
    (hfinishing : ∀ id, finishing = some id → id = lease.jobId)
    (hdisplaced : lease.jobId ∉ plan.oldJobs)
    (hread : db.readActive = .ok (active, configuration)) {recorded : Database}
    (hrecorded : recorded = { db.persistScheduledJobs plan with reconciliations := recorded.reconciliations })
    (hagree : ∀ slot, AgreeAt slot (db.persistScheduledJobs plan) recorded)
    (h : recorded.finishReconciliation worker lease = .ok db') :
    ∃ added, Evolves db db' added := by
  obtain ⟨-, -, hrest⟩ := bind_eq_ok.mp h
  have hdb' := (pure_eq_ok.mp hrest).symm
  rw [succeedJob_eq] at hdb'
  have heq := @persistScheduledJobs_eq db plan
  have hclock : recorded.clock = db.clock := by rw [hrecorded, heq]
  have hpersists : Persists db plan (some lease.jobId) db' :=
    { jobs := fun id => by
        rw [hdb', updateJob, get?_mapValues, hclock, hrecorded]
        simp only [some_inj, eq_comm]
      current := fun slot => by
        rw [← (hagree slot).1, hdb']
        cases slot <;> rfl
      generation := fun kind slot => by
        rw [← (hagree slot).2, hdb']
        cases kind <;> cases slot <;> rfl
      analyses := by rw [hdb', hrecorded]
      dependencies := by rw [hdb', hrecorded]
      revisionSnapshots := by rw [hdb', hrecorded, heq]
      outbox := by
        rw [hdb', insertNotices_append]
        exact outbox_insertNotices_congr (by rw [hrecorded, heq]) _ }
  obtain ⟨hjob, hleased, -, hrequested⟩ := validateLease_eq_ok hvalid
  have hactive : db'.active = db.active := by rw [hdb', hrecorded, heq]
  have hconfigurations : db'.configurations = db.configurations := by rw [hdb', hrecorded, heq]
  obtain ⟨hfound, hfingerprint, hdocument⟩ := readActive_eq_ok.mp hread
  refine ⟨_, evolves_of_plan hdb hplan hpersists (fun id hid => ?_)
    (fun id hid => by rw [hfinishing id hid]) hconfigurations ?_ (.inl hactive) fun id =>
      isAllowedByActiveConfig_of_mem_jobIds hplan (readActive_eq_ok.mpr
        ⟨hactive.trans hfound, hfingerprint, hconfigurations ▸ hdocument⟩)⟩
  · cases hid
    exact ⟨hdisplaced, job, hjob, hleased, hrequested⟩
  · rw [hdb', hrecorded, heq]
    exact fun _ _ => .inl

theorem reconciliationScope_eq_ok {target : TargetConfig}
    (h : db.reconciliationScope job = .ok (configuration, target)) :
    (∃ active, db.readActive = .ok (active, configuration)) ∧
      configuration.fingerprint = job.identity.configFingerprint ∧
      configuration.document.findService job.identity.repositoryId job.identity.serviceId =
        some target := by
  obtain ⟨hactive, hstored⟩ := require_bind_eq_ok.mp h
  obtain ⟨document, hdocument, hversion⟩ := orRaise_bind_eq_ok.mp hstored
  obtain ⟨-, htarget⟩ := require_bind_eq_ok.mp hversion
  obtain ⟨found, hfound, hrest⟩ := orRaise_bind_eq_ok.mp htarget
  obtain ⟨-, hdone⟩ := require_bind_eq_ok.mp hrest
  cases pure_eq_ok.mp hdone
  obtain ⟨active, hactive, hfingerprint⟩ := map_eq_some_iff.mp hactive
  exact ⟨⟨active, readActive_eq_ok.mpr ⟨hactive, hfingerprint.symm, hfingerprint ▸ hdocument⟩⟩,
    rfl, hfound⟩

/-- What the transaction of a reconciliation of a branch has checked, and what it does. -/
theorem executeBranchReconciliation_eq_ok {observation : BranchObservation}
    (h : db.executeBranchReconciliation worker lease reference observation = .ok db') :
    ∃ job configuration target branch row plan, db.validateLease worker lease = .ok job ∧
      db.reconciliationScope job = .ok (configuration, target) ∧
      job.identity.kind = .branchReconciliation ∧ job.identity.branch = some branch ∧
      branch ∈ target.service.intendedBranches ∧
      db.reconciliations.get? ⟨job.identity.repositoryId, job.identity.serviceId, branch⟩ =
        some row ∧
      row.currentJob = some job.identity ∧ row.requestedReference = reference ∧
      observation.state ≠ .present "" ∧ isNamedEvidence observation.providerEvidence = true ∧
      db.scheduleAuthoritativeBranch job.event configuration job.identity.repositoryId
        job.identity.serviceId branch observation.state observation.providerEvidence
        (db.forceRepair configuration ⟨job.identity.repositoryId, job.identity.serviceId, branch⟩
          observation.state) = .ok plan ∧
      ∃ outcome, outcome ≠ .failed ∧ ((db.persistScheduledJobs plan).recordReconciliation
          ⟨job.identity.repositoryId, job.identity.serviceId, branch⟩ outcome
            reference).finishReconciliation worker lease = .ok db' := by
  obtain ⟨job, hvalid, hprepared⟩ := bind_eq_ok.mp h
  obtain ⟨⟨configuration, target⟩, hscope, hchecked⟩ := bind_eq_ok.mp hprepared
  obtain ⟨hkind, hnamed⟩ := require_bind_eq_ok.mp hchecked
  obtain ⟨branch, hbranch, hconfigured⟩ := orRaise_bind_eq_ok.mp hnamed
  obtain ⟨hintended, hcheckpoint⟩ := require_bind_eq_ok.mp hconfigured
  obtain ⟨row, hrow, hfresh⟩ := orRaise_bind_eq_ok.mp hcheckpoint
  obtain ⟨⟨-, hcurrent, hreference⟩, hobservation⟩ := require_bind_eq_ok.mp hfresh
  obtain ⟨⟨hobserved, hevidence, -⟩, hclassified⟩ := require_bind_eq_ok.mp hobservation
  obtain ⟨-, hscheduled⟩ := require_bind_eq_ok.mp hclassified
  obtain ⟨plan, hplan, hrest⟩ := bind_eq_ok.mp hscheduled
  refine ⟨job, configuration, target, branch, row, plan, hvalid, hscope, hkind, hbranch, hintended,
    hrow, hcurrent, hreference, ?_, hevidence, hplan, _, ?_, hrest⟩
  · intro hempty
    simp [observedBranch, hempty, isRevision, utf16Length] at hobserved
  · split
    · nofun
    · split <;> nofun

theorem agreeAt_recordReconciliation (key : BranchKey) (outcome : ReconciliationOutcome)
    (reference : String) (slot : Slot) :
    AgreeAt slot db (db.recordReconciliation key outcome reference) := by
  cases slot with
  | reconciliation other =>
    exact agreeAt_reconciliation
      (map_get?_mapValues (fun _ _ => by split <;> rfl) _ _)
  | branch other => exact agreeAt_branch rfl
  | pullRequest other => exact agreeAt_pullRequest rfl
  | analysis other => exact agreeAt_analysis rfl

theorem evolves_executeBranchReconciliation (hdb : db.Coherent) {observation : BranchObservation}
    (h : db.executeBranchReconciliation worker lease reference observation = .ok db') :
    ∃ added, Evolves db db' added := by
  obtain ⟨job, configuration, target, branch, row, plan, hvalid, hscope, hkind, -, -, -, -, -,
    hdesired, hevidence, hscheduled, outcome, -, hdone⟩ := executeBranchReconciliation_eq_ok h
  obtain ⟨⟨active, hread⟩, -, -⟩ := reconciliationScope_eq_ok hscope
  obtain ⟨slots, hplan, hslots⟩ := planned_scheduleAuthoritativeBranch
    (configured_of_readActive hdb hread) hdesired hevidence hscheduled
  obtain ⟨hjob, -⟩ := validateLease_eq_ok hvalid
  refine evolves_reconciliation hdb hplan hvalid (fun id hid => by cases hid) (fun hold => ?_) hread
    rfl (agreeAt_recordReconciliation _ _ _) hdone
  obtain ⟨slot, hslot, hcurrent, -⟩ := hplan.exists_current_of_mem_oldJobs hold
  have hpointed := (hdb.pointed slot _ hcurrent).1
  rw [hslots slot hslot, ← hdb.keyed _ _ hjob, JobIdentity.slot, hkind] at hpointed
  obtain ⟨found, -, hfound⟩ := map_eq_some_iff.mp hpointed
  cases hfound

/-- What the transaction of a reconciliation of a pull request has checked, and what it does. -/
theorem executePullRequestReconciliation_eq_ok
    (h : db.executePullRequestReconciliation worker lease observation = .ok db') :
    ∃ job configuration target pullRequestId event baseBranch plan,
      db.validateLease worker lease = .ok job ∧
      db.reconciliationScope job = .ok (configuration, target) ∧
      job.identity.pullRequestId = some pullRequestId ∧
      db.pullRequestEvent job = .ok (event, baseBranch) ∧
      observedPullRequest observation
        ⟨job.identity.repositoryId, job.identity.serviceId, pullRequestId⟩ target.repository
        baseBranch = true ∧
      db.scheduleAuthoritativePullRequest event configuration job.identity.repositoryId
        job.identity.serviceId pullRequestId observation.update job.identity = .ok plan ∧
      (db.persistScheduledJobs plan).finishReconciliation worker lease = .ok db' := by
  obtain ⟨job, hvalid, hprepared⟩ := bind_eq_ok.mp h
  obtain ⟨⟨configuration, target⟩, hscope, hchecked⟩ := bind_eq_ok.mp hprepared
  obtain ⟨-, hnamed⟩ := require_bind_eq_ok.mp hchecked
  obtain ⟨pullRequestId, hid, hstored⟩ := orRaise_bind_eq_ok.mp hnamed
  obtain ⟨⟨event, baseBranch⟩, hevent, hconfigured⟩ := bind_eq_ok.mp hstored
  obtain ⟨-, hcheckpoint⟩ := require_bind_eq_ok.mp hconfigured
  obtain ⟨checkpoint, -, hfresh⟩ := orRaise_bind_eq_ok.mp hcheckpoint
  obtain ⟨-, hobservation⟩ := require_bind_eq_ok.mp hfresh
  obtain ⟨hobserved, hclassified⟩ := require_bind_eq_ok.mp hobservation
  obtain ⟨-, hscheduled⟩ := require_bind_eq_ok.mp hclassified
  obtain ⟨plan, hplan, hrest⟩ := bind_eq_ok.mp hscheduled
  exact ⟨job, configuration, target, pullRequestId, event, baseBranch, plan, hvalid, hscope, hid,
    hevent, hobserved, hplan, hrest⟩

/-- The event of a pull request has been checked, and names the pull request's base branch. -/
theorem pullRequestEvent_eq_ok (hdb : db.Coherent)
    {baseBranch : String} (h : db.pullRequestEvent job = .ok (event, baseBranch)) :
    isValidEvent event = true ∧ baseBranch ≠ "" := by
  obtain ⟨key, -, hstored⟩ := orRaise_bind_eq_ok.mp h
  obtain ⟨stored, hfound, hpayload⟩ := orRaise_bind_eq_ok.mp hstored
  have hvalid := hdb.recorded key stored hfound
  cases hkind : stored.envelope.payload with
  | pullRequestUpdated pullRequestId payload =>
    rw [hkind] at hpayload
    cases pure_eq_ok.mp hpayload
    refine ⟨hvalid, ?_⟩
    simp only [isValidEvent, hkind, isNamedPayload, and_eq_true, bne_iff_ne] at hvalid
    exact hvalid.2.1.1.1.2
  | _ =>
    rw [hkind] at hpayload
    cases hpayload

theorem ne_of_isRevision {revision : String} (h : isRevision revision = true) :
    (revision != "") = true := by
  rw [bne_iff_ne]
  rintro rfl
  simp [isRevision, utf16Length] at h

theorem evolves_executePullRequestReconciliation (hdb : db.Coherent) (hchecks : db.MeetsChecks)
    (h : db.executePullRequestReconciliation worker lease observation = .ok db') :
    ∃ added, Evolves db db' added := by
  obtain ⟨job, configuration, target, pullRequestId, event, baseBranch, plan, hvalid, hscope, hid,
    hevent, hobserved, hscheduled, hdone⟩ := executePullRequestReconciliation_eq_ok h
  obtain ⟨⟨active, hread⟩, -, -⟩ := reconciliationScope_eq_ok hscope
  obtain ⟨hchecked, hbase⟩ := pullRequestEvent_eq_ok hdb hevent
  obtain ⟨hjob, -⟩ := validateLease_eq_ok hvalid
  have hkeyed := hdb.keyed _ _ hjob
  have hupdate : isNamedUpdate pullRequestId observation.update = true := by
    have hnamed := (hchecks.jobs _ _ hjob).identity.2.2.2.2.1
    simp only [observedPullRequest, Bool.and_eq_true, beq_iff_eq] at hobserved
    obtain ⟨⟨⟨⟨⟨⟨⟨⟨-, hbranch⟩, -⟩, hbaseRevision⟩, hheadRevision⟩, hheadBranch⟩, hevidence⟩, -⟩, -⟩ :=
      hobserved
    simp only [isNamedUpdate, isNamedPayload, hevidence, ne_of_isRevision hbaseRevision,
      ne_of_isRevision hheadRevision, ne_of_isRevision hheadBranch, Bool.and_true, Bool.true_and,
      Bool.and_eq_true, bne_iff_ne, hbranch]
    exact ⟨fun hempty => hnamed (hempty ▸ hid), hbase⟩
  obtain ⟨slots, hplan, -⟩ := planned_scheduleAuthoritativePullRequest hdb (configured_of_readActive
    hdb hread) hupdate (isNamedEvidence_of_isValidEvent hchecked) hscheduled
  refine evolves_reconciliation hdb hplan hvalid (fun id hid => by cases hid; exact hkeyed)
    (fun hold => ?_) hread rfl (fun slot => .refl _) hdone
  obtain ⟨slot, -, -, hne⟩ := hplan.exists_current_of_mem_oldJobs hold
  exact hne (congrArg some hkeyed.symm)

end Plans

end ApiTruth.Orchestration.Queue
