import ApiTruth.Orchestration.Queue.Plans

/-!
# The plans of the scheduler

Every function of the scheduler makes a valid plan, whatever the event or the observation is: the
checkpoints that it moves are distinct because the services of an event are, and because the kinds
of checkpoint that one service has are.

## Main results

* `planned_scheduleEventTargets`, `planned_scheduleConfigurationTransition`.
* `planned_scheduleAuthoritativeBranch`, `planned_scheduleAuthoritativePullRequest`.
* `mem_oldJobs_scheduleConfigurationTransition` : a configuration change displaces all jobs of the
  affected services.
-/

namespace ApiTruth.Orchestration.Queue

open Catalog Checked List Option Function Except

/-! ### Services of a configuration -/

section Targets

variable {document : InstallationConfig} {target : TargetConfig}

theorem mem_targets_iff : target ∈ document.targets ↔
    target.repository ∈ document.repositories ∧ target.service ∈ target.repository.services := by
  constructor
  · intro hmem
    obtain ⟨repository, hrepository, hmem⟩ := List.mem_flatMap.mp hmem
    obtain ⟨service, hservice, rfl⟩ := List.mem_map.mp hmem
    exact ⟨hrepository, hservice⟩
  · rintro ⟨hrepository, hservice⟩
    exact List.mem_flatMap.mpr ⟨_, hrepository, List.mem_map.mpr ⟨_, hservice, rfl⟩⟩

theorem find?_eq_some_of_nodup {α : Type} {κ : Type} [DecidableEq κ] (key : α → κ) {xs : List α}
    (hnodup : (xs.map key).Nodup) {x : α} (hx : x ∈ xs) :
    xs.find? (key · == key x) = some x := by
  cases hfind : xs.find? (key · == key x) with
  | none => simpa using List.find?_eq_none.mp hfind x hx
  | some y =>
    have hkey : key y = key x := by simpa using find?_some hfind
    rw [inj_on_of_nodup_map hnodup (mem_of_find?_eq_some hfind) hx hkey]

variable (hvalid : isValidConfig document = true)

include hvalid in
theorem nodup_serviceIds : document.serviceIds.Nodup := by
  simp only [isValidConfig, Bool.and_eq_true, decide_eq_true_eq] at hvalid
  exact hvalid.1.1.2

include hvalid in
theorem findService_eq_some (htarget : target ∈ document.targets) :
    document.findService target.repository.repositoryId target.service.serviceId = some target := by
  have hservices := nodup_serviceIds hvalid
  simp only [isValidConfig, Bool.and_eq_true, decide_eq_true_eq] at hvalid
  obtain ⟨hrepository, hservice⟩ := mem_targets_iff.mp htarget
  have hnodup : (target.repository.services.map ServiceConfig.serviceId).Nodup := by
    refine hservices.sublist ?_
    have hsub := (sublist_flatten_of_mem (List.mem_map_of_mem (f := fun repository :
      RepositoryConfig => repository.services.map ServiceConfig.serviceId) hrepository))
    simpa [InstallationConfig.serviceIds, InstallationConfig.targets, map_flatMap,
      flatMap_def, comp_def] using hsub
  unfold InstallationConfig.findService
  rw [find?_eq_some_of_nodup RepositoryConfig.repositoryId hvalid.1.1.1 hrepository]
  simp [find?_eq_some_of_nodup ServiceConfig.serviceId hnodup hservice]

theorem mem_targets_of_findService {repositoryId serviceId : String}
    (hfind : document.findService repositoryId serviceId = some target) :
    target ∈ document.targets ∧ target.repository.repositoryId = repositoryId ∧
      target.service.serviceId = serviceId := by
  obtain ⟨repository, hrepository, hrest⟩ := bind_eq_some_iff.mp hfind
  obtain ⟨service, hservice, hdone⟩ := bind_eq_some_iff.mp hrest
  cases hdone
  exact ⟨mem_targets_iff.mpr ⟨mem_of_find?_eq_some hrepository, mem_of_find?_eq_some hservice⟩, by
    simpa using find?_some hrepository, by simpa using find?_some hservice⟩

variable {serviceId : String}

include hvalid in
theorem targetConfig_eq_some_iff :
    document.targetConfig serviceId = some target ↔
      target ∈ document.targets ∧ target.service.serviceId = serviceId := by
  constructor
  · intro hfind
    exact ⟨mem_of_find?_eq_some hfind, by simpa using find?_some hfind⟩
  · rintro ⟨htarget, rfl⟩
    exact find?_eq_some_of_nodup (fun target : TargetConfig => target.service.serviceId)
      (nodup_serviceIds hvalid) htarget

include hvalid in
theorem serviceTarget_eq_some_iff :
    Database.serviceTarget document serviceId = some target ↔
      target ∈ document.targets ∧ target.service.serviceId = serviceId := by
  have hnodup : (document.targets.reverse.map
      fun target : TargetConfig => target.service.serviceId).Nodup := by
    rw [map_reverse]
    exact List.nodup_reverse.mpr (nodup_serviceIds hvalid)
  constructor
  · intro hfind
    exact ⟨List.mem_reverse.mp (mem_of_find?_eq_some hfind), by simpa using find?_some hfind⟩
  · rintro ⟨htarget, rfl⟩
    exact find?_eq_some_of_nodup (fun target : TargetConfig => target.service.serviceId) hnodup
      (List.mem_reverse.mpr htarget)

theorem listed_of_mem_targets {configuration : SchedulingConfiguration}
    (hvalid : isValidConfig configuration.document = true)
    (htarget : target ∈ configuration.document.targets) : Listed configuration target :=
  findService_eq_some hvalid htarget

end Targets

namespace Database

variable {db : Database} {configuration : SchedulingConfiguration}
  {finishing : Option JobIdentity} {slots : List Slot} {plan : SchedulingPlan}
  {target : TargetConfig} {event : EventEnvelope}

/-! ### Baselines -/

/-- The plan is valid, and about the listed checkpoints and others that satisfy a condition. -/
def Grows (db : Database) (configuration : SchedulingConfiguration)
    (finishing : Option JobIdentity) (slots : List Slot) (new : Slot → Prop)
    (plan : SchedulingPlan) : Prop :=
  ∃ slots', Planned db configuration finishing slots' plan ∧
    ∀ slot ∈ slots', slot ∈ slots ∨ new slot

theorem Grows.mono {new new' : Slot → Prop} (h : Grows db configuration finishing slots new plan)
    (himp : ∀ slot, new slot → new' slot) : Grows db configuration finishing slots new' plan := by
  obtain ⟨slots', hplan, hslots⟩ := h
  exact ⟨slots', hplan, fun slot hslot => (hslots slot hslot).imp_right (himp slot)⟩

variable {new : Slot → Prop} {plan' : SchedulingPlan} {jobId : JobIdentity}
  {evidence : ProviderReference} {desired : DesiredState} {key : Option EventKey} {branch : String}
  {update : PullRequestUpdate}

variable (hplan : Planned db configuration finishing slots plan)

include hplan in
theorem Grows.of_planned :
    Grows db configuration finishing slots new plan :=
  ⟨slots, hplan, fun _ => .inl⟩

include hplan in
theorem Grows.stage (staging : Staging) (hvalid : staging.Valid db configuration finishing)
    (hnew : staging.slot configuration ∉ slots) :
    Grows db configuration finishing slots (· = staging.slot configuration)
      (db.stage configuration plan staging) :=
  ⟨_, hplan.stage staging hvalid hnew, fun _ hslot => (List.mem_cons.mp hslot).symm⟩

theorem Grows.report (h : Grows db configuration finishing slots new plan)
    (targets : List ScheduledTarget) :
    Grows db configuration finishing slots new { plan with targets := targets } := by
  obtain ⟨slots', hplan, hslots⟩ := h
  exact ⟨slots', hplan.report targets, hslots⟩

theorem mem_jobIds_stage (staging : Staging) {id : JobIdentity} (hid : id ∈ plan.jobIds) :
    id ∈ (db.stage configuration plan staging).jobIds := by
  rw [stage_eq_extend]
  exact Planned.mem_jobIds_extend.mpr (.inl hid)

theorem mem_jobIds_stage_self (plan : SchedulingPlan) (staging : Staging) {staged : StagedJob}
    (hstaged : db.stagedJob configuration staging = some staged) :
    staged.id configuration ∈ (db.stage configuration plan staging).jobIds := by
  rw [stage_eq_extend]
  exact Planned.mem_jobIds_extend.mpr (.inr (Planned.mem_jobIds_part.mpr ⟨staged, hstaged, rfl⟩))

theorem planned_scheduleBaseline (hdb : db.Coherent)
    (hplan : Planned db configuration finishing slots plan) (htarget : Listed configuration target)
    {revision : String} (hrevision : revision ≠ "")
    (hevidence : isNamedEvidence event.evidence = true)
    (hnew : .analysis (analysisIdentity configuration target revision) ∉ slots) {coalesced : Bool}
    (hscheduled : db.scheduleBaseline plan event configuration target revision =
      .ok (jobId, coalesced, plan')) :
    Grows db configuration finishing slots
        (· = .analysis (analysisIdentity configuration target revision)) plan' ∧
      (jobId ∈ plan'.jobIds ∨ ∃ job, db.jobs.get? jobId = some job) ∧
      ∀ id ∈ plan.jobIds, id ∈ plan'.jobIds := by
  -- a baseline is queued when no current one is under way
  have hqueued (hover : ∀ row,
      db.analyses.get? (analysisIdentity configuration target revision) = some row →
        row.currentJob = none ∨ row.lastTerminalOutcome.isSome = true) (generation : ℕ)
      (hgeneration : generation = db.nextBaselineGeneration configuration target revision)
      (heq : (baselineIdentity configuration target revision generation, false,
        stageBaseline plan event configuration target revision generation) =
          (jobId, coalesced, plan')) :
      Grows db configuration finishing slots
          (· = .analysis (analysisIdentity configuration target revision)) plan' ∧
        (jobId ∈ plan'.jobIds ∨ ∃ job, db.jobs.get? jobId = some job) ∧
        ∀ id ∈ plan.jobIds, id ∈ plan'.jobIds := by
    subst hgeneration
    cases heq
    exact ⟨.stage hplan (.baseline event target revision)
        ⟨htarget, hrevision, hevidence, hover⟩ hnew,
      .inl (mem_jobIds_stage_self plan (.baseline event target revision) rfl),
      fun id => mem_jobIds_stage (.baseline event target revision)⟩
  simp only [scheduleBaseline] at hscheduled
  cases hsnapshot : db.revisionSnapshots.get? (analysisIdentity configuration target revision) with
  | some existing =>
    rw [hsnapshot] at hscheduled
    cases hscheduled
    obtain ⟨job, hjob, -⟩ := hdb.produced _ _ hsnapshot
    exact ⟨.of_planned hplan, .inr ⟨job, hjob⟩, fun _ => id⟩
  | none =>
    cases hrow : db.analyses.get? (analysisIdentity configuration target revision) with
    | none =>
      rw [hsnapshot, hrow] at hscheduled
      refine hqueued (fun row hrow' => ?_) 1 ?_ (ok.inj hscheduled)
      · rw [hrow] at hrow'
        cases hrow'
      · simp [nextBaselineGeneration, generation, hrow]
    | some row =>
      rw [hsnapshot, hrow] at hscheduled
      simp only at hscheduled
      split_ifs at hscheduled with hsucceeded
      have hnext : row.attemptGeneration + 1 =
          db.nextBaselineGeneration configuration target revision := by
        simp [nextBaselineGeneration, generation, hrow]
      cases hcurrent : row.currentJob with
      | none =>
        rw [hcurrent] at hscheduled
        refine hqueued (fun row' hrow' => ?_) _ hnext (ok.inj hscheduled)
        cases hrow.symm.trans hrow'
        exact .inl hcurrent
      | some current =>
        cases houtcome : row.lastTerminalOutcome with
        | none =>
          rw [hcurrent, houtcome] at hscheduled
          cases hscheduled
          obtain ⟨job, hjob, -⟩ := (hdb.pointed
            (.analysis (analysisIdentity configuration target revision)) jobId (by
              rw [Database.current, hrow]; exact hcurrent)).2
          exact ⟨.of_planned hplan, .inr ⟨job, hjob⟩, fun _ => id⟩
        | some outcome =>
          rw [hcurrent, houtcome] at hscheduled
          refine hqueued (fun row' hrow' => ?_) _ hnext (ok.inj hscheduled)
          cases hrow.symm.trans hrow'
          exact .inr (by rw [houtcome]; rfl)

/-! ### Branches -/

theorem planned_scheduleBranch (hplan : Planned db configuration none slots plan)
    (htarget : Listed configuration target) {authoritative : Option Bool}
    (hdesired : desired ≠ .present "") (hevidence : isNamedEvidence evidence = true)
    (hnew : .branch (target.key branch) ∉ slots) {scheduled : ScheduledTarget}
    (hscheduled : db.scheduleBranch plan key configuration target branch desired evidence
      authoritative = .ok (scheduled, plan')) :
    Grows db configuration none slots (· = .branch (target.key branch)) plan' := by
  simp only [scheduleBranch] at hscheduled
  split at hscheduled
  · cases hscheduled
    exact .of_planned hplan
  · rename_i hbranch
    rw [not_not] at hbranch
    split at hscheduled
    · cases hscheduled
    · cases hscheduled
      exact .of_planned hplan
    · cases hscheduled
      exact .of_planned hplan
    · cases hscheduled
      exact .of_planned hplan
    all_goals
      split at hscheduled
      · rename_i row hrow
        cases hscheduled
        exact .stage hplan (.confirmation (target.key branch) row evidence)
          ⟨(filter_eq_some_iff.mp hrow).1, hevidence⟩ hnew
      · cases desired with
        | absent =>
          cases hscheduled
          exact .stage hplan (.absence target branch evidence)
            ⟨htarget, hbranch, hevidence, rfl⟩ hnew
        | present revision =>
          cases hscheduled
          exact .stage hplan (.analysis key target branch revision evidence)
            ⟨htarget, hbranch, fun heq => hdesired (heq ▸ rfl), hevidence, rfl⟩ hnew

theorem planned_scheduleBranchReconciliation (hplan : Planned db configuration none slots plan)
    (htarget : Listed configuration target) {branch reference : String} (hreference : reference ≠ "")
    (hevidence : isNamedEvidence event.evidence = true)
    (hnew : .reconciliation (target.key branch) ∉ slots)
    (hscheduled : db.scheduleBranchReconciliation plan event configuration target branch reference =
      .ok (jobId, plan')) :
    Grows db configuration none slots (· = .reconciliation (target.key branch)) plan' := by
  simp only [scheduleBranchReconciliation] at hscheduled
  split at hscheduled
  · cases hscheduled
  · rename_i hbranch
    rw [not_not] at hbranch
    split at hscheduled
    · cases hscheduled
      exact .of_planned hplan
    · cases hscheduled
      exact .stage hplan (.reconciliation event.key target branch reference event.evidence)
        ⟨htarget, hbranch, hreference, hevidence, rfl⟩ hnew

/-! ### Pull requests -/

theorem planned_requireBaseline (hdb : db.Coherent) {pullRequestId baseRevision : String}
    (hplan : Planned db configuration finishing slots plan)
    (htarget : Listed configuration target) (hbranches : target.service.intendedBranches ≠ [])
    (hupdate : isNamedUpdate pullRequestId update = true) (hbase : baseRevision ≠ "")
    (hevidence : isNamedEvidence event.evidence = true)
    (hnew : ∀ slot ∈ slots, slot.serviceId ≠ target.service.serviceId) {plan' : SchedulingPlan}
    (hscheduled : db.requireBaseline (db.acceptPullRequest plan event configuration target
      pullRequestId update finishing) event configuration target baseRevision = .ok plan') :
    Grows db configuration finishing slots (·.serviceId = target.service.serviceId) plan' := by
  have hslot : Slot.pullRequest (pullRequestKey target pullRequestId) ∉ slots :=
    fun hmem => hnew _ hmem rfl
  have haccepted : Planned db configuration finishing
      (.pullRequest (pullRequestKey target pullRequestId) :: slots)
      (db.acceptPullRequest plan event configuration target pullRequestId update finishing).2 :=
    hplan.stage (.acceptance event target pullRequestId update finishing) ⟨htarget, hbranches, hupdate, rfl⟩ hslot
  have hgrown : Grows db configuration finishing slots
      (·.serviceId = target.service.serviceId)
      (db.acceptPullRequest plan event configuration target pullRequestId update finishing).2 :=
    ⟨_, haccepted, fun slot hslot => (List.mem_cons.mp hslot).symm.imp_right (by rintro rfl; rfl)⟩
  simp only [acceptPullRequest] at hscheduled haccepted hgrown
  split_ifs at hscheduled haccepted hgrown with hterminal
  · cases hscheduled
    exact hgrown
  · simp only [requireBaseline] at hscheduled
    obtain ⟨⟨prerequisite, coalesced, found⟩, hbaseline, hscheduled⟩ := bind_eq_ok.mp hscheduled
    cases pure_eq_ok.mp hscheduled
    have hbaselineSlot : Slot.analysis (analysisIdentity configuration target baseRevision) ∉
        Slot.pullRequest (pullRequestKey target pullRequestId) :: slots := by
      simp only [mem_cons, reduceCtorEq, false_or]
      exact fun hmem => hnew _ hmem rfl
    obtain ⟨⟨slots', hplan', hslots⟩, hprerequisite, hsub⟩ := planned_scheduleBaseline hdb haccepted
      htarget hbase hevidence hbaselineSlot hbaseline
    refine ⟨slots', hplan'.dependency (hsub _ ?_) rfl hprerequisite, fun slot hslot => ?_⟩
    · have hstaged := mem_jobIds_stage_self plan
        (.acceptance event target pullRequestId update finishing)
        (show db.stagedJob configuration _ = some _ by
          simp only [stagedJob, if_neg hterminal]; rfl)
      simp only [stage, acceptPullRequest, if_neg hterminal] at hstaged
      exact hstaged
    · rcases hslots slot hslot with hold | rfl
      · rcases List.mem_cons.mp hold with rfl | hold
        · exact .inr rfl
        · exact .inl hold
      · exact .inr rfl

theorem planned_schedulePullRequest (hdb : db.Coherent)
    (hplan : Planned db configuration none slots plan) (htarget : Listed configuration target)
    {pullRequestId : String} {payload : PullRequestPayload}
    (hpayload : isNamedPayload (.pullRequestUpdated pullRequestId payload) = true)
    (hevidence : isNamedEvidence event.evidence = true)
    (hnew : ∀ slot ∈ slots, slot.serviceId ≠ target.service.serviceId)
    {scheduled : ScheduledTarget} {plan' : SchedulingPlan}
    (hscheduled : db.schedulePullRequest plan event configuration target pullRequestId payload =
      .ok (scheduled, plan')) :
    Grows db configuration none slots (·.serviceId = target.service.serviceId) plan' := by
  have hupdate : isNamedUpdate pullRequestId ⟨event.evidence, payload⟩ = true := by
    simp [isNamedUpdate, hevidence, hpayload]
  simp only [schedulePullRequest] at hscheduled
  split at hscheduled
  · cases hscheduled
    exact .of_planned hplan
  · rename_i hbranch
    rw [not_not] at hbranch
    have hbranches := ne_nil_of_mem hbranch
    have hrequest : Grows db configuration none slots (·.serviceId = target.service.serviceId)
        (db.requestPullRequestReconciliation plan event configuration target pullRequestId
          ⟨event.evidence, payload⟩).2 :=
      (Grows.stage hplan (.pullRequestReconciliation event target pullRequestId
        ⟨event.evidence, payload⟩) ⟨htarget, hbranches, hupdate, hevidence, rfl⟩
        fun hmem => hnew _ hmem rfl).mono (by rintro _ rfl; rfl)
    split at hscheduled
    · cases hscheduled
    · cases hscheduled
      exact .of_planned hplan
    · cases hscheduled
      exact .of_planned hplan
    · split at hscheduled
      · cases hscheduled
        exact .of_planned hplan
      · cases hscheduled
        exact hrequest
    · cases hscheduled
      exact hrequest
    all_goals
      obtain ⟨found, hfound, hscheduled⟩ := bind_eq_ok.mp hscheduled
      cases pure_eq_ok.mp hscheduled
      refine planned_requireBaseline hdb hplan htarget hbranches hupdate ?_ hevidence hnew hfound
      simp only [isNamedPayload, Bool.and_eq_true, bne_iff_ne] at hpayload
      exact hpayload.1.1.2

/-! ### Events -/

theorem nodup_of_selectReconciliationBranches {service : ServiceConfig}
    {environments branches : List String}
    (hselected : selectReconciliationBranches service environments = .ok branches) :
    branches.Nodup := by
  unfold selectReconciliationBranches at hselected
  split_ifs at hselected with hnone hall
  · cases pure_eq_ok.mp hselected
    exact nodup_nil
  · cases pure_eq_ok.mp hselected
    exact nodup_canonicalStrings _
  · obtain ⟨selected, -, hselected⟩ := bind_eq_ok.mp hselected
    cases pure_eq_ok.mp hselected
    exact nodup_canonicalStrings _

theorem planned_scheduleReconciliations (base : String → JobIdentity → ScheduledTarget)
    {branches : List String} {reference : String}
    (hplan : Planned db configuration none slots plan) (htarget : Listed configuration target)
    (hreference : reference ≠ "") (hevidence : isNamedEvidence event.evidence = true)
    (hnodup : branches.Nodup)
    (hnew : ∀ branch ∈ branches, .reconciliation (target.key branch) ∉ slots)
    {plan' : SchedulingPlan}
    (hscheduled : branches.foldlM (fun plan branch => do
      let (jobId, plan) ← db.scheduleBranchReconciliation plan event configuration target branch
        reference
      return { plan with targets := plan.targets ++ [base branch jobId] }) plan = .ok plan') :
    Grows db configuration none slots (·.serviceId = target.service.serviceId) plan' := by
  induction branches generalizing slots plan with
  | nil =>
    cases pure_eq_ok.mp hscheduled
    exact .of_planned hplan
  | cons branch branches ih =>
    rw [nodup_cons] at hnodup
    obtain ⟨next, hnext, hscheduled⟩ := bind_eq_ok.mp hscheduled
    obtain ⟨⟨jobId, found⟩, hfound, hnext⟩ := bind_eq_ok.mp hnext
    cases pure_eq_ok.mp hnext
    obtain ⟨slots', hplan', hslots⟩ := planned_scheduleBranchReconciliation hplan htarget
      hreference hevidence (hnew branch mem_cons_self) hfound
    obtain ⟨slots'', hplan'', hslots'⟩ := ih (hplan'.report _) hnodup.2
      (fun other hother hmem => by
        rcases hslots _ hmem with hold | hsame
        · exact hnew other (mem_cons_of_mem _ hother) hold
        · cases hsame
          exact hnodup.1 hother) hscheduled
    refine ⟨slots'', hplan'', fun slot hslot => ?_⟩
    rcases hslots' slot hslot with hslot | hslot
    · exact (hslots slot hslot).imp_right (by rintro rfl; rfl)
    · exact .inr hslot

theorem planned_scheduleEventTarget (hdb : db.Coherent) (hevent : isValidEvent event = true)
    (hdocument : isValidConfig configuration.document = true)
    (hplan : Planned db configuration none slots plan) {serviceId : String}
    (hnew : ∀ slot ∈ slots, slot.serviceId ≠ serviceId) {plan' : SchedulingPlan}
    (hscheduled : db.scheduleEventTarget event configuration plan serviceId = .ok plan') :
    Grows db configuration none slots (·.serviceId = serviceId) plan' := by
  simp only [isValidEvent, Bool.and_eq_true] at hevent
  obtain ⟨⟨-, hevidence⟩, hpayload⟩ := hevent
  obtain ⟨target, htarget, hscheduled⟩ := orRaise_bind_eq_ok.mp hscheduled
  obtain ⟨hmem, rfl⟩ := (targetConfig_eq_some_iff hdocument).mp htarget
  have hlisted := listed_of_mem_targets hdocument hmem
  cases hkind : event.payload with
  | deploymentChanged | sourceDocumentChanged | configurationChanged =>
    rw [hkind] at hscheduled
    cases pure_eq_ok.mp hscheduled
    exact .of_planned (hplan.report _)
  | branchUpdated branch newRevision deleted =>
    rw [hkind] at hscheduled hpayload
    simp only [isNamedPayload, Bool.and_eq_true, bne_iff_ne] at hpayload
    obtain ⟨⟨scheduled, found⟩, hbranch, hscheduled⟩ := bind_eq_ok.mp hscheduled
    obtain ⟨slots', hplan', hslots⟩ := planned_scheduleBranch hplan hlisted (by
      cases deleted <;> simp [hpayload.2]) hevidence (fun hmem => hnew _ hmem rfl) hbranch
    simp only at hscheduled
    split_ifs at hscheduled with hrequired
    · obtain ⟨⟨jobId, found'⟩, hreconciliation, hscheduled⟩ := bind_eq_ok.mp hscheduled
      cases pure_eq_ok.mp hscheduled
      have hreference : event.evidence.providerReference ≠ "" := by
        simp only [isNamedEvidence, Bool.and_eq_true, bne_iff_ne] at hevidence
        exact hevidence.1.2
      obtain ⟨slots'', hplan'', hslots'⟩ := planned_scheduleBranchReconciliation hplan' hlisted
        hreference hevidence (fun hmem => by
          rcases hslots _ hmem with hold | hbad
          · exact hnew _ hold rfl
          · cases hbad) hreconciliation
      refine ⟨slots'', hplan''.report _, fun slot hslot => ?_⟩
      rcases hslots' slot hslot with hslot | rfl
      · exact (hslots slot hslot).imp_right (by rintro rfl; rfl)
      · exact .inr rfl
    · cases pure_eq_ok.mp hscheduled
      exact ⟨slots', hplan'.report _, fun slot hslot =>
        (hslots slot hslot).imp_right (by rintro rfl; rfl)⟩
  | pullRequestUpdated pullRequestId payload =>
    rw [hkind] at hscheduled hpayload
    obtain ⟨⟨scheduled, found⟩, hpull, hscheduled⟩ := bind_eq_ok.mp hscheduled
    cases pure_eq_ok.mp hscheduled
    exact (planned_schedulePullRequest hdb hplan hlisted hpayload hevidence hnew hpull).report _
  | baselineRequested revision =>
    rw [hkind] at hscheduled hpayload
    obtain ⟨⟨jobId, coalesced, found⟩, hbaseline, hscheduled⟩ := bind_eq_ok.mp hscheduled
    cases pure_eq_ok.mp hscheduled
    exact ((planned_scheduleBaseline hdb hplan hlisted (by simpa [isNamedPayload] using hpayload)
      hevidence (fun hmem => hnew _ hmem rfl) hbaseline).1.mono (by rintro _ rfl; rfl)).report _
  | reconciliationRequested environments reference =>
    rw [hkind] at hscheduled hpayload
    simp only [isNamedPayload, Bool.and_eq_true, bne_iff_ne] at hpayload
    obtain ⟨branches, hbranches, hscheduled⟩ := bind_eq_ok.mp hscheduled
    split_ifs at hscheduled with hnone
    · cases pure_eq_ok.mp hscheduled
      exact .of_planned (hplan.report _)
    · exact planned_scheduleReconciliations (fun branch jobId =>
          { repositoryId := target.repository.repositoryId
            serviceId := target.service.serviceId
            scopeKey := "reconciliation:" ++ branch
            disposition := .scheduled
            jobId := some jobId }) hplan hlisted hpayload.2 hevidence
        (nodup_of_selectReconciliationBranches hbranches) (fun branch _ hmem => hnew _ hmem rfl)
        hscheduled

/-- The plan of an event for the services it names is valid. -/
theorem planned_scheduleEventTargets (hdb : db.Coherent) (hevent : isValidEvent event = true)
    (hdocument : isValidConfig configuration.document = true)
    (hscheduled : db.scheduleEventTargets event configuration = .ok plan) :
    ∃ slots, Planned db configuration none slots plan := by
  have hnodup : event.serviceIds.Nodup := by
    simp only [isValidEvent, Bool.and_eq_true, decide_eq_true_eq] at hevent
    exact hevent.1.1.1.2
  -- the checkpoints planned so far are about services that come earlier
  have hrest (rest : List String) : ∀ (slots : List Slot) (found : SchedulingPlan), rest.Nodup →
      Planned db configuration none slots found →
      (∀ slot ∈ slots, slot.serviceId ∉ rest) →
      rest.foldlM (db.scheduleEventTarget event configuration) found = .ok plan →
      ∃ slots, Planned db configuration none slots plan := by
    induction rest with
    | nil =>
      intro slots found _ hfound _ heq
      cases pure_eq_ok.mp heq
      exact ⟨slots, hfound⟩
    | cons serviceId rest ih =>
      intro slots found hnodup hfound hslots heq
      rw [nodup_cons] at hnodup
      obtain ⟨next, hnext, heq⟩ := bind_eq_ok.mp heq
      obtain ⟨slots', hplan', hslots'⟩ := planned_scheduleEventTarget hdb hevent hdocument hfound
        (fun slot hslot heq => hslots slot hslot (heq ▸ mem_cons_self)) hnext
      refine ih slots' next hnodup.2 hplan' (fun slot hslot hmem => ?_) heq
      rcases hslots' slot hslot with hold | rfl
      · exact hslots slot hold (mem_cons_of_mem _ hmem)
      · exact hnodup.1 hmem
  exact hrest event.serviceIds [] {} hnodup .nil (by simp) hscheduled

/-! ### Observations -/

/-- An observed state of a branch moves the checkpoint of the branch. -/
theorem planned_scheduleAuthoritativeBranch
    (hdocument : isValidConfig configuration.document = true)
    {repositoryId serviceId branch : String} {forceRepair : Bool} (hdesired : desired ≠ .present "")
    (hevidence : isNamedEvidence evidence = true)
    (hscheduled : db.scheduleAuthoritativeBranch key configuration repositoryId serviceId branch
      desired evidence forceRepair = .ok plan) :
    ∃ slots, Planned db configuration none slots plan ∧
      ∀ slot ∈ slots, slot = .branch ⟨repositoryId, serviceId, branch⟩ := by
  obtain ⟨target, htarget, hrest⟩ := orRaise_bind_eq_ok.mp hscheduled
  obtain ⟨hmem, rfl⟩ := (targetConfig_eq_some_iff hdocument).mp htarget
  obtain ⟨⟨rfl, -⟩, hplanned⟩ := require_bind_eq_ok.mp hrest
  obtain ⟨⟨scheduled, found⟩, hfound, hreport⟩ := bind_eq_ok.mp hplanned
  obtain ⟨-, hreport⟩ := require_bind_eq_ok.mp hreport
  cases pure_eq_ok.mp hreport
  obtain ⟨slots, hplan, hslots⟩ := planned_scheduleBranch .nil (listed_of_mem_targets hdocument hmem)
    hdesired hevidence not_mem_nil hfound
  exact ⟨slots, hplan.report _, fun slot hslot => (hslots slot hslot).resolve_left not_mem_nil⟩

/-- An observed pull request completes the reconciliation that observed it. -/
theorem planned_scheduleAuthoritativePullRequest (hdb : db.Coherent)
    (hdocument : isValidConfig configuration.document = true)
    {repositoryId serviceId pullRequestId : String}
    {reconciliationJob : JobIdentity} (hupdate : isNamedUpdate pullRequestId update = true)
    (hevidence : isNamedEvidence event.evidence = true)
    (hscheduled : db.scheduleAuthoritativePullRequest event configuration repositoryId serviceId
      pullRequestId update reconciliationJob = .ok plan) :
    ∃ slots, Planned db configuration (some reconciliationJob) slots plan ∧
      ∀ slot ∈ slots, slot.serviceId = serviceId := by
  obtain ⟨target, htarget, hrest⟩ := orRaise_bind_eq_ok.mp hscheduled
  obtain ⟨hmem, rfl⟩ := (targetConfig_eq_some_iff hdocument).mp htarget
  obtain ⟨⟨rfl, hbranch⟩, hplanned⟩ := require_bind_eq_ok.mp hrest
  have hbase : update.relevantPayload.baseRevision ≠ "" := by
    simp only [isNamedUpdate, isNamedPayload, Bool.and_eq_true, bne_iff_ne] at hupdate
    exact hupdate.2.1.1.2
  obtain ⟨slots, hplan, hslots⟩ := planned_requireBaseline hdb .nil (listed_of_mem_targets hdocument
    hmem) (ne_nil_of_mem hbranch) hupdate hbase hevidence (by simp) hplanned
  exact ⟨slots, hplan, fun slot hslot => (hslots slot hslot).resolve_left not_mem_nil⟩

/-! ### Configuration changes -/

section Folds

variable {α : Type} (staging : α → Staging) {xs : List α}

theorem planned_foldl_stage (hplan : Planned db configuration finishing slots plan)
    (hvalid : ∀ x ∈ xs, (staging x).Valid db configuration finishing)
    (hnodup : (xs.map fun x => (staging x).slot configuration).Nodup)
    (hnew : ∀ x ∈ xs, (staging x).slot configuration ∉ slots) :
    ∃ slots', Planned db configuration finishing slots'
        (xs.foldl (fun plan x => db.stage configuration plan (staging x)) plan) ∧
      ∀ slot, slot ∈ slots' ↔ slot ∈ slots ∨ ∃ x ∈ xs, (staging x).slot configuration = slot := by
  induction xs generalizing slots plan with
  | nil => exact ⟨slots, hplan, by simp⟩
  | cons x xs ih =>
    rw [map_cons, nodup_cons] at hnodup
    rw [forall_mem_cons] at hvalid hnew
    obtain ⟨slots', hplan', hslots⟩ := ih (hplan.stage (staging x) hvalid.1 hnew.1) hvalid.2
      hnodup.2 fun y hy hmem => by
        rcases List.mem_cons.mp hmem with heq | hmem
        · exact hnodup.1 (List.mem_map.mpr ⟨y, hy, heq⟩)
        · exact hnew.2 y hy hmem
    refine ⟨slots', hplan', fun slot => ?_⟩
    rw [hslots, mem_cons, @eq_comm _ slot]
    simp only [mem_cons, exists_eq_or_imp]
    tauto

theorem mem_oldJobs_foldl_stage (hdb : db.Coherent)
    (hvalid : ∀ x ∈ xs, (staging x).Valid db configuration finishing) {old : JobIdentity} :
    old ∈ (xs.foldl (fun plan x => db.stage configuration plan (staging x)) plan).oldJobs ↔
      old ∈ plan.oldJobs ∨ ∃ x ∈ xs, db.displacedJob configuration (staging x) = some old := by
  induction xs generalizing plan with
  | nil => simp
  | cons x xs ih =>
    rw [forall_mem_cons] at hvalid
    rw [foldl_cons, ih hvalid.2, stage_eq_extend, Planned.oldJobs_extend,
      Planned.oldJobs_part hdb hvalid.1, mem_append, mem_toList]
    simp only [mem_cons, exists_eq_or_imp]
    exact or_assoc

end Folds

section Transition

variable (db) (next : SchedulingConfiguration) (affected : List String)
  (evidence : ProviderReference) (key : Option EventKey)

/-- The rows of a table that belong to the affected services. -/
def affectedRows {κ α : Type} [DecidableEq κ] (table : OrderedMap κ α) (serviceId : κ → String) :
    List (κ × α) :=
  table.entries.filter (serviceId ·.1 ∈ affected)

/-- The reconciliations of the affected services that are no longer configured. -/
def obsoleteReconciliations : List (BranchKey × ReconciliationCheckpoint) :=
  db.reconciliations.entries.filter fun entry => entry.1.serviceId ∈ affected
    && entry.1 ∉ (desiredReconciliations next.document affected).map fun (target, branch) =>
      target.key branch

def unfinishedBaselines : List (AnalysisIdentity × AnalysisCheckpoint) :=
  db.analyses.entries.filter fun entry => entry.1.serviceId ∈ affected
    && (db.currentJobRow entry.2.currentJob).any (·.state.isNonterminal)

def transitionStagings : List Staging :=
  (affectedRows affected db.branches BranchKey.serviceId).map
      (fun entry => .branchCancellation entry.1 entry.2) ++
    ((affectedRows affected db.pullRequests PullRequestKey.serviceId).map
        (fun entry => .pullRequestCancellation entry.1 entry.2) ++
      ((db.obsoleteReconciliations next affected).map
          (fun entry => .reconciliationCancellation entry.1 entry.2) ++
        ((desiredReconciliations next.document affected).map
            (fun entry =>
              .reconciliation key entry.1 entry.2 evidence.providerReference evidence) ++
          (db.unfinishedBaselines affected).map
            (fun entry => .baselineCancellation entry.1 entry.2))))

theorem scheduleConfigurationTransition_eq :
    db.scheduleConfigurationTransition next affected evidence key =
      (db.transitionStagings next affected evidence key).foldl (db.stage next) {} := by
  simp only [transitionStagings, foldl_append, foldl_map]
  rfl

variable {db next affected evidence key}

variable (hdocument : isValidConfig next.document = true)

include hdocument in
theorem mem_desiredReconciliations :
    (target, branch) ∈ desiredReconciliations next.document affected ↔
      target ∈ next.document.targets ∧ target.service.serviceId ∈ affected ∧
        branch ∈ target.service.intendedBranches := by
  simp only [desiredReconciliations, mem_flatMap, mem_filterMap, List.mem_map,
    mem_canonicalStrings, Prod.mk.injEq, serviceTarget_eq_some_iff hdocument]
  constructor
  · rintro ⟨found, ⟨serviceId, hserviceId, htarget, rfl⟩, other, hbranch, rfl, rfl⟩
    exact ⟨htarget, hserviceId, hbranch⟩
  · rintro ⟨htarget, hserviceId, hbranch⟩
    exact ⟨target, ⟨_, hserviceId, htarget, rfl⟩, branch, hbranch, rfl, rfl⟩

include hdocument in
theorem nodup_desiredReconciliations (haffected : affected.Nodup) :
    ((desiredReconciliations next.document affected).map fun entry =>
      entry.1.key entry.2).Nodup := by
  have htargets : ((affected.filterMap (serviceTarget next.document)).map
      fun target : TargetConfig => target.service.serviceId).Nodup := by
    rw [map_filterMap]
    refine haffected.filterMap fun serviceId serviceId' id hid hid' => ?_
    obtain ⟨target, htarget, rfl⟩ := map_eq_some_iff.mp hid
    obtain ⟨target', htarget', heq⟩ := map_eq_some_iff.mp hid'
    rw [← ((serviceTarget_eq_some_iff hdocument).mp htarget).2,
      ← ((serviceTarget_eq_some_iff hdocument).mp htarget').2, heq]
  rw [desiredReconciliations, map_flatMap]
  refine List.nodup_flatMap.mpr ⟨fun target _ => ?_, ?_⟩
  · rw [List.map_map]
    exact (nodup_canonicalStrings _).map fun branch branch' heq => congrArg BranchKey.branch heq
  · refine (List.pairwise_map.mp htargets).imp fun {target target'} hne => ?_
    intro found hfound hfound'
    simp only [List.map_map, List.mem_map, comp_apply] at hfound hfound'
    obtain ⟨branch, -, rfl⟩ := hfound
    obtain ⟨branch', -, heq⟩ := hfound'
    exact hne (congrArg BranchKey.serviceId heq).symm

theorem nodup_map_filter {κ α β : Type} [DecidableEq κ] (table : OrderedMap κ α)
    (p : κ × α → Bool) {slot : κ → β} (hslot : Function.Injective slot) :
    ((table.entries.filter p).map fun entry => slot entry.1).Nodup := by
  have hkeys : ((table.entries.filter p).map Prod.fst).Nodup :=
    table.nodup.sublist (List.filter_sublist.map Prod.fst)
  rw [show (fun entry : κ × α => slot entry.1) = slot ∘ Prod.fst from rfl, ← List.map_map]
  exact hkeys.map hslot

theorem get?_of_mem_filter {κ α : Type} [DecidableEq κ] {table : OrderedMap κ α}
    {p : κ × α → Bool} {entry : κ × α} (hentry : entry ∈ table.entries.filter p) :
    table.get? entry.1 = some entry.2 :=
  table.get?_eq_some_iff.mpr (mem_of_mem_filter hentry)

include hdocument in
theorem valid_of_mem_transitionStagings (hevidence : isNamedEvidence evidence = true)
    {staging : Staging} (hstaging : staging ∈ db.transitionStagings next affected evidence key) :
    staging.Valid db next none := by
  simp only [transitionStagings, mem_append, List.mem_map] at hstaging
  rcases hstaging with ⟨entry, hentry, rfl⟩ | ⟨entry, hentry, rfl⟩ | ⟨entry, hentry, rfl⟩ |
    ⟨⟨target, branch⟩, hentry, rfl⟩ | ⟨entry, hentry, rfl⟩
  · exact ⟨get?_of_mem_filter hentry, rfl⟩
  · exact ⟨get?_of_mem_filter hentry, rfl⟩
  · exact ⟨get?_of_mem_filter hentry, rfl⟩
  · obtain ⟨htarget, -, hbranch⟩ := (mem_desiredReconciliations hdocument).mp hentry
    refine ⟨listed_of_mem_targets hdocument htarget, hbranch, ?_, hevidence, rfl⟩
    simp only [isNamedEvidence, Bool.and_eq_true, bne_iff_ne] at hevidence
    exact hevidence.1.2
  · exact ⟨get?_of_mem_filter hentry, rfl⟩

include hdocument in
theorem nodup_slots_transitionStagings (haffected : affected.Nodup) :
    ((db.transitionStagings next affected evidence key).map (·.slot next)).Nodup := by
  have hdesired : ((desiredReconciliations next.document affected).map
      fun entry => Slot.reconciliation (entry.1.key entry.2)).Nodup := by
    simpa only [List.map_map, comp_def] using
      (nodup_desiredReconciliations hdocument haffected).map fun _ _ => Slot.reconciliation.inj
  simp only [transitionStagings, map_append, List.map_map]
  -- the kinds of checkpoint are apart, and an obsolete branch is not one to be observed
  refine List.nodup_append.mpr ⟨nodup_map_filter db.branches _ fun _ _ => Slot.branch.inj,
    List.nodup_append.mpr ⟨nodup_map_filter db.pullRequests _ fun _ _ => Slot.pullRequest.inj,
      List.nodup_append.mpr ⟨nodup_map_filter db.reconciliations _
        fun _ _ => Slot.reconciliation.inj, List.nodup_append.mpr ⟨hdesired,
          nodup_map_filter db.analyses _ fun _ _ => Slot.analysis.inj, ?_⟩, ?_⟩, ?_⟩, ?_⟩
  · simp only [List.mem_map, comp_apply, Staging.slot]
    rintro _ ⟨_, -, rfl⟩ _ ⟨_, -, rfl⟩
    exact Slot.noConfusion
  · intro slot hobsolete slot' hother
    obtain ⟨entry, hentry, rfl⟩ := List.mem_map.mp hobsolete
    rcases List.mem_append.mp hother with hother | hbaseline
    · obtain ⟨wanted, hwanted, rfl⟩ := List.mem_map.mp hother
      intro heq
      have hnotMem := (List.mem_filter.mp hentry).2
      simp only [Bool.and_eq_true, decide_eq_true_eq] at hnotMem
      exact hnotMem.2 (List.mem_map.mpr ⟨wanted, hwanted, (Slot.reconciliation.inj heq).symm⟩)
    · obtain ⟨baseline, -, rfl⟩ := List.mem_map.mp hbaseline
      exact Slot.noConfusion
  · simp only [mem_append, List.mem_map, comp_apply, Staging.slot]
    rintro _ ⟨_, -, rfl⟩ _ (⟨_, -, rfl⟩ | ⟨_, -, rfl⟩ | ⟨_, -, rfl⟩) <;> exact Slot.noConfusion
  · simp only [mem_append, List.mem_map, comp_apply, Staging.slot]
    rintro _ ⟨_, -, rfl⟩ _ (⟨_, -, rfl⟩ | ⟨_, -, rfl⟩ | ⟨_, -, rfl⟩ | ⟨_, -, rfl⟩) <;>
      exact Slot.noConfusion

include hdocument in
theorem planned_scheduleConfigurationTransition (haffected : affected.Nodup)
    (hevidence : isNamedEvidence evidence = true) :
    ∃ slots, Planned db next none slots
      (db.scheduleConfigurationTransition next affected evidence key) := by
  rw [scheduleConfigurationTransition_eq]
  obtain ⟨slots, hplan, -⟩ := planned_foldl_stage id Planned.nil
    (fun staging => valid_of_mem_transitionStagings hdocument hevidence)
    (nodup_slots_transitionStagings hdocument haffected) fun _ _ => not_mem_nil
  exact ⟨slots, hplan⟩

/-- A configuration change displaces every job of the affected services that is not over. -/
theorem mem_oldJobs_scheduleConfigurationTransition (hdb : db.Coherent)
    (hdocument : isValidConfig next.document = true) (hevidence : isNamedEvidence evidence = true)
    {slot : Slot} (hslot : slot.serviceId ∈ affected) {old : JobIdentity} {job : Job}
    (hold : db.current slot = some old) (hjob : db.jobs.get? old = some job)
    (hnonterminal : job.state.isNonterminal = true) :
    old ∈ (db.scheduleConfigurationTransition next affected evidence key).oldJobs := by
  rw [scheduleConfigurationTransition_eq]
  refine (mem_oldJobs_foldl_stage id hdb fun staging =>
    valid_of_mem_transitionStagings hdocument hevidence).mpr (.inr ?_)
  simp only [transitionStagings, mem_append, List.mem_map, id]
  cases slot with
  | branch branchKey =>
    obtain ⟨row, hrow, hcurrent⟩ := bind_eq_some_iff.mp hold
    exact ⟨_, .inl ⟨(branchKey, row), List.mem_filter.mpr
      ⟨db.branches.get?_eq_some_iff.mp hrow, by simpa [Slot.serviceId] using hslot⟩, rfl⟩, hcurrent⟩
  | pullRequest pullKey =>
    obtain ⟨row, hrow, hcurrent⟩ := bind_eq_some_iff.mp hold
    exact ⟨_, .inr (.inl ⟨(pullKey, row), List.mem_filter.mpr
      ⟨db.pullRequests.get?_eq_some_iff.mp hrow, by simpa [Slot.serviceId] using hslot⟩, rfl⟩), hcurrent⟩
  | reconciliation branchKey =>
    obtain ⟨row, hrow, hcurrent⟩ := bind_eq_some_iff.mp hold
    by_cases hwanted : branchKey ∈ (desiredReconciliations next.document affected).map
        fun entry => entry.1.key entry.2
    · obtain ⟨entry, hentry, rfl⟩ := List.mem_map.mp hwanted
      exact ⟨_, .inr (.inr (.inr (.inl ⟨entry, hentry, rfl⟩))), hold⟩
    · exact ⟨_, .inr (.inr (.inl ⟨(branchKey, row), List.mem_filter.mpr
        ⟨db.reconciliations.get?_eq_some_iff.mp hrow, by simpa [Slot.serviceId] using ⟨hslot, by simpa using hwanted⟩⟩, rfl⟩)),
        hcurrent⟩
  | analysis identity =>
    obtain ⟨row, hrow, hcurrent⟩ := bind_eq_some_iff.mp hold
    refine ⟨_, .inr (.inr (.inr (.inr ⟨(identity, row), List.mem_filter.mpr
      ⟨db.analyses.get?_eq_some_iff.mp hrow, ?_⟩, rfl⟩))), hcurrent⟩
    have hrow : db.currentJobRow row.currentJob = some job := by
      rw [hcurrent]
      exact hjob
    simpa [hrow, hnonterminal, Slot.serviceId] using hslot

end Transition

end Database

end ApiTruth.Orchestration.Queue
