import ApiTruth.Orchestration.Queue.Changes

/-!
# Persisted plans

A valid plan inserts new jobs, displaces current jobs and lets the dependents of displaced jobs
fail.  A reconciliation completes its own job in the transaction that persists its plan.

## Main results

* `Database.get?_insertedJobs`, `Database.transitionedRow_eq` : the rows of a persisted plan.
* `evolves_of_plan` : a transaction that persists a valid plan.
-/

namespace ApiTruth.Orchestration.Queue

open Catalog Checked OrderedMap

namespace Database

variable {db : Database} {configuration : SchedulingConfiguration}
  {finishing : Option JobIdentity} {slots : List Slot} {plan : SchedulingPlan}

/-! ### Rows -/

theorem get?_insertedJobs (prepared : List PreparedJob) (id : JobIdentity) :
    (db.insertedJobs prepared).get? id =
      (db.jobs.get? id).or ((prepared.find? (·.identity = id)).map db.newJob) := by
  have hfold (rows : OrderedMap JobIdentity Job) : (prepared.foldl
      (fun rows prepared => rows.setIfAbsent prepared.identity (db.newJob prepared)) rows).get? id =
        (rows.get? id).or ((prepared.find? (·.identity = id)).map db.newJob) := by
    induction prepared generalizing rows with
    | nil => simp
    | cons job prepared ih =>
      rw [List.foldl_cons, ih, get?_setIfAbsent, List.find?_cons]
      by_cases hid : job.identity = id
      · subst hid
        cases rows.get? job.identity <;> simp
      · rw [if_neg (Ne.symm hid)]
        simp [hid]
  exact hfold db.jobs

variable {id : JobIdentity}

theorem get?_insertedJobs_of_some {job : Job}
    (hjob : db.jobs.get? id = some job) (prepared : List PreparedJob) :
    (db.insertedJobs prepared).get? id = some job := by
  rw [get?_insertedJobs, hjob, Option.some_or]

/-- The row of a job is written by the one transition that is about it. -/
theorem transitionedRow_eq {transitions : List PreparedTransition}
    (hnodup : (transitions.map PreparedTransition.oldJob).Nodup) (id : JobIdentity) (job : Job) :
    db.transitionedRow transitions id job =
      match transitions.find? (·.oldJob = id) with
      | some transition => db.transitionRow job transition
      | none => job := by
  unfold transitionedRow
  induction transitions with
  | nil => rfl
  | cons transition transitions ih =>
    rw [List.map_cons, List.nodup_cons] at hnodup
    by_cases hid : transition.oldJob = id
    · have hnone : transitions.filter (·.oldJob = id) = [] := by
        rw [List.filter_eq_nil_iff]
        intro other hother heq
        exact hnodup.1 (hid ▸ of_decide_eq_true heq ▸ List.mem_map_of_mem hother)
      simp [hid, hnone]
    · simp [hid, ih hnodup.2]

theorem get?_persistScheduledJobs (plan : SchedulingPlan) (id : JobIdentity) :
    (db.persistScheduledJobs plan).jobs.get? id =
      ((db.insertedJobs plan.jobs).get? id).map fun job =>
        db.changedRow (db.stagedDependents plan) id (db.transitionedRow plan.transitions id job) := by
  simp [persistScheduledJobs, transitionedJobs, Option.map_map, Function.comp_def]

/-! ### Dependents of displaced jobs -/

theorem state_ne_succeeded_of_mem_roots {root : JobIdentity}
    (hroot : root ∈ ((plan.transitions.filter db.isTransitionRoot).map
      PreparedTransition.oldJob).dedup) {job : Job} (hjob : db.jobs.get? root = some job) :
    job.state ≠ .succeeded := by
  obtain ⟨transition, htransition, rfl⟩ := List.mem_map.mp (List.mem_dedup.mp hroot)
  have hisRoot := (List.mem_filter.mp htransition).2
  intro hsucceeded
  cases transition <;> simp [isTransitionRoot, hjob, hsucceeded] at hisRoot

theorem stagedDependents_cases (hdb : db.Coherent) {change : PlannedJobChange}
    (hchange : (db.stagedDependents plan).get? id = some change) :
    change = .terminal .failed (some .jobDependencyFailed) ∧ id ∉ plan.oldJobs ∧
      ∃ job, db.jobs.get? id = some job ∧ job.IsWaiting ∧ id.kind = .prPreviewAnalysis := by
  rw [stagedDependents, get?_planTerminalDependents, get?_empty] at hchange
  split_ifs at hchange with hid
  rw [Option.or_none] at hchange
  obtain ⟨hchange, job, hjob, hwaiting, hkind⟩ := dependentChange_cases hdb
    (fun root hroot row => state_ne_succeeded_of_mem_roots hroot) hid hchange
  refine ⟨hchange, fun hold => ?_, job, hjob, hwaiting, hkind⟩
  obtain ⟨transition, htransition, rfl⟩ := List.mem_map.mp hold
  refine (mem_terminalDependents hid).1 (List.mem_dedup.mpr (List.mem_map.mpr ⟨transition,
    List.mem_filter.mpr ⟨htransition, ?_⟩, rfl⟩))
  rcases hwaiting with h | h <;> simp [isTransitionRoot, hjob, h]

theorem admissible_stagedDependents (hdb : db.Coherent) (plan : SchedulingPlan) :
    AdmissibleChanges db (db.stagedDependents plan) := by
  intro id change hchange
  obtain ⟨rfl, -, job, hjob, hwaiting, hkind⟩ := stagedDependents_cases hdb hchange
  exact ⟨job, hjob, .dependencyFailed hwaiting hkind⟩

/-! ### Notices -/

end Database

/-- The notice of a transition that ends its job. -/
def PreparedTransition.notice : PreparedTransition → StateNotice
  | supersede oldJob nextJob =>
    { jobId := oldJob, state := .superseded, transitionIdentity := some (.supersededBy nextJob) }
  | cancel oldJob =>
    { jobId := oldJob, state := .cancelled, transitionIdentity := some .subjectClosed }

@[simp] theorem PreparedTransition.jobId_notice (transition : PreparedTransition) :
    transition.notice.jobId = transition.oldJob := by
  cases transition <;> rfl

namespace Database

variable {db : Database} {configuration : SchedulingConfiguration}
  {finishing : Option JobIdentity} {slots : List Slot} {plan : SchedulingPlan}

variable {transition : PreparedTransition}

section

variable (hplan : Planned db configuration finishing slots plan) (hdb : db.Coherent)
  (htransition : transition ∈ plan.transitions)
include hplan hdb htransition

theorem find?_transitions :
    plan.transitions.find? (·.oldJob = transition.oldJob) = some transition := by
  simpa only [beq_eq_decide] using
    find?_eq_some_of_nodup PreparedTransition.oldJob (hplan.nodup_oldJobs hdb) htransition

theorem exists_displaced :
    ∃ job, db.jobs.get? transition.oldJob = some job ∧ job.IsRespected := by
  obtain ⟨slot, -, hcurrent, -⟩ := hplan.exists_current htransition
  exact (hdb.pointed slot _ hcurrent).2

theorem transitionNotice_eq {job : Job} (hjob : db.jobs.get? transition.oldJob = some job) :
    transitionNotice (db.transitionedJobs plan) transition =
      job.displacedNotice transition.notice := by
  obtain ⟨found, hfound, -, hcancelled, hsuperseded⟩ := exists_displaced hplan hdb htransition
  cases hfound.symm.trans hjob
  have hrow : (db.transitionedJobs plan).get? transition.oldJob =
      some (db.transitionRow job transition) := by
    rw [transitionedJobs, get?_mapValues, get?_insertedJobs_of_some hjob, Option.map_some,
      transitionedRow_eq (hplan.nodup_oldJobs hdb), find?_transitions hplan hdb htransition]
  unfold transitionNotice Job.displacedNotice
  rw [hrow, Option.map_some]
  cases transition with
  | cancel oldJob =>
    rw [transitionRow, Job.state_cancel]
    split_ifs with hwaiting
    · rfl
    · cases hstate : job.state <;> simp_all
  | supersede oldJob nextJob =>
    rw [transitionRow, Job.state_supersede]
    split_ifs with hwaiting
    · rfl
    · cases hstate : job.state <;> simp_all

end

theorem mem_insertDependencies {dependencies added : List JobDependency}
    {dependency : JobDependency} : dependency ∈ insertDependencies dependencies added ↔
      dependency ∈ dependencies ∨ dependency ∈ added := by
  unfold insertDependencies
  induction added generalizing dependencies with
  | nil => simp
  | cons row added ih =>
    rw [List.foldl_cons, ih, List.mem_cons, ← or_assoc]
    refine or_congr_left ?_
    split_ifs with hrow
    · exact ⟨.inl, fun h => h.elim id fun heq => heq ▸ hrow⟩
    · rw [List.mem_append, List.mem_singleton]

/-- The notices of a plan are those of dependents that fail, of new jobs, and of displaced jobs
that waited. -/
theorem mem_planNotices (hplan : Planned db configuration finishing slots plan) (hdb : db.Coherent)
    {notice : StateNotice} : notice ∈ db.planNotices plan ↔
      notice ∈ db.changeNotices (db.stagedDependents plan) ∨
        (∃ id ∈ plan.jobIds, notice = createdNotice id) ∨
        ∃ transition ∈ plan.transitions, ∃ job, db.jobs.get? transition.oldJob = some job ∧
          job.displacedNotice transition.notice = some notice := by
  have hqueued : notice ∈ plan.jobs.filterMap db.queuedNotice ↔
      ∃ id ∈ plan.jobIds, notice = createdNotice id := by
    simp only [List.mem_filterMap, SchedulingPlan.jobIds, List.mem_map, exists_exists_and_eq_and]
    refine exists_congr fun prepared => and_congr_right fun hprepared => ?_
    rw [queuedNotice, hplan.get?_eq_none hdb (List.mem_map_of_mem hprepared)]
    simp [createdNotice, eq_comm]
  have htransitions : notice ∈ plan.transitions.filterMap
      (transitionNotice (db.transitionedJobs plan)) ↔
        ∃ transition ∈ plan.transitions, ∃ job, db.jobs.get? transition.oldJob = some job ∧
          job.displacedNotice transition.notice = some notice := by
    rw [List.mem_filterMap]
    refine exists_congr fun transition => and_congr_right fun htransition => ?_
    obtain ⟨job, hjob, -⟩ := exists_displaced hplan hdb htransition
    rw [transitionNotice_eq hplan hdb htransition hjob]
    simp [hjob]
  rw [planNotices, List.mem_append, List.mem_append, hqueued, htransitions, or_assoc]

theorem jobId_of_displacedNotice {job : Job} {given notice : StateNotice}
    (h : job.displacedNotice given = some notice) : job.IsWaiting ∧ notice = given := by
  unfold Job.displacedNotice at h
  split_ifs at h with hwaiting
  exact ⟨hwaiting, (Option.some.inj h).symm⟩

theorem nodup_planNotices (hplan : Planned db configuration finishing slots plan)
    (hdb : db.Coherent) : ((db.planNotices plan).map StateNotice.jobId).Nodup := by
  have hqueued : ((plan.jobs.filterMap db.queuedNotice).map StateNotice.jobId).Sublist
      plan.jobIds := by
    refine map_filterMap_sublist (fun prepared notice hnotice => ?_) _
    unfold queuedNotice at hnotice
    split_ifs at hnotice
    cases hnotice
    rfl
  have htransitions : ((plan.transitions.filterMap
      (transitionNotice (db.transitionedJobs plan))).map StateNotice.jobId).Sublist
        plan.oldJobs := by
    refine map_filterMap_sublist (fun transition notice hnotice => ?_) _
    unfold transitionNotice at hnotice
    split at hnotice <;> cases hnotice <;> rfl
  rw [planNotices, List.map_append, List.map_append]
  refine List.nodup_append.mpr ⟨List.nodup_append.mpr ⟨nodup_changeNotices _,
    hplan.nodup_jobIds.sublist hqueued, ?_⟩, (hplan.nodup_oldJobs hdb).sublist htransitions, ?_⟩
  · rintro id hchanged _ hnew rfl
    obtain ⟨notice, hnotice, rfl⟩ := List.mem_map.mp hchanged
    obtain ⟨id, change, job, -, hjob, hgiven⟩ := mem_changeNotices.mp hnotice
    rw [jobId_of_notice hgiven] at hnew
    rw [hplan.get?_eq_none hdb (hqueued.subset hnew)] at hjob
    cases hjob
  · rintro id hearlier _ hold rfl
    have hmem := htransitions.subset hold
    rcases List.mem_append.mp hearlier with hchanged | hnew
    · obtain ⟨notice, hnotice, rfl⟩ := List.mem_map.mp hchanged
      obtain ⟨id, change, job, hchange, hjob, hgiven⟩ := mem_changeNotices.mp hnotice
      rw [jobId_of_notice hgiven] at hmem
      exact (stagedDependents_cases hdb hchange).2.1 hmem
    · obtain ⟨slot, -, hcurrent, -⟩ := hplan.exists_current_of_mem_oldJobs hmem
      obtain ⟨job, hjob, -⟩ := (hdb.pointed slot id hcurrent).2
      rw [hplan.get?_eq_none hdb (hqueued.subset hnew)] at hjob
      cases hjob

end Database

/-! ### Transactions that persist a plan -/

def succeededNotice (id : JobIdentity) : StateNotice := { jobId := id, state := .succeeded }

/-- The database has the job tables of a persisted plan, in which a completed job has succeeded. -/
structure Persists (db : Database) (plan : SchedulingPlan) (completed : Option JobIdentity)
    (db' : Database) : Prop where
  jobs : ∀ id, db'.jobs.get? id = ((db.persistScheduledJobs plan).jobs.get? id).map fun job =>
    if completed = some id then job.succeed db.clock none else job
  current : ∀ slot, db'.current slot = (db.persistScheduledJobs plan).current slot
  generation : ∀ kind slot,
    db'.generation kind slot = (db.persistScheduledJobs plan).generation kind slot
  analyses : db'.analyses = (db.persistScheduledJobs plan).analyses
  dependencies : db'.dependencies = (db.persistScheduledJobs plan).dependencies
  revisionSnapshots : db'.revisionSnapshots = db.revisionSnapshots
  outbox : db'.outbox =
    (db.insertNotices (db.planNotices plan ++ completed.toList.map succeededNotice)).outbox

/-- A job that a transaction may complete is leased, and no part of a plan displaces it. -/
def Completable (db : Database) (plan : SchedulingPlan) (completed : Option JobIdentity) : Prop :=
  ∀ id, completed = some id → id ∉ plan.oldJobs ∧
    ∃ job, db.jobs.get? id = some job ∧ job.state = .leased ∧ job.cancellationRequested = false

section Transactions

variable {db db' : Database} {configuration : SchedulingConfiguration}
  {finishing completed : Option JobIdentity} {slots : List Slot} {plan : SchedulingPlan}

open ApiTruth.Orchestration.Queue.Database

namespace Persists

theorem agreeAt_persistScheduledJobs (plan : SchedulingPlan) (slot : Slot) :
    AgreeAt slot ((db.afterChanges (db.stagedDependents plan)).afterWrites plan)
      (db.persistScheduledJobs plan) := by
  refine ⟨?_, fun kind => ?_⟩
  · rw [persistScheduledJobs, current_insertNotices]
    cases slot <;> rfl
  · rw [persistScheduledJobs, generation_insertNotices]
    cases kind <;> cases slot <;> rfl

variable (h : Persists db plan completed db')

include h in
theorem agreeAt (slot : Slot) :
    AgreeAt slot ((db.afterChanges (db.stagedDependents plan)).afterWrites plan) db' :=
  (agreeAt_persistScheduledJobs plan slot).trans ⟨h.current slot, fun kind => h.generation kind slot⟩

variable (hplan : Planned db configuration finishing slots plan)

include hplan in
include h in
theorem slotChange (hdb : db.Coherent) (slot : Slot) :
    SlotChange db db' plan.jobIds plan.oldJobs finishing slot := by
  have hcurrent := (h.agreeAt slot).1
  cases hplan.slotChange hdb (fun slot => agreeAt_afterChanges (db.stagedDependents plan) slot)
    slot with
  | kept hsame hkept => exact .kept (hcurrent.trans hsame) hkept
  | released hnone hdisplaced => exact .released (hcurrent.trans hnone) hdisplaced
  | replaced id hid hslot hsome hdisplaced =>
    exact .replaced id hid hslot (hcurrent.trans hsome) hdisplaced

include hplan in
include h in
theorem current_ne_of_mem_oldJobs (hdb : db.Coherent) {old : JobIdentity}
    (hold : old ∈ plan.oldJobs) (slot : Slot) :
    db'.current slot ≠ some old := by
  intro hcurrent
  cases h.slotChange hplan hdb slot with
  | kept hsame hkept => exact hkept old (hsame.symm.trans hcurrent) hold
  | released hnone =>
    rw [hnone] at hcurrent
    cases hcurrent
  | replaced id hid hslot hsome =>
    cases hsome.symm.trans hcurrent
    obtain ⟨slot, -, hfound, -⟩ := hplan.exists_current_of_mem_oldJobs hold
    obtain ⟨job, hjob, -⟩ := (hdb.pointed slot old hfound).2
    rw [hplan.get?_eq_none hdb hid] at hjob
    cases hjob

variable {id : JobIdentity}

theorem find?_eq_none (hid : id ∉ plan.oldJobs) :
    plan.transitions.find? (·.oldJob = id) = none := by
  rw [List.find?_eq_none]
  intro transition htransition heq
  exact hid (of_decide_eq_true heq ▸ List.mem_map_of_mem htransition)

variable {job : Job} {notice : StateNotice}

theorem get?_stagedDependents_eq_none (hdb : db.Coherent)
    (hjob : db.jobs.get? id = some job) (h : id ∈ plan.oldJobs ∨ job.state = .leased) :
    (db.stagedDependents plan).get? id = none := by
  by_contra hne
  obtain ⟨change, hchange⟩ := Option.ne_none_iff_exists'.mp hne
  obtain ⟨-, hnotMem, found, hfound, hwaiting, -⟩ := stagedDependents_cases hdb hchange
  cases hfound.symm.trans hjob
  rcases h with hold | hleased
  · exact hnotMem hold
  · exact hwaiting.ne_leased hleased

include hplan in
theorem mem_added (hdb : db.Coherent) :
    notice ∈ db.planNotices plan ++ completed.toList.map succeededNotice ↔
      notice ∈ db.changeNotices (db.stagedDependents plan) ∨
        (∃ id ∈ plan.jobIds, notice = createdNotice id) ∨
        (∃ transition ∈ plan.transitions, ∃ job, db.jobs.get? transition.oldJob = some job ∧
          job.displacedNotice transition.notice = some notice) ∨
        ∃ id, completed = some id ∧ notice = succeededNotice id := by
  rw [List.mem_append, mem_planNotices hplan hdb, or_assoc, or_assoc]
  refine or_congr_right (or_congr_right (or_congr_right ?_))
  cases completed <;> simp

section

variable (h : Persists db plan completed db')
  (hplan : Planned db configuration finishing slots plan) (hdb : db.Coherent)
include h hplan hdb

variable (hcompleted : Completable db plan completed)

include hcompleted in
theorem get?_of_mem_transitions {transition : PreparedTransition}
    (htransition : transition ∈ plan.transitions)
    (hjob : db.jobs.get? transition.oldJob = some job) :
    db'.jobs.get? transition.oldJob = some (db.transitionRow job transition) := by
  have hold : transition.oldJob ∈ plan.oldJobs := List.mem_map_of_mem htransition
  have hne : completed ≠ some transition.oldJob := fun heq => (hcompleted _ heq).1 hold
  rw [h.jobs, get?_persistScheduledJobs, get?_insertedJobs_of_some hjob, Option.map_some,
    Option.map_some, transitionedRow_eq (hplan.nodup_oldJobs hdb),
    find?_transitions hplan hdb htransition, if_neg hne]
  simp only [changedRow, get?_stagedDependents_eq_none hdb hjob (.inl hold)]

include hcompleted in
theorem not_isWanted_of_mem_oldJobs (hid : id ∈ plan.oldJobs) {job' : Job}
    (hjob' : db'.jobs.get? id = some job') : ¬ job'.IsWanted := by
  obtain ⟨transition, htransition, rfl⟩ := List.mem_map.mp hid
  obtain ⟨job, hjob, -⟩ := exists_displaced hplan hdb htransition
  rw [h.get?_of_mem_transitions hplan hdb hcompleted htransition hjob] at hjob'
  cases hjob'
  rintro ⟨hnonterminal, hrequested⟩
  cases transition <;> cases hstate : job.state <;>
    simp_all [transitionRow, Job.cancel, Job.supersede, JobState.isNonterminal]

include hcompleted in
theorem get?_of_stagedDependents {change : PlannedJobChange}
    (hchange : (db.stagedDependents plan).get? id = some change) :
    db'.jobs.get? id = (db.jobs.get? id).map fun job => change.apply db.clock job := by
  obtain ⟨-, hold, job, hjob, hwaiting, -⟩ := stagedDependents_cases hdb hchange
  have hne : completed ≠ some id := by
    intro heq
    obtain ⟨-, found, hfound, hleased, -⟩ := hcompleted id heq
    cases hfound.symm.trans hjob
    exact hwaiting.ne_leased hleased
  rw [h.jobs, get?_persistScheduledJobs, get?_insertedJobs_of_some hjob, hjob, Option.map_some,
    Option.map_some, Option.map_some, transitionedRow_eq (hplan.nodup_oldJobs hdb),
    find?_eq_none hold, if_neg hne, changedRow, hchange]

include hcompleted in
theorem changed (hjob : db.jobs.get? id = some job) : ∃ job' notice, db'.jobs.get? id = some job' ∧
      JobChange db db' id job job' notice ∧ ∀ other, other.jobId = id →
        (other ∈ db.planNotices plan ++ completed.toList.map succeededNotice ↔
          notice = some other) := by
  have hnew : id ∉ plan.jobIds := by
    intro hid
    rw [hplan.get?_eq_none hdb hid] at hjob
    cases hjob
  by_cases hold : id ∈ plan.oldJobs
  · -- a displaced job
    obtain ⟨transition, htransition, rfl⟩ := List.mem_map.mp hold
    have hnone := get?_stagedDependents_eq_none hdb hjob (.inl hold)
    have hne : completed ≠ some transition.oldJob := fun heq => (hcompleted _ heq).1 hold
    refine ⟨_, job.displacedNotice transition.notice,
      h.get?_of_mem_transitions hplan hdb hcompleted htransition hjob, ?_, fun other hother => ?_⟩
    · have hcurrent := h.current_ne_of_mem_oldJobs hplan hdb hold
      cases transition with
      | cancel => exact .cancel hcurrent
      | supersede => exact .supersede _ hcurrent
    · rw [mem_added hplan hdb]
      constructor
      · rintro (hchanged | ⟨new, hmem, rfl⟩ | ⟨found, hfound, row, hrow, hnotice⟩ | ⟨done, hdone, rfl⟩)
        · obtain ⟨found, change, row, hchange, -, hgiven⟩ := mem_changeNotices.mp hchanged
          rw [(jobId_of_notice hgiven).symm.trans hother, hnone] at hchange
          cases hchange
        · exact absurd (hother ▸ hmem) hnew
        · obtain ⟨-, rfl⟩ := jobId_of_displacedNotice hnotice
          rw [PreparedTransition.jobId_notice] at hother
          obtain rfl : found = transition :=
            List.inj_on_of_nodup_map (hplan.nodup_oldJobs hdb) hfound htransition hother
          cases hrow.symm.trans hjob
          exact hnotice
        · exact absurd (hother ▸ hdone) hne
      · exact fun hnotice => .inr (.inr (.inl ⟨transition, htransition, job, hjob, hnotice⟩))
  · rw [h.jobs, get?_persistScheduledJobs, get?_insertedJobs_of_some hjob, Option.map_some,
      Option.map_some, transitionedRow_eq (hplan.nodup_oldJobs hdb), find?_eq_none hold]
    have hdisplaced {other : StateNotice} (hother : other.jobId = id) :
        ¬ ∃ transition ∈ plan.transitions, ∃ row, db.jobs.get? transition.oldJob = some row ∧
          row.displacedNotice transition.notice = some other := by
      rintro ⟨transition, htransition, row, -, hnotice⟩
      obtain ⟨-, rfl⟩ := jobId_of_displacedNotice hnotice
      rw [PreparedTransition.jobId_notice] at hother
      exact hold (hother ▸ List.mem_map_of_mem htransition)
    have hcreated {other : StateNotice} (hother : other.jobId = id) :
        ¬ ∃ new ∈ plan.jobIds, other = createdNotice new := by
      rintro ⟨new, hmem, rfl⟩
      exact hnew (hother ▸ hmem)
    by_cases hdone : completed = some id
    · -- the completed job
      obtain ⟨-, found, hfound, hleased, hrequested⟩ := hcompleted id hdone
      cases hfound.symm.trans hjob
      have hnone : (db.stagedDependents plan).get? id = none :=
        get?_stagedDependents_eq_none hdb hjob (.inr hleased)
      rw [if_pos hdone]
      refine ⟨_, some (succeededNotice id), rfl, ?_, fun other hother => ?_⟩
      · simp only [changedRow, hnone]
        exact .succeed none hleased hrequested
      · rw [mem_added hplan hdb]
        constructor
        · rintro (hchanged | hmem | hmem | ⟨done, hdone', rfl⟩)
          · obtain ⟨found, change, row, hchange, -, hgiven⟩ := mem_changeNotices.mp hchanged
            rw [(jobId_of_notice hgiven).symm.trans hother, hnone] at hchange
            cases hchange
          · exact absurd hmem (hcreated hother)
          · exact absurd hmem (hdisplaced hother)
          · cases hdone.symm.trans hdone'
            rfl
        · intro heq
          cases heq
          exact .inr (.inr (.inr ⟨id, hdone, rfl⟩))
    · rw [if_neg hdone]
      have hrest {other : StateNotice} (hother : other.jobId = id) :
          other ∈ db.planNotices plan ++ completed.toList.map succeededNotice ↔
            other ∈ db.changeNotices (db.stagedDependents plan) := by
        rw [mem_added hplan hdb]
        refine ⟨?_, .inl⟩
        rintro (hchanged | hmem | hmem | ⟨done, hdone', rfl⟩)
        · exact hchanged
        · exact absurd hmem (hcreated hother)
        · exact absurd hmem (hdisplaced hother)
        · exact absurd (hother ▸ hdone') hdone
      obtain ⟨notice, hchange, hnotice⟩ :=
        jobChange_changedRow (admissible_stagedDependents hdb plan) db' hjob
      exact ⟨_, notice, rfl, hchange, fun other hother => (hrest hother).trans (hnotice other hother)⟩

end

section

variable (h : Persists db plan completed db')
include h

theorem mem_jobIds_of_new {job' : Job}
    (hjob : db.jobs.get? id = none) (hjob' : db'.jobs.get? id = some job') :
    ∃ prepared ∈ plan.jobs, prepared.identity = id := by
  rw [h.jobs, get?_persistScheduledJobs, get?_insertedJobs, hjob, Option.none_or] at hjob'
  cases hfind : plan.jobs.find? (·.identity = id) with
  | none =>
    rw [hfind] at hjob'
    cases hjob'
  | some prepared =>
    exact ⟨prepared, List.mem_of_find?_eq_some hfind, by simpa using List.find?_some hfind⟩

variable (hplan : Planned db configuration finishing slots plan)

include hplan in
theorem get?_of_mem_jobs (hdb : db.Coherent) (hcompleted : Completable db plan completed)
    {prepared : PreparedJob} (hprepared : prepared ∈ plan.jobs) :
    db'.jobs.get? prepared.identity = some (db.newJob prepared) := by
  have hid := List.mem_map_of_mem (f := PreparedJob.identity) hprepared
  have hjob := hplan.get?_eq_none hdb hid
  have hfind : plan.jobs.find? (·.identity = prepared.identity) = some prepared := by
    simpa only [beq_eq_decide] using
      find?_eq_some_of_nodup PreparedJob.identity hplan.nodup_jobIds hprepared
  have hold : prepared.identity ∉ plan.oldJobs := by
    intro hold
    obtain ⟨slot, -, hcurrent, -⟩ := hplan.exists_current_of_mem_oldJobs hold
    obtain ⟨job, hfound, -⟩ := (hdb.pointed slot _ hcurrent).2
    rw [hjob] at hfound
    cases hfound
  have hchange : (db.stagedDependents plan).get? prepared.identity = none := by
    by_contra hne
    obtain ⟨change, hchange⟩ := Option.ne_none_iff_exists'.mp hne
    obtain ⟨-, -, job, hfound, -⟩ := stagedDependents_cases hdb hchange
    rw [hjob] at hfound
    cases hfound
  have hdone : completed ≠ some prepared.identity := by
    intro heq
    obtain ⟨-, job, hfound, -⟩ := hcompleted _ heq
    rw [hjob] at hfound
    cases hfound
  rw [h.jobs, get?_persistScheduledJobs, get?_insertedJobs, hjob, Option.none_or, hfind,
    Option.map_some, Option.map_some, Option.map_some, if_neg hdone,
    transitionedRow_eq (hplan.nodup_oldJobs hdb), find?_eq_none hold, changedRow, hchange]

include hplan in
theorem slotStep (hdb : db.Coherent) (hcompleted : Completable db plan completed)
    (hfinishing : ∀ id, finishing = some id → completed = some id) (slot : Slot) :
    SlotStep db db' slot := by
  -- a job that has given up its checkpoint is displaced, over or completed
  have hunwanted (hdisplaced : Displaced db plan.oldJobs finishing slot) (old : JobIdentity)
      (job' : Job) (hold : db.current slot = some old) (hjob' : db'.jobs.get? old = some job') :
      ¬ job'.IsWanted := by
    intro hwanted
    obtain ⟨job, hjob, hrespected⟩ := (hdb.pointed slot old hold).2
    by_cases hfinish : some old = finishing
    · have hdone := hfinishing old hfinish.symm
      rw [h.jobs] at hjob'
      obtain ⟨row, -, rfl⟩ := Option.map_eq_some_iff.mp hjob'
      rw [if_pos hdone] at hwanted
      exact Bool.false_ne_true hwanted.1
    · obtain ⟨found, notice, hfound, hchange, -⟩ := h.changed hplan hdb hcompleted hjob
      cases hfound.symm.trans hjob'
      rcases hdisplaced old hold hfinish with hmem | hover
      · exact h.not_isWanted_of_mem_oldJobs hplan hdb hcompleted hmem hjob' hwanted
      · have hterminal := hover job hjob
        rw [← hchange.state_of_terminal hterminal, hwanted.1] at hterminal
        cases hterminal
  cases h.slotChange hplan hdb slot with
  | kept hsame => exact .kept hsame
  | released hnone hdisplaced =>
    refine .moved (fun id hid => ?_) (hunwanted hdisplaced)
    rw [hnone] at hid
    cases hid
  | replaced id hid hslot hsome hdisplaced =>
    refine .moved (fun other hother => ?_) (hunwanted hdisplaced)
    cases hsome.symm.trans hother
    obtain ⟨prepared, hprepared, rfl⟩ := List.mem_map.mp hid
    exact ⟨hplan.get?_eq_none hdb hid, hslot, _, h.get?_of_mem_jobs hplan hdb hcompleted hprepared⟩

include hplan in
theorem created (hdb : db.Coherent) (hcompleted : Completable db plan completed)
    (hallowed : ∀ id ∈ plan.jobIds, db'.isAllowedByActiveConfig id = true) {id : JobIdentity}
    {job' : Job} (hjob : db.jobs.get? id = none) (hjob' : db'.jobs.get? id = some job') :
    Created db db' id job' ∧ ∀ other, other.jobId = id →
      (other ∈ db.planNotices plan ++ completed.toList.map succeededNotice ↔
        other = createdNotice id) := by
  obtain ⟨prepared, hprepared, rfl⟩ := h.mem_jobIds_of_new hjob hjob'
  have hid : prepared.identity ∈ plan.jobIds := List.mem_map_of_mem hprepared
  cases (h.get?_of_mem_jobs hplan hdb hcompleted hprepared).symm.trans hjob'
  obtain ⟨slot, -, hslot, hservice, hcurrent, hgeneration⟩ := hplan.current_of_mem_jobIds
    (fun slot => agreeAt_afterChanges (db.stagedDependents plan) slot) hid
  refine ⟨⟨⟨prepared, rfl, rfl⟩, ⟨slot, hslot, hservice, (h.agreeAt slot).1.trans hcurrent, ?_⟩,
    hallowed _ hid⟩, fun other hother => ?_⟩
  · rw [(h.agreeAt slot).2, hgeneration]
  · rw [mem_added hplan hdb]
    constructor
    · rintro (hchanged | ⟨new, -, rfl⟩ | ⟨transition, htransition, row, hrow, hnotice⟩ |
        ⟨done, hdone, rfl⟩)
      · obtain ⟨found, change, row, -, hrow, hgiven⟩ := mem_changeNotices.mp hchanged
        rw [(jobId_of_notice hgiven).symm.trans hother, hjob] at hrow
        cases hrow
      · rw [show new = prepared.identity from hother]
      · obtain ⟨-, rfl⟩ := jobId_of_displacedNotice hnotice
        rw [PreparedTransition.jobId_notice] at hother
        rw [hother, hjob] at hrow
        cases hrow
      · obtain ⟨-, row, hrow, -⟩ := hcompleted done hdone
        rw [show done = prepared.identity from hother, hjob] at hrow
        cases hrow
    · rintro rfl
      exact .inr (.inl ⟨_, hid, rfl⟩)

include hplan in
theorem addressed (hdb : db.Coherent) (hcompleted : Completable db plan completed)
    (hnotice : notice ∈ db.planNotices plan ++ completed.toList.map succeededNotice) :
    ∃ job', db'.jobs.get? notice.jobId = some job' := by
  have hold {id : JobIdentity} {job : Job} (hjob : db.jobs.get? id = some job) :
      ∃ job', db'.jobs.get? id = some job' := by
    obtain ⟨job', -, hjob', -⟩ := h.changed hplan hdb hcompleted hjob
    exact ⟨job', hjob'⟩
  rcases (mem_added hplan hdb).mp hnotice with hchanged | ⟨new, hnew, rfl⟩ |
    ⟨transition, htransition, row, hrow, hgiven⟩ | ⟨done, hdone, rfl⟩
  · obtain ⟨found, change, row, -, hrow, hgiven⟩ := mem_changeNotices.mp hchanged
    rw [jobId_of_notice hgiven]
    exact hold hrow
  · obtain ⟨prepared, hprepared, rfl⟩ := List.mem_map.mp hnew
    exact ⟨_, h.get?_of_mem_jobs hplan hdb hcompleted hprepared⟩
  · obtain ⟨-, rfl⟩ := jobId_of_displacedNotice hgiven
    rw [PreparedTransition.jobId_notice]
    exact hold hrow
  · obtain ⟨-, row, hrow, -⟩ := hcompleted done hdone
    exact hold hrow

end

theorem nodup_added (hplan : Planned db configuration finishing slots plan) (hdb : db.Coherent)
    (hcompleted : Completable db plan completed) :
    ((db.planNotices plan ++ completed.toList.map succeededNotice).map
      StateNotice.jobId).Nodup := by
  rw [List.map_append]
  refine List.nodup_append.mpr ⟨nodup_planNotices hplan hdb, ?_, ?_⟩
  · cases completed <;> simp
  · rintro id hearlier _ hdone rfl
    obtain ⟨notice, hnotice, rfl⟩ := List.mem_map.mp hearlier
    obtain ⟨given, hgiven, heq⟩ := List.mem_map.mp hdone
    obtain ⟨done, hdone, rfl⟩ := List.mem_map.mp hgiven
    obtain ⟨hold, job, hjob, hleased, -⟩ := hcompleted done (Option.mem_toList.mp hdone)
    rw [show (succeededNotice done).jobId = done from rfl] at heq
    rcases (mem_planNotices hplan hdb).mp hnotice with hchanged | ⟨new, hnew, rfl⟩ |
      ⟨transition, htransition, row, hrow, hgiven⟩
    · obtain ⟨found, change, row, hchange, -, hgiven⟩ := mem_changeNotices.mp hchanged
      rw [(jobId_of_notice hgiven).symm.trans heq.symm,
        get?_stagedDependents_eq_none hdb hjob (.inr hleased)] at hchange
      cases hchange
    · rw [heq, show (createdNotice new).jobId = new from rfl] at hjob
      rw [hplan.get?_eq_none hdb hnew] at hjob
      cases hjob
    · obtain ⟨-, rfl⟩ := jobId_of_displacedNotice hgiven
      rw [PreparedTransition.jobId_notice] at heq
      exact hold (heq ▸ List.mem_map_of_mem htransition)

end Persists

/-! ### Outcomes of baselines -/

variable {ended : JobIdentity → Prop}

theorem settledIn_afterWrites_part (staging : Staging)
    (h : SettledIn db ended) : SettledIn (db.afterWrites (db'.part configuration staging)) ended := by
  cases staging with
  | baseline event target revision =>
    intro key row hrow hsome id hid
    simp only [afterWrites, part, stage, stageBaseline, SchedulingPlan.stageCheckpoint,
      SchedulingPlan.stageJob, List.nil_append, List.foldl_cons, List.foldl_nil, writeCheckpoint,
      get?_set] at hrow
    split_ifs at hrow
    · cases hrow
      cases hsome
    · exact h key row hrow hsome id hid
  | baselineCancellation key row =>
    intro other found hfound hsome id hid
    simp only [afterWrites, part, stage, cancelBaseline, SchedulingPlan.stageCheckpoint,
      SchedulingPlan.checkpointWrites_stageCancel, List.nil_append, List.foldl_cons,
      List.foldl_nil, writeCheckpoint, get?_set] at hfound
    split_ifs at hfound
    · cases hfound
      cases hid
    · exact h other found hfound hsome id hid
  | acceptance event target pullRequestId update reconciliationJob =>
    simp only [part, stage, acceptPullRequest]
    split_ifs <;> simpa [afterWrites, SchedulingPlan.stageCheckpoint, SchedulingPlan.stageJob,
      writeCheckpoint, SettledIn] using h
  | _ =>
    simpa [afterWrites, part, stage, confirmBranch, scheduleAbsence, scheduleAnalysis,
      queueReconciliation, requestPullRequestReconciliation, cancelBranchWork,
      cancelPullRequestWork, cancelObsoleteReconciliation, SchedulingPlan.stageCheckpoint,
      SchedulingPlan.stageJob, writeCheckpoint, SettledIn] using h

theorem Planned.settledIn_afterWrites
    (hplan : Planned db configuration finishing slots plan) (h : SettledIn db' ended) :
    SettledIn (db'.afterWrites plan) ended := by
  induction hplan with
  | nil => exact h
  | report _ _ ih => exact ih
  | dependency _ _ _ _ ih => exact ih
  | stage staging _ _ _ ih =>
    rw [stage_eq_extend, Planned.afterWrites_extend]
    exact settledIn_afterWrites_part staging ih

/-- What a transaction that persists a valid plan does to the job tables. -/
theorem evolves_of_plan (hdb : db.Coherent)
    (hplan : Planned db configuration finishing slots plan) (h : Persists db plan completed db')
    (hcompleted : Completable db plan completed)
    (hfinishing : ∀ id, finishing = some id → completed = some id)
    (hconfigurations : db'.configurations = db.configurations)
    (hrecorded : ∀ key stored, db'.events.get? key = some stored →
      db.events.get? key = some stored ∨ isValidEvent stored.envelope = true)
    (hactive : db'.active = db.active ∨ ∀ id job, db.jobs.get? id = some job → job.IsWanted →
      id ∈ plan.oldJobs)
    (hallowed : ∀ id ∈ plan.jobIds, db'.isAllowedByActiveConfig id = true) :
    Evolves db db' (db.planNotices plan ++ completed.toList.map succeededNotice) := by
  constructor
  case configurations =>
    rw [hconfigurations]
    exact fun _ _ => id
  case configured =>
    rw [hconfigurations]
    exact fun _ _ => .inl
  case recorded => exact hrecorded
  case active =>
    refine hactive.imp_right fun hdisplaced id job job' hjob hjob' hwanted => ?_
    obtain ⟨found, notice, hfound, hchange, -⟩ := h.changed hplan hdb hcompleted hjob
    cases hfound.symm.trans hjob'
    exact h.not_isWanted_of_mem_oldJobs hplan hdb hcompleted
      (hdisplaced id job hjob (hchange.isWanted hwanted)) hjob' hwanted
  case changed => exact fun id job => h.changed hplan hdb hcompleted
  case created => exact fun id job' => h.created hplan hdb hcompleted hallowed
  case addressed => exact fun notice => h.addressed hplan hdb hcompleted
  case nodup => exact Persists.nodup_added hplan hdb hcompleted
  case outbox => exact h.outbox
  case slots => exact h.slotStep hplan hdb hcompleted hfinishing
  case generations =>
    intro kind slot
    rw [(h.agreeAt slot).2]
    exact hplan.generation_le (fun slot => agreeAt_afterChanges _ slot) slot kind
  case settled =>
    have hover : SettledIn db fun id => ∀ job', db'.jobs.get? id = some job' →
        job'.state.isNonterminal = false := by
      intro key row hrow hsome id hid job' hjob'
      obtain ⟨job, hjob, -⟩ := (hdb.pointed (.analysis key) id (by
        rw [current, hrow]
        exact hid)).2
      obtain ⟨found, notice, hfound, hchange, -⟩ := h.changed hplan hdb hcompleted hjob
      cases hfound.symm.trans hjob'
      have hterminal := hdb.settled key row hrow hsome id job hid hjob
      rwa [hchange.state_of_terminal hterminal]
    have hchanges : SettledIn (db.afterChanges (db.stagedDependents plan)) fun id =>
        ∀ job', db'.jobs.get? id = some job' → job'.state.isNonterminal = false := by
      refine settledIn_afterChanges hover fun id state code hchange hterminal job' hjob' => ?_
      rw [h.get?_of_stagedDependents hplan hdb hcompleted hchange] at hjob'
      obtain ⟨job, -, rfl⟩ := Option.map_eq_some_iff.mp hjob'
      exact hterminal
    have hafter := hplan.settledIn_afterWrites hchanges
    intro key row hrow hsome id job' hid hjob'
    refine hafter key row ?_ hsome id hid job' hjob'
    rw [h.analyses, persistScheduledJobs, analyses_insertNotices] at hrow
    exact hrow
  case dependencies =>
    intro dependency hdependency
    rw [h.dependencies, persistScheduledJobs, dependencies_insertNotices,
      mem_insertDependencies] at hdependency
    refine hdependency.imp_right fun hnew => ?_
    obtain ⟨hid, hkind, hprerequisite⟩ := hplan.dependency_cases hnew
    have hstaged {id : JobIdentity} (hid : id ∈ plan.jobIds) :
        ∃ job', db'.jobs.get? id = some job' := by
      obtain ⟨prepared, hprepared, rfl⟩ := List.mem_map.mp hid
      exact ⟨_, h.get?_of_mem_jobs hplan hdb hcompleted hprepared⟩
    refine ⟨hplan.get?_eq_none hdb hid, hkind, hstaged hid, ?_⟩
    rcases hprerequisite with hnew | ⟨job, hjob⟩
    · exact hstaged hnew
    · obtain ⟨job', -, hjob', -⟩ := h.changed hplan hdb hcompleted hjob
      exact ⟨job', hjob'⟩
  case produced =>
    rw [h.revisionSnapshots]
    exact fun _ _ => .inl

end Transactions

end ApiTruth.Orchestration.Queue
