import ApiTruth.Orchestration.Queue.Evolution

/-!
# Planned changes of jobs

Changes are written as a batch: the checkpoints of the jobs, their rows, and the notices.  In a
coherent database the dependents of a job that ends without a result wait, because a leased preview
has prerequisites that have succeeded; so they fail.

## Main results

* `Database.admissible_planTerminalDependents` : the changes of dependents are admissible.
* `evolves_applyPlannedJobChanges` : a batch of admissible changes.
-/

namespace ApiTruth.Orchestration.Queue

open Catalog Checked List Option OrderedMap

namespace Database

variable {db db₁ : Database}

/-! ### Notices -/

section

variable (notices : List StateNotice)
include notices

theorem insertNotices_eq :
    db.insertNotices notices = { db with outbox := (db.insertNotices notices).outbox } := by
  induction notices generalizing db with
  | nil => rfl
  | cons notice notices ih =>
    have hinsert : db.insertNotice notice =
        { db with outbox := (db.insertNotice notice).outbox } := by
      unfold insertNotice
      split <;> rfl
    have hcons : db.insertNotices (notice :: notices) =
        (db.insertNotice notice).insertNotices notices := rfl
    rw [hcons, ih, hinsert]

@[simp] theorem jobs_insertNotices :
    (db.insertNotices notices).jobs = db.jobs := by
  rw [insertNotices_eq]

@[simp] theorem analyses_insertNotices :
    (db.insertNotices notices).analyses = db.analyses := by
  rw [insertNotices_eq]

@[simp] theorem dependencies_insertNotices :
    (db.insertNotices notices).dependencies = db.dependencies := by
  rw [insertNotices_eq]

@[simp] theorem revisionSnapshots_insertNotices :
    (db.insertNotices notices).revisionSnapshots = db.revisionSnapshots := by
  rw [insertNotices_eq]

@[simp] theorem current_insertNotices (slot : Slot) :
    (db.insertNotices notices).current slot = db.current slot := by
  rw [insertNotices_eq]
  cases slot <;> rfl

@[simp] theorem generation_insertNotices (kind : JobKind)
    (slot : Slot) : (db.insertNotices notices).generation kind slot = db.generation kind slot := by
  rw [insertNotices_eq]
  cases kind <;> cases slot <;> rfl

end

theorem outbox_insertNotices_congr (h : db₁.outbox = db.outbox) (notices : List StateNotice) :
    (db₁.insertNotices notices).outbox = (db.insertNotices notices).outbox := by
  induction notices generalizing db db₁ with
  | nil => exact h
  | cons notice notices ih =>
    refine ih ?_
    unfold insertNotice
    rw [h]
    split <;> simp [h]

@[simp] theorem insertNotices_singleton (notice : StateNotice) :
    db.insertNotices [notice] = db.insertNotice notice :=
  rfl

theorem insertNotices_append (notices notices' : List StateNotice) :
    db.insertNotices (notices ++ notices') = (db.insertNotices notices).insertNotices notices' :=
  foldl_append

/-! ### Checkpoints of changed jobs -/

/-- The tables of checkpoints; a change of a job leaves the others alone. -/
def SameRows (db db₁ : Database) : Prop :=
  db₁ = { db with branches := db₁.branches
                  pullRequests := db₁.pullRequests
                  reconciliations := db₁.reconciliations
                  analyses := db₁.analyses }

theorem SameRows.refl (db : Database) : SameRows db db := rfl

theorem SameRows.trans {db₂ : Database} (h : SameRows db db₁) (h' : SameRows db₁ db₂) :
    SameRows db db₂ := by
  unfold SameRows at h h' ⊢
  rw [h', h]

theorem sameRows_updateCheckpointState (id : JobIdentity) (state : JobState)
    (code : Option OrchestrationErrorCode) :
    SameRows db (db.updateCheckpointState id state code) := by
  unfold updateCheckpointState
  split <;> try split
  all_goals rfl

variable (entry : JobIdentity × PlannedJobChange)

theorem sameRows_writeChangeCheckpoint :
    SameRows db (db.writeChangeCheckpoint entry) := by
  unfold writeChangeCheckpoint
  split
  · exact sameRows_updateCheckpointState _ _ _
  · exact sameRows_updateCheckpointState _ _ _
  · exact sameRows_updateCheckpointState _ _ _
  · exact .refl db

theorem sameRows_writeCheckpoint (write : CheckpointWrite) :
    SameRows db (db.writeCheckpoint write) := by
  cases write <;> rfl

theorem sameRows_writePlannedCheckpoints (changes : OrderedMap JobIdentity PlannedJobChange)
    (additional : List CheckpointWrite) :
    SameRows db (db.writePlannedCheckpoints changes additional) := by
  refine List.foldlRecOn additional _ (motive := SameRows db) (List.foldlRecOn changes.entries _
    (motive := SameRows db) (.refl db) fun found hfound entry _ => ?_) fun found hfound write _ => ?_
  · exact hfound.trans (sameRows_writeChangeCheckpoint entry)
  · exact hfound.trans (sameRows_writeCheckpoint write)

theorem agreeAt_updateCheckpointState (id : JobIdentity) (state : JobState)
    (code : Option OrchestrationErrorCode) (slot : Slot) :
    AgreeAt slot db (db.updateCheckpointState id state code) := by
  cases slot with
  | branch key =>
    refine agreeAt_branch ?_
    unfold updateCheckpointState
    split <;> try split
    all_goals first
      | rfl
      | exact map_get?_mapValues (fun _ _ => by split <;> rfl) _ _
  | pullRequest key =>
    refine agreeAt_pullRequest ?_
    unfold updateCheckpointState
    split <;> try split
    all_goals first
      | rfl
      | exact map_get?_mapValues (fun _ _ => by split <;> rfl) _ _
  | reconciliation key =>
    refine agreeAt_reconciliation ?_
    unfold updateCheckpointState
    split <;> try split
    all_goals first
      | rfl
      | exact map_get?_mapValues
          (fun _ _ => by unfold endedReconciliation; split <;> rfl) _ _
  | analysis key =>
    refine agreeAt_analysis ?_
    unfold updateCheckpointState
    split <;> try split
    all_goals first
      | rfl
      | exact map_get?_mapValues (fun _ _ => by split <;> rfl) _ _

theorem agreeAt_writeChangeCheckpoint (slot : Slot) :
    AgreeAt slot db (db.writeChangeCheckpoint entry) := by
  unfold writeChangeCheckpoint
  split
  · exact agreeAt_updateCheckpointState _ _ _ _
  · exact agreeAt_updateCheckpointState _ _ _ _
  · exact agreeAt_updateCheckpointState _ _ _ _
  · exact .refl db

/-- The rows after the checkpoint writes of changed jobs. -/
def afterChanges (db : Database) (changes : OrderedMap JobIdentity PlannedJobChange) : Database :=
  changes.entries.foldl writeChangeCheckpoint db

theorem agreeAt_afterChanges (changes : OrderedMap JobIdentity PlannedJobChange) (slot : Slot) :
    AgreeAt slot db (db.afterChanges changes) :=
  List.foldlRecOn changes.entries _ (motive := AgreeAt slot db) (.refl db)
    fun _ hfound entry _ => hfound.trans (agreeAt_writeChangeCheckpoint entry slot)

/-! ### Outcomes of baselines -/

/-- Every baseline with a recorded outcome is in a set of jobs. -/
def SettledIn (db : Database) (ended : JobIdentity → Prop) : Prop :=
  ∀ key row, db.analyses.get? key = some row → row.lastTerminalOutcome.isSome = true →
    ∀ id, row.currentJob = some id → ended id

variable {id : JobIdentity} {ended : JobIdentity → Prop}
  {changes : OrderedMap JobIdentity PlannedJobChange} {roots : List JobIdentity}
  {notice : StateNotice}

theorem settledIn_updateCheckpointState (h : SettledIn db ended)
    {state : JobState} (code : Option OrchestrationErrorCode)
    (hid : state.isNonterminal = false → ended id) :
    SettledIn (db.updateCheckpointState id state code) ended := by
  unfold updateCheckpointState
  split
  · exact h
  · exact h
  · exact h
  · split <;> exact h
  · split_ifs with hstate
    · exact h
    · intro key row hrow hsome other hother
      rw [get?_mapValues] at hrow
      obtain ⟨stored, hstored, rfl⟩ := map_eq_some_iff.mp hrow
      by_cases hcurrent : stored.currentJob = some id
      · rw [if_pos hcurrent] at hother
        cases hcurrent.symm.trans hother
        exact hid (by simpa using hstate)
      · rw [if_neg hcurrent] at hsome hother
        exact h key stored hstored hsome other hother

theorem settledIn_afterChanges (h : SettledIn db ended)
    (hchanges : ∀ id state code, changes.get? id = some (.terminal state code) →
      state.isNonterminal = false → ended id) :
    SettledIn (db.afterChanges changes) ended := by
  refine List.foldlRecOn changes.entries _ (motive := (SettledIn · ended)) h
    fun found hfound entry hentry => ?_
  obtain ⟨id, change⟩ := entry
  cases change with
  | claim | retry => exact settledIn_updateCheckpointState hfound none (by nofun)
  | requestCancel => exact hfound
  | terminal state code =>
    exact settledIn_updateCheckpointState hfound code
      (hchanges id state code ((changes.get?_eq_some_iff).mpr hentry))

/-! ### Dependents -/

/-- The loop over dependents visits jobs that depend on a root or on a job that it goes on from. -/
theorem mem_terminalDependents
    (hid : id ∈ db.terminalDependents roots) : id ∉ roots ∧ ∃ prerequisite,
      ⟨id, prerequisite⟩ ∈ db.dependencies ∧
        (prerequisite ∈ roots ∨ db.continuesThrough prerequisite = true) := by
  obtain ⟨hmem, hroots⟩ := List.mem_filter.mp hid
  obtain ⟨prerequisite, hreach, hdependent⟩ := List.mem_flatMap.mp (List.mem_dedup.mp hmem)
  refine ⟨by simpa using hroots, prerequisite, ?_, ?_⟩
  · obtain ⟨dependency, hdependency, rfl⟩ := List.mem_map.mp hdependent
    obtain ⟨hdependency, hprerequisite⟩ := List.mem_filter.mp hdependency
    rw [beq_iff_eq] at hprerequisite
    exact hprerequisite ▸ hdependency
  · cases AdjacencyList.mem_queueClosure.mp hreach with
    | root hroot => exact .inl hroot
    | step _ hnext hmem =>
      right
      obtain ⟨before, after, heq, -⟩ := List.lookup_eq_some_iff.mp hnext
      obtain ⟨other, -, hother⟩ := List.mem_map.mp (heq ▸ mem_append_right before mem_cons_self)
      cases hother
      exact (List.mem_filter.mp hmem).2

theorem get?_planTerminalDependents (roots : List JobIdentity)
    (changes : OrderedMap JobIdentity PlannedJobChange) (id : JobIdentity) :
    (db.planTerminalDependents roots changes).get? id =
      if id ∈ db.terminalDependents roots then (db.dependentChange id).or (changes.get? id)
      else changes.get? id := by
  unfold planTerminalDependents
  induction db.terminalDependents roots generalizing changes with
  | nil => rfl
  | cons other rest ih =>
    rw [foldl_cons, ih]
    cases hchange : db.dependentChange other with
    | none =>
      by_cases hid : id = other
      · subst hid
        simp [hchange]
      · simp [hid]
    | some change =>
      by_cases hid : id = other
      · subst hid
        simp [hchange]
      · simp [hid]

theorem dependentChange_cases (hdb : db.Coherent)
    (hroots : ∀ root ∈ roots, ∀ job, db.jobs.get? root = some job → job.state ≠ .succeeded)
    {id : JobIdentity} (hid : id ∈ db.terminalDependents roots) {change : PlannedJobChange}
    (hchange : db.dependentChange id = some change) :
    change = .terminal .failed (some .jobDependencyFailed) ∧ ∃ job, db.jobs.get? id = some job ∧
      job.IsWaiting ∧ id.kind = .prPreviewAnalysis := by
  obtain ⟨-, prerequisiteId, hdependency, hprerequisite⟩ := mem_terminalDependents hid
  obtain ⟨hkind, job, prerequisite, hjob, hfound, hready⟩ := hdb.depended _ hdependency
  have hleased : job.state ≠ .leased := by
    intro hheld
    have hsucceeded := hready hheld
    rcases hprerequisite with hroot | hcontinues
    · exact hroots _ hroot prerequisite hfound hsucceeded
    · simp [continuesThrough, hfound, hsucceeded] at hcontinues
  simp only [dependentChange, hjob, bind_some, hleased, if_false] at hchange
  split_ifs at hchange with hterminal
  have hwaiting : job.IsWaiting :=
    (Job.nonterminal_iff.mp (by simpa using hterminal)).resolve_right hleased
  rw [terminalState, hdb.supersedingJob_of_isWaiting hjob hwaiting,
    hdb.waiting _ job hjob hwaiting] at hchange
  cases hchange
  exact ⟨rfl, job, hjob, hwaiting, hkind⟩

def AdmissibleChanges (db : Database) (changes : OrderedMap JobIdentity PlannedJobChange) : Prop :=
  ∀ id change, changes.get? id = some change →
    ∃ job, db.jobs.get? id = some job ∧ change.Admissible db id job

variable {changes : OrderedMap JobIdentity PlannedJobChange}

theorem admissible_planTerminalDependents (hdb : db.Coherent)
    (hroots : ∀ root ∈ roots, ∀ job, db.jobs.get? root = some job → job.state ≠ .succeeded)
    (hchanges : AdmissibleChanges db changes) :
    AdmissibleChanges db (db.planTerminalDependents roots changes) := by
  intro id change hchange
  rw [get?_planTerminalDependents] at hchange
  split_ifs at hchange with hid
  · rcases or_eq_some_iff.mp hchange with hdependent | ⟨-, hplanned⟩
    · obtain ⟨rfl, job, hjob, hwaiting, hkind⟩ := dependentChange_cases hdb hroots hid hdependent
      exact ⟨job, hjob, .dependencyFailed hwaiting hkind⟩
    · exact hchanges id change hplanned
  · exact hchanges id change hchange

/-! ### Batches -/

theorem mem_changeNotices : notice ∈ db.changeNotices changes ↔
      ∃ id change job, changes.get? id = some change ∧ db.jobs.get? id = some job ∧
        change.notice id job = some notice := by
  simp only [changeNotices, mem_filterMap, Prod.exists, bind_eq_some_iff, get?_eq_some_iff]
  constructor
  · rintro ⟨id, change, hmem, job, hjob, hnotice⟩
    exact ⟨id, change, job, hmem, hjob, hnotice⟩
  · rintro ⟨id, change, job, hmem, hjob, hnotice⟩
    exact ⟨id, change, hmem, job, hjob, hnotice⟩

theorem jobId_of_notice {job : Job} {change : PlannedJobChange}
    (hnotice : change.notice id job = some notice) : notice.jobId = id := by
  cases change <;> cases hnotice <;> rfl

theorem map_filterMap_sublist {α β γ : Type} {f : α → Option β} {g : β → γ} {key : α → γ}
    (hkey : ∀ a b, f a = some b → g b = key a) (xs : List α) :
    ((xs.filterMap f).map g).Sublist (xs.map key) := by
  induction xs with
  | nil => exact .slnil
  | cons a xs ih =>
    cases hfound : f a with
    | none =>
      rw [filterMap_cons_none hfound]
      exact ih.cons _
    | some b =>
      rw [filterMap_cons_some hfound, map_cons, map_cons, hkey a b hfound]
      exact ih.cons_cons _

theorem nodup_changeNotices (changes : OrderedMap JobIdentity PlannedJobChange) :
    ((db.changeNotices changes).map StateNotice.jobId).Nodup := by
  refine changes.nodup.sublist (map_filterMap_sublist (fun entry notice hnotice => ?_) _)
  obtain ⟨job, -, hgiven⟩ := bind_eq_some_iff.mp hnotice
  exact jobId_of_notice hgiven

theorem get?_applyPlannedJobChanges (changes : OrderedMap JobIdentity PlannedJobChange)
    (id : JobIdentity) : (db.applyPlannedJobChanges changes).jobs.get? id =
      (db.jobs.get? id).map (db.changedRow changes id) := by
  simp [applyPlannedJobChanges]

end Database

open ApiTruth.Orchestration.Queue.Database

variable {db : Database}

theorem jobChange_changedRow (hchanges : AdmissibleChanges db changes) (db' : Database)
    {id : JobIdentity} {job : Job} (hjob : db.jobs.get? id = some job) :
    ∃ notice, JobChange db db' id job (db.changedRow changes id job) notice ∧
      ∀ other, other.jobId = id → (other ∈ db.changeNotices changes ↔ notice = some other) := by
  cases hchange : changes.get? id with
  | none =>
    refine ⟨none, ?_, fun other hother => ⟨fun hmem => ?_, by nofun⟩⟩
    · rw [changedRow, hchange]
      exact .unchanged
    · obtain ⟨found, change, row, hfound, -, hnotice⟩ := mem_changeNotices.mp hmem
      rw [jobId_of_notice hnotice] at hother
      rw [← hother, hfound] at hchange
      cases hchange
  | some change =>
    obtain ⟨found, hfound, hadmissible⟩ := hchanges id change hchange
    cases hfound.symm.trans hjob
    refine ⟨change.notice id job, ?_, fun other hother => ⟨fun hmem => ?_, fun hnotice =>
      mem_changeNotices.mpr ⟨id, change, job, hchange, hjob, hnotice⟩⟩⟩
    · rw [changedRow, hchange]
      exact .planned change hadmissible
    · obtain ⟨found, change', row, hfound', hrow, hnotice⟩ := mem_changeNotices.mp hmem
      obtain rfl : found = id := (jobId_of_notice hnotice).symm.trans hother
      cases hfound'.symm.trans hchange
      cases hrow.symm.trans hjob
      exact hnotice

theorem agreeAt_applyPlannedJobChanges (changes : OrderedMap JobIdentity PlannedJobChange)
    (slot : Slot) :
    AgreeAt slot db (db.applyPlannedJobChanges changes) := by
  refine (agreeAt_afterChanges changes slot).trans ?_
  constructor
  · rw [applyPlannedJobChanges, current_insertNotices]
    cases slot <;> rfl
  · intro kind
    rw [applyPlannedJobChanges, generation_insertNotices]
    cases kind <;> cases slot <;> rfl

theorem applyPlannedJobChanges_eq (changes : OrderedMap JobIdentity PlannedJobChange) :
    db.applyPlannedJobChanges changes =
      { db with
        jobs := db.jobs.mapValues (db.changedRow changes)
        branches := (db.applyPlannedJobChanges changes).branches
        pullRequests := (db.applyPlannedJobChanges changes).pullRequests
        reconciliations := (db.applyPlannedJobChanges changes).reconciliations
        analyses := (db.applyPlannedJobChanges changes).analyses
        outbox := (db.insertNotices (db.changeNotices changes)).outbox } := by
  have hrows := @sameRows_writePlannedCheckpoints db changes []
  have houtbox : (db.applyPlannedJobChanges changes).outbox =
      (db.insertNotices (db.changeNotices changes)).outbox :=
    outbox_insertNotices_congr (by rw [hrows]) _
  rw [← houtbox, applyPlannedJobChanges, insertNotices_eq, hrows]

/-- A batch of admissible changes changes each job at most once. -/
theorem evolves_applyPlannedJobChanges (hdb : db.Coherent)
    (hchanges : AdmissibleChanges db changes) :
    Evolves db (db.applyPlannedJobChanges changes) (db.changeNotices changes) := by
  have heq := @applyPlannedJobChanges_eq db changes
  have hagree (slot : Slot) : AgreeAt slot db (db.applyPlannedJobChanges changes) :=
    agreeAt_applyPlannedJobChanges changes slot
  have hchanged (id : JobIdentity) (job : Job) (hjob : db.jobs.get? id = some job) :
      ∃ job' notice, (db.applyPlannedJobChanges changes).jobs.get? id = some job' ∧
        JobChange db (db.applyPlannedJobChanges changes) id job job' notice ∧
          ∀ other, other.jobId = id → (other ∈ db.changeNotices changes ↔ notice = some other) := by
    obtain ⟨notice, hchange, hnotice⟩ := jobChange_changedRow hchanges _ hjob
    exact ⟨_, notice, by rw [get?_applyPlannedJobChanges, hjob]; rfl, hchange, hnotice⟩
  constructor
  case changed => exact hchanged
  case created =>
    intro id job' hjob hjob'
    rw [get?_applyPlannedJobChanges, hjob] at hjob'
    cases hjob'
  case addressed =>
    intro notice hnotice
    obtain ⟨id, change, job, -, hjob, hnotice⟩ := mem_changeNotices.mp hnotice
    rw [jobId_of_notice hnotice, get?_applyPlannedJobChanges, hjob]
    exact ⟨_, rfl⟩
  case nodup => exact nodup_changeNotices changes
  case outbox => rw [heq]
  case slots => exact fun slot => .kept (hagree slot).1
  case generations => exact fun kind slot => ((hagree slot).2 kind).ge
  case settled =>
    have hsettled : SettledIn db fun id => ∀ job',
        (db.applyPlannedJobChanges changes).jobs.get? id = some job' →
          job'.state.isNonterminal = false := by
      intro key row hrow hsome id hid job' hjob'
      cases hjob : db.jobs.get? id with
      | none =>
        rw [get?_applyPlannedJobChanges, hjob] at hjob'
        cases hjob'
      | some job =>
        obtain ⟨found, notice, hfound, hchange, -⟩ := hchanged id job hjob
        cases hfound.symm.trans hjob'
        have hterminal := hdb.settled key row hrow hsome id job hid hjob
        rwa [hchange.state_of_terminal hterminal]
    have hafter := settledIn_afterChanges hsettled fun id state code hchange hterminal job' hjob' => by
      rw [get?_applyPlannedJobChanges] at hjob'
      obtain ⟨job, -, rfl⟩ := map_eq_some_iff.mp hjob'
      rw [changedRow, hchange]
      exact hterminal
    intro key row hrow hsome id job' hid hjob'
    rw [applyPlannedJobChanges, analyses_insertNotices] at hrow
    exact hafter key row hrow hsome id hid job' hjob'
  case configurations =>
    rw [heq]
    exact fun _ _ => id
  case configured =>
    rw [heq]
    exact fun _ _ => .inl
  case recorded =>
    rw [heq]
    exact fun _ _ => .inl
  case active =>
    rw [heq]
    exact .inl rfl
  case dependencies =>
    rw [heq]
    exact fun _ => .inl
  case produced =>
    rw [heq]
    exact fun _ _ => .inl

end ApiTruth.Orchestration.Queue
