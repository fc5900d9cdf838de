import ApiTruth.Foundation.Collation
import ApiTruth.Orchestration.Queue.Changes

/-!
# The loop over the dependents of ended jobs

The jobs of a tenant are locked, the dependencies of locked jobs are read page by page, and a queue
that starts with the ended jobs visits every dependent once.  A dependent that waits ends as well
and is enqueued, one that has ended without a result is enqueued, a leased one is asked to stop, and
one that has succeeded is left alone.  The graph may have cycles.

## Main definitions

* `queryPages`, `slices` : the pages that rows and ids are read in.
* `dependencyEdges`, `childrenOf` : the dependencies that are read.
* `visitChild`, `planLoop`, `planTerminalDependents` : the loop.
* `TerminalCause`, `IsReached`, `IsTerminalPlan` : what the loop is to compute.

## Main results

* `isTerminalPlan_planTerminalDependents` : the loop computes the plan of the closure.
* `IsTerminalPlan.get?_eq` : the plan of the closure is one.
-/

namespace ApiTruth.Orchestration.Queue

open Catalog List Option OrderedMap

/-! ### Pages -/

/-- `GRAPH_PAGE_SIZE`. -/
def graphPageSize : ℕ := 256

section Pages

variable {α : Type*}

/-- The pages of a query with a limit and an offset, up to the first short one. -/
def queryPages (rows : List α) : List (List α) :=
  if rows.length < graphPageSize then [rows]
  else rows.take graphPageSize :: queryPages (rows.drop graphPageSize)
termination_by rows.length
decreasing_by
  rw [List.length_drop]
  unfold graphPageSize at *
  omega

def slices : List α → List (List α)
  | [] => []
  | value :: values =>
    (value :: values).take graphPageSize :: slices ((value :: values).drop graphPageSize)
termination_by values => values.length
decreasing_by
  rw [List.length_drop, List.length_cons]
  unfold graphPageSize
  omega

theorem flatten_queryPages (rows : List α) : (queryPages rows).flatten = rows := by
  induction rows using queryPages.induct with
  | case1 rows h => rw [queryPages, if_pos h, flatten_singleton]
  | case2 rows h ih => rw [queryPages, if_neg h, flatten_cons, ih, take_append_drop]

theorem flatten_slices (values : List α) : (slices values).flatten = values := by
  induction values using slices.induct with
  | case1 => rw [slices, flatten_nil]
  | case2 value values ih => rw [slices, flatten_cons, ih, take_append_drop]

theorem exists_mem_slices (values : List α) {value : α} :
    (∃ page ∈ slices values, value ∈ page) ↔ value ∈ values := by
  rw [← mem_flatten, flatten_slices]

end Pages

/-! ### The loop -/

structure LockedJob where
  tenantId : String
  jobId : JobIdentity
  job : Job

structure DependencyRow where
  tenantId : String
  dependency : JobDependency
deriving DecidableEq

/-- The changes that are planned, by tenant and job. -/
abbrev PlannedChanges := OrderedMap (String × JobIdentity) PlannedJobChange

/-- What the loop has reached: the queue, the visited jobs and the planned changes. -/
structure PlanProgress where
  queue : List JobIdentity
  visited : List JobIdentity
  changes : PlannedChanges

section Loop

variable (order : Collation JobIdentity) (tenantId : String) (table : List DependencyRow)
  (locked : List LockedJob)

def lockedJobs : OrderedMap JobIdentity Job :=
  .ofEntries ((locked.filter (·.tenantId == tenantId)).map fun row => (row.jobId, row.job))

/-- The rows of a query for the dependencies of a slice of jobs. -/
def dependencyRows (page : List JobIdentity) : List JobDependency :=
  order.sortBy (·.prerequisiteJobId) (order.sortBy (·.jobId)
    ((table.filter fun row => row.tenantId == tenantId &&
      page.contains row.dependency.jobId).map (·.dependency)))

/-- The dependencies of the locked jobs, in the order in which they are read. -/
def dependencyEdges : List JobDependency :=
  (slices ((locked.filter (·.tenantId == tenantId)).map (·.jobId))).flatMap fun page =>
    (queryPages (dependencyRows order tenantId table page)).flatten

end Loop

def childrenOf (children : OrderedMap JobIdentity (List JobDependency)) (id : JobIdentity) :
    List JobIdentity :=
  ((children.get? id).getD []).map (·.jobId)

section Loop

variable (tenantId : String) (children : OrderedMap JobIdentity (List JobDependency))
  (jobs : OrderedMap JobIdentity Job)

def visitChild (progress : PlanProgress) (childId : JobIdentity) : PlanProgress :=
  if childId ∈ progress.visited then progress
  else
    let visited := progress.visited ++ [childId]
    match jobs.get? childId with
    | none => { progress with visited }
    | some child =>
      if !child.state.isNonterminal then
        if child.state ≠ .succeeded then
          { progress with visited, queue := progress.queue ++ [childId] }
        else { progress with visited }
      else if child.state = .leased then
        { progress with visited, changes := progress.changes.set (tenantId, childId) .requestCancel }
      else match terminalState child true with
        | some (state, code) =>
          { queue := progress.queue ++ [childId]
            visited
            changes := progress.changes.set (tenantId, childId) (.terminal state code) }
        | none => { progress with visited }

def allChildren : List JobIdentity := (children.entries.flatMap Prod.snd).map (·.jobId)

/-- The jobs that are still to be visited and those in the queue. -/
def PlanProgress.work (progress : PlanProgress) : ℕ :=
  ((allChildren children).filter (· ∉ progress.visited)).length + progress.queue.length

variable {children} in
theorem mem_allChildren {id child : JobIdentity} (h : child ∈ childrenOf children id) :
    child ∈ allChildren children := by
  obtain ⟨dependency, hdependency, rfl⟩ := List.mem_map.mp h
  cases hget : children.get? id with
  | none =>
    rw [hget] at hdependency
    exact absurd hdependency not_mem_nil
  | some group =>
    rw [hget] at hdependency
    exact List.mem_map_of_mem (List.mem_flatMap.mpr
      ⟨(id, group), (get?_eq_some_iff _).mp hget, hdependency⟩)

/-- What a round of the inner loop does: nothing to a job that has been visited, and it visits the
others. -/
theorem visitChild_cases (progress : PlanProgress) (childId : JobIdentity) :
    (childId ∈ progress.visited ∧ visitChild tenantId jobs progress childId = progress) ∨
    childId ∉ progress.visited ∧
      (visitChild tenantId jobs progress childId).visited = progress.visited ++ [childId] ∧
      ((visitChild tenantId jobs progress childId).queue = progress.queue ∨
        (visitChild tenantId jobs progress childId).queue = progress.queue ++ [childId]) := by
  unfold visitChild
  split_ifs with hvisited
  · exact .inl ⟨hvisited, rfl⟩
  · refine .inr ⟨hvisited, ?_⟩
    cases jobs.get? childId with
    | none => exact ⟨rfl, .inl rfl⟩
    | some child =>
      simp only
      split_ifs
      · exact ⟨rfl, .inr rfl⟩
      · exact ⟨rfl, .inl rfl⟩
      · exact ⟨rfl, .inl rfl⟩
      · cases terminalState child true with
        | none => exact ⟨rfl, .inl rfl⟩
        | some outcome => exact ⟨rfl, .inr rfl⟩

theorem work_visitChildren (ids : List JobIdentity) (h : ∀ id ∈ ids, id ∈ allChildren children)
    (progress : PlanProgress) :
    (ids.foldl (visitChild tenantId jobs) progress).work children ≤ progress.work children := by
  induction ids generalizing progress with
  | nil => exact le_rfl
  | cons id ids ih =>
    refine (ih (fun other hother => h other (mem_cons_of_mem _ hother)) _).trans ?_
    rcases visitChild_cases tenantId jobs progress id with ⟨-, heq⟩ | ⟨hnew, hvisited, hqueue⟩
    · rw [heq]
    · have hlt := AdjacencyList.length_filter_notMem_lt (h id mem_cons_self) hnew
      unfold PlanProgress.work
      rw [hvisited]
      rcases hqueue with hqueue | hqueue <;> rw [hqueue]
      · omega
      · rw [length_append, length_singleton]
        omega

def planLoop (progress : PlanProgress) : PlanProgress :=
  match _hqueue : progress.queue with
  | [] => progress
  | id :: rest =>
    planLoop ((childrenOf children id).foldl (visitChild tenantId jobs) { progress with queue := rest })
termination_by progress.work children
decreasing_by
  refine lt_of_le_of_lt (work_visitChildren tenantId children jobs _ (fun _ => mem_allChildren) _) ?_
  unfold PlanProgress.work
  rw [_hqueue, List.length_cons]
  exact Nat.lt_succ_self _

end Loop

def planTerminalDependents (order : Collation JobIdentity) (tenantId : String)
    (table : List DependencyRow) (roots : List JobIdentity) (locked : List LockedJob)
    (changes : PlannedChanges) : PlannedChanges :=
  if roots = [] then changes
  else
    let children := OrderedMap.groupBy (·.prerequisiteJobId)
      (dependencyEdges order tenantId table locked)
    (planLoop tenantId children (lockedJobs tenantId locked)
      ⟨order.sort roots, order.sort roots, changes⟩).changes

/-! ### What the loop is to compute -/

/-- Why a job ends that waits for one that has ended without a result, from the weakest. -/
inductive TerminalCause
  | dependencyFailed
  | cancellation
  | supersession
deriving DecidableEq, Repr

namespace TerminalCause

def strength : TerminalCause → ℕ
  | dependencyFailed => 0
  | cancellation => 1
  | supersession => 2

def AppliesTo (job : Job) : TerminalCause → Prop
  | dependencyFailed => True
  | cancellation => job.cancellationRequested = true
  | supersession => job.supersedingJob.isSome = true

/-- The state, and its error, in which a job ends for this cause. -/
def outcome : TerminalCause → JobState × Option OrchestrationErrorCode
  | dependencyFailed => (.failed, some .jobDependencyFailed)
  | cancellation => (.cancelled, none)
  | supersession => (.superseded, none)

def IsStrongest (cause : TerminalCause) (job : Job) : Prop :=
  cause.AppliesTo job ∧ ∀ other : TerminalCause, other.AppliesTo job →
    other.strength ≤ cause.strength

end TerminalCause

theorem terminalState_eq_strongest (job : Job) : ∃ cause : TerminalCause,
    cause.IsStrongest job ∧ terminalState job true = some cause.outcome := by
  by_cases hsuperseded : job.supersedingJob.isSome = true
  · refine ⟨.supersession, ⟨hsuperseded, fun other _ => ?_⟩, if_pos hsuperseded⟩
    cases other <;> decide
  by_cases hcancelled : job.cancellationRequested = true
  · refine ⟨.cancellation, ⟨hcancelled, fun other hother => ?_⟩, ?_⟩
    · cases other with
      | supersession => exact absurd hother hsuperseded
      | cancellation => exact le_rfl
      | dependencyFailed => decide
    · rw [terminalState, if_neg hsuperseded, if_pos hcancelled]
      rfl
  · refine ⟨.dependencyFailed, ⟨trivial, fun other hother => ?_⟩, ?_⟩
    · cases other with
      | supersession => exact absurd hother hsuperseded
      | cancellation => exact absurd hother hcancelled
      | dependencyFailed => exact le_rfl
    · rw [terminalState, if_neg hsuperseded, if_neg hcancelled, if_pos rfl]
      rfl

/-- The job ends with its prerequisites or has ended without a result. -/
def Propagates (jobs : JobIdentity → Option Job) (id : JobIdentity) : Prop :=
  ∃ job, jobs id = some job ∧ (job.IsWaiting ∨ isUnsuccessful job.state = true)

/-- The job is a root, or a job that depends on a root or on a reached job that ends with its
prerequisites or has ended without a result. -/
inductive IsReached (tenantId : String) (table : List DependencyRow)
    (jobs : JobIdentity → Option Job) (roots : List JobIdentity) : JobIdentity → Prop
  | root {id : JobIdentity} (h : id ∈ roots) : IsReached tenantId table jobs roots id
  | step {id prerequisite : JobIdentity}
      (hreached : IsReached tenantId table jobs roots prerequisite)
      (hpropagates : prerequisite ∈ roots ∨ Propagates jobs prerequisite)
      (hrow : ⟨tenantId, ⟨id, prerequisite⟩⟩ ∈ table) (hjob : (jobs id).isSome = true) :
      IsReached tenantId table jobs roots id

/-- The plan of the closure: the reached jobs that wait end for the strongest of their causes, the
leased ones are asked to stop, and nothing else is planned. -/
structure IsTerminalPlan (tenantId : String) (table : List DependencyRow)
    (jobs : JobIdentity → Option Job) (roots : List JobIdentity)
    (changes plan : PlannedChanges) : Prop where
  waiting : ∀ id job, id ∉ roots → jobs id = some job → job.IsWaiting →
    IsReached tenantId table jobs roots id →
      ∃ cause : TerminalCause, cause.IsStrongest job ∧
        plan.get? (tenantId, id) = some (.terminal cause.outcome.1 cause.outcome.2)
  leased : ∀ id job, id ∉ roots → jobs id = some job → job.state = .leased →
    IsReached tenantId table jobs roots id → plan.get? (tenantId, id) = some .requestCancel
  ended : ∀ id job, jobs id = some job → job.state.isNonterminal = false →
    plan.get? (tenantId, id) = changes.get? (tenantId, id)
  untouched : ∀ id, id ∈ roots ∨ ¬IsReached tenantId table jobs roots id →
    plan.get? (tenantId, id) = changes.get? (tenantId, id)
  others : ∀ tenantId' id, tenantId' ≠ tenantId →
    plan.get? (tenantId', id) = changes.get? (tenantId', id)

/-! ### Edges -/

section Edges

variable {order : Collation JobIdentity} {tenantId : String} {table : List DependencyRow}
  {locked : List LockedJob}

theorem mem_dependencyEdges {dependency : JobDependency} :
    dependency ∈ dependencyEdges order tenantId table locked ↔
      ⟨tenantId, dependency⟩ ∈ table ∧
        ((lockedJobs tenantId locked).get? dependency.jobId).isSome = true := by
  have hrows (page : List JobIdentity) :
      dependency ∈ (queryPages (dependencyRows order tenantId table page)).flatten ↔
        ⟨tenantId, dependency⟩ ∈ table ∧ dependency.jobId ∈ page := by
    rw [flatten_queryPages, dependencyRows,
      ((order.sortBy_perm _ _).trans (order.sortBy_perm _ _)).mem_iff, List.mem_map]
    constructor
    · rintro ⟨⟨rowTenant, rowDependency⟩, hrow, rfl⟩
      simp only [mem_filter, Bool.and_eq_true, beq_iff_eq, contains_iff_mem] at hrow
      obtain ⟨hin, rfl, hpage⟩ := hrow
      exact ⟨hin, hpage⟩
    · rintro ⟨hin, hpage⟩
      exact ⟨_, List.mem_filter.mpr ⟨hin, by simpa using hpage⟩, rfl⟩
  have hids : dependency.jobId ∈ ((locked.filter (·.tenantId == tenantId)).map (·.jobId)) ↔
      ((lockedJobs tenantId locked).get? dependency.jobId).isSome = true := by
    rw [get?_isSome_iff, lockedJobs, mem_keys_ofEntries, List.map_map]
    rfl
  rw [← hids, dependencyEdges, mem_flatMap,
    ← exists_mem_slices ((locked.filter (·.tenantId == tenantId)).map (·.jobId))]
  simp only [hrows]
  constructor
  · rintro ⟨page, hpage, hrow, hid⟩
    exact ⟨hrow, page, hpage, hid⟩
  · rintro ⟨hrow, page, hpage, hid⟩
    exact ⟨page, hpage, hrow, hid⟩

theorem mem_childrenOf {id child : JobIdentity} :
    child ∈ childrenOf (groupBy (·.prerequisiteJobId)
        (dependencyEdges order tenantId table locked)) id ↔
      ⟨tenantId, ⟨child, id⟩⟩ ∈ table ∧
        ((lockedJobs tenantId locked).get? child).isSome = true := by
  rw [childrenOf, getD_get?_groupBy, List.mem_map]
  constructor
  · rintro ⟨⟨dependent, prerequisite⟩, hdependency, rfl⟩
    simp only [mem_filter, decide_eq_true_eq] at hdependency
    obtain ⟨hmem, rfl⟩ := hdependency
    exact mem_dependencyEdges.mp hmem
  · intro h
    exact ⟨⟨child, id⟩, List.mem_filter.mpr ⟨mem_dependencyEdges.mpr h, by simp⟩, rfl⟩

end Edges

/-! ### The invariant of the loop -/

def plannedChange (jobs : JobIdentity → Option Job) (id : JobIdentity) :
    Option PlannedJobChange :=
  (jobs id).bind fun job =>
    if !job.state.isNonterminal then none
    else if job.state = .leased then some .requestCancel
    else (terminalState job true).map fun (state, code) => .terminal state code

def GoesOn (jobs : JobIdentity → Option Job) (roots : List JobIdentity) (id : JobIdentity) :
    Prop :=
  id ∈ roots ∨ Propagates jobs id

section Visit

variable (tenantId : String) (jobs : OrderedMap JobIdentity Job)

theorem visitChild_of_notMem {progress : PlanProgress} {childId : JobIdentity}
    (h : childId ∉ progress.visited) :
    (visitChild tenantId jobs progress childId).visited = progress.visited ++ [childId] ∧
      (Propagates jobs.get? childId ∧
          (visitChild tenantId jobs progress childId).queue = progress.queue ++ [childId] ∨
        ¬Propagates jobs.get? childId ∧
          (visitChild tenantId jobs progress childId).queue = progress.queue) ∧
      ∀ key, (visitChild tenantId jobs progress childId).changes.get? key =
        if key = (tenantId, childId) then
          (plannedChange jobs.get? childId).or (progress.changes.get? key)
        else progress.changes.get? key := by
  rw [visitChild, if_neg h]
  cases hget : jobs.get? childId with
  | none =>
    have hchange : plannedChange jobs.get? childId = none := by rw [plannedChange, hget]; rfl
    refine ⟨rfl, .inr ⟨?_, rfl⟩, fun key => ?_⟩
    · rintro ⟨job, hjob, -⟩
      rw [hget] at hjob
      exact absurd hjob (some_ne_none job).symm
    · rw [hchange, none_or, ite_self]
  | some child =>
    have hiff : Propagates jobs.get? childId ↔ child.IsWaiting ∨ isUnsuccessful child.state = true := by
      constructor
      · rintro ⟨job, hjob, hstate⟩
        rw [hget] at hjob
        exact Option.some.inj hjob ▸ hstate
      · exact fun hstate => ⟨child, hget, hstate⟩
    have hchange : plannedChange jobs.get? childId =
        if !child.state.isNonterminal then none
        else if child.state = .leased then some .requestCancel
        else (terminalState child true).map fun (state, code) => .terminal state code := by
      rw [plannedChange, hget]
      rfl
    obtain ⟨cause, -, hcause⟩ := terminalState_eq_strongest child
    dsimp only
    rw [hiff, hchange, hcause, Job.IsWaiting]
    have hset (change : PlannedJobChange) (key : String × JobIdentity) :
        (progress.changes.set (tenantId, childId) change).get? key =
          if key = (tenantId, childId) then (some change).or (progress.changes.get? key)
          else progress.changes.get? key := by
      rw [get?_set, some_or]
    have hkeep (key : String × JobIdentity) : progress.changes.get? key =
        if key = (tenantId, childId) then none.or (progress.changes.get? key)
        else progress.changes.get? key := by
      rw [none_or, ite_self]
    cases child.state with
    | queued => exact ⟨rfl, .inl ⟨.inl (.inl rfl), rfl⟩, hset _⟩
    | retryWait => exact ⟨rfl, .inl ⟨.inl (.inr rfl), rfl⟩, hset _⟩
    | leased => exact ⟨rfl, .inr ⟨by decide, rfl⟩, hset _⟩
    | succeeded => exact ⟨rfl, .inr ⟨by decide, rfl⟩, hkeep⟩
    | failed => exact ⟨rfl, .inl ⟨.inr rfl, rfl⟩, hkeep⟩
    | cancelled => exact ⟨rfl, .inl ⟨.inr rfl, rfl⟩, hkeep⟩
    | superseded => exact ⟨rfl, .inl ⟨.inr rfl, rfl⟩, hkeep⟩

end Visit

section Invariant

variable {tenantId : String} {table : List DependencyRow} {jobs : OrderedMap JobIdentity Job}
  {roots : List JobIdentity} {initial : PlannedChanges}
  {children : OrderedMap JobIdentity (List JobDependency)}

variable (tenantId table jobs roots initial children) in
/-- Every visited job is reached, its change is planned, and its children have been visited unless
it is in the queue or they remain to be. -/
structure PlanInvariant (remaining : List JobIdentity) (progress : PlanProgress) : Prop where
  root_mem : ∀ id ∈ roots, id ∈ progress.visited
  reached : ∀ id ∈ progress.visited, IsReached tenantId table jobs.get? roots id
  remains : ∀ id ∈ remaining, IsReached tenantId table jobs.get? roots id
  queued : ∀ id ∈ progress.queue, id ∈ progress.visited ∧ GoesOn jobs.get? roots id
  closed : ∀ id ∈ progress.visited, GoesOn jobs.get? roots id → id ∈ progress.queue ∨
    ∀ child ∈ childrenOf children id, child ∈ progress.visited ∨ child ∈ remaining
  planned : ∀ key, progress.changes.get? key =
    if key.1 = tenantId ∧ key.2 ∈ progress.visited ∧ key.2 ∉ roots then
      (plannedChange jobs.get? key.2).or (initial.get? key)
    else initial.get? key

theorem planInvariant_roots {queue : List JobIdentity} (hqueue : queue.Perm roots) :
    PlanInvariant tenantId table jobs roots initial children [] ⟨queue, queue, initial⟩ where
  root_mem _ hid := hqueue.mem_iff.mpr hid
  reached _ hid := .root (hqueue.mem_iff.mp hid)
  remains _ hid := absurd hid not_mem_nil
  queued _ hid := ⟨hid, .inl (hqueue.mem_iff.mp hid)⟩
  closed _ hid _ := .inl hid
  planned key := by
    rw [if_neg]
    rintro ⟨-, hvisited, hroots⟩
    exact hroots (hqueue.mem_iff.mp hvisited)

variable {progress : PlanProgress} {remaining : List JobIdentity}

theorem PlanInvariant.visitChild {childId : JobIdentity}
    (h : PlanInvariant tenantId table jobs roots initial children (childId :: remaining) progress) :
    PlanInvariant tenantId table jobs roots initial children remaining
      (visitChild tenantId jobs progress childId) := by
  by_cases hvisited : childId ∈ progress.visited
  · rw [Queue.visitChild, if_pos hvisited]
    refine { h with
      remains := fun id hid => h.remains id (mem_cons_of_mem _ hid)
      closed := fun id hid hgoes => (h.closed id hid hgoes).imp_right fun hchildren child hchild => ?_ }
    rcases hchildren child hchild with hchild | hchild
    · exact .inl hchild
    · rcases List.mem_cons.mp hchild with rfl | hchild
      · exact .inl hvisited
      · exact .inr hchild
  · obtain ⟨hvisit, hqueue, hchanges⟩ := visitChild_of_notMem tenantId jobs hvisited
    have hroot : childId ∉ roots := fun hroot => hvisited (h.root_mem _ hroot)
    have hmem {id : JobIdentity} :
        id ∈ (Queue.visitChild tenantId jobs progress childId).visited ↔
          id ∈ progress.visited ∨ id = childId := by
      rw [hvisit, mem_append, mem_singleton]
    have hkeep {id : JobIdentity} (hid : id ∈ progress.queue) :
        id ∈ (Queue.visitChild tenantId jobs progress childId).queue := by
      rcases hqueue with ⟨-, hqueue⟩ | ⟨-, hqueue⟩ <;> rw [hqueue]
      · exact mem_append_left _ hid
      · exact hid
    refine ⟨fun id hid => hmem.mpr (.inl (h.root_mem id hid)), fun id hid => ?_, fun id hid =>
      h.remains id (mem_cons_of_mem _ hid), fun id hid => ?_, fun id hid hgoes => ?_, fun key => ?_⟩
    · rcases hmem.mp hid with hid | rfl
      · exact h.reached id hid
      · exact h.remains _ mem_cons_self
    · rcases hqueue with ⟨hpropagates, hqueue⟩ | ⟨-, hqueue⟩ <;> rw [hqueue] at hid
      · rcases List.mem_append.mp hid with hid | hid
        · exact (h.queued id hid).imp_left fun hid => hmem.mpr (.inl hid)
        · rw [List.mem_singleton.mp hid]
          exact ⟨hmem.mpr (.inr rfl), .inr hpropagates⟩
      · exact (h.queued id hid).imp_left fun hid => hmem.mpr (.inl hid)
    · rcases hmem.mp hid with hid | rfl
      · refine (h.closed id hid hgoes).imp hkeep fun hchildren child hchild => ?_
        rcases hchildren child hchild with hchild | hchild
        · exact .inl (hmem.mpr (.inl hchild))
        · rcases List.mem_cons.mp hchild with rfl | hchild
          · exact .inl (hmem.mpr (.inr rfl))
          · exact .inr hchild
      · left
        rcases hqueue with ⟨-, hqueue⟩ | ⟨hpropagates, -⟩
        · rw [hqueue]
          exact mem_append_right _ (mem_singleton_self _)
        · exact absurd hgoes (not_or.mpr ⟨hroot, hpropagates⟩)
    · rw [hchanges, h.planned]
      by_cases hkey : key = (tenantId, childId)
      · subst hkey
        rw [if_pos rfl, if_neg fun hin => hvisited hin.2.1,
          if_pos ⟨rfl, hmem.mpr (.inr rfl), hroot⟩]
      · rw [if_neg hkey]
        refine if_congr (and_congr_right fun htenant => and_congr_left' ?_) rfl rfl
        rw [hmem]
        exact (or_iff_left fun hid => hkey (Prod.ext htenant hid)).symm

theorem PlanInvariant.visitChildren
    (h : PlanInvariant tenantId table jobs roots initial children remaining progress) :
    PlanInvariant tenantId table jobs roots initial children []
      (remaining.foldl (Queue.visitChild tenantId jobs) progress) := by
  induction remaining generalizing progress with
  | nil => exact h
  | cons childId remaining ih => exact ih h.visitChild

variable (hchildren : ∀ id child, child ∈ childrenOf children id → ⟨tenantId, ⟨child, id⟩⟩ ∈ table ∧ (jobs.get? child).isSome = true)

include hchildren in
theorem PlanInvariant.pop {id : JobIdentity} {rest : List JobIdentity}
    (hqueue : progress.queue = id :: rest)
    (h : PlanInvariant tenantId table jobs roots initial children [] progress) :
    PlanInvariant tenantId table jobs roots initial children (childrenOf children id)
      { progress with queue := rest } := by
  obtain ⟨hid, hgoes⟩ := h.queued id (hqueue ▸ mem_cons_self)
  refine { h with
    remains := fun child hchild => ?_
    queued := fun other hother => h.queued other (hqueue ▸ mem_cons_of_mem _ hother)
    closed := fun other hother hgoes => ?_ }
  · obtain ⟨hrow, hjob⟩ := hchildren id child hchild
    exact .step (h.reached id hid) hgoes hrow hjob
  · rcases h.closed other hother hgoes with hmem | hclosed
    · rw [hqueue] at hmem
      rcases List.mem_cons.mp hmem with rfl | hmem
      · exact .inr fun child hchild => .inr hchild
      · exact .inl hmem
    · exact .inr fun child hchild =>
        (hclosed child hchild).imp_right fun hnone => absurd hnone not_mem_nil

include hchildren in
theorem PlanInvariant.planLoop {progress : PlanProgress}
    (h : PlanInvariant tenantId table jobs roots initial children [] progress) :
    PlanInvariant tenantId table jobs roots initial children []
        (planLoop tenantId children jobs progress) ∧
      (planLoop tenantId children jobs progress).queue = [] := by
  induction progress using planLoop.induct tenantId children jobs with
  | case1 progress hqueue =>
    rw [Queue.planLoop]
    split
    · exact ⟨h, hqueue⟩
    · exact absurd hqueue (by simp_all)
  | case2 progress id rest hqueue ih =>
    rw [Queue.planLoop]
    split
    · simp_all
    · next other more heq =>
      cases hqueue.symm.trans heq
      exact ih (h.pop hchildren hqueue).visitChildren

theorem PlanInvariant.mem_visited_iff
    (hchildren : ∀ id child, ⟨tenantId, ⟨child, id⟩⟩ ∈ table → (jobs.get? child).isSome = true →
      child ∈ childrenOf children id)
    (h : PlanInvariant tenantId table jobs roots initial children [] progress)
    (hqueue : progress.queue = []) {id : JobIdentity} :
    id ∈ progress.visited ↔ IsReached tenantId table jobs.get? roots id := by
  refine ⟨h.reached id, fun hreached => ?_⟩
  induction hreached with
  | root hroot => exact h.root_mem _ hroot
  | step hreached hgoes hrow hjob ih =>
    rcases h.closed _ ih hgoes with hmem | hclosed
    · rw [hqueue] at hmem
      exact absurd hmem not_mem_nil
    · exact (hclosed _ (hchildren _ _ hrow hjob)).resolve_right not_mem_nil

end Invariant

/-! ### The plan -/

section Plan

variable {order : Collation JobIdentity} {tenantId : String} {table : List DependencyRow}
  {roots : List JobIdentity} {locked : List LockedJob} {changes : PlannedChanges}

variable {jobs : JobIdentity → Option Job} {id : JobIdentity}

theorem not_isReached_nil :
    ¬IsReached tenantId table jobs [] id := by
  intro h
  induction h with
  | root hroot => exact absurd hroot not_mem_nil
  | step _ _ _ _ ih => exact ih

variable (order tenantId table roots locked changes) in
theorem exists_visited_planTerminalDependents : ∃ visited : List JobIdentity,
    (∀ id, id ∈ visited ↔ IsReached tenantId table (lockedJobs tenantId locked).get? roots id) ∧
    ∀ key, (planTerminalDependents order tenantId table roots locked changes).get? key =
      if key.1 = tenantId ∧ key.2 ∈ visited ∧ key.2 ∉ roots then
        (plannedChange (lockedJobs tenantId locked).get? key.2).or (changes.get? key)
      else changes.get? key := by
  rw [planTerminalDependents]
  by_cases hroots : roots = []
  · refine ⟨[], fun id => ?_, fun key => ?_⟩
    · rw [hroots]
      exact iff_of_false not_mem_nil not_isReached_nil
    · rw [if_pos hroots, if_neg fun h => not_mem_nil h.2.1]
  · rw [if_neg hroots]
    have hstart : PlanInvariant tenantId table (lockedJobs tenantId locked) roots changes
        (groupBy (·.prerequisiteJobId) (dependencyEdges order tenantId table locked)) []
        ⟨order.sort roots, order.sort roots, changes⟩ := planInvariant_roots (order.sort_perm roots)
    obtain ⟨h, hqueue⟩ := hstart.planLoop fun _ _ => mem_childrenOf.mp
    exact ⟨_, fun _ => h.mem_visited_iff
      (fun _ _ hrow hjob => mem_childrenOf.mpr ⟨hrow, hjob⟩) hqueue, h.planned⟩

/-- The loop computes the plan of the closure. -/
theorem isTerminalPlan_planTerminalDependents : IsTerminalPlan tenantId table
    (lockedJobs tenantId locked).get? roots changes (planTerminalDependents order tenantId table roots locked changes) := by
  obtain ⟨visited, hvisited, hplan⟩ := exists_visited_planTerminalDependents order tenantId table
    roots locked changes
  refine ⟨fun id job hroots hjob hwaiting hreached => ?_, fun id job hroots hjob hleased hreached =>
    ?_, fun id job hjob hended => ?_, fun id hid => ?_, fun other id hother => ?_⟩
  · obtain ⟨cause, hstrongest, hcause⟩ := terminalState_eq_strongest job
    refine ⟨cause, hstrongest, ?_⟩
    rw [hplan, if_pos ⟨rfl, (hvisited id).mpr hreached, hroots⟩, plannedChange, hjob,
      bind_some, hwaiting.nonterminal, hcause, if_neg (by decide), if_neg hwaiting.ne_leased]
    rfl
  · rw [hplan, if_pos ⟨rfl, (hvisited id).mpr hreached, hroots⟩, plannedChange, hjob,
      bind_some, hleased]
    rfl
  · have hchange : plannedChange (lockedJobs tenantId locked).get? id = none := by
      rw [plannedChange, hjob, bind_some, hended]
      rfl
    rw [hplan, hchange, none_or, ite_self]
  · rw [hplan, if_neg]
    rintro ⟨-, hmem, hroots⟩
    exact hid.elim hroots fun hreached => hreached ((hvisited id).mp hmem)
  · rw [hplan, if_neg fun h => hother h.1]

theorem TerminalCause.IsStrongest.eq {job : Job} {cause other : TerminalCause}
    (hcause : cause.IsStrongest job) (hother : other.IsStrongest job) : cause = other := by
  have heq := le_antisymm (hother.2 cause hcause.1) (hcause.2 other hother.1)
  revert heq
  cases cause <;> cases other <;> decide

theorem mem_roots_of_isReached
    (hjob : jobs id = none) (h : IsReached tenantId table jobs roots id) : id ∈ roots := by
  cases h with
  | root hroot => exact hroot
  | step _ _ _ hsome =>
    rw [hjob] at hsome
    exact absurd hsome Bool.false_ne_true

/-- The plan of the closure is one. -/
theorem IsTerminalPlan.get?_eq {plan plan' : PlannedChanges}
    (h : IsTerminalPlan tenantId table jobs roots changes plan)
    (h' : IsTerminalPlan tenantId table jobs roots changes plan') (key : String × JobIdentity) :
    plan.get? key = plan'.get? key := by
  obtain ⟨other, id⟩ := key
  by_cases hother : other = tenantId
  swap
  · rw [h.others other id hother, h'.others other id hother]
  subst hother
  by_cases hid : id ∈ roots ∨ ¬IsReached other table jobs roots id
  · rw [h.untouched id hid, h'.untouched id hid]
  obtain ⟨hroots, hreached⟩ := not_or.mp hid
  rw [not_not] at hreached
  cases hjob : jobs id with
  | none => exact absurd (mem_roots_of_isReached hjob hreached) hroots
  | some job =>
    cases hended : job.state.isNonterminal with
    | false => rw [h.ended id job hjob hended, h'.ended id job hjob hended]
    | true =>
      rcases Job.nonterminal_iff.mp hended with hwaiting | hleased
      · obtain ⟨cause, hcause, hplan⟩ := h.waiting id job hroots hjob hwaiting hreached
        obtain ⟨cause', hcause', hplan'⟩ := h'.waiting id job hroots hjob hwaiting hreached
        rw [hplan, hplan', hcause.eq hcause']
      · rw [h.leased id job hroots hjob hleased hreached,
          h'.leased id job hroots hjob hleased hreached]

end Plan

end ApiTruth.Orchestration.Queue
