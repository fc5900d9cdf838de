import ApiTruth.Orchestration.Queue.TerminalDependents

/-!
# The jobs that are locked before a transition

All dependents of the jobs that change are discovered, frontier by frontier, and locked.  No job
that the loop over the dependents reaches is missing among them.

## Main definitions

* `discoverTransitionClosure` : the rows of all dependents.

## Main results

* `isTerminalPlan_transitionClosure` : the loop plans as much as if all jobs were locked.
* `planTerminalDependents_exact` : the loop computes the closure, whatever the order of the edges.
-/

namespace ApiTruth.Orchestration.Queue

open Catalog List OrderedMap

abbrev JobKey := String × JobIdentity

/-- The identities that a discovery has seen, and those of the next frontier. -/
structure Discovery where
  seen : List JobKey
  next : List JobKey

/-- Note an identity that has not been seen. -/
def Discovery.note (discovery : Discovery) (identity : JobKey) : Discovery :=
  if identity ∈ discovery.seen then discovery
  else ⟨discovery.seen ++ [identity], discovery.next ++ [identity]⟩

theorem Discovery.mem_foldl_note (identities : List JobKey) (discovery : Discovery)
    (key : JobKey) :
    (key ∈ (identities.foldl note discovery).seen ↔ key ∈ discovery.seen ∨ key ∈ identities) ∧
      (key ∈ (identities.foldl note discovery).next ↔
        key ∈ discovery.next ∨ key ∈ identities ∧ key ∉ discovery.seen) := by
  induction identities generalizing discovery with
  | nil => simp
  | cons identity identities ih =>
    rw [foldl_cons]
    obtain ⟨hseen, hnext⟩ := ih (discovery.note identity)
    rw [hseen, hnext, note]
    by_cases hidentity : identity ∈ discovery.seen
    · rw [if_pos hidentity]
      grind
    · rw [if_neg hidentity]
      grind

section Closure

variable (keyOrder : Collation JobKey) (order : Collation JobIdentity)
  (table : List DependencyRow)

def dependentRows (page : List JobKey) : List JobKey :=
  (keyOrder.sortBy (fun row : DependencyRow => (row.tenantId, row.dependency.jobId))
    (order.sortBy (·.dependency.prerequisiteJobId)
      (table.filter fun row => page.contains (row.tenantId, row.dependency.prerequisiteJobId)))).map
    fun row => (row.tenantId, row.dependency.jobId)

/-- The identities of the dependents of a frontier, in the order in which they are read. -/
def frontierRows (frontier : List JobKey) : List JobKey :=
  (slices frontier).flatMap fun page => (queryPages (dependentRows keyOrder order table page)).flatten

variable {keyOrder order table} in
theorem mem_frontierRows {frontier : List JobKey} {key : JobKey} :
    key ∈ frontierRows keyOrder order table frontier ↔
      ∃ prerequisite, (key.1, prerequisite) ∈ frontier ∧ ⟨key.1, ⟨key.2, prerequisite⟩⟩ ∈ table := by
  have hrows (page : List JobKey) :
      key ∈ (queryPages (dependentRows keyOrder order table page)).flatten ↔
        ∃ prerequisite, (key.1, prerequisite) ∈ page ∧
          ⟨key.1, ⟨key.2, prerequisite⟩⟩ ∈ table := by
    rw [flatten_queryPages, dependentRows, (((keyOrder.sortBy_perm _ _).trans
      (order.sortBy_perm _ _)).map _).mem_iff, List.mem_map]
    constructor
    · rintro ⟨row, hrow, rfl⟩
      simp only [mem_filter, contains_iff_mem] at hrow
      exact ⟨_, hrow.2, hrow.1⟩
    · rintro ⟨prerequisite, hpage, hrow⟩
      exact ⟨_, List.mem_filter.mpr ⟨hrow, by simpa using hpage⟩, rfl⟩
  simp only [frontierRows, mem_flatMap, hrows, ← exists_mem_slices frontier]
  constructor
  · rintro ⟨page, hpage, prerequisite, hmem, hrow⟩
    exact ⟨prerequisite, ⟨page, hpage, hmem⟩, hrow⟩
  · rintro ⟨prerequisite, ⟨page, hpage, hmem⟩, hrow⟩
    exact ⟨page, hpage, prerequisite, hmem, hrow⟩

def allDependents : List JobKey := table.map fun row => (row.tenantId, row.dependency.jobId)

def discoverFrontier (seen frontier : List JobKey) : Discovery :=
  (frontierRows keyOrder order table frontier).foldl .note ⟨seen, []⟩

theorem mem_discoverFrontier (seen frontier : List JobKey) (key : JobKey) :
    (key ∈ (discoverFrontier keyOrder order table seen frontier).seen ↔
        key ∈ seen ∨ key ∈ frontierRows keyOrder order table frontier) ∧
      (key ∈ (discoverFrontier keyOrder order table seen frontier).next ↔
        key ∈ frontierRows keyOrder order table frontier ∧ key ∉ seen) := by
  obtain ⟨hseen, hnext⟩ := Discovery.mem_foldl_note (frontierRows keyOrder order table frontier)
    ⟨seen, []⟩ key
  exact ⟨hseen, hnext.trans (or_iff_right not_mem_nil)⟩

/-- The rounds of the discovery, to an empty frontier. -/
def discoverLoop (seen frontier : List JobKey) : List JobKey :=
  if _hfrontier : frontier = [] then seen
  else
    let discovery := discoverFrontier keyOrder order table seen frontier
    discoverLoop discovery.seen discovery.next
termination_by (((allDependents table).filter (· ∉ seen)).length, frontier.length)
decreasing_by
  have hmem := mem_discoverFrontier keyOrder order table seen frontier
  have hsub (key : JobKey) (hkey : key ∉ (discoverFrontier keyOrder order table seen frontier).seen) :
      key ∉ seen := fun hseen => hkey ((hmem key).1.mpr (.inl hseen))
  cases hnext : (discoverFrontier keyOrder order table seen frontier).next with
  | nil =>
    refine Prod.lex_iff.mpr ?_
    refine (lt_or_eq_of_le (List.Sublist.length_le (List.monotone_filter_right _ fun key hkey =>
      decide_eq_true (hsub key (of_decide_eq_true hkey))))).imp_right fun heq => ⟨heq, ?_⟩
    exact List.length_pos_iff.mpr _hfrontier
  | cons key keys =>
    obtain ⟨hrow, hnew⟩ := (hmem key).2.mp (hnext ▸ List.mem_cons_self)
    obtain ⟨prerequisite, -, hin⟩ := mem_frontierRows.mp hrow
    have hall : key ∈ allDependents table := List.mem_map_of_mem hin
    have hlt : ((allDependents table).filter (· ∉ seen ++ [key])).length <
        ((allDependents table).filter (· ∉ seen)).length := by
      convert AdjacencyList.length_filter_notMem_lt hall hnew
    refine Prod.Lex.left _ _ (Nat.lt_of_le_of_lt (List.Sublist.length_le
      (List.monotone_filter_right _ fun other hother => decide_eq_true ?_)) hlt)
    intro hmarked
    refine of_decide_eq_true hother ((hmem other).1.mpr ?_)
    rcases List.mem_append.mp hmarked with hseen | hkey
    · exact .inl hseen
    · rw [List.mem_singleton.mp hkey]
      exact .inr hrow

/-- What has been seen holds the frontier, and all dependents of what is not in the frontier. -/
def FrontierInvariant (table : List DependencyRow) (seen frontier : List JobKey) : Prop :=
  ∀ key ∈ seen, key ∈ frontier ∨
    ∀ id, ⟨key.1, ⟨id, key.2⟩⟩ ∈ table → (key.1, id) ∈ seen

variable {table}

theorem FrontierInvariant.discoverFrontier {seen frontier : List JobKey}
    (h : FrontierInvariant table seen frontier) :
    FrontierInvariant table (discoverFrontier keyOrder order table seen frontier).seen
      (discoverFrontier keyOrder order table seen frontier).next := by
  have hmem := mem_discoverFrontier keyOrder order table seen frontier
  intro key hkey
  by_cases hseen : key ∈ seen
  · refine .inr fun id hrow => (hmem _).1.mpr ?_
    rcases h key hseen with hfrontier | hclosed
    · exact .inr (mem_frontierRows.mpr ⟨key.2, hfrontier, hrow⟩)
    · exact .inl (hclosed id hrow)
  · exact .inl ((hmem key).2.mpr ⟨((hmem key).1.mp hkey).resolve_left hseen, hseen⟩)

theorem discoverLoop_closed {seen frontier : List JobKey}
    (h : FrontierInvariant table seen frontier) :
    seen ⊆ discoverLoop keyOrder order table seen frontier ∧
      ∀ key ∈ discoverLoop keyOrder order table seen frontier, ∀ id,
        ⟨key.1, ⟨id, key.2⟩⟩ ∈ table →
          (key.1, id) ∈ discoverLoop keyOrder order table seen frontier := by
  induction seen, frontier using discoverLoop.induct keyOrder order table with
  | case1 seen =>
    rw [discoverLoop, dif_pos rfl]
    exact ⟨List.Subset.refl _, fun key hkey => (h key hkey).resolve_left not_mem_nil⟩
  | case2 seen frontier hfrontier discovery ih =>
    rw [discoverLoop, dif_neg hfrontier]
    obtain ⟨hsub, hclosed⟩ := ih (h.discoverFrontier keyOrder order)
    exact ⟨fun key hkey => hsub ((mem_discoverFrontier keyOrder order table seen frontier key).1.mpr
      (.inl hkey)), hclosed⟩

variable (table) in
def discoverTransitionClosure (jobs : OrderedMap JobKey Job) (roots : List JobKey) :
    List LockedJob :=
  let start := roots.foldl Discovery.note ⟨[], []⟩
  (slices (keyOrder.sort (discoverLoop keyOrder order table start.seen start.next))).flatMap
    fun page => (keyOrder.sortBy Prod.fst (jobs.entries.filter fun row => page.contains row.1)).map
      fun row => ⟨row.1.1, row.1.2, row.2⟩

/-- The rows of the dependents are rows of the job table, those of the roots are among them, and so
are those of all dependents of a dependent. -/
theorem discoverTransitionClosure_closed (table : List DependencyRow) (jobs : OrderedMap JobKey Job) (roots : List JobKey) :
    ∃ seen : List JobKey, roots ⊆ seen ∧
      (∀ key ∈ seen, ∀ id, ⟨key.1, ⟨id, key.2⟩⟩ ∈ table → (key.1, id) ∈ seen) ∧
      ∀ row, row ∈ discoverTransitionClosure keyOrder order table jobs roots ↔
        (row.tenantId, row.jobId) ∈ seen ∧ jobs.get? (row.tenantId, row.jobId) = some row.job := by
  have hstart := Discovery.mem_foldl_note roots ⟨[], []⟩
  have hfrontier : FrontierInvariant table (roots.foldl Discovery.note ⟨[], []⟩).seen
      (roots.foldl Discovery.note ⟨[], []⟩).next := fun key hkey =>
    .inl ((hstart key).2.mpr (.inr ⟨((hstart key).1.mp hkey).resolve_left not_mem_nil,
      not_mem_nil⟩))
  obtain ⟨hsub, hclosed⟩ := discoverLoop_closed keyOrder order hfrontier
  refine ⟨_, fun key hkey => hsub ((hstart key).1.mpr (.inr hkey)), hclosed, fun row => ?_⟩
  rw [discoverTransitionClosure, ← keyOrder.mem_sort, ← exists_mem_slices (keyOrder.sort _), mem_flatMap,
    get?_eq_some_iff]
  have hpage (page : List JobKey) : row ∈ (keyOrder.sortBy Prod.fst
      (jobs.entries.filter fun row => page.contains row.1)).map
        (fun row => (⟨row.1.1, row.1.2, row.2⟩ : LockedJob)) ↔
      ((row.tenantId, row.jobId), row.job) ∈ jobs.entries ∧ (row.tenantId, row.jobId) ∈ page := by
    rw [((keyOrder.sortBy_perm _ _).map _).mem_iff, List.mem_map]
    constructor
    · rintro ⟨⟨key, job⟩, hentry, rfl⟩
      simpa using hentry
    · rintro ⟨hentry, hmem⟩
      exact ⟨_, List.mem_filter.mpr ⟨hentry, by simpa using hmem⟩, rfl⟩
  simp only [hpage]
  constructor
  · rintro ⟨page, hin, hentry, hmem⟩
    exact ⟨⟨page, hin, hmem⟩, hentry⟩
  · rintro ⟨⟨page, hin, hmem⟩, hentry⟩
    exact ⟨page, hin, hentry, hmem⟩

theorem get?_lockedJobs_closure {tenantId : String} (jobs : OrderedMap JobKey Job)
    (locked : List LockedJob) (seen : List JobKey)
    (hlocked : ∀ row, row ∈ locked ↔
      (row.tenantId, row.jobId) ∈ seen ∧ jobs.get? (row.tenantId, row.jobId) = some row.job)
    (id : JobIdentity) (hid : (tenantId, id) ∈ seen) :
    (lockedJobs tenantId locked).get? id = jobs.get? (tenantId, id) := by
  have hrow {job : Job} (h : (lockedJobs tenantId locked).get? id = some job) :
      jobs.get? (tenantId, id) = some job := by
    obtain ⟨row, hmem, heq⟩ := List.mem_map.mp (mem_of_mem_ofEntries ((get?_eq_some_iff _).mp h))
    obtain ⟨hin, htenant⟩ := List.mem_filter.mp hmem
    cases heq
    rw [← eq_of_beq htenant]
    exact ((hlocked row).mp hin).2
  cases hget : (lockedJobs tenantId locked).get? id with
  | some job => exact (hrow hget).symm
  | none =>
    cases hjob : jobs.get? (tenantId, id) with
    | none => rfl
    | some job =>
      have hsome : ((lockedJobs tenantId locked).get? id).isSome = true := by
        rw [get?_isSome_iff, lockedJobs, mem_keys_ofEntries, List.map_map]
        exact List.mem_map.mpr ⟨⟨tenantId, id, job⟩, List.mem_filter.mpr
          ⟨(hlocked ⟨tenantId, id, job⟩).mpr ⟨hid, hjob⟩, beq_self_eq_true _⟩, rfl⟩
      rw [hget] at hsome
      exact absurd hsome Bool.false_ne_true

end Closure

/-! ### The closure of the roots -/

section Seen

variable {tenantId : String} {table : List DependencyRow} {roots : List JobIdentity}
  {jobs jobs' : JobIdentity → Option Job} {seen : List JobKey}
  (hroots : roots.map (tenantId, ·) ⊆ seen)
  (hclosed : ∀ key ∈ seen, ∀ id, ⟨key.1, ⟨id, key.2⟩⟩ ∈ table → (key.1, id) ∈ seen)

include hroots hclosed

theorem IsReached.mem_seen {id : JobIdentity} (h : IsReached tenantId table jobs roots id) :
    (tenantId, id) ∈ seen := by
  induction h with
  | root hroot => exact hroots (List.mem_map_of_mem hroot)
  | step _ _ hrow _ ih => exact hclosed _ ih _ hrow

theorem IsReached.congr (hjobs : ∀ id, (tenantId, id) ∈ seen → jobs id = jobs' id)
    {id : JobIdentity} (h : IsReached tenantId table jobs roots id) :
    IsReached tenantId table jobs' roots id := by
  induction h with
  | root hroot => exact .root hroot
  | step hreached hgoes hrow hjob ih =>
    have hmem := hreached.mem_seen hroots hclosed
    refine .step ih (hgoes.imp_right ?_) hrow (hjobs _ (hclosed _ hmem _ hrow) ▸ hjob)
    rintro ⟨job, hsome, hstate⟩
    exact ⟨job, hjobs _ hmem ▸ hsome, hstate⟩

theorem IsTerminalPlan.congr (hjobs : ∀ id, (tenantId, id) ∈ seen → jobs id = jobs' id)
    {changes plan : PlannedChanges} (h : IsTerminalPlan tenantId table jobs roots changes plan) :
    IsTerminalPlan tenantId table jobs' roots changes plan := by
  have hiff (id : JobIdentity) :
      IsReached tenantId table jobs roots id ↔ IsReached tenantId table jobs' roots id :=
    ⟨.congr hroots hclosed hjobs, .congr hroots hclosed fun id hid => (hjobs id hid).symm⟩
  refine ⟨fun id job hroot hjob hwaiting hreached => ?_,
    fun id job hroot hjob hleased hreached => ?_, fun id job hjob hended => ?_,
    fun id hid => h.untouched id (hid.imp_right (mt (hiff id).mp)), h.others⟩
  · rw [← hjobs id (hreached.mem_seen hroots hclosed)] at hjob
    exact h.waiting id job hroot hjob hwaiting ((hiff id).mpr hreached)
  · rw [← hjobs id (hreached.mem_seen hroots hclosed)] at hjob
    exact h.leased id job hroot hjob hleased ((hiff id).mpr hreached)
  · by_cases hreached : IsReached tenantId table jobs roots id
    · rw [← hjobs id (hreached.mem_seen hroots hclosed)] at hjob
      exact h.ended id job hjob hended
    · exact h.untouched id (.inr hreached)

end Seen

section Plan

variable (keyOrder : Collation JobKey) (order : Collation JobIdentity) (tenantId : String)
  (table : List DependencyRow) (jobs : OrderedMap JobKey Job) (roots : List JobIdentity)
  (changes : PlannedChanges)

/-- The loop over the locked dependents computes the closure of the roots in the job table. -/
theorem isTerminalPlan_transitionClosure :
    IsTerminalPlan tenantId table (fun id => jobs.get? (tenantId, id)) roots changes
      (planTerminalDependents order tenantId table roots
        (discoverTransitionClosure keyOrder order table jobs (roots.map (tenantId, ·)))
        changes) := by
  obtain ⟨seen, hroots, hclosed, hlocked⟩ := discoverTransitionClosure_closed keyOrder order table
    jobs (roots.map (tenantId, ·))
  exact isTerminalPlan_planTerminalDependents.congr hroots hclosed
    (get?_lockedJobs_closure jobs _ seen hlocked)

theorem IsTerminalPlan.of_perm {tenantId : String} {table table' : List DependencyRow}
    {jobs : JobIdentity → Option Job} {roots : List JobIdentity} {changes plan : PlannedChanges}
    (hperm : table.Perm table') (h : IsTerminalPlan tenantId table jobs roots changes plan) :
    IsTerminalPlan tenantId table' jobs roots changes plan := by
  have hsub {table table' : List DependencyRow} (hperm : table.Perm table') {id : JobIdentity}
      (h : IsReached tenantId table jobs roots id) : IsReached tenantId table' jobs roots id := by
    induction h with
    | root hroot => exact .root hroot
    | step _ hgoes hrow hjob ih => exact .step ih hgoes (hperm.mem_iff.mp hrow) hjob
  exact { h with
    waiting := fun id job hroot hjob hwaiting hreached =>
      h.waiting id job hroot hjob hwaiting (hsub hperm.symm hreached)
    leased := fun id job hroot hjob hleased hreached =>
      h.leased id job hroot hjob hleased (hsub hperm.symm hreached)
    untouched := fun id hid => h.untouched id (hid.imp_right (mt (hsub hperm))) }

/-- The loop computes the closure of the roots among the locked jobs, and in the job table when the
locked jobs are the dependents of the roots.  Neither the order of the dependency rows nor the one
in which they are read counts. -/
theorem planTerminalDependents_exact (locked : List LockedJob) :
    IsTerminalPlan tenantId table (lockedJobs tenantId locked).get? roots changes
        (planTerminalDependents order tenantId table roots locked changes) ∧
      IsTerminalPlan tenantId table (fun id => jobs.get? (tenantId, id)) roots changes
        (planTerminalDependents order tenantId table roots
          (discoverTransitionClosure keyOrder order table jobs (roots.map (tenantId, ·)))
          changes) ∧
      ∀ (order' : Collation JobIdentity) (table' : List DependencyRow), table'.Perm table → ∀ key,
        (planTerminalDependents order' tenantId table' roots locked changes).get? key =
          (planTerminalDependents order tenantId table roots locked changes).get? key :=
  ⟨isTerminalPlan_planTerminalDependents,
    isTerminalPlan_transitionClosure keyOrder order tenantId table jobs roots changes,
    fun _ _ hperm key => (isTerminalPlan_planTerminalDependents.of_perm hperm).get?_eq
      isTerminalPlan_planTerminalDependents key⟩

end Plan

end ApiTruth.Orchestration.Queue
