import ApiTruth.Foundation.OrderedMap
import Mathlib.Data.List.Dedup

/-!
# Worklists over finite graphs

A finite graph lists its nodes with their successors; a successor need not be a node.  Two loops
collect what can be reached from a list of roots.  `stackClosure` pops identifiers from a stack,
marks the nodes it pops and pushes their unmarked successors.  `queueClosure` marks identifiers
when it enqueues them, whether or not they are nodes.

## Main definitions

* `AdjacencyList`, `AdjacencyList.Reaches` : reachability through nodes.
* `AdjacencyList.stackClosure`, `AdjacencyList.queueClosure` : the loops.

## Main results

* `AdjacencyList.mem_stackClosure` : the stack loop collects the nodes that can be reached.
* `AdjacencyList.mem_queueClosure` : the queue loop collects all identifiers that can be reached.
-/

/-- The nodes of a finite graph with their successors. -/
abbrev AdjacencyList (α : Type*) := List (α × List α)

namespace AdjacencyList

open List OrderedMap

variable {α : Type*} [DecidableEq α] (graph : AdjacencyList α)

/-- Reachability from roots through the nodes of the graph. -/
inductive Reaches (roots : List α) : α → Prop
  | root {id : α} (mem : id ∈ roots) : Reaches roots id
  | step {id child : α} {next : List α} (reached : Reaches roots id)
      (node : graph.lookup id = some next) (mem : child ∈ next) : Reaches roots child

variable {id : α} {marked pending : List α}

theorem Reaches.mono {graph graph' : AdjacencyList α} {roots roots' : List α}
    (hroots : roots ⊆ roots') (hnext : ∀ id next, graph.lookup id = some next →
      ∃ next', graph'.lookup id = some next' ∧ next ⊆ next')
    (h : graph.Reaches roots id) : graph'.Reaches roots' id := by
  induction h with
  | root hmem => exact .root (hroots hmem)
  | step _ hnode hmem ih =>
    obtain ⟨next', hnode', hsub⟩ := hnext _ _ hnode
    exact .step ih hnode' (hsub hmem)

/-- The nodes that are not marked. -/
def unmarked (marked : List α) : List α := (graph.map Prod.fst).filter (· ∉ marked)

theorem mem_nodes_of_lookup {graph : AdjacencyList α} {next : List α}
    (h : graph.lookup id = some next) : id ∈ graph.map Prod.fst := by
  induction graph with
  | nil => simp at h
  | cons node graph ih =>
    rw [lookup_cons_ite] at h
    split_ifs at h with hid
    · simp [hid]
    · exact mem_cons_of_mem _ (ih h)

theorem length_filter_notMem_lt {all marked : List α} (hid : id ∈ all) (hnew : id ∉ marked) :
    (all.filter (· ∉ marked ++ [id])).length < (all.filter (· ∉ marked)).length := by
  have hsub : (all.filter (· ∉ marked ++ [id])).Sublist (all.filter (· ∉ marked)) :=
    monotone_filter_right all fun x hx => by
      simp only [mem_append, not_or, decide_eq_true_eq] at hx ⊢
      exact hx.1
  refine lt_of_le_of_ne hsub.length_le fun heq => ?_
  have hmem : id ∈ all.filter (· ∉ marked) := List.mem_filter.mpr ⟨hid, by simpa using hnew⟩
  rw [← hsub.eq_of_length heq] at hmem
  simp at hmem

/-! ### The stack -/

/-- The loop with the marked nodes and the stack, whose top comes first. -/
def stackLoop (marked pending : List α) : List α :=
  match pending with
  | [] => marked
  | id :: rest =>
    if _hmarked : id ∈ marked then stackLoop marked rest
    else match _hnode : graph.lookup id with
      | none => stackLoop marked rest
      | some next =>
        stackLoop (marked ++ [id]) ((next.filter (· ∉ marked ++ [id])).reverse ++ rest)
termination_by ((graph.unmarked marked).length, pending.length)
decreasing_by
  · exact Prod.Lex.right _ (Nat.lt_succ_self _)
  · exact Prod.Lex.right _ (Nat.lt_succ_self _)
  · exact Prod.Lex.left _ _ (length_filter_notMem_lt (mem_nodes_of_lookup _hnode) _hmarked)

/-- The nodes collected from the roots, the last root first. -/
def stackClosure (roots : List α) : List α := graph.stackLoop [] roots.reverse

/-- Between two rounds of the stack loop: what is known can be reached, and the roots and the
successors of the marked nodes are known unless they are no nodes. -/
structure StackInvariant (roots marked pending : List α) : Prop where
  sound : ∀ id, id ∈ marked ∨ id ∈ pending → graph.Reaches roots id
  nodes : ∀ id ∈ marked, id ∈ graph.map Prod.fst
  roots : ∀ id ∈ roots, id ∈ graph.map Prod.fst → id ∈ marked ∨ id ∈ pending
  edges : ∀ id ∈ marked, ∀ next, graph.lookup id = some next → ∀ child ∈ next,
    child ∈ graph.map Prod.fst → child ∈ marked ∨ child ∈ pending

variable {graph} {roots : List α}

theorem StackInvariant.skip {marked rest : List α}
    (h : graph.StackInvariant roots marked (id :: rest))
    (hskip : id ∈ graph.map Prod.fst → id ∈ marked) : graph.StackInvariant roots marked rest where
  sound x hx := h.sound x (hx.imp_right (mem_cons_of_mem id))
  nodes := h.nodes
  roots x hx hnode := by
    rcases h.roots x hx hnode with hx | hx
    · exact Or.inl hx
    · rcases List.mem_cons.mp hx with rfl | hx
      exacts [Or.inl (hskip hnode), Or.inr hx]
  edges y hy next hnext x hx hnode := by
    rcases h.edges y hy next hnext x hx hnode with hx | hx
    · exact Or.inl hx
    · rcases List.mem_cons.mp hx with rfl | hx
      exacts [Or.inl (hskip hnode), Or.inr hx]

theorem StackInvariant.visit {marked rest next : List α}
    (h : graph.StackInvariant roots marked (id :: rest)) (hnode : graph.lookup id = some next) :
    graph.StackInvariant roots (marked ++ [id])
      ((next.filter (· ∉ marked ++ [id])).reverse ++ rest) where
  sound x hx := by
    have hid : graph.Reaches roots id := h.sound id (Or.inr mem_cons_self)
    simp only [mem_append, mem_singleton, mem_reverse, mem_filter] at hx
    rcases hx with (hx | rfl) | hx | hx
    · exact h.sound x (Or.inl hx)
    · exact hid
    · exact .step hid hnode hx.1
    · exact h.sound x (Or.inr (mem_cons_of_mem _ hx))
  nodes x hx := by
    rcases List.mem_append.mp hx with hx | hx
    · exact h.nodes x hx
    · exact List.mem_singleton.mp hx ▸ mem_nodes_of_lookup hnode
  roots x hx hx' := by
    rcases h.roots x hx hx' with hx | hx
    · exact Or.inl (mem_append_left _ hx)
    · rcases List.mem_cons.mp hx with rfl | hx
      · exact Or.inl (by simp)
      · exact Or.inr (mem_append_right _ hx)
  edges y hy next' hnext' x hx hx' := by
    by_cases hmarked : x ∈ marked ++ [id]
    · exact Or.inl hmarked
    · rcases List.mem_append.mp hy with hy | hy
      · rcases h.edges y hy next' hnext' x hx hx' with hx | hx
        · exact Or.inl (mem_append_left _ hx)
        · rcases List.mem_cons.mp hx with rfl | hx
          · exact Or.inl (by simp)
          · exact Or.inr (mem_append_right _ hx)
      · -- a successor of the node just marked has been pushed
        rw [List.mem_singleton.mp hy, hnode] at hnext'
        rw [← Option.some.inj hnext'] at hx
        refine Or.inr (mem_append_left _ (List.mem_reverse.mpr (List.mem_filter.mpr ⟨hx, ?_⟩)))
        simpa using hmarked

theorem stackLoop_invariant (h : graph.StackInvariant roots marked pending) :
    graph.StackInvariant roots (graph.stackLoop marked pending) [] := by
  induction marked, pending using stackLoop.induct graph with
  | case1 marked => simpa [stackLoop] using h
  | case2 marked id rest hmarked ih =>
    rw [stackLoop, dif_pos hmarked]
    exact ih (h.skip fun _ => hmarked)
  | case3 marked id rest hmarked hnode ih =>
    rw [stackLoop, dif_neg hmarked]
    split
    · refine ih (h.skip fun hmem => ?_)
      obtain ⟨next, hnext⟩ := exists_lookup_of_mem_keys hmem
      simp [hnode] at hnext
    · simp_all
  | case4 marked id rest hmarked next hnode ih =>
    rw [stackLoop, dif_neg hmarked]
    split
    · simp_all
    · rename_i next' hnext'
      rw [hnode] at hnext'
      cases hnext'
      exact ih (h.visit hnode)

/-- The stack loop collects the nodes that can be reached. -/
theorem mem_stackClosure :
    id ∈ graph.stackClosure roots ↔ graph.Reaches roots id ∧ id ∈ graph.map Prod.fst := by
  have h : graph.StackInvariant roots (graph.stackClosure roots) [] :=
    stackLoop_invariant
      { sound := fun x hx => .root (by simpa using hx)
        nodes := by simp
        roots := fun x hx _ => Or.inr (List.mem_reverse.mpr hx)
        edges := by simp }
  constructor
  · exact fun hid => ⟨h.sound id (Or.inl hid), h.nodes id hid⟩
  · rintro ⟨hreach, hnode⟩
    induction hreach with
    | root hroot => simpa using h.roots _ hroot hnode
    | step _ hnext hmem ih =>
      simpa using h.edges _ (ih (mem_nodes_of_lookup hnext)) _ hnext _ hmem hnode

/-! ### The queue -/

section Queue

variable (graph)

/-- The successors of an identifier, none where it is no node. -/
def successors (id : α) : List α := (graph.lookup id).getD []

/-- Everything that can be enqueued after the roots. -/
def targets : List α := graph.flatMap Prod.snd

theorem mem_targets_of_mem_successors {graph : AdjacencyList α} {id child : α}
    (h : child ∈ graph.successors id) : child ∈ graph.targets := by
  induction graph with
  | nil => simp [successors] at h
  | cons node graph ih =>
    rw [targets, flatMap_cons, mem_append]
    rw [successors, lookup_cons_ite] at h
    split_ifs at h
    · exact Or.inl h
    · exact Or.inr (ih h)

/-- The successors that are enqueued: those not marked, each once. -/
def fresh (marked : List α) (id : α) : List α :=
  (graph.successors id).dedup.filter (· ∉ marked)

/-- The loop with the marked identifiers and the queue. -/
def queueLoop (marked pending : List α) : List α :=
  match pending with
  | [] => marked
  | id :: rest =>
    queueLoop (marked ++ graph.fresh marked id) (rest ++ graph.fresh marked id)
termination_by ((graph.targets.filter (· ∉ marked)).length, pending.length)
decreasing_by
  cases hfresh : graph.fresh marked id with
  | nil => simpa using Prod.Lex.right _ (Nat.lt_succ_self _)
  | cons child children =>
    have hchild : child ∈ graph.fresh marked id := by simp [hfresh]
    simp only [fresh, List.mem_filter, List.mem_dedup, decide_eq_true_eq] at hchild
    refine Prod.Lex.left _ _ (lt_of_le_of_lt (List.Sublist.length_le ?_)
      (length_filter_notMem_lt (mem_targets_of_mem_successors hchild.1) hchild.2))
    exact List.monotone_filter_right _ fun x hx => by
      simp only [List.mem_append, List.mem_cons, not_or, decide_eq_true_eq,
        List.not_mem_nil, not_false_eq_true, and_true] at hx ⊢
      exact ⟨hx.1, hx.2.1⟩

/-- The identifiers collected from the roots, in the order of the queue. -/
def queueClosure (roots : List α) : List α := graph.queueLoop roots roots

variable {graph}

/-- Between two rounds of the queue loop: what is marked can be reached, and a marked identifier
is pending or its successors are marked. -/
structure QueueInvariant (graph : AdjacencyList α) (roots marked pending : List α) : Prop where
  sound : ∀ id ∈ marked, graph.Reaches roots id
  queued : ∀ id ∈ pending, id ∈ marked
  roots : ∀ id ∈ roots, id ∈ marked
  edges : ∀ id ∈ marked, id ∈ pending ∨ ∀ child ∈ graph.successors id, child ∈ marked

theorem QueueInvariant.round {marked rest : List α}
    (h : graph.QueueInvariant roots marked (id :: rest)) :
    graph.QueueInvariant roots (marked ++ graph.fresh marked id)
      (rest ++ graph.fresh marked id) where
  sound x hx := by
    rcases List.mem_append.mp hx with hx | hx
    · exact h.sound x hx
    · simp only [fresh, mem_filter, mem_dedup] at hx
      have hid := h.sound id (h.queued id mem_cons_self)
      cases hnode : graph.lookup id with
      | none => simp [successors, hnode] at hx
      | some next => exact .step hid hnode (by simpa [successors, hnode] using hx.1)
  queued x hx := by
    rcases List.mem_append.mp hx with hx | hx
    · exact mem_append_left _ (h.queued x (mem_cons_of_mem _ hx))
    · exact mem_append_right _ hx
  roots x hx := mem_append_left _ (h.roots x hx)
  edges x hx := by
    rcases List.mem_append.mp hx with hx | hx
    · rcases h.edges x hx with hpending | hedges
      · rcases List.mem_cons.mp hpending with rfl | hpending
        · right
          intro child hchild
          by_cases hmarked : child ∈ marked
          · exact mem_append_left _ hmarked
          · refine mem_append_right _ ?_
            simp only [fresh, mem_filter, mem_dedup, decide_eq_true_eq]
            exact ⟨hchild, hmarked⟩
        · exact Or.inl (mem_append_left _ hpending)
      · exact Or.inr fun child hchild => mem_append_left _ (hedges child hchild)
    · exact Or.inl (mem_append_right _ hx)

theorem queueLoop_invariant (h : graph.QueueInvariant roots marked pending) :
    graph.QueueInvariant roots (graph.queueLoop marked pending) [] := by
  induction marked, pending using queueLoop.induct graph with
  | case1 marked => simpa [queueLoop] using h
  | case2 marked id rest ih =>
    rw [queueLoop]
    exact ih h.round

/-- The queue loop collects all identifiers that can be reached. -/
theorem mem_queueClosure :
    id ∈ graph.queueClosure roots ↔ graph.Reaches roots id := by
  have h : graph.QueueInvariant roots (graph.queueClosure roots) [] :=
    queueLoop_invariant
      { sound := fun x hx => .root hx
        queued := fun x hx => hx
        roots := fun x hx => hx
        edges := fun x hx => Or.inl hx }
  refine ⟨h.sound id, fun hreach => ?_⟩
  induction hreach with
  | root hroot => exact h.roots _ hroot
  | step _ hnext hmem ih =>
    refine ((h.edges _ ih).resolve_left (not_mem_nil)) _ ?_
    simpa [successors, hnext] using hmem

/-- The queue loop with a bound on its rounds, which evaluates by recursion on the bound. -/
def queueWithin (graph : AdjacencyList α) : ℕ → List α → List α → List α
  | 0, marked, _ => marked
  | _ + 1, marked, [] => marked
  | rounds + 1, marked, id :: rest =>
    queueWithin graph rounds (marked ++ graph.fresh marked id) (rest ++ graph.fresh marked id)

theorem length_fresh_add_le (marked : List α) (id : α) :
    (graph.fresh marked id).length +
        (graph.targets.filter (· ∉ marked ++ graph.fresh marked id)).length ≤
      (graph.targets.filter (· ∉ marked)).length := by
  have hrest : graph.targets.filter (· ∉ marked ++ graph.fresh marked id) =
      (graph.targets.filter (· ∉ marked)).filter (· ∉ graph.fresh marked id) := by
    rw [List.filter_filter]
    refine filter_congr fun x _ => ?_
    simp only [mem_append, not_or, Bool.decide_and, Bool.and_comm]
  have hfresh : (graph.fresh marked id).length ≤
      ((graph.targets.filter (· ∉ marked)).filter (· ∈ graph.fresh marked id)).length := by
    refine (subperm_of_subset ((nodup_dedup _).filter _) fun x hx => ?_).length_le
    have hmem := hx
    simp only [mem_filter, mem_dedup, decide_eq_true_eq] at hmem
    simp only [mem_filter, decide_eq_true_eq]
    exact ⟨⟨mem_targets_of_mem_successors hmem.1, hmem.2⟩, hx⟩
  have hsplit := length_eq_length_filter_add (l := graph.targets.filter (· ∉ marked))
    (fun x => decide (x ∈ graph.fresh marked id))
  simp only [← decide_not] at hsplit
  rw [hrest]
  omega

/-- The queue loop ends within a round for every pending identifier and every target to come. -/
theorem queueLoop_eq_queueWithin {rounds : ℕ}
    (h : (graph.targets.filter (· ∉ marked)).length + pending.length ≤ rounds) :
    graph.queueLoop marked pending = graph.queueWithin rounds marked pending := by
  induction rounds generalizing marked pending with
  | zero =>
    obtain rfl : pending = [] := List.length_eq_zero_iff.mp (by omega)
    rw [queueLoop, queueWithin]
  | succ rounds ih =>
    cases pending with
    | nil => rw [queueLoop, queueWithin]
    | cons id rest =>
      have hfresh := graph.length_fresh_add_le marked id
      rw [queueLoop, queueWithin]
      refine ih ?_
      simp only [length_append, length_cons] at h ⊢
      omega

theorem queueClosure_eq_queueWithin (roots : List α) :
    graph.queueClosure roots =
      graph.queueWithin (graph.targets.length + roots.length) roots roots :=
  queueLoop_eq_queueWithin (Nat.add_le_add_right (length_filter_le _ _) _)

end Queue

end AdjacencyList
