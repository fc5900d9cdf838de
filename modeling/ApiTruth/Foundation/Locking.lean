import ApiTruth.Foundation.Runs
import Mathlib.Logic.Function.Basic

/-!
# Transactions under a lock

Transactions append rows to a shared table.  A transaction is a program of statements, each of which
reads the committed rows; its own rows become visible when it commits.  Before its first statement
it takes the lock of a key, which no two transactions hold at once, and it releases the lock when it
ends.  The statements of different transactions interleave in any order.

When a program depends only on the rows of its own key and appends only such rows, nothing that it
reads changes while it holds the lock, and the interleaving is a sequence of calls that run alone.

## Main definitions

* `Locking.Program` : the statements of a transaction.
* `Locking.Program.execute` : what a program answers and appends when it runs alone.
* `Locking.Program.IsLocal` : a program reads and appends rows of one key only.
* `Locking.Service` : calls, each with the key that it locks and its program.
* `Locking.Service.Step` : one step of the interleaved transactions.
* `Locking.Service.Sequential` : the outcomes of calls that run one after the other.

## Main results

* `Locking.Service.commit_eq_execute` : a call that commits has the outcome of running alone on the
  rows of that moment.
* `Locking.Service.sequential_of_reachable` : an interleaved run is a sequence of calls, in the order
  in which they commit.
* `Locking.Service.reachable_of_sequential` : conversely every sequence of calls is such a run.
-/

namespace Locking

open Function

universe u v w x y

/-- The statements of a transaction that appends rows `ρ` and answers `β`. -/
inductive Program (ρ : Type u) (β : Type v)
  | finish (result : β) (inserted : List ρ)
  | read (next : List ρ → Program ρ β)

namespace Program

variable {ρ : Type u} {β : Type v} {κ : Type w} [DecidableEq κ] (keyOf : ρ → κ)

/-- The result and the appended rows of a program that runs alone. -/
def execute : Program ρ β → List ρ → β × List ρ
  | finish result inserted, _ => (result, inserted)
  | read next, rows => (next rows).execute rows

@[simp] theorem execute_finish (result : β) (inserted rows : List ρ) :
    (finish result inserted).execute rows = (result, inserted) := rfl

@[simp] theorem execute_read (next : List ρ → Program ρ β) (rows : List ρ) :
    (read next).execute rows = (next rows).execute rows := rfl

/-- The rows of a key; without a key, none. -/
def part (key : Option κ) (rows : List ρ) : List ρ :=
  rows.filter fun row => decide (some (keyOf row) = key)

@[simp] theorem part_none (rows : List ρ) : part keyOf none rows = [] := by
  simp [part]

/-- A program that reads and appends rows of its key only. -/
def IsLocal (key : Option κ) : Program ρ β → Prop
  | finish _ inserted => ∀ row ∈ inserted, some (keyOf row) = key
  | read next =>
    (∀ rows rows', part keyOf key rows = part keyOf key rows' → next rows = next rows') ∧
      ∀ rows, (next rows).IsLocal key

variable {keyOf}

theorem IsLocal.execute_congr {key : Option κ} {program : Program ρ β}
    (h : program.IsLocal keyOf key) {rows rows' : List ρ}
    (hrows : part keyOf key rows = part keyOf key rows') :
    program.execute rows = program.execute rows' := by
  induction program with
  | finish result inserted => rfl
  | read next ih =>
    obtain ⟨hnext, hlocal⟩ := h
    calc (next rows).execute rows = (next rows).execute rows' := ih rows (hlocal rows)
      _ = (next rows').execute rows' := by rw [hnext rows rows' hrows]

theorem part_append_of_ne {key key' : Option κ} {rows inserted : List ρ}
    (h : ∀ row ∈ inserted, some (keyOf row) = key) (hne : key ≠ key') :
    part keyOf key' (rows ++ inserted) = part keyOf key' rows := by
  have hnil : part keyOf key' inserted = [] := by
    refine List.filter_eq_nil_iff.mpr fun row hrow => ?_
    rw [h row hrow, decide_eq_true_eq]
    exact hne
  have happend : part keyOf key' (rows ++ inserted) =
      part keyOf key' rows ++ part keyOf key' inserted := List.filter_append ..
  rw [happend, hnil, List.append_nil]

end Program

/-- Calls with the key that each of them locks, if any, and its program. -/
structure Service (ρ : Type u) (β : Type v) (κ : Type w) (ι : Type x) [DecidableEq κ] where
  keyOf : ρ → κ
  lock : ι → Option κ
  program : ι → Program ρ β
  isLocal : ∀ call, (program call).IsLocal keyOf (lock call)

/-- The committed rows, the transactions under way, and the calls that have committed. -/
structure State (ρ : Type u) (β : Type v) (ι : Type x) (τ : Type y) where
  rows : List ρ
  active : τ → Option (ι × Program ρ β)
  finished : List (ι × β)

/-- What a session `τ` does next. -/
inductive Action (ι : Type x) (τ : Type y)
  | start (session : τ) (call : ι)
  | statement (session : τ)
  | commit (session : τ)
  | abort (session : τ)

namespace Service

variable {ρ : Type u} {β : Type v} {κ : Type w} {ι : Type x} {τ : Type y} [DecidableEq κ]
  [DecidableEq τ] (service : Service ρ β κ ι) (admits : ι → Prop)

/-- No row, no transaction and no answer yet. -/
def initial : State ρ β ι τ := ⟨[], fun _ => none, []⟩

def become (s : State ρ β ι τ) (session : τ) (call : ι) (program : Program ρ β) : State ρ β ι τ :=
  { s with active := Function.update s.active session (some (call, program)) }

/-- The session has ended. -/
def release (s : State ρ β ι τ) (session : τ) : State ρ β ι τ :=
  { s with active := Function.update s.active session none }

@[simp] theorem become_active (s : State ρ β ι τ) (session : τ) (call : ι)
    (program : Program ρ β) : (become s session call program).active =
      update s.active session (some (call, program)) := rfl

@[simp] theorem release_active (s : State ρ β ι τ) (session : τ) :
    (release s session).active = update s.active session none := rfl

/-- The lock that a call takes is held by no transaction under way. -/
def IsFree (s : State ρ β ι τ) (call : ι) : Prop :=
  ∀ session other program, s.active session = some (other, program) →
    service.lock other = service.lock call → service.lock call = none

inductive Step : State ρ β ι τ → Action ι τ → State ρ β ι τ → Prop
  | start {s : State ρ β ι τ} {session : τ} {call : ι} (hidle : s.active session = none)
      (hadmits : admits call) (hfree : service.IsFree s call) :
      Step s (.start session call) (become s session call (service.program call))
  | statement {s : State ρ β ι τ} {session : τ} {call : ι} {next : List ρ → Program ρ β}
      (hactive : s.active session = some (call, .read next)) :
      Step s (.statement session) (become s session call (next s.rows))
  | commit {s : State ρ β ι τ} {session : τ} {call : ι} {result : β} {inserted : List ρ}
      (hactive : s.active session = some (call, .finish result inserted)) :
      Step s (.commit session)
        { release s session with
          rows := s.rows ++ inserted
          finished := s.finished ++ [(call, result)] }
  | abort {s : State ρ β ι τ} {session : τ} {call : ι} {program : Program ρ β}
      (hactive : s.active session = some (call, program)) :
      Step s (.abort session) (release s session)

/-- What is left of a transaction answers and appends what its whole program does, on the rows that
are committed now, and no two transactions hold one lock. -/
structure Coherent (s : State ρ β ι τ) : Prop where
  isLocal : ∀ {session call program}, s.active session = some (call, program) →
    program.IsLocal service.keyOf (service.lock call)
  execute_eq : ∀ {session call program}, s.active session = some (call, program) →
    program.execute s.rows = (service.program call).execute s.rows
  exclusive : ∀ {session session' call call' program program'},
    s.active session = some (call, program) → s.active session' = some (call', program') →
      session ≠ session' → service.lock call = service.lock call' → service.lock call = none

variable {service admits}

omit [DecidableEq τ] in
theorem coherent_initial : service.Coherent (initial : State ρ β ι τ) where
  isLocal h := by cases h
  execute_eq h := by cases h
  exclusive h := by cases h

variable {s : State ρ β ι τ} {program : Program ρ β}

/-- A session that is active after an update is the updated one or was active before. -/
theorem active_become {session session' : τ} {call call' : ι} {program program' : Program ρ β}
    (h : (become s session call program).active session' = some (call', program')) :
    (session' = session ∧ call' = call ∧ program' = program) ∨
      (session' ≠ session ∧ s.active session' = some (call', program')) := by
  by_cases heq : session' = session
  · subst heq
    rw [become_active, update_self] at h
    cases h
    exact .inl ⟨rfl, rfl, rfl⟩
  · rw [become_active, update_of_ne heq] at h
    exact .inr ⟨heq, h⟩

variable {call : ι} {session : τ}

theorem active_release {session session' : τ}
    (h : (release s session).active session' = some (call, program)) :
    session' ≠ session ∧ s.active session' = some (call, program) := by
  by_cases heq : session' = session
  · rw [heq, release_active, update_self] at h
    cases h
  · rw [release_active, update_of_ne heq] at h
    exact ⟨heq, h⟩

theorem Coherent.release (h : service.Coherent s) (session : τ) :
    service.Coherent (release s session) where
  isLocal hactive := h.isLocal (active_release hactive).2
  execute_eq hactive := h.execute_eq (active_release hactive).2
  exclusive hactive hactive' :=
    h.exclusive (active_release hactive).2 (active_release hactive').2

/-- A statement of an active transaction, or the first one of a call whose lock is free. -/
theorem Coherent.become (h : service.Coherent s)
    (hlocal : program.IsLocal service.keyOf (service.lock call))
    (hexecute : program.execute s.rows = (service.program call).execute s.rows)
    (hfree : ∀ session' other program', session' ≠ session →
      s.active session' = some (other, program') → service.lock other = service.lock call →
        service.lock call = none) :
    service.Coherent (become s session call program) where
  isLocal hactive := by
    rcases active_become hactive with ⟨-, rfl, rfl⟩ | ⟨-, hold⟩
    · exact hlocal
    · exact h.isLocal hold
  execute_eq hactive := by
    rcases active_become hactive with ⟨-, rfl, rfl⟩ | ⟨-, hold⟩
    · exact hexecute
    · exact h.execute_eq hold
  exclusive hactive hactive' hne hlock := by
    rcases active_become hactive with ⟨rfl, rfl, -⟩ | ⟨hne₁, hold⟩ <;>
      rcases active_become hactive' with ⟨rfl, rfl, -⟩ | ⟨hne₂, hold'⟩
    · exact absurd rfl hne
    · exact hfree _ _ _ hne₂ hold' hlock.symm
    · exact hlock.trans (hfree _ _ _ hne₁ hold hlock)
    · exact h.exclusive hold hold' hne hlock

theorem Coherent.commit {s : State ρ β ι τ} (h : service.Coherent s) {session : τ} {call : ι}
    {result : β} {inserted : List ρ}
    (hactive : s.active session = some (call, .finish result inserted)) :
    service.Coherent { Service.release s session with
      rows := s.rows ++ inserted
      finished := s.finished ++ [(call, result)] } where
  isLocal hother := h.isLocal (active_release hother).2
  exclusive hother hother' :=
    h.exclusive (active_release hother).2 (active_release hother').2
  execute_eq := by
    intro session' other program hother
    obtain ⟨hne, hold⟩ := active_release hother
    have hpart : Program.part service.keyOf (service.lock other) (s.rows ++ inserted) =
        Program.part service.keyOf (service.lock other) s.rows := by
      by_cases hlock : service.lock other = service.lock call
      · rw [h.exclusive hold hactive hne hlock, Program.part_none, Program.part_none]
      · exact Program.part_append_of_ne (h.isLocal hactive) (Ne.symm hlock)
    calc program.execute (s.rows ++ inserted)
        = program.execute s.rows := (h.isLocal hold).execute_congr hpart
      _ = (service.program other).execute s.rows := h.execute_eq hold
      _ = (service.program other).execute (s.rows ++ inserted) :=
        (service.isLocal other).execute_congr hpart.symm

theorem Coherent.step {s t : State ρ β ι τ} {action : Action ι τ} (h : service.Coherent s)
    (hstep : service.Step admits s action t) : service.Coherent t := by
  cases hstep with
  | start hidle hadmits hfree =>
    exact h.become (service.isLocal _) rfl fun session' other program' _ => hfree _ _ _
  | statement hactive =>
    have hexecute := h.execute_eq hactive
    refine h.become ((h.isLocal hactive).2 _) hexecute ?_
    intro session' other program' hne hother hlock
    exact hlock.symm.trans (h.exclusive hother hactive hne hlock)
  | commit hactive => exact h.commit hactive
  | abort hactive => exact h.release _

theorem coherent_of_reachable
    (hs : TransitionSystem.Reachable (service.Step admits) (· = initial) s) : service.Coherent s :=
  hs.invariant (fun _ h => h ▸ coherent_initial) fun _ _ _ h hstep => h.step hstep

/-- A call that commits has the outcome of running alone on the rows of that moment. -/
theorem commit_eq_execute (hs : TransitionSystem.Reachable (service.Step admits) (· = initial) s)
    {result : β} {inserted : List ρ}
    (hactive : s.active session = some (call, .finish result inserted)) :
    (service.program call).execute s.rows = (result, inserted) :=
  ((coherent_of_reachable hs).execute_eq hactive).symm

variable (service admits) in
/-- The answers and the rows of calls that run one after the other. -/
inductive Sequential : List (ι × β) → List ρ → Prop
  | nil : Sequential [] []
  | call {finished : List (ι × β)} {rows : List ρ} (h : Sequential finished rows) (call : ι)
      (hadmits : admits call) :
      Sequential (finished ++ [(call, ((service.program call).execute rows).1)])
        (rows ++ ((service.program call).execute rows).2)

theorem admits_of_reachable
    (hs : TransitionSystem.Reachable (service.Step admits) (· = initial) s) :
    ∀ {session call program}, s.active session = some (call, program) → admits call := by
  refine hs.invariant (I := fun s => ∀ {session call program},
    s.active session = some (call, program) → admits call) ?_ ?_
  · rintro _ rfl session call program h
    cases h
  · intro s action t h hstep session call program hactive
    cases hstep with
    | start hidle hadmits hfree =>
      rcases active_become hactive with ⟨-, rfl, -⟩ | ⟨-, hold⟩
      · exact hadmits
      · exact h hold
    | statement hbefore =>
      rcases active_become hactive with ⟨-, rfl, -⟩ | ⟨-, hold⟩
      · exact h hbefore
      · exact h hold
    | commit hbefore => exact h (active_release hactive).2
    | abort hbefore => exact h (active_release hactive).2

/-- Interleaved transactions answer and store what the same calls do one after the other, in the
order in which they commit. -/
theorem sequential_of_reachable
    (hs : TransitionSystem.Reachable (service.Step admits) (· = initial) s) :
    service.Sequential admits s.finished s.rows := by
  obtain ⟨_, actions, rfl, hrun⟩ := hs
  have hstart : TransitionSystem.Reachable (service.Step admits) (· = initial)
      (initial : State ρ β ι τ) := ⟨_, [], rfl, .nil _⟩
  refine (hrun.invariant (I := fun s => TransitionSystem.Reachable (service.Step admits)
    (· = initial) s ∧ service.Sequential admits s.finished s.rows) ?_ ⟨hstart, .nil⟩).2
  rintro s action t ⟨hs, hseq⟩ hstep
  refine ⟨hs.run (.cons hstep (.nil t)), ?_⟩
  cases hstep with
  | start hidle hadmits hfree => exact hseq
  | statement hactive => exact hseq
  | @commit _ call result inserted hactive =>
    have hexecute := commit_eq_execute hs hactive
    have hcall := hseq.call call (admits_of_reachable hs hactive)
    rw [hexecute] at hcall
    exact hcall
  | abort hactive => exact hseq

variable (service admits) in
theorem exists_run_execute (hactive : s.active session = some (call, program)) :
    ∃ actions t, TransitionSystem.Run (service.Step admits) s actions t ∧
      t.rows = s.rows ++ (program.execute s.rows).2 ∧
      t.finished = s.finished ++ [(call, (program.execute s.rows).1)] ∧
      t.active = update s.active session none := by
  induction program generalizing s with
  | finish result inserted =>
    exact ⟨[.commit session], _, .cons (.commit hactive) (.nil _), rfl, rfl, rfl⟩
  | read next ih =>
    have hnext : (become s session call (next s.rows)).active session =
        some (call, next s.rows) := by
      rw [become_active, update_self]
    obtain ⟨actions, t, hrun, hrows, hfinished, hidle⟩ := ih s.rows hnext
    refine ⟨.statement session :: actions, t, .cons (.statement hactive) hrun, hrows, hfinished, ?_⟩
    rw [hidle, become_active, update_idem]

/-- Calls that run one after the other are a run of the interleaved transactions. -/
theorem reachable_of_sequential [Nonempty τ] {finished : List (ι × β)} {rows : List ρ}
    (h : service.Sequential admits finished rows) :
    ∃ s : State ρ β ι τ, TransitionSystem.Reachable (service.Step admits) (· = initial) s ∧
      s.finished = finished ∧ s.rows = rows ∧ s.active = fun _ => none := by
  induction h with
  | nil => exact ⟨initial, ⟨initial, [], rfl, .nil _⟩, rfl, rfl, rfl⟩
  | @call finished rows _ call hadmits ih =>
    obtain ⟨s, hs, rfl, rfl, hidle⟩ := ih
    obtain ⟨session⟩ := ‹Nonempty τ›
    have hfree : service.IsFree s call := fun other _ _ hactive => by
      rw [hidle] at hactive
      cases hactive
    have hstart : service.Step admits s (.start session call)
        (become s session call (service.program call)) :=
      .start (congrFun hidle session) hadmits hfree
    have hactive : (become s session call (service.program call)).active session =
        some (call, service.program call) := by
      rw [become_active, update_self]
    obtain ⟨actions, t, hrun, hrows, hfinished, hend⟩ :=
      exists_run_execute service admits hactive
    refine ⟨t, hs.run (.cons hstart hrun), hfinished, hrows, ?_⟩
    rw [hend, become_active, update_idem, hidle]
    exact update_eq_self session _

end Service

end Locking
