import ApiTruth.Foundation.LockOrder
import ApiTruth.Foundation.Runs
import ApiTruth.Orchestration.AdvisoryLocks
import Mathlib.Logic.Function.Basic

/-!
# Transactions under advisory locks

Any number of calls run transactions at once.  A transaction discovers locks and takes them in the
canonical order, waiting for each until no other transaction holds it.  When it then finds that it
needs more locks, it is rolled back, which releases all of them, and the call starts again with the
locks that were missing, four times at most.  A transaction may also end at any moment.

## Main definitions

* `LockSession`, `LockStep` : the calls and their steps.
* `LockSession.agent` : the locks of a call as the database sees them.

## Main results

* `advisoryLocks_acyclic` : the calls never wait for one another in a circle.
-/

namespace ApiTruth.Orchestration

open TransitionSystem LockOrder List Option Function

/-- A call of `withRestartingOrchestrationTransaction`. -/
structure LockSession where
  locks : List AdvisoryLockKey
  attempt : ℕ := 0
  transaction : Option (Agent AdvisoryLockKey) := none

namespace LockSession

/-- The locks that the transaction of a call holds and waits for. -/
def agent (session : LockSession) : Agent AdvisoryLockKey := session.transaction.getD {}

/-- A call has not started, and was given well-formed locks. -/
structure IsInitial (session : LockSession) : Prop where
  attempt : session.attempt = 0
  transaction : session.transaction = none
  locks : ∀ lock ∈ session.locks, lock.WellFormed

end LockSession

/-- The locks of `OrchestrationLockRestart` that `requireDiscoveredLocks` throws. -/
def missingLocks (acquired required : List AdvisoryLockKey) : Option (List AdvisoryLockKey) := do
  let required ← canonicalAdvisoryLocks required
  canonicalAdvisoryLocks (required.filter fun lock =>
    !(acquired.map advisoryLockIdentity).contains (advisoryLockIdentity lock))

inductive LockAction (ι : Type*)
  | start (call : ι) (discovered : List AdvisoryLockKey)
  | acquire (call : ι)
  | restart (call : ι) (required : List AdvisoryLockKey)
  | finish (call : ι)

section System

variable {ι κ : Type*} [DecidableEq ι] (hashtextextended : String → κ)

/-- The number that the database locks for a lock. -/
def lockNumber (lock : AdvisoryLockKey) : κ := hashtextextended lock.identity

inductive LockStep : (ι → LockSession) → LockAction ι → (ι → LockSession) → Prop
  /-- `BEGIN`, up to `acquireAdvisoryLocks`. -/
  | start {sessions : ι → LockSession} {call : ι} {discovered pending : List AdvisoryLockKey}
      (hidle : (sessions call).transaction = none) (hattempt : (sessions call).attempt < 4)
      (hdiscovered : ∀ lock ∈ discovered, lock.WellFormed)
      (hpending : canonicalAdvisoryLocks ((sessions call).locks ++ discovered) = some pending) :
      LockStep sessions (.start call discovered) (Function.update sessions call
        { sessions call with transaction := some ⟨[], pending⟩ })
  /-- `pg_advisory_xact_lock`. -/
  | acquire {sessions : ι → LockSession} {call : ι} {lock : AdvisoryLockKey}
      {held rest : List AdvisoryLockKey}
      (htransaction : (sessions call).transaction = some ⟨held, lock :: rest⟩)
      (hfree : ∀ other, other ≠ call → ∀ taken ∈ (sessions other).agent.held,
        lockNumber hashtextextended taken ≠ lockNumber hashtextextended lock) :
      LockStep sessions (.acquire call) (Function.update sessions call
        { sessions call with transaction := some ⟨held ++ [lock], rest⟩ })
  /-- `requireDiscoveredLocks` throws, and the transaction is rolled back. -/
  | restart {sessions : ι → LockSession} {call : ι} {held required missing : List AdvisoryLockKey}
      (htransaction : (sessions call).transaction = some ⟨held, []⟩)
      (hrequired : ∀ lock ∈ required, lock.WellFormed)
      (hmissing : missingLocks held required = some missing) (hne : missing ≠ []) :
      LockStep sessions (.restart call required) (Function.update sessions call
        { locks := (sessions call).locks ++ missing
          attempt := (sessions call).attempt + 1
          transaction := none })
  /-- `COMMIT`, or `ROLLBACK` with another error. -/
  | finish {sessions : ι → LockSession} {call : ι} {agent : Agent AdvisoryLockKey}
      (htransaction : (sessions call).transaction = some agent) :
      LockStep sessions (.finish call) (Function.update sessions call
        { sessions call with
          attempt := 4
          transaction := none })

/-- The locks of a call are well-formed, and its transaction takes them in order. -/
structure LockSession.Ordered (session : LockSession) : Prop where
  locks : ∀ lock ∈ session.locks, lock.WellFormed
  wellFormed : ∀ lock ∈ session.agent.held ++ session.agent.pending, lock.WellFormed
  ordered : session.agent.Ordered AdvisoryLockKey.Precedes

theorem LockSession.ordered_of_idle {session : LockSession} (h : session.transaction = none)
    (hlocks : ∀ lock ∈ session.locks, lock.WellFormed) : session.Ordered := by
  have hagent : session.agent = {} := by rw [LockSession.agent, h, getD_none]
  refine ⟨hlocks, ?_, ?_⟩
  · rw [hagent]
    simp
  · rw [hagent]
    exact List.Pairwise.nil

theorem wellFormed_of_missingLocks {acquired required missing : List AdvisoryLockKey}
    (h : missingLocks acquired required = some missing)
    (hrequired : ∀ lock ∈ required, lock.WellFormed) : ∀ lock ∈ missing, lock.WellFormed := by
  obtain ⟨locks, hlocks, h⟩ := bind_eq_some_iff.mp h
  obtain ⟨locks', hlocks', hmem, -⟩ := exists_canonicalAdvisoryLocks hrequired
  cases hlocks.symm.trans hlocks'
  have hfiltered : ∀ lock ∈ locks.filter (fun lock =>
      !(acquired.map advisoryLockIdentity).contains (advisoryLockIdentity lock)),
      lock.WellFormed := fun lock hlock =>
    hrequired lock ((hmem lock).mp (mem_of_mem_filter hlock))
  obtain ⟨missing', hmissing', hmem', -⟩ := exists_canonicalAdvisoryLocks hfiltered
  cases h.symm.trans hmissing'
  exact fun lock hlock => hfiltered lock ((hmem' lock).mp hlock)

variable {hashtextextended}

theorem LockStep.ordered {sessions sessions' : ι → LockSession} {action : LockAction ι}
    (hstep : LockStep hashtextextended sessions action sessions')
    (h : ∀ call, (sessions call).Ordered) : ∀ call, (sessions' call).Ordered := by
  have hupdate {call : ι} {session : LockSession} (hsession : session.Ordered) :
      ∀ other, (update sessions call session other).Ordered := by
    intro other
    by_cases hother : other = call
    · subst hother
      rwa [update_self]
    · rw [update_of_ne hother]
      exact h other
  cases hstep with
  | @start call discovered pending hidle hattempt hdiscovered hpending =>
    have hinputs : ∀ lock ∈ (sessions call).locks ++ discovered, lock.WellFormed := by
      intro lock hlock
      rcases List.mem_append.mp hlock with hlock | hlock
      · exact (h call).locks lock hlock
      · exact hdiscovered lock hlock
    obtain ⟨pending', hpending', hmem, hordered⟩ := exists_canonicalAdvisoryLocks hinputs
    cases hpending.symm.trans hpending'
    exact hupdate ⟨(h call).locks, fun lock hlock => hinputs lock ((hmem lock).mp hlock), hordered⟩
  | @acquire call lock held rest htransaction hfree =>
    have hagent : (sessions call).agent = ⟨held, lock :: rest⟩ := by
      rw [LockSession.agent, htransaction, getD_some]
    refine hupdate ⟨(h call).locks, ?_, ?_⟩
    · have hwellFormed := (h call).wellFormed
      rw [hagent] at hwellFormed
      simpa [LockSession.agent] using hwellFormed
    · exact Agent.Ordered.acquire (hagent ▸ (h call).ordered)
  | @restart call held required missing htransaction hrequired hmissing hne =>
    refine hupdate (LockSession.ordered_of_idle rfl fun lock hlock => ?_)
    rcases List.mem_append.mp hlock with hlock | hlock
    · exact (h call).locks lock hlock
    · exact wellFormed_of_missingLocks hmissing hrequired lock hlock
  | @finish call agent htransaction =>
    exact hupdate (LockSession.ordered_of_idle rfl (h call).locks)

theorem ordered_of_reachable {sessions : ι → LockSession}
    (h : Reachable (LockStep hashtextextended) (fun s => ∀ call, (s call).IsInitial) sessions) :
    ∀ call, (sessions call).Ordered :=
  h.invariant (fun _ hinitial call =>
    LockSession.ordered_of_idle (hinitial call).transaction (hinitial call).locks)
    fun _ _ _ hordered hstep => hstep.ordered hordered

instance : IsTrans AdvisoryLockKey AdvisoryLockKey.Precedes :=
  ⟨fun _ _ _ => lt_trans (α := ℕ ×ₗ String)⟩

instance : Std.Irrefl AdvisoryLockKey.Precedes := ⟨fun _ => lt_irrefl (α := ℕ ×ₗ String) _⟩

/-- The calls do not wait for one another in a circle, as long as the database tells the texts of
their locks apart. -/
theorem not_transGen_waitsFor_of_reachable {sessions : ι → LockSession}
    (h : Reachable (LockStep hashtextextended) (fun s => ∀ call, (s call).IsInitial) sessions)
    (hkey : ∀ call other, ∀ lock ∈ (sessions call).agent.pending,
      ∀ taken ∈ (sessions other).agent.held,
        hashtextextended taken.identity = hashtextextended lock.identity →
          taken.identity = lock.identity) (call : ι) :
    ¬ Relation.TransGen (WaitsFor (lockNumber hashtextextended) fun call => (sessions call).agent)
      call call := by
  have hordered := ordered_of_reachable h
  refine not_transGen_waitsFor (fun call => (hordered call).ordered) ?_ call
  intro i j lock hlock taken htaken heq
  exact AdvisoryLockKey.identity_inj ((hordered j).wellFormed taken (mem_append_left _ htaken))
    ((hordered i).wellFormed lock (mem_append_right _ hlock)) (hkey i j lock hlock taken htaken heq)

end System

/-- The canonical list of well-formed locks has the same locks, each once and in the order of their
ranks and texts; the texts determine the locks; and calls that run transactions under such locks
never wait for one another in a circle, whether the database locks the texts themselves or numbers
that tell the texts of the locks in play apart. -/
theorem advisoryLocks_acyclic {ι κ : Type*} [DecidableEq ι] (hashtextextended : String → κ) :
    (∀ inputs : List AdvisoryLockKey, (∀ lock ∈ inputs, lock.WellFormed) →
      ∃ locks, canonicalAdvisoryLocks inputs = some locks ∧ locks.Nodup ∧
        (∀ lock, lock ∈ locks ↔ lock ∈ inputs) ∧ locks.Pairwise AdvisoryLockKey.Precedes) ∧
    (∀ left right : AdvisoryLockKey, left.WellFormed → right.WellFormed →
      advisoryLockIdentity left = advisoryLockIdentity right → left = right) ∧
    (∀ sessions : ι → LockSession,
      Reachable (LockStep id) (fun s => ∀ call, (s call).IsInitial) sessions → ∀ call,
        ¬ Relation.TransGen (WaitsFor (lockNumber id) fun call => (sessions call).agent)
          call call) ∧
    ∀ sessions : ι → LockSession,
      Reachable (LockStep hashtextextended) (fun s => ∀ call, (s call).IsInitial) sessions →
      (∀ call other, ∀ lock ∈ (sessions call).agent.pending,
        ∀ taken ∈ (sessions other).agent.held,
          hashtextextended taken.identity = hashtextextended lock.identity →
            taken.identity = lock.identity) → ∀ call,
        ¬ Relation.TransGen
          (WaitsFor (lockNumber hashtextextended) fun call => (sessions call).agent) call call := by
  refine ⟨fun inputs hinputs => ?_, fun left right => advisoryLockIdentity_inj,
    fun sessions h => not_transGen_waitsFor_of_reachable h fun _ _ _ _ _ _ heq => heq,
    fun sessions h hkey => not_transGen_waitsFor_of_reachable h hkey⟩
  obtain ⟨locks, hlocks, hmem, hordered⟩ := exists_canonicalAdvisoryLocks hinputs
  exact ⟨locks, hlocks, hordered.imp fun hlt => ne_of_apply_ne lockRank hlt.ne, hmem, hordered⟩

/-- The locks of a promotion and of a configuration change. -/
theorem advisoryLocks_acyclic_promotion :
    ∃ locks, canonicalAdvisoryLocks [catalogBranchLock "t" "r" "s" "b", configurationLock "t"] =
        some locks ∧ locks.Nodup ∧
      (∀ lock, lock ∈ locks ↔ lock ∈ [catalogBranchLock "t" "r" "s" "b", configurationLock "t"]) ∧
      locks.Pairwise AdvisoryLockKey.Precedes := by
  refine (advisoryLocks_acyclic (ι := Bool) String.length).1 _ fun lock hlock => ?_
  simp only [mem_cons, not_mem_nil, or_false] at hlock
  rcases hlock with rfl | rfl
  · exact wellFormed_catalogBranchLock (by decide)
  · exact wellFormed_plain (by decide) rfl (cons_ne_nil _ _) (by decide)

end ApiTruth.Orchestration
