import ApiTruth.Foundation.Runs
import Mathlib.Data.Bool.Basic
import Mathlib.Data.List.Rotate

/-!
# The maintenance runner of field presence

The runner cleans up the results of a few policies at a time, in rotation.  Passes are asked for by
hand or by a timer, and the promises of their credentials and cleanups settle in any order with the
calls of `runOnce`, `start` and `stop`; a step is what runs between two of them.  Passes that go on
at the same time, and timeouts that nobody holds, are possible states, which the flags of the runner
exclude.

## Main definitions

* `Runner.next` : the state after an event, with `execute`, `schedule` and the loop of a pass.
* `Runner.Sound` : the invariant of the runner.

## Main results

* `Runner.passes_exclusive` : passes exclude each other, and a runner that has stopped is quiet.
* `Runner.attempts_rotate` : the policies take turns.
-/

namespace ApiTruth.Observations

open List TransitionSystem

/-- A `FieldPresenceOwnerBinding`. -/
structure OwnerBinding where
  tenantId : String
  repositoryId : String
  serviceId : String
  environment : String
  policyId : String
  ownerAccessScopeId : String
deriving DecidableEq

/-- The columns by which `bindingKey` tells bindings apart. -/
def OwnerBinding.bindingKey (binding : OwnerBinding) : List String :=
  [binding.tenantId, binding.repositoryId, binding.serviceId, binding.environment, binding.policyId]

structure RunnerOptions where
  bindings : List OwnerBinding
  policiesPerTick : ℕ
  batchLimit : ℕ
  bindings_le : bindings.length ≤ 128
  nodup : (bindings.map OwnerBinding.bindingKey).Nodup
  policies_bounds : 1 ≤ policiesPerTick ∧ policiesPerTick ≤ 16
  batch_bounds : 1 ≤ batchLimit ∧ batchLimit ≤ 100

/-- The number of policies of a pass. -/
def RunnerOptions.count (options : RunnerOptions) : ℕ :=
  min options.policiesPerTick options.bindings.length

theorem RunnerOptions.bindings_pos (options : RunnerOptions) {offset : ℕ}
    (h : offset < options.count) : 0 < options.bindings.length :=
  Nat.zero_lt_of_lt (lt_of_lt_of_le h (Nat.min_le_right _ _))

inductive SummaryStatus
  | completed
  | busy
  | stopped
deriving DecidableEq, Repr

structure MaintenanceSummary where
  status : SummaryStatus
  attempted : ℕ := 0
  succeeded : ℕ := 0
  failed : ℕ := 0
deriving DecidableEq, Repr

/-- The variables of a call of `execute` that waits for a credential, or for a cleanup. -/
structure Pass where
  offset : ℕ := 0
  attempted : ℕ := 0
  succeeded : ℕ := 0
  failed : ℕ := 0
  cleaning : Bool := false
deriving DecidableEq, Repr

/-- The variables of a runner, the timeouts and passes of the event loop, and what has been
attempted and returned so far; `stopAwaits` says that `stop` waits for `activeDone`. -/
structure Runner where
  cursor : ℕ := 0
  active : Bool := false
  started : Bool := false
  stopping : Bool := false
  timer : Bool := false
  stopAwaits : Bool := false
  timeouts : ℕ := 0
  passes : List Pass := []
  attempts : List OwnerBinding := []
  summaries : List MaintenanceSummary := []
deriving DecidableEq

inductive RunnerEvent
  | runOnce
  | timeout
  /-- A pass has got a credential or not; with one it calls `cleanup`, which may throw. -/
  | credential (index : ℕ) (ok throws : Bool)
  /-- A cleanup has settled, with a number of removed rows if its result has one. -/
  | cleanup (index : ℕ) (removed : Option ℤ)
  | start
  | stop
  /-- The promise of `stop` settles. -/
  | stopped
deriving DecidableEq

namespace Runner

section Steps

variable (options : RunnerOptions) (r : Runner)

def schedule : Runner :=
  if r.started = false ∨ r.stopping = true ∨ r.timer = true ∨ r.active = true then r
  else { r with timer := true, timeouts := r.timeouts + 1 }

/-- `clearTimeout(timer)`. -/
def clearTimer : Runner :=
  if r.timer = true then { r with timer := false, timeouts := r.timeouts - 1 } else r

/-- The head of the loop of `execute`: the pass goes on to the next binding, or it ends. -/
def proceed (pass : Pass) : Runner :=
  if h : pass.offset < options.count ∧ r.stopping = false then
    { r with
      cursor := (r.cursor + 1) % options.bindings.length
      passes := { pass with attempted := pass.attempted + 1, cleaning := false } :: r.passes
      attempts := r.attempts ++
        [options.bindings.get ⟨_, Nat.mod_lt r.cursor (options.bindings_pos h.1)⟩] }
  else schedule
    { r with
      active := false
      stopAwaits := false
      summaries := r.summaries ++ [⟨.completed, pass.attempted, pass.succeeded, pass.failed⟩] }

/-- A promise settles for which a pass has waited. -/
def settle (index : ℕ) (pass : Pass) : Runner :=
  { r with passes := r.passes.eraseIdx index }.proceed options
    { pass with offset := pass.offset + 1 }

def execute : Runner :=
  if r.active = true then { r with summaries := r.summaries ++ [{ status := .busy }] }
  else if r.stopping = true then { r with summaries := r.summaries ++ [{ status := .stopped }] }
  else { r.clearTimer with active := true }.proceed options {}

/-- The number of tasks in `cleanupDrain`. -/
def drain : ℕ := r.passes.countP (·.cleaning)

/-- The state after an event, if the event can happen. -/
def next : RunnerEvent → Option Runner
  | .runOnce => some (r.execute options)
  | .timeout =>
    if 0 < r.timeouts then
      some ({ r with timer := false, timeouts := r.timeouts - 1 }.execute options)
    else none
  | .credential index ok throws =>
    r.passes[index]?.bind fun pass =>
      if pass.cleaning = true then none
      else if ok = false ∨ r.stopping = true ∨ throws = true then
        some (r.settle options index { pass with failed := pass.failed + 1 })
      else some { r with passes := r.passes.set index { pass with cleaning := true } }
  | .cleanup index removed =>
    r.passes[index]?.bind fun pass =>
      if pass.cleaning = false then none
      else if removed.any (fun n => decide (0 ≤ n ∧ n ≤ (options.batchLimit : ℤ))) = true then
        some (r.settle options index { pass with succeeded := pass.succeeded + 1 })
      else some (r.settle options index { pass with failed := pass.failed + 1 })
  | .start =>
    some (if r.stopping = true ∨ r.started = true then r else { r with started := true }.schedule)
  | .stop =>
    some (if r.stopping = true then r
      else { r.clearTimer with stopping := true, started := false, stopAwaits := r.active })
  | .stopped =>
    if r.stopping = true ∧ r.stopAwaits = false ∧ r.drain = 0 then some { r with stopping := false }
    else none

def Step (r : Runner) (event : RunnerEvent) (r' : Runner) : Prop := r.next options event = some r'

end Steps

variable {options : RunnerOptions} {r r' : Runner} {pass : Pass}

/-! ### The invariant -/

/-- What a pass has counted, without the attempt that is going on. -/
structure Counts (options : RunnerOptions) (pass : Pass) (going : ℕ) : Prop where
  offset : pass.attempted = pass.offset + going
  settled : pass.attempted = pass.succeeded + pass.failed + going
  attempted_le : pass.attempted ≤ options.count

/-- The summaries add up, and the bindings have been attempted in rotation. -/
structure Logged (options : RunnerOptions) (cursor : ℕ) (attempts : List OwnerBinding)
    (summaries : List MaintenanceSummary) : Prop where
  summarised : ∀ summary ∈ summaries,
    summary.attempted = summary.succeeded + summary.failed ∧ summary.attempted ≤ options.count
  cursor_eq : cursor = attempts.length % options.bindings.length
  attempts_eq : ∀ i < attempts.length,
    attempts[i]? = options.bindings[i % options.bindings.length]?

/-- The flags of the runner tell what goes on, and its numbers add up. -/
structure Sound (options : RunnerOptions) (r : Runner) : Prop where
  exclusive : r.passes.length = r.active.toNat
  timeouts_eq : r.timeouts = r.timer.toNat
  timer_eq : r.timer = (r.started && !r.stopping && !r.active)
  stopping_imp : r.stopping = true → r.started = false ∧ r.stopAwaits = r.active
  counts : ∀ pass ∈ r.passes, Counts options pass 1
  logged : Logged options r.cursor r.attempts r.summaries

/-- The state while a pass runs, which is not in the list then. -/
structure Running (options : RunnerOptions) (r : Runner) : Prop where
  active_eq : r.active = true
  passes_eq : r.passes = []
  timeouts_eq : r.timeouts = 0
  timer_eq : r.timer = false
  stopping_imp : r.stopping = true → r.started = false ∧ r.stopAwaits = true
  logged : Logged options r.cursor r.attempts r.summaries

section Logs

variable {cursor : ℕ} {attempts : List OwnerBinding} {summaries : List MaintenanceSummary}

theorem Logged.attempt (h : Logged options cursor attempts summaries)
    (hpos : 0 < options.bindings.length) :
    Logged options ((cursor + 1) % options.bindings.length)
      (attempts ++ [options.bindings.get ⟨_, Nat.mod_lt cursor hpos⟩]) summaries := by
  refine ⟨h.summarised, ?_, fun i hi => ?_⟩
  · simp only [length_append, length_singleton, h.cursor_eq, Nat.mod_add_mod]
  · rw [length_append, length_singleton, Nat.lt_succ_iff_lt_or_eq] at hi
    rcases hi with hlt | rfl
    · rw [getElem?_append_left hlt]
      exact h.attempts_eq i hlt
    · simp [h.cursor_eq]

theorem Logged.summarise (h : Logged options cursor attempts summaries)
    {summary : MaintenanceSummary}
    (hsettled : summary.attempted = summary.succeeded + summary.failed)
    (hle : summary.attempted ≤ options.count) :
    Logged options cursor attempts (summaries ++ [summary]) :=
  ⟨forall_mem_append.mpr ⟨h.summarised, forall_mem_singleton.mpr ⟨hsettled, hle⟩⟩, h.cursor_eq,
    h.attempts_eq⟩

end Logs

/-- `schedule` sets the timer of a runner that has been started. -/
theorem sound_schedule (hactive : r.active = false) (hpasses : r.passes = [])
    (htimeouts : r.timeouts = 0) (htimer : r.timer = false)
    (hstopping : r.stopping = true → r.started = false ∧ r.stopAwaits = false)
    (hlogged : Logged options r.cursor r.attempts r.summaries) : Sound options r.schedule := by
  unfold schedule
  split
  · rename_i hnot
    refine ⟨by simp [hpasses, hactive], by simp [htimeouts, htimer], ?_,
      by simpa [hactive] using hstopping, by simp [hpasses], hlogged⟩
    simp only [htimer, hactive, Bool.false_eq_true, or_false] at hnot ⊢
    rcases hnot with hnot | hnot <;> simp [hnot]
  · rename_i hwill
    simp only [not_or, Bool.not_eq_false, Bool.not_eq_true] at hwill
    exact ⟨by simp [hpasses, hactive], by simp [htimeouts], by simp [hwill], by simp [hwill],
      by simp [hpasses], hlogged⟩

/-- While the runner stops nothing begins, and a pass that is not stopped is complete. -/
structure Orderly (options : RunnerOptions) (r r' : Runner) : Prop where
  quiet : r.stopping = true → r'.attempts = r.attempts ∧ r'.drain ≤ r.drain
  complete : ∀ summary, r'.summaries = r.summaries ++ [summary] → summary.status = .completed →
    summary.attempted = options.count ∨ r.stopping = true

theorem Orderly.of_eq (hattempts : r'.attempts = r.attempts) (hpasses : r'.passes = r.passes)
    (hsummaries : r'.summaries = r.summaries) : Orderly options r r' :=
  ⟨fun _ => ⟨hattempts, by rw [drain, hpasses, drain]⟩, fun _ h => by simp [hsummaries] at h⟩

theorem schedule_eq (r : Runner) : ∃ timer timeouts, r.schedule = { r with timer, timeouts } := by
  unfold schedule
  split
  · exact ⟨_, _, rfl⟩
  · exact ⟨_, _, rfl⟩

/-- A pass goes on to its next binding or ends. -/
theorem Running.proceed (h : Running options r) (hcounts : Counts options pass 0) :
    Sound options (r.proceed options pass) ∧ Orderly options r (r.proceed options pass) := by
  have hoffset := hcounts.offset
  have hle := hcounts.attempted_le
  unfold Runner.proceed
  split
  · rename_i hgoes
    refine ⟨⟨by simp [h.active_eq, h.passes_eq], by simp [h.timeouts_eq, h.timer_eq],
      by simp [h.timer_eq, h.active_eq], by simpa [h.active_eq] using h.stopping_imp, ?_,
      h.logged.attempt (options.bindings_pos hgoes.1)⟩, by simp [hgoes.2], fun _ h => by simp at h⟩
    simp only [h.passes_eq, forall_mem_singleton]
    exact ⟨congrArg (· + 1) hoffset, congrArg (· + 1) hcounts.settled, by simp only; omega⟩
  · rename_i hends
    refine ⟨sound_schedule rfl h.passes_eq h.timeouts_eq h.timer_eq
      (fun hstopping => ⟨(h.stopping_imp hstopping).1, rfl⟩)
      (h.logged.summarise hcounts.settled hle), ?_⟩
    obtain ⟨timer, timeouts, hschedule⟩ := schedule_eq { r with
      active := false
      stopAwaits := false
      summaries := r.summaries ++ [⟨.completed, pass.attempted, pass.succeeded, pass.failed⟩] }
    rw [hschedule]
    refine ⟨fun _ => ⟨rfl, le_rfl⟩, fun summary h _ => ?_⟩
    rw [append_cancel_left_eq, singleton_inj] at h
    rw [not_and_or, Bool.not_eq_false] at hends
    exact hends.imp_left fun hends => by simp only [← h]; omega

theorem Sound.passes_eq (h : Sound options r) (hactive : r.active = false) : r.passes = [] := by
  simpa [hactive] using h.exclusive

theorem clearTimer_eq (h : r.timeouts = r.timer.toNat) :
    r.clearTimer = { r with timer := false, timeouts := 0 } := by
  unfold clearTimer
  split_ifs with htimer
  · simp [h, htimer]
  · obtain htimer := Bool.eq_false_iff.mpr htimer
    rw [htimer] at h
    cases r
    cases htimer
    cases h
    rfl

/-- A pass begins. -/
theorem sound_begin (hactive : r.active = false) (hstopping : r.stopping = false)
    (hpasses : r.passes = []) (htimeouts : r.timeouts = r.timer.toNat)
    (hlogged : Logged options r.cursor r.attempts r.summaries) :
    Sound options (r.execute options) ∧ Orderly options r (r.execute options) := by
  rw [Runner.execute, if_neg (by simp [hactive]), if_neg (by simp [hstopping]),
    clearTimer_eq htimeouts]
  have hrunning : Running options { r with timer := false, timeouts := 0, active := true } :=
    ⟨rfl, hpasses, rfl, rfl, by simp [hstopping], hlogged⟩
  have hcounts : Counts options {} 0 := ⟨rfl, rfl, Nat.zero_le _⟩
  obtain ⟨hsound, hquiet, hcomplete⟩ := hrunning.proceed hcounts
  exact ⟨hsound, hquiet, hcomplete⟩

/-- A call returns at once, because of a pass or of `stop`. -/
theorem Sound.refuse (h : Sound options r) {status : SummaryStatus}
    (hstatus : status ≠ .completed) :
    Sound options { r with summaries := r.summaries ++ [{ status }] } ∧
      Orderly options r { r with summaries := r.summaries ++ [{ status }] } := by
  refine ⟨{ h with logged := h.logged.summarise rfl (Nat.zero_le _) }, fun _ => ⟨rfl, le_rfl⟩, ?_⟩
  intro summary hsummary hcompleted
  rw [append_cancel_left_eq, singleton_inj] at hsummary
  subst hsummary
  exact absurd hcompleted hstatus

theorem Sound.execute (h : Sound options r) :
    Sound options (r.execute options) ∧ Orderly options r (r.execute options) := by
  by_cases hactive : r.active = true
  · rw [Runner.execute, if_pos hactive]
    exact h.refuse SummaryStatus.noConfusion
  · by_cases hstopping : r.stopping = true
    · rw [Runner.execute, if_neg hactive, if_pos hstopping]
      exact h.refuse SummaryStatus.noConfusion
    · rw [Bool.not_eq_true] at hactive hstopping
      exact sound_begin hactive hstopping (h.passes_eq hactive) h.timeouts_eq h.logged

/-- Only one pass can be in the list, and it runs when it has been taken out. -/
theorem Sound.running (h : Sound options r) {index : ℕ} (hpass : r.passes[index]? = some pass) :
    r.passes = [pass] ∧ index = 0 ∧ Running options { r with passes := [] } := by
  have hactive : r.active = true := by
    by_contra hactive
    simp [h.passes_eq (Bool.eq_false_iff.mpr hactive)] at hpass
  obtain ⟨other, hother⟩ := length_eq_one_iff.mp (h.exclusive.trans (congrArg _ hactive))
  obtain ⟨rfl, rfl⟩ : index = 0 ∧ other = pass := by
    rw [hother] at hpass
    cases index <;> simp_all
  have htimer : r.timer = false := by simpa [hactive] using h.timer_eq
  exact ⟨hother, rfl, hactive, rfl, by simp [h.timeouts_eq, htimer], htimer,
    hactive ▸ h.stopping_imp, h.logged⟩

theorem Sound.settle (h : Sound options r) {index : ℕ} (hpass : r.passes[index]? = some pass)
    {pass' : Pass} (hcounts : Counts options { pass' with offset := pass'.offset + 1 } 0) :
    Sound options (r.settle options index pass') ∧
      Orderly options r (r.settle options index pass') := by
  obtain ⟨hpasses, rfl, hrunning⟩ := h.running hpass
  rw [Runner.settle, hpasses, eraseIdx_cons_zero]
  obtain ⟨hsound, hquiet, hcomplete⟩ := hrunning.proceed hcounts
  exact ⟨hsound, fun hstopping => (hquiet hstopping).imp_right fun hle => hle.trans (Nat.zero_le _),
    hcomplete⟩

theorem Sound.next (h : Sound options r) {event : RunnerEvent} (hnext : Step options r event r') :
    Sound options r' ∧ Orderly options r r' := by
  unfold Step Runner.next at hnext
  cases event with
  | runOnce =>
    cases hnext
    exact h.execute
  | timeout =>
    simp only [Option.ite_none_right_eq_some, Option.some.injEq] at hnext
    obtain ⟨hpos, rfl⟩ := hnext
    have htimer : r.timer = true := by
      by_contra hoff
      simp [h.timeouts_eq, Bool.eq_false_iff.mpr hoff] at hpos
    have hflags := htimer ▸ h.timer_eq
    simp only [Bool.true_eq, Bool.and_eq_true, Bool.not_eq_true'] at hflags
    obtain ⟨hsound, hquiet, hcomplete⟩ := sound_begin
      (r := { r with timer := false, timeouts := r.timeouts - 1 }) hflags.2 hflags.1.2
      (h.passes_eq hflags.2) (by simp [h.timeouts_eq, htimer]) h.logged
    exact ⟨hsound, hquiet, hcomplete⟩
  | credential index ok throws =>
    obtain ⟨pass, hpass, hnext⟩ := Option.bind_eq_some_iff.mp hnext
    obtain ⟨hoffset, hsettled, hle⟩ := h.counts pass (mem_of_getElem? hpass)
    split_ifs at hnext with hcleaning hfails <;> cases hnext
    · exact h.settle hpass ⟨hoffset, hsettled, hle⟩
    · obtain ⟨hpasses, rfl, -⟩ := h.running hpass
      simp only [not_or, Bool.not_eq_true] at hfails
      refine ⟨⟨by simp [h.exclusive], h.2, h.3, h.4, ?_, h.logged⟩, by simp [hfails.2.1],
        fun _ h => by simp at h⟩
      simp only [hpasses, set_cons_zero, forall_mem_singleton]
      exact ⟨hoffset, hsettled, hle⟩
  | cleanup index removed =>
    obtain ⟨pass, hpass, hnext⟩ := Option.bind_eq_some_iff.mp hnext
    obtain ⟨hoffset, hsettled, hle⟩ := h.counts pass (mem_of_getElem? hpass)
    split_ifs at hnext with hcleaning hremoved <;> cases hnext <;>
      exact h.settle hpass ⟨hoffset, by simp only; omega, hle⟩
  | start =>
    cases hnext
    split_ifs with hstart
    · exact ⟨h, .of_eq rfl rfl rfl⟩
    · simp only [not_or, Bool.not_eq_true] at hstart
      have htimer : r.timer = false := by simp [h.timer_eq, hstart.2]
      obtain ⟨timer, timeouts, hschedule⟩ := schedule_eq { r with started := true }
      refine ⟨?_, hschedule ▸ .of_eq rfl rfl rfl⟩
      by_cases hactive : r.active = true
      · rw [schedule, if_pos (by simp [hactive])]
        exact ⟨h.exclusive, h.timeouts_eq, by simp [htimer, hactive], by simp [hstart.1], h.counts,
          h.logged⟩
      · rw [Bool.not_eq_true] at hactive
        exact sound_schedule hactive (h.passes_eq hactive) (by simp [h.timeouts_eq, htimer]) htimer
          (by simp [hstart.1]) h.logged
  | stop =>
    cases hnext
    split_ifs with hstop
    · exact ⟨h, .of_eq rfl rfl rfl⟩
    · rw [clearTimer_eq h.timeouts_eq]
      exact ⟨⟨h.exclusive, rfl, by simp, fun _ => ⟨rfl, rfl⟩, h.counts, h.logged⟩,
        .of_eq rfl rfl rfl⟩
  | stopped =>
    simp only [Option.ite_none_right_eq_some, Option.some.injEq] at hnext
    obtain ⟨⟨hstopping, -⟩, rfl⟩ := hnext
    have hstopped := h.stopping_imp hstopping
    exact ⟨⟨h.exclusive, h.timeouts_eq, by simp [h.timer_eq, hstopped.1], by simp, h.counts,
      h.logged⟩, .of_eq rfl rfl rfl⟩

theorem sound_of_reachable (hr : Reachable (Step options) (· = {}) r) : Sound options r :=
  hr.invariant (fun _ hr => hr ▸ ⟨rfl, rfl, rfl, by simp, by simp, by simp, by simp, by simp⟩)
    fun _ _ _ h hnext => (h.next hnext).1

/-- However calls, timeouts and promises interleave, there is at most one pass, and with it at most
one cleanup; a timeout is set exactly while the runner is started and idle; and every attempt of a
pass counts as a success or as a failure.  While the runner stops no attempt and no cleanup begins,
any other pass attempts all policies of a tick, and nothing is left when `stop` has settled. -/
theorem passes_exclusive (hr : Reachable (Step options) (· = {}) r) :
    r.passes.length ≤ 1 ∧ (r.active = true ↔ r.passes ≠ []) ∧ r.timeouts ≤ 1 ∧
      (r.timeouts ≠ 0 ↔ r.started = true ∧ r.stopping = false ∧ r.passes = []) ∧
      (∀ summary ∈ r.summaries, summary.attempted = summary.succeeded + summary.failed ∧
        summary.attempted ≤ options.count) ∧
      ∀ event r', Step options r event r' → Orderly options r r' ∧
        (event = .stopped → r'.passes = [] ∧ r'.timeouts = 0 ∧ r'.started = false) := by
  have h := sound_of_reachable hr
  have hidle : r.passes = [] ↔ r.active = false := by
    rw [← length_eq_zero_iff, h.exclusive]
    cases r.active <;> simp
  refine ⟨h.exclusive ▸ Bool.toNat_le _, by rw [ne_eq, hidle, Bool.not_eq_false],
    h.timeouts_eq ▸ Bool.toNat_le _, ?_, h.logged.summarised,
    fun event r' hnext => ⟨(h.next hnext).2, ?_⟩⟩
  · rw [hidle, h.timeouts_eq, h.timer_eq]
    cases r.started <;> cases r.stopping <;> cases r.active <;> simp
  · rintro rfl
    unfold Step Runner.next at hnext
    simp only [Option.ite_none_right_eq_some, Option.some.injEq] at hnext
    obtain ⟨⟨hstopping, hawaits, -⟩, rfl⟩ := hnext
    obtain ⟨hstarted, hsame⟩ := h.stopping_imp hstopping
    exact ⟨h.passes_eq (hsame ▸ hawaits), by simp [h.timeouts_eq, h.timer_eq, hstarted], hstarted⟩

/-- Any attempts in a row, as many as there are policies, attempt each policy once, in the order of
the bindings from some point on. -/
theorem attempts_rotate (hr : Reachable (Step options) (· = {}) r) {i : ℕ}
    (hi : i + options.bindings.length ≤ r.attempts.length) :
    (r.attempts.drop i).take options.bindings.length = options.bindings.rotate i := by
  have hattempts := (sound_of_reachable hr).logged.attempts_eq
  refine ext_getElem? fun k => ?_
  by_cases hk : k < options.bindings.length
  · rw [getElem?_take_of_lt hk, getElem?_drop, hattempts (i + k) (by omega), getElem?_rotate hk,
      Nat.add_comm]
  · rw [getElem?_eq_none (by simp; omega), getElem?_eq_none (by simp; omega)]

def sampleRunnerOptions : RunnerOptions where
  bindings := ["a", "b"].map fun policyId => ⟨"t", "r", "s", "e", policyId, "o"⟩
  policiesPerTick := 1
  batchLimit := 20
  bindings_le := by decide
  nodup := by decide
  policies_bounds := by decide
  batch_bounds := by decide

/-- A pass by hand, and one by the timer that is told to stop. -/
def sampleRunnerEvents : List RunnerEvent :=
  [.runOnce, .credential 0 true false, .cleanup 0 (some 3), .start, .timeout, .stop,
    .credential 0 true false]

/-- The runner waits for the promise of `stop`. -/
def sampleRunner : Runner where
  stopping := true
  attempts := sampleRunnerOptions.bindings
  summaries := [⟨.completed, 1, 1, 0⟩, ⟨.completed, 1, 0, 1⟩]

theorem reachable_of_foldlM {events : List RunnerEvent}
    (h : events.foldlM (fun r event => Runner.next options r event) r = some r') :
    Run (Step options) r events r' := by
  induction events generalizing r with
  | nil =>
    cases h
    exact .nil _
  | cons event events ih =>
    obtain ⟨t, hnext, hrest⟩ := Option.bind_eq_some_iff.mp h
    exact .cons hnext (ih hrest)

theorem reachable_sampleRunner :
    Reachable (Step sampleRunnerOptions) (· = {}) sampleRunner :=
  ⟨{}, sampleRunnerEvents, rfl, reachable_of_foldlM (by decide)⟩

theorem passes_exclusive_sample : sampleRunner.next sampleRunnerOptions .stopped ≠ none ∧
    ∀ r, Step sampleRunnerOptions sampleRunner .stopped r → r.timeouts = 0 :=
  ⟨by decide, fun r h =>
    (((passes_exclusive reachable_sampleRunner).2.2.2.2.2 .stopped r h).2 rfl).2.1⟩

theorem attempts_rotate_sample :
    (sampleRunner.attempts.drop 0).take 2 = sampleRunnerOptions.bindings.rotate 0 :=
  attempts_rotate reachable_sampleRunner (by decide)

end Runner

end ApiTruth.Observations
