import ApiTruth.Foundation.Runs
import ApiTruth.Orchestration.Outbox
import Mathlib.Algebra.Order.BigOperators.Group.List
import Mathlib.Logic.Relation

/-!
# Leases of outbox rows

Any number of workers claim, acknowledge and fail rows of the outbox, while other transactions
store new rows and time passes.  A claim is two steps, the discovery and the locked part, and
anything may happen between them.  The state remembers, for every row, the leases that claims have
granted and those that their holders have ended.

A claim is a sequence of small transitions, each of which changes one row.  What such a transition
keeps is said of the row and of the leases granted for it (`OutboxRow.Sound`).

## Main definitions

* `OutboxSystem`, `OutboxAction`, `OutboxSystem.attempt`, `OutboxSystem.Step`.
* `OutboxSystem.IsLive` : a granted lease that has neither run out nor been ended.
* `OutboxRow.Sound`, `OutboxSystem.Valid` : what every reachable state satisfies.

## Main results

* `OutboxSystem.claimOutbox_spec` : a claim never raises, and refines the small transitions.
* `OutboxSystem.valid_attempt` : every step keeps the invariant.
-/

namespace ApiTruth.Orchestration

open Checked List Bool Function

/-- A lease that a claim has granted to a worker. -/
structure LeaseGrant where
  worker : WorkerIdentity
  record : LeasedOutboxRecord

namespace LeaseGrant

/-- The lease columns that the claim has written. -/
def columns (grant : LeaseGrant) : LeaseColumns :=
  ⟨grant.worker.workerId, grant.worker.instanceId, grant.record.lease.leaseToken,
    grant.record.leaseExpiresAt⟩

/-- The number of the attempt that the lease is for. -/
def attempt (grant : LeaseGrant) : ℕ := grant.record.attemptCount

end LeaseGrant

structure OutboxSystem where
  store : OutboxStore
  /-- The claims between discovery and locks. -/
  batches : List ClaimBatch
  /-- The leases ever granted for a row. -/
  granted : OutboxKey → List LeaseGrant
  /-- The attempts whose lease the holder has ended. -/
  ended : OutboxKey → List ℕ

inductive OutboxAction
  | insert (tenantId digest : String) (message : OutboxMessage) (availableAt createdAt : ℕ)
  | wait (tenantId : String) (ms : ℕ)
  | discover (worker : AuthenticatedWorker) (limit : Option ℕ)
  | claim (index : ℕ) (circumstances : OutboxKey → RowCircumstances)
  | acknowledge (worker : AuthenticatedWorker) (lease : OutboxLease) (beforeUpdate : ℕ)
  | fail (worker : AuthenticatedWorker) (lease : OutboxLease) (beforeUpdate : ℕ)

/-- The row that a record is about. -/
def LeasedOutboxRecord.key (record : LeasedOutboxRecord) : OutboxKey :=
  ⟨record.tenantId, record.outboxId⟩

namespace OutboxSystem

variable (s : OutboxSystem)

/-- The leases granted for a row, with those of a claim that is being made. -/
def grantedWith (worker : WorkerIdentity) (claimed : List LeasedOutboxRecord) (key : OutboxKey) :
    List LeaseGrant :=
  s.granted key ++ (claimed.filter fun record => decide (record.key = key)).map (⟨worker, ·⟩)

def attempt : OutboxAction → Except OutboxError OutboxSystem
  | .insert tenantId digest message availableAt createdAt =>
    .ok { s with store := s.store.insertOutbox tenantId digest message availableAt createdAt }
  | .wait tenantId ms => .ok { s with store := s.store.wait tenantId ms }
  | .discover workerInput limitInput => do
    let worker ← requireWorkerCapability workerInput .outboxDeliver
    let limit ← parseClaimLimit limitInput
    return { s with batches := s.batches ++ [⟨worker, limit, s.store.outboxDiscovery⟩] }
  | .claim index circumstances =>
    match s.batches[index]? with
    | none => .ok s
    | some batch => do
      let progress ← s.store.claimOutbox batch circumstances
      return { s with
        store := progress.store
        batches := s.batches.eraseIdx index
        granted := s.grantedWith batch.worker progress.claimed }
  | .acknowledge worker lease beforeUpdate => do
    let (store, row) ← s.store.acknowledgeOutbox worker lease beforeUpdate
    return { s with
      store
      ended := Function.update s.ended lease.key (row.attemptCount :: s.ended lease.key) }
  | .fail worker lease beforeUpdate => do
    let (store, row) ← s.store.failOutbox worker lease beforeUpdate
    return { s with
      store
      ended := Function.update s.ended lease.key (row.attemptCount :: s.ended lease.key) }

/-- The state after an action; an action that raises is rolled back. -/
def perform (action : OutboxAction) : OutboxSystem :=
  match s.attempt action with
  | .ok s' => s'
  | .error _ => s

def Step (s : OutboxSystem) (action : OutboxAction) (s' : OutboxSystem) : Prop :=
  s' = s.perform action

def empty (clock : String → ℕ) : OutboxSystem where
  store := ⟨⟨[], List.nodup_nil⟩, clock⟩
  batches := []
  granted _ := []
  ended _ := []

def IsInitial (s : OutboxSystem) : Prop := ∃ clock, s = empty clock

/-- The lease was granted for the row, has not run out and has not been ended by its holder. -/
def IsLive (key : OutboxKey) (grant : LeaseGrant) : Prop :=
  grant ∈ s.granted key ∧ s.store.clock key.tenantId < grant.record.leaseExpiresAt ∧
    grant.attempt ∉ s.ended key

end OutboxSystem

/-! ### What holds of a row and its leases -/

/-- A row agrees with the leases granted for it and ended at a time. -/
structure OutboxRow.Sound (grants : List LeaseGrant) (ended : List ℕ) (now : ℕ)
    (row : OutboxRow) : Prop where
  checks : row.Checks
  payload : ∃ members, outboxPayload row.payload = .ok members
  attempt_eq_zero : row.state = .pending → row.attemptCount = 0
  attempt_lt : row.state = .retryWait → row.attemptCount < row.maxAttempts
  attempt_eq_max : row.state = .exhausted → row.attemptCount = row.maxAttempts
  attempt_eq_length : row.attemptCount = grants.length
  attempt_le : ∀ grant ∈ grants, grant.attempt ≤ row.attemptCount
  nodup_attempts : (grants.map LeaseGrant.attempt).Nodup
  tokens : ∀ grant ∈ grants, grant.record.lease.key = row.key
  ended_le : ∀ n ∈ ended, n ≤ row.attemptCount
  not_ended : row.state = .leased → row.attemptCount ∉ ended
  lease_granted : row.state = .leased →
    ∃ grant ∈ grants, grant.attempt = row.attemptCount ∧ row.lease = some grant.columns
  held : ∀ grant ∈ grants, now < grant.record.leaseExpiresAt → grant.attempt ∉ ended →
    row.state = .leased ∧ grant.attempt = row.attemptCount ∧ row.lease = some grant.columns

namespace OutboxRow.Sound

variable {grants : List LeaseGrant} {ended : List ℕ} {now : ℕ} {row : OutboxRow}

section

variable (h : row.Sound grants ended now)
include h

theorem wait {later : ℕ} (hle : now ≤ later) :
    row.Sound grants ended later :=
  { h with held := fun grant hgrant hlive => h.held grant hgrant (hle.trans_lt hlive) }

theorem maxAttempts_pos : 0 < row.maxAttempts := h.checks.2.1

theorem attempt_le_max : row.attemptCount ≤ row.maxAttempts :=
  h.checks.2.2.1

theorem one_le_attempt (hleased : row.state = .leased) :
    1 ≤ row.attemptCount := by
  obtain ⟨grant, hgrant, -⟩ := h.lease_granted hleased
  rw [h.attempt_eq_length]
  exact length_pos_of_mem hgrant

theorem attempt_lt_of_isDue {time : ℕ}
    (hdue : row.isDue time = true) : row.attemptCount < row.maxAttempts := by
  simp only [isDue, and_eq_true, or_eq_true, decide_eq_true_eq] at hdue
  rcases hdue.1 with hpending | hretry
  · rw [h.attempt_eq_zero hpending]
    exact h.maxAttempts_pos
  · exact h.attempt_lt hretry

theorem deliveredAt_eq_none (hleased : row.state = .leased) :
    row.deliveredAt = none := by
  have hdelivered := h.checks.2.2.2.2.1
  rw [hleased] at hdelivered
  simpa using hdelivered

theorem safeLastErrorCode_eq_none (hleased : row.state = .leased) :
    row.safeLastErrorCode = none := by
  have hcode := h.checks.2.2.2.2.2
  rw [hleased] at hcode
  simpa using hcode

/-- The lease of the row has run out, or its holder has ended it: in both cases it is the latest
that was granted. -/
private theorem release {row' : OutboxRow} {ended' : List ℕ} (hchecks : row'.Checks)
    (hpayload : row'.payload = row.payload) (hkey : row'.key = row.key)
    (hattempt : row'.attemptCount = row.attemptCount)
    (hpending : row'.state ≠ .pending) (hnotLeased : row'.state ≠ .leased)
    (hlt : row'.state = .retryWait → row'.attemptCount < row'.maxAttempts)
    (hmax : row'.state = .exhausted → row'.attemptCount = row'.maxAttempts)
    (hended : ∀ n ∈ ended', n = row.attemptCount ∨ n ∈ ended)
    (hsub : ∀ n ∈ ended, n ∈ ended')
    (hover : row.attemptCount ∈ ended' ∨
      ∀ columns, row.lease = some columns → columns.expiresAt ≤ now) :
    row'.Sound grants ended' now where
  checks := hchecks
  payload := by rw [hpayload]; exact h.payload
  attempt_eq_zero h' := absurd h' hpending
  attempt_lt := hlt
  attempt_eq_max := hmax
  attempt_eq_length := hattempt.trans h.attempt_eq_length
  attempt_le grant hgrant := by rw [hattempt]; exact h.attempt_le grant hgrant
  nodup_attempts := h.nodup_attempts
  tokens grant hgrant := by rw [hkey]; exact h.tokens grant hgrant
  ended_le n hn := by
    rw [hattempt]
    rcases hended n hn with rfl | hn
    · exact le_rfl
    · exact h.ended_le n hn
  not_ended h' := absurd h' hnotLeased
  lease_granted h' := absurd h' hnotLeased
  held grant hgrant hlive hnot := by
    obtain ⟨-, hlatest, hlease⟩ := h.held grant hgrant hlive fun hmem => hnot (hsub _ hmem)
    rcases hover with hmem | hexpired
    · exact absurd (hlatest ▸ hmem) hnot
    · exact absurd (hexpired _ hlease) (Nat.not_le.mpr hlive)

end

theorem stateAfterAttempt_eq (row : OutboxRow) :
    (row.maxAttempts ≤ row.attemptCount ∧ row.stateAfterAttempt = .exhausted) ∨
      (row.attemptCount < row.maxAttempts ∧ row.stateAfterAttempt = .retryWait) := by
  by_cases h : row.maxAttempts ≤ row.attemptCount
  · exact .inl ⟨h, if_pos h⟩
  · exact .inr ⟨Nat.not_le.mp h, if_neg h⟩

private theorem endAttempt (h : row.Sound grants ended now) (hleased : row.state = .leased)
    (delay : ℕ) (code : Option String) {ended' : List ℕ}
    (hended : ∀ n ∈ ended', n = row.attemptCount ∨ n ∈ ended) (hsub : ∀ n ∈ ended, n ∈ ended')
    (hover : row.attemptCount ∈ ended' ∨
      ∀ columns, row.lease = some columns → columns.expiresAt ≤ now) :
    OutboxRow.Sound grants ended' now { row.recover now delay with safeLastErrorCode := code } := by
  obtain ⟨hpayload, hpos, hle, -⟩ := h.checks
  have hdelivered := h.deliveredAt_eq_none hleased
  rcases stateAfterAttempt_eq row with ⟨hmax, hstate⟩ | ⟨hlt, hstate⟩
  · refine h.release ⟨hpayload, hpos, hle, ?_⟩ rfl rfl rfl ?_ ?_ ?_ ?_ hended hsub hover
    · simp [OutboxRow.recover, hstate, hdelivered]
    · simp [OutboxRow.recover, hstate]
    · simp [OutboxRow.recover, hstate]
    · simp [OutboxRow.recover, hstate]
    · exact fun _ => le_antisymm hle hmax
  · refine h.release ⟨hpayload, hpos, hle, ?_⟩ rfl rfl rfl ?_ ?_ ?_ ?_ hended hsub hover
    · simp [OutboxRow.recover, hstate, hdelivered]
    · simp [OutboxRow.recover, hstate]
    · simp [OutboxRow.recover, hstate]
    · exact fun _ => hlt
    · simp [OutboxRow.recover, hstate]

theorem recover (h : row.Sound grants ended now) (hexpired : row.isExpired now = true)
    (delay : ℕ) : (row.recover now delay).Sound grants ended now := by
  simp only [isExpired, and_eq_true, decide_eq_true_eq, Option.any_eq_true] at hexpired
  obtain ⟨hleased, columns, hcolumns, hend⟩ := hexpired
  refine h.endAttempt hleased delay row.safeLastErrorCode (fun n hn => .inr hn) (fun n hn => hn)
    (.inr fun other hother => ?_)
  rw [hcolumns, Option.some.injEq] at hother
  exact hother ▸ hend

theorem failDelivery (h : row.Sound grants ended now) (hleased : row.state = .leased)
    (delay : ℕ) : (row.failDelivery now delay).Sound grants (row.attemptCount :: ended) now :=
  h.endAttempt hleased delay _ (fun _ => List.mem_cons.mp) (fun _ => mem_cons_of_mem _)
    (.inl mem_cons_self)

theorem deliver (h : row.Sound grants ended now) (hleased : row.state = .leased) :
    (row.deliver now).Sound grants (row.attemptCount :: ended) now := by
  obtain ⟨hpayload, hpos, hle, -⟩ := h.checks
  refine h.release ⟨hpayload, hpos, hle, by simp [OutboxRow.deliver], by simp [OutboxRow.deliver],
    .inl (h.safeLastErrorCode_eq_none hleased)⟩ rfl rfl rfl OutboxState.noConfusion
    OutboxState.noConfusion OutboxState.noConfusion OutboxState.noConfusion (fun n hn =>
    List.mem_cons.mp hn) (fun n hn => mem_cons_of_mem _ hn) (.inl mem_cons_self)

theorem grant (h : row.Sound grants ended now) (hdue : row.isDue now = true)
    {grant : LeaseGrant} (hattempt : grant.attempt = row.attemptCount + 1)
    (hexpires : grant.record.leaseExpiresAt = now + leaseDurationMs)
    (hkey : grant.record.lease.key = row.key) :
    (row.grant grant.worker grant.record.lease.leaseToken now).Sound (grants ++ [grant]) ended
      now := by
  have hlt := h.attempt_lt_of_isDue hdue
  have hstate : row.state = .pending ∨ row.state = .retryWait := by
    simp only [isDue, and_eq_true, or_eq_true, decide_eq_true_eq] at hdue
    exact hdue.1
  obtain ⟨hpayload, hpos, -, -, hdelivered, -⟩ := h.checks
  have hnone : row.deliveredAt = none := by
    rcases hstate with hstate | hstate <;> simpa [hstate] using hdelivered
  have hcolumns : (row.grant grant.worker grant.record.lease.leaseToken now).lease =
      some grant.columns := by
    simp [OutboxRow.grant, LeaseGrant.columns, hexpires]
  -- no earlier lease is live: the row was not leased
  have hearlier : ∀ other ∈ grants, now < other.record.leaseExpiresAt → other.attempt ∈ ended := by
    intro other hother hlive
    by_contra hnot
    have hleased := (h.held other hother hlive hnot).1
    rcases hstate with hstate | hstate <;> simp [hstate] at hleased
  refine
    { checks := ⟨hpayload, hpos, hlt, by simp [OutboxRow.grant], by simp [OutboxRow.grant, hnone],
        .inl rfl⟩
      payload := h.payload
      attempt_eq_zero := OutboxState.noConfusion
      attempt_lt := OutboxState.noConfusion
      attempt_eq_max := OutboxState.noConfusion
      attempt_eq_length := ?_
      attempt_le := ?_
      nodup_attempts := ?_
      tokens := ?_
      ended_le := fun n hn => (h.ended_le n hn).trans (Nat.le_succ _)
      not_ended := fun _ hmem => absurd (h.ended_le _ hmem) (Nat.not_succ_le_self _)
      lease_granted := fun _ => ⟨grant, by simp, hattempt, hcolumns⟩
      held := ?_ }
  · simp [OutboxRow.grant, h.attempt_eq_length]
  · intro other hother
    rcases List.mem_append.mp hother with hother | hother
    · exact (h.attempt_le other hother).trans (Nat.le_succ _)
    · rw [List.mem_singleton.mp hother, hattempt]
      exact le_rfl
  · rw [map_append, map_singleton]
    refine List.nodup_append.mpr ⟨h.nodup_attempts, nodup_singleton _, ?_⟩
    rintro a ha b hb rfl
    obtain ⟨other, hother, rfl⟩ := List.mem_map.mp ha
    have hle := h.attempt_le other hother
    have heq := List.mem_singleton.mp hb
    omega
  · intro other hother
    rcases List.mem_append.mp hother with hother | hother
    · exact h.tokens other hother
    · rw [List.mem_singleton.mp hother]
      exact hkey
  · intro other hother hlive hnot
    rcases List.mem_append.mp hother with hother | hother
    · exact absurd (hearlier other hother hlive) hnot
    · obtain rfl := List.mem_singleton.mp hother
      exact ⟨rfl, hattempt, hcolumns⟩

theorem new {row : OutboxRow} (hpayload : ∃ members, row.payload = .obj members)
    (hdecoded : ∃ members, outboxPayload row.payload = .ok members) (hpos : 0 < row.maxAttempts)
    (hstate : row.state = .pending) (hattempt : row.attemptCount = 0) (hlease : row.lease = none)
    (hcode : row.safeLastErrorCode = none) (hdelivered : row.deliveredAt = none) :
    row.Sound [] [] now where
  checks := ⟨hpayload, hpos, by omega, by simp [hstate, hlease], by simp [hstate, hdelivered],
    .inl hcode⟩
  payload := hdecoded
  attempt_eq_zero _ := hattempt
  attempt_lt h := by simp [hstate] at h
  attempt_eq_max h := by simp [hstate] at h
  attempt_eq_length := hattempt
  attempt_le := by simp
  nodup_attempts := nodup_nil
  tokens := by simp
  ended_le := by simp
  not_ended _ := not_mem_nil
  lease_granted h := by simp [hstate] at h
  held := by simp

end OutboxRow.Sound

namespace OutboxSystem

/-! ### Changes of one row -/

/-- Every row agrees with its leases, and only stored rows have any. -/
structure Valid (s : OutboxSystem) : Prop where
  sound : ∀ row ∈ s.store.rows.rows,
    row.Sound (s.granted row.key) (s.ended row.key) (s.store.clock row.tenantId)
  fresh : ∀ key, key ∉ s.store.rows.rows.map OutboxRow.key → s.granted key = [] ∧ s.ended key = []

/-- The system with one row changed, and with it the leases of the row. -/
def writeRow (s : OutboxSystem) (key : OutboxKey) (f : OutboxRow → OutboxRow)
    (hf : ∀ row, (f row).key = row.key) (grants : List LeaseGrant) (ended : List ℕ) :
    OutboxSystem :=
  { s with
    store := { s.store with rows := s.store.rows.update key f hf }
    granted := Function.update s.granted key grants
    ended := Function.update s.ended key ended }

variable {s s' : OutboxSystem}

variable {grants : List LeaseGrant}

variable {f : OutboxRow → OutboxRow}

theorem mem_writeRow {row row' : OutboxRow} {hf : ∀ row, (f row).key = row.key} {ended : List ℕ}
    (hrow : row ∈ s.store.rows.rows)
    (h : row' ∈ (s.writeRow row.key f hf grants ended).store.rows.rows) :
    row' = f row ∨ (row' ∈ s.store.rows.rows ∧ row'.key ≠ row.key) := by
  obtain ⟨other, hother, rfl⟩ := (s.store.rows.mem_update hf).mp h
  by_cases hkey : other.key = row.key
  · rw [if_pos hkey, s.store.rows.eq_of_key_eq hother hrow hkey]
    exact .inl rfl
  · rw [if_neg hkey]
    exact .inr ⟨hother, hkey⟩

theorem keys_writeRow (key : OutboxKey) (f : OutboxRow → OutboxRow)
    (hf : ∀ row, (f row).key = row.key) (grants : List LeaseGrant) (ended : List ℕ) :
    (s.writeRow key f hf grants ended).store.rows.rows.map OutboxRow.key =
      s.store.rows.rows.map OutboxRow.key := by
  simp only [writeRow, Table.update, Table.mapRows, List.map_map]
  refine map_congr_left fun row _ => ?_
  simp only [comp_apply]
  split
  · exact hf row
  · rfl

theorem Valid.writeRow (h : s.Valid) {row : OutboxRow} (hrow : row ∈ s.store.rows.rows)
    {hf : ∀ row, (f row).key = row.key} {ended : List ℕ}
    (hsound : (f row).Sound grants ended (s.store.clock row.tenantId)) :
    (s.writeRow row.key f hf grants ended).Valid := by
  constructor
  · intro row' hrow'
    rcases mem_writeRow hrow hrow' with rfl | ⟨hmem, hne⟩
    · have htenant : (f row).tenantId = row.tenantId := congrArg OutboxKey.tenantId (hf row)
      simpa [OutboxSystem.writeRow, hf row, htenant] using hsound
    · simpa [OutboxSystem.writeRow, update_of_ne hne] using h.sound row' hmem
  · intro key hkey
    rw [keys_writeRow] at hkey
    have hne : key ≠ row.key := fun heq => hkey (heq ▸ List.mem_map_of_mem hrow)
    simpa [OutboxSystem.writeRow, update_of_ne hne] using h.fresh key hkey

theorem Valid.wait (h : s.Valid) (tenantId : String) (ms : ℕ) :
    Valid { s with store := s.store.wait tenantId ms } :=
  { h with
    sound := fun row hrow => (h.sound row hrow).wait <| by
      simp only [OutboxStore.wait, update_apply]
      split
      · simp [*]
      · exact le_rfl }

inductive ClaimTransition : OutboxSystem → OutboxSystem → Prop
  | wait (s : OutboxSystem) (tenantId : String) (ms : ℕ) :
      ClaimTransition s { s with store := s.store.wait tenantId ms }
  | recover {s : OutboxSystem} {row : OutboxRow} (hrow : row ∈ s.store.rows.rows)
      (hexpired : row.isExpired (s.store.clock row.tenantId) = true) (delay : ℕ) :
      ClaimTransition s (s.writeRow row.key (·.recover (s.store.clock row.tenantId) delay)
        (fun _ => rfl) (s.granted row.key) (s.ended row.key))
  | grant {s : OutboxSystem} {row : OutboxRow} (hrow : row ∈ s.store.rows.rows)
      (hdue : row.isDue (s.store.clock row.tenantId) = true) (grant : LeaseGrant)
      (hattempt : grant.attempt = row.attemptCount + 1)
      (hexpires : grant.record.leaseExpiresAt = s.store.clock row.tenantId + leaseDurationMs)
      (hkey : grant.record.lease.key = row.key) :
      ClaimTransition s (s.writeRow row.key
        (·.grant grant.worker grant.record.lease.leaseToken (s.store.clock row.tenantId))
        (fun _ => rfl) (s.granted row.key ++ [grant]) (s.ended row.key))

theorem ClaimTransition.valid (h : ClaimTransition s s') (hv : s.Valid) : s'.Valid := by
  cases h with
  | wait tenantId ms => exact hv.wait tenantId ms
  | recover hrow hexpired delay =>
    exact hv.writeRow hrow ((hv.sound _ hrow).recover hexpired delay)
  | grant hrow hdue grant hattempt hexpires hkey =>
    exact hv.writeRow hrow ((hv.sound _ hrow).grant hdue hattempt hexpires hkey)

theorem valid_of_transitions (h : Relation.ReflTransGen ClaimTransition s s') (hv : s.Valid) :
    s'.Valid := by
  induction h with
  | refl => exact hv
  | tail _ hstep ih => exact hstep.valid ih

/-! ### A claim as a sequence of changes -/

/-- The system during the loop of a claim. -/
def during (s : OutboxSystem) (worker : WorkerIdentity) (progress : ClaimProgress) :
    OutboxSystem :=
  { s with store := progress.store, granted := s.grantedWith worker progress.claimed }

theorem during_start (worker : WorkerIdentity) : s.during worker ⟨s.store, []⟩ = s := by
  have hgranted : s.grantedWith worker [] = s.granted := by
    funext key
    simp [grantedWith]
  simp only [during, hgranted]

theorem grantedWith_append (worker : WorkerIdentity) (claimed : List LeasedOutboxRecord)
    (record : LeasedOutboxRecord) :
    s.grantedWith worker (claimed ++ [record]) =
      update (s.grantedWith worker claimed) record.key
        (s.grantedWith worker claimed record.key ++ [⟨worker, record⟩]) := by
  funext key
  by_cases hkey : record.key = key
  · subst hkey
    simp [grantedWith]
  · rw [update_of_ne (Ne.symm hkey)]
    simp [grantedWith, hkey]

end OutboxSystem

open OutboxSystem

namespace OutboxStore

variable {store : OutboxStore}

theorem clock_wait_self (tenantId : String) (ms : ℕ) :
    (store.wait tenantId ms).clock tenantId = store.clock tenantId + ms :=
  update_self ..

end OutboxStore

theorem OutboxRow.isExpired_mono {row : OutboxRow} {now later : ℕ} (hle : now ≤ later)
    (h : row.isExpired now = true) : row.isExpired later = true := by
  simp only [isExpired, and_eq_true, decide_eq_true_eq, Option.any_eq_true] at h ⊢
  obtain ⟨hleased, columns, hcolumns, hend⟩ := h
  exact ⟨hleased, columns, hcolumns, hend.trans hle⟩

theorem OutboxRow.isDue_mono {row : OutboxRow} {now later : ℕ} (hle : now ≤ later)
    (h : row.isDue now = true) : row.isDue later = true := by
  simp only [isDue, and_eq_true, decide_eq_true_eq] at h ⊢
  exact ⟨h.1, h.2.trans hle⟩

namespace OutboxSystem

variable {s : OutboxSystem}

theorem write_of_valid {key : OutboxKey} {hf : ∀ row, (f row).key = row.key} {ended : List ℕ}
    (h : (s.writeRow key f hf grants ended).Valid) :
    s.store.write key f hf = .ok { s.store with rows := s.store.rows.update key f hf } :=
  require_bind_eq_ok.mpr ⟨fun row hrow => (h.sound row hrow).checks, rfl⟩

variable {row : OutboxRow} {lease : OutboxLease} {s' : OutboxSystem} {worker : AuthenticatedWorker}
  {beforeUpdate : ℕ} {action : OutboxAction}

theorem retryDelay_eq_ok {ended : List ℕ} {now : ℕ} (h : row.Sound grants ended now)
    (hleased : row.state = .leased) :
    ∃ delay, row.retryDelay = .ok delay := by
  unfold OutboxRow.retryDelay
  split
  · exact ⟨0, rfl⟩
  · exact ⟨_, require_bind_eq_ok.mpr ⟨h.one_le_attempt hleased, rfl⟩⟩

/-- One row of a claim: nothing is raised, the change is made by transitions, and the other rows
are left.  A row that the claim has to do something about is changed. -/
theorem claimRow_spec (batch : ClaimBatch) (circumstances : OutboxKey → RowCircumstances)
    {progress : ClaimProgress} (hv : (s.during batch.worker progress).Valid)
    (hrow : row ∈ progress.store.rows.rows) :
    ∃ progress', OutboxStore.claimRow batch circumstances progress row = .ok progress' ∧
      Relation.ReflTransGen ClaimTransition (s.during batch.worker progress)
        (s.during batch.worker progress') ∧
      (∀ other ∈ progress.store.rows.rows, other.key ≠ row.key →
        other ∈ progress'.store.rows.rows) ∧
      (row.isExpired (progress.store.clock row.tenantId) = true ∨
        (progress.claimed.length < batch.limit ∧
          row.isDue (progress.store.clock row.tenantId) = true) →
        row ∉ progress'.store.rows.rows) := by
  let chance := circumstances row.key
  let tested := progress.store.wait row.tenantId chance.beforeTest
  let waited := tested.wait row.tenantId chance.beforeUpdate
  have htested : progress.store.clock row.tenantId ≤ tested.clock row.tenantId := by
    simp [tested, OutboxStore.clock_wait_self]
  have hwaited : tested.clock row.tenantId ≤ waited.clock row.tenantId := by
    simp [waited, OutboxStore.clock_wait_self]
  have hstart : ClaimTransition (s.during batch.worker progress)
      (s.during batch.worker ⟨tested, progress.claimed⟩) :=
    .wait _ row.tenantId chance.beforeTest
  have hmiddle : ClaimTransition (s.during batch.worker ⟨tested, progress.claimed⟩)
      (s.during batch.worker ⟨waited, progress.claimed⟩) :=
    .wait _ row.tenantId chance.beforeUpdate
  have hvw : (s.during batch.worker ⟨waited, progress.claimed⟩).Valid :=
    hmiddle.valid (hstart.valid hv)
  have hkept (f : OutboxRow → OutboxRow) (hf : ∀ row, (f row).key = row.key) (other : OutboxRow)
      (hother : other ∈ waited.rows.rows) (hne : other.key ≠ row.key) :
      other ∈ (waited.rows.update row.key f hf).rows :=
    waited.rows.mem_update_of_ne hf hother hne
  have hgone (f : OutboxRow → OutboxRow) (hf : ∀ row, (f row).key = row.key)
      (hne : f row ≠ row) : row ∉ (waited.rows.update row.key f hf).rows := by
    intro hmem
    obtain ⟨other, hother, heq⟩ := (waited.rows.mem_update hf).mp hmem
    by_cases hkey : other.key = row.key
    · rw [if_pos hkey, waited.rows.eq_of_key_eq hother hrow hkey] at heq
      exact hne heq.symm
    · rw [if_neg hkey] at heq
      exact hkey (heq ▸ rfl)
  have hsound := hvw.sound row hrow
  by_cases hexpired : row.isExpired (tested.clock row.tenantId) = true
  · have hexpired' := OutboxRow.isExpired_mono hwaited hexpired
    have hleased : row.state = .leased := by
      simp only [OutboxRow.isExpired, and_eq_true, decide_eq_true_eq] at hexpired
      exact hexpired.1
    obtain ⟨delay, hdelay⟩ := retryDelay_eq_ok hsound hleased
    let rows := waited.rows.update row.key (·.recover (waited.clock row.tenantId) delay)
      fun _ => rfl
    have hstep := ClaimTransition.recover
      (s := s.during batch.worker ⟨waited, progress.claimed⟩) hrow hexpired' delay
    have hwrite := write_of_valid (hstep.valid hvw)
    have hsame : (s.during batch.worker ⟨waited, progress.claimed⟩).writeRow row.key
        (·.recover (waited.clock row.tenantId) delay) (fun _ => rfl)
        (s.grantedWith batch.worker progress.claimed row.key) (s.ended row.key) =
      s.during batch.worker ⟨{ waited with rows }, progress.claimed⟩ := by
      simp only [writeRow, during, update_eq_self]
      rfl
    refine ⟨⟨{ waited with rows }, progress.claimed⟩, ?_,
      ((Relation.ReflTransGen.single hstart).tail hmiddle).tail (hsame ▸ hstep),
      hkept (·.recover (waited.clock row.tenantId) delay) fun _ => rfl,
      fun _ => hgone (·.recover (waited.clock row.tenantId) delay) (fun _ => rfl) ?_⟩
    · unfold OutboxStore.claimRow
      rw [if_pos hexpired]
      exact bind_eq_ok.mpr ⟨delay, hdelay, bind_eq_ok.mpr ⟨_, hwrite, rfl⟩⟩
    · intro heq
      have hlease := congrArg OutboxRow.lease heq
      have hchecks := hsound.checks.2.2.2.1.mp hleased
      simp only [OutboxRow.recover] at hlease
      simp [← hlease] at hchecks
  by_cases hroom : progress.claimed.length < batch.limit ∧
      row.isDue (tested.clock row.tenantId) = true
  · have hdue := OutboxRow.isDue_mono hwaited hroom.2
    obtain ⟨members, hmembers⟩ := hsound.payload
    let record : LeasedOutboxRecord :=
      { tenantId := row.tenantId
        outboxId := row.outboxId
        messageKind := row.messageKind
        payload := members
        attemptCount := row.attemptCount + 1
        maxAttempts := row.maxAttempts
        leaseExpiresAt := waited.clock row.tenantId + leaseDurationMs
        lease := ⟨row.tenantId, row.outboxId, chance.token⟩ }
    let rows := waited.rows.update row.key
      (·.grant batch.worker chance.token (waited.clock row.tenantId)) fun _ => rfl
    have hstep := ClaimTransition.grant (s := s.during batch.worker ⟨waited, progress.claimed⟩) hrow
      hdue ⟨batch.worker, record⟩ rfl rfl rfl
    have hwrite := write_of_valid (hstep.valid hvw)
    have hsame : (s.during batch.worker ⟨waited, progress.claimed⟩).writeRow row.key
        (·.grant batch.worker chance.token (waited.clock row.tenantId)) (fun _ => rfl)
        (s.grantedWith batch.worker progress.claimed row.key ++ [⟨batch.worker, record⟩])
        (s.ended row.key) =
      s.during batch.worker ⟨{ waited with rows }, progress.claimed ++ [record]⟩ := by
      simp only [writeRow, during, update_eq_self, grantedWith_append]
      rfl
    refine ⟨⟨{ waited with rows }, progress.claimed ++ [record]⟩, ?_,
      ((Relation.ReflTransGen.single hstart).tail hmiddle).tail (hsame ▸ hstep),
      hkept (·.grant batch.worker chance.token (waited.clock row.tenantId)) fun _ => rfl,
      fun _ => hgone (·.grant batch.worker chance.token (waited.clock row.tenantId))
        (fun _ => rfl) ?_⟩
    · unfold OutboxStore.claimRow
      rw [if_neg hexpired, if_pos hroom]
      exact bind_eq_ok.mpr ⟨_, hwrite, bind_eq_ok.mpr ⟨members, hmembers, rfl⟩⟩
    · intro heq
      have hattempt := congrArg OutboxRow.attemptCount heq
      simp [OutboxRow.grant] at hattempt
  · refine ⟨⟨tested, progress.claimed⟩, ?_, .single hstart, fun other hother _ => hother, ?_⟩
    · unfold OutboxStore.claimRow
      rw [if_neg hexpired, if_neg hroom]
    · rintro (h | ⟨hlimit, h⟩)
      · exact absurd (OutboxRow.isExpired_mono htested h) hexpired
      · exact absurd ⟨hlimit, OutboxRow.isDue_mono htested h⟩ hroom

/-- The loop of a claim: nothing is raised, and the changes are made by transitions. -/
theorem claimRows_spec (batch : ClaimBatch) (circumstances : OutboxKey → RowCircumstances)
    {rows : List OutboxRow} {progress : ClaimProgress}
    (hv : (s.during batch.worker progress).Valid) (hnodup : (rows.map OutboxRow.key).Nodup)
    (hrows : ∀ row ∈ rows, row ∈ progress.store.rows.rows) :
    ∃ progress', rows.foldlM (OutboxStore.claimRow batch circumstances) progress = .ok progress' ∧
      Relation.ReflTransGen ClaimTransition (s.during batch.worker progress)
        (s.during batch.worker progress') := by
  induction rows generalizing progress with
  | nil => exact ⟨progress, rfl, .refl⟩
  | cons row rows ih =>
    rw [map_cons, nodup_cons] at hnodup
    obtain ⟨middle, hmiddle, hsteps, hothers, -⟩ :=
      claimRow_spec batch circumstances hv (hrows row mem_cons_self)
    obtain ⟨progress', hprogress', hsteps'⟩ := ih (valid_of_transitions hsteps hv) hnodup.2
      fun other hother => hothers other (hrows other (mem_cons_of_mem row hother))
        fun hkey => hnodup.1 (hkey ▸ List.mem_map_of_mem hother)
    exact ⟨progress', by rw [foldlM_cons, hmiddle]; exact hprogress', hsteps.trans hsteps'⟩

theorem lockedRows_spec (store : OutboxStore) (batch : ClaimBatch)
    (circumstances : OutboxKey → RowCircumstances) :
    ((store.lockedRows batch circumstances).map OutboxRow.key).Nodup ∧
      ∀ row ∈ store.lockedRows batch circumstances, row ∈ store.rows.rows := by
  have hperm := perm_insertionSort
    (fun left right : OutboxRow =>
      left.isQueuedBefore (fun row => [row.tenantId, row.outboxId]) right = true)
    (store.rows.select batch.discovered fun row => !(circumstances row.key).skipped)
  constructor
  · exact (hperm.map OutboxRow.key).nodup_iff.mpr (store.rows.nodup_keys_select _ _)
  · intro row hrow
    exact (store.rows.mem_select.mp (hperm.mem_iff.mp hrow)).1

/-- A claim of a valid system never raises, and refines the transitions. -/
theorem claimOutbox_spec (hv : s.Valid) (batch : ClaimBatch)
    (circumstances : OutboxKey → RowCircumstances) :
    ∃ progress, s.store.claimOutbox batch circumstances = .ok progress ∧
      Relation.ReflTransGen ClaimTransition s (s.during batch.worker progress) := by
  obtain ⟨hnodup, hrows⟩ := lockedRows_spec s.store batch circumstances
  have h := @claimRows_spec s batch circumstances (s.store.lockedRows batch circumstances) ⟨s.store, []⟩
    (by rw [during_start]; exact hv) hnodup hrows
  rwa [during_start] at h

/-! ### Every step -/

/-- The lease of the row is the presented one and has not run out. -/
def HoldsLease (s : OutboxSystem) (worker : WorkerIdentity) (lease : OutboxLease)
    (row : OutboxRow) : Prop :=
  row.key = lease.key ∧ row.state = .leased ∧ ∃ columns, row.lease = some columns ∧
    columns.isHeldBy worker lease.leaseToken = true ∧
    s.store.clock row.tenantId < columns.expiresAt

theorem validateLiveOutboxLease_eq_ok {worker : WorkerIdentity}
    (h : s.store.validateLiveOutboxLease worker lease = .ok row) :
    row ∈ s.store.rows.rows ∧ s.HoldsLease worker lease row := by
  obtain ⟨found, hfound, h⟩ := orRaise_bind_eq_ok.mp h
  obtain ⟨⟨hleased, hlease⟩, h⟩ := require_bind_eq_ok.mp h
  obtain rfl := pure_eq_ok.mp h
  obtain ⟨hmem, hkey⟩ := s.store.rows.find?_eq_some_iff.mp hfound
  obtain ⟨columns, hcolumns, hheld⟩ := (Option.any_eq_true _ _).mp hlease
  simp only [and_eq_true, decide_eq_true_eq] at hheld
  have htenant : found.tenantId = lease.tenantId := congrArg OutboxKey.tenantId hkey
  exact ⟨hmem, hkey, hleased, columns, hcolumns, hheld.1, htenant ▸ hheld.2⟩

/-- The system after the holder of a lease has ended it by a change of the row. -/
def endLease (s : OutboxSystem) (row : OutboxRow) (beforeUpdate : ℕ)
    (f : ℕ → OutboxRow → OutboxRow) (hf : ∀ now row, (f now row).key = row.key) : OutboxSystem :=
  let waited := { s with store := s.store.wait row.tenantId beforeUpdate }
  let now := waited.store.clock row.tenantId
  waited.writeRow row.key (f now) (hf now) (s.granted row.key)
    (row.attemptCount :: s.ended row.key)

theorem attempt_acknowledge (h : s.attempt (.acknowledge worker lease beforeUpdate) = .ok s') :
    .outboxDeliver ∈ worker.capabilities ∧ ∃ row ∈ s.store.rows.rows,
      s.HoldsLease worker.identity lease row ∧
      s' = s.endLease row beforeUpdate (fun now row => row.deliver now) fun _ _ => rfl := by
  obtain ⟨⟨store, row⟩, hcall, hs'⟩ := bind_eq_ok.mp h
  cases hs'
  obtain ⟨identity, hidentity, h⟩ := bind_eq_ok.mp hcall
  obtain ⟨hcapability, hidentity⟩ := require_bind_eq_ok.mp hidentity
  cases hidentity
  obtain ⟨found, hfound, h⟩ := bind_eq_ok.mp h
  obtain ⟨hmem, hholds⟩ := validateLiveOutboxLease_eq_ok hfound
  obtain ⟨written, hwritten, h⟩ := bind_eq_ok.mp h
  obtain ⟨-, hwritten⟩ := require_bind_eq_ok.mp hwritten
  cases hwritten
  obtain ⟨rfl, rfl⟩ := Prod.mk.inj (pure_eq_ok.mp h)
  refine ⟨hcapability, found, hmem, hholds, ?_⟩
  have htenant : found.tenantId = lease.tenantId := congrArg OutboxKey.tenantId hholds.1
  simp only [endLease, writeRow, update_eq_self, hholds.1, htenant]

theorem attempt_fail (h : s.attempt (.fail worker lease beforeUpdate) = .ok s') :
    ∃ row ∈ s.store.rows.rows, s.HoldsLease worker.identity lease row ∧ ∃ delay,
      s' = s.endLease row beforeUpdate (fun now row => row.failDelivery now delay)
        fun _ _ => rfl := by
  obtain ⟨⟨store, row⟩, hcall, hs'⟩ := bind_eq_ok.mp h
  cases hs'
  obtain ⟨identity, hidentity, h⟩ := bind_eq_ok.mp hcall
  obtain ⟨hcapability, hidentity⟩ := require_bind_eq_ok.mp hidentity
  cases hidentity
  obtain ⟨found, hfound, h⟩ := bind_eq_ok.mp h
  obtain ⟨hmem, hholds⟩ := validateLiveOutboxLease_eq_ok hfound
  obtain ⟨delay, -, h⟩ := bind_eq_ok.mp h
  obtain ⟨written, hwritten, h⟩ := bind_eq_ok.mp h
  obtain ⟨-, hwritten⟩ := require_bind_eq_ok.mp hwritten
  cases hwritten
  obtain ⟨rfl, rfl⟩ := Prod.mk.inj (pure_eq_ok.mp h)
  refine ⟨found, hmem, hholds, delay, ?_⟩
  have htenant : found.tenantId = lease.tenantId := congrArg OutboxKey.tenantId hholds.1
  simp only [endLease, writeRow, update_eq_self, hholds.1, htenant]

theorem attempt_discover {limit : Option ℕ} (h : s.attempt (.discover worker limit) = .ok s') :
    s'.store = s.store ∧ s'.granted = s.granted ∧ s'.ended = s.ended := by
  obtain ⟨identity, -, h⟩ := bind_eq_ok.mp h
  obtain ⟨parsed, -, h⟩ := bind_eq_ok.mp h
  cases h
  exact ⟨rfl, rfl, rfl⟩

theorem attempt_claim (hv : s.Valid) {index : ℕ} {circumstances : OutboxKey → RowCircumstances}
    (h : s.attempt (.claim index circumstances) = .ok s') :
    ∃ t, Relation.ReflTransGen ClaimTransition s t ∧ s'.store = t.store ∧
      s'.granted = t.granted ∧ s'.ended = t.ended := by
  rw [attempt] at h
  split at h
  · cases h
    exact ⟨s, .refl, rfl, rfl, rfl⟩
  · rename_i batch _
    obtain ⟨progress, hprogress, hsteps⟩ := claimOutbox_spec hv batch circumstances
    rw [hprogress] at h
    cases h
    exact ⟨_, hsteps, rfl, rfl, rfl⟩

theorem Valid.congr (hv : s.Valid) (hstore : s'.store = s.store)
    (hgranted : s'.granted = s.granted) (hended : s'.ended = s.ended) : s'.Valid := by
  constructor
  · rw [hstore, hgranted, hended]
    exact hv.sound
  · rw [hstore, hgranted, hended]
    exact hv.fresh

theorem Valid.endLease (hv : s.Valid) (hrow : row ∈ s.store.rows.rows)
    {f : ℕ → OutboxRow → OutboxRow} {hf : ∀ now row, (f now row).key = row.key}
    (hsound : ∀ now, row.Sound (s.granted row.key) (s.ended row.key) now →
      (f now row).Sound (s.granted row.key) (row.attemptCount :: s.ended row.key) now) :
    (s.endLease row beforeUpdate f hf).Valid := by
  have hwaited := hv.wait row.tenantId beforeUpdate
  exact hwaited.writeRow hrow (hsound _ (hwaited.sound row hrow))

theorem outboxPayload_message (message : OutboxMessage) :
    ∃ members, outboxPayload message.payload = .ok members := by
  cases message <;> exact ⟨_, rfl⟩

theorem Valid.insertOutbox (hv : s.Valid) (tenantId digest : String) (message : OutboxMessage)
    (availableAt createdAt : ℕ) :
    Valid { s with
      store := s.store.insertOutbox tenantId digest message availableAt createdAt } := by
  constructor
  · intro row hrow
    simp only [OutboxStore.insertOutbox, Table.insert] at hrow
    split at hrow
    · exact hv.sound row hrow
    rename_i hnew
    rcases List.mem_cons.mp hrow with rfl | hrow
    · obtain ⟨hgranted, hended⟩ := hv.fresh _ hnew
      simp only [hgranted, hended]
      refine .new ?_ (outboxPayload_message message) (Nat.succ_pos 7) rfl rfl rfl rfl rfl
      cases message <;> exact ⟨_, rfl⟩
    · exact hv.sound row hrow
  · intro key hkey
    refine hv.fresh key fun hmem => hkey ?_
    obtain ⟨row, hrow, rfl⟩ := List.mem_map.mp hmem
    exact List.mem_map_of_mem (s.store.rows.mem_insert_of_mem hrow)

/-- Every action keeps the invariant. -/
theorem valid_attempt (hv : s.Valid) (h : s.attempt action = .ok s') : s'.Valid := by
  cases action with
  | insert tenantId digest message availableAt createdAt =>
    cases h
    exact hv.insertOutbox tenantId digest message availableAt createdAt
  | wait tenantId ms =>
    cases h
    exact hv.wait tenantId ms
  | discover worker limit =>
    obtain ⟨hstore, hgranted, hended⟩ := attempt_discover h
    exact hv.congr hstore hgranted hended
  | claim index circumstances =>
    obtain ⟨t, hsteps, hstore, hgranted, hended⟩ := attempt_claim hv h
    exact (valid_of_transitions hsteps hv).congr hstore hgranted hended
  | acknowledge worker lease beforeUpdate =>
    obtain ⟨-, row, hrow, hholds, rfl⟩ := attempt_acknowledge h
    exact hv.endLease hrow fun now hsound => hsound.deliver hholds.2.1
  | fail worker lease beforeUpdate =>
    obtain ⟨row, hrow, hholds, delay, rfl⟩ := attempt_fail h
    exact hv.endLease hrow fun now hsound => hsound.failDelivery hholds.2.1 delay

theorem valid_empty (clock : String → ℕ) : (empty clock).Valid :=
  ⟨by simp [empty], fun _ _ => ⟨rfl, rfl⟩⟩

theorem step_cases (h : Step s action s') :
    s.attempt action = .ok s' ∨ s' = s := by
  unfold Step perform at h
  split at h
  · rename_i t ht
    exact .inl (h ▸ ht)
  · exact .inr h

theorem Valid.step (hv : s.Valid) (h : Step s action s') : s'.Valid := by
  rcases step_cases h with h | rfl
  · exact valid_attempt hv h
  · exact hv

theorem valid_of_reachable (hs : TransitionSystem.Reachable Step IsInitial s) : s.Valid :=
  hs.invariant (fun _ ⟨clock, h⟩ => h ▸ valid_empty clock) fun _ _ _ hv h => hv.step h

end OutboxSystem

end ApiTruth.Orchestration
