import ApiTruth.Orchestration.OutboxLeases

/-!
# Delivery of outbox rows

Nothing stored in the outbox is lost and nothing is leased twice at a time.  A row is delivered
only when the holder of its live lease says so, it is given up only when its attempts are used up,
and until then workers can claim it again, however the others interfere: the work that is left in
the outbox decreases with every claim that finds a candidate.

## Main definitions

* `OutboxSystem.CanBeClaimedAgain` : some continuation grants a further lease for the row.
* `OutboxStore.outstanding` : how much work is left.

## Main results

* `OutboxSystem.outbox_delivery` : the safety of delivery in every reachable state.
* `OutboxSystem.rows_follow_reducer` : the rows follow the reducer of their states.
-/

namespace ApiTruth.Orchestration

open Checked TransitionSystem List Bool

namespace OutboxSystem

variable {s s' : OutboxSystem}

/-! ### Live leases -/

theorem exists_row_of_granted (hv : s.Valid) {key : OutboxKey} {grant : LeaseGrant}
    (h : grant ∈ s.granted key) : ∃ row ∈ s.store.rows.rows, row.key = key := by
  by_contra hnone
  have hkey : key ∉ s.store.rows.rows.map OutboxRow.key := fun hmem =>
    hnone (List.mem_map.mp hmem)
  rw [(hv.fresh key hkey).1] at h
  exact not_mem_nil h

theorem isLive_unique (hv : s.Valid) {key : OutboxKey} {grant grant' : LeaseGrant}
    (h : s.IsLive key grant) (h' : s.IsLive key grant') : grant = grant' := by
  obtain ⟨row, hrow, rfl⟩ := exists_row_of_granted hv h.1
  have hsound := hv.sound row hrow
  have hattempt := (hsound.held grant h.1 h.2.1 h.2.2).2.1
  have hattempt' := (hsound.held grant' h'.1 h'.2.1 h'.2.2).2.1
  exact inj_on_of_nodup_map hsound.nodup_attempts h.1 h'.1 (hattempt.trans hattempt'.symm)

variable {row : OutboxRow}

theorem isLive_of_holdsLease (hv : s.Valid) {worker : WorkerIdentity} {lease : OutboxLease}
    (hrow : row ∈ s.store.rows.rows) (h : s.HoldsLease worker lease row) :
    ∃ grant, s.IsLive row.key grant ∧ grant.worker = worker ∧ grant.record.lease = lease := by
  obtain ⟨hkey, hleased, columns, hcolumns, hheld, hlive⟩ := h
  have hsound := hv.sound row hrow
  obtain ⟨grant, hgrant, hattempt, hlease⟩ := hsound.lease_granted hleased
  rw [hcolumns, Option.some.injEq] at hlease
  subst hlease
  simp only [LeaseColumns.isHeldBy, LeaseGrant.columns, and_eq_true, beq_iff_eq] at hheld
  refine ⟨grant, ⟨hgrant, hlive, ?_⟩, ?_, ?_⟩
  · rw [hattempt]
    exact hsound.not_ended hleased
  · cases hidentity : grant.worker
    simp_all
  · have hsame := (hsound.tokens grant hgrant).trans hkey
    cases hpresented : grant.record.lease
    cases lease
    simp_all [OutboxLease.key]

/-! ### Rows over one step -/

/-- Every row stays with its message, and a row that is over stays as it is. -/
structure Continues (s s' : OutboxSystem) : Prop where
  kept : ∀ row ∈ s.store.rows.rows, ∃ row' ∈ s'.store.rows.rows, row'.key = row.key ∧
    row'.content = row.content
  settled : ∀ row ∈ s.store.rows.rows, row.state = .delivered ∨ row.state = .exhausted →
    row ∈ s'.store.rows.rows

def DeliversNothing (s s' : OutboxSystem) : Prop :=
  ∀ row ∈ s'.store.rows.rows, row.state = .delivered → row ∈ s.store.rows.rows

theorem Continues.of_rows (h : ∀ row ∈ s.store.rows.rows, row ∈ s'.store.rows.rows) :
    Continues s s' :=
  ⟨fun row hrow => ⟨row, h row hrow, rfl, rfl⟩, fun row hrow _ => h row hrow⟩

theorem Continues.trans {t : OutboxSystem} (h : Continues s s') (h' : Continues s' t) :
    Continues s t := by
  constructor
  · intro row hrow
    obtain ⟨row', hrow', hkey, hcontent⟩ := h.kept row hrow
    obtain ⟨row'', hrow'', hkey', hcontent'⟩ := h'.kept row' hrow'
    exact ⟨row'', hrow'', hkey'.trans hkey, hcontent'.trans hcontent⟩
  · intro row hrow hover
    exact h'.settled row (h.settled row hrow hover) hover

variable {grants : List LeaseGrant}

variable {f : OutboxRow → OutboxRow}

theorem Continues.writeRow (hrow : row ∈ s.store.rows.rows) {hf : ∀ row, (f row).key = row.key}
    {ended : List ℕ} (hcontent : (f row).content = row.content)
    (hopen : row.state ≠ .delivered ∧ row.state ≠ .exhausted) :
    Continues s (s.writeRow row.key f hf grants ended) := by
  constructor
  · intro other hother
    by_cases hkey : other.key = row.key
    · obtain rfl := s.store.rows.eq_of_key_eq hother hrow hkey
      exact ⟨f other, s.store.rows.mem_update_self hf hother, hf other, hcontent⟩
    · exact ⟨other, s.store.rows.mem_update_of_ne hf hother hkey, rfl, rfl⟩
  · intro other hother hover
    refine s.store.rows.mem_update_of_ne hf hother fun hkey => ?_
    obtain rfl := s.store.rows.eq_of_key_eq hother hrow hkey
    exact hover.elim hopen.1 hopen.2

theorem DeliversNothing.writeRow (hrow : row ∈ s.store.rows.rows)
    {hf : ∀ row, (f row).key = row.key} {ended : List ℕ} (hstate : (f row).state ≠ .delivered) :
    DeliversNothing s (s.writeRow row.key f hf grants ended) := by
  intro row' hrow' hdelivered
  rcases mem_writeRow hrow hrow' with rfl | ⟨hmem, -⟩
  · exact absurd hdelivered hstate
  · exact hmem

theorem stateAfterAttempt_ne_delivered (row : OutboxRow) :
    row.stateAfterAttempt ≠ .delivered := by
  rcases OutboxRow.Sound.stateAfterAttempt_eq row with ⟨-, h⟩ | ⟨-, h⟩ <;> simp [h]

theorem ClaimTransition.continues (h : ClaimTransition s s') :
    Continues s s' ∧ DeliversNothing s s' := by
  cases h with
  | wait tenantId ms => exact ⟨.of_rows fun _ hrow => hrow, fun _ hrow _ => hrow⟩
  | recover hrow hexpired delay =>
    rename_i row
    have hleased : row.state = .leased := by
      simp only [OutboxRow.isExpired, and_eq_true, decide_eq_true_eq] at hexpired
      exact hexpired.1
    exact ⟨.writeRow hrow rfl (by simp [hleased]),
      .writeRow hrow (stateAfterAttempt_ne_delivered row)⟩
  | grant hrow hdue grant hattempt hexpires hkey =>
    simp only [OutboxRow.isDue, and_eq_true, or_eq_true, decide_eq_true_eq] at hdue
    refine ⟨.writeRow hrow rfl ?_, .writeRow hrow OutboxState.noConfusion⟩
    rcases hdue.1 with hstate | hstate <;> simp [hstate]

theorem continues_of_transitions (h : Relation.ReflTransGen ClaimTransition s s') :
    Continues s s' ∧ DeliversNothing s s' := by
  induction h with
  | refl => exact ⟨.of_rows fun _ hrow => hrow, fun _ hrow _ => hrow⟩
  | tail _ hstep ih =>
    obtain ⟨hcontinues, hnothing⟩ := hstep.continues
    exact ⟨ih.1.trans hcontinues, fun row hrow hdelivered =>
      ih.2 row (hnothing row hrow hdelivered) hdelivered⟩

theorem continues_endLease (hrow : row ∈ s.store.rows.rows) (hleased : row.state = .leased)
    {beforeUpdate : ℕ} {f : ℕ → OutboxRow → OutboxRow} {hf : ∀ now row, (f now row).key = row.key}
    (hcontent : ∀ now, (f now row).content = row.content) :
    Continues s (s.endLease row beforeUpdate f hf) := by
  have hwaited : Continues s { s with store := s.store.wait row.tenantId beforeUpdate } :=
    .of_rows fun _ hother => hother
  refine hwaited.trans ?_
  exact Continues.writeRow (s := { s with store := s.store.wait row.tenantId beforeUpdate }) hrow
    (hcontent _) (by simp [hleased])

theorem continues_attempt (hv : s.Valid) {action : OutboxAction} (h : s.attempt action = .ok s') :
    Continues s s' ∧ ∀ row ∈ s'.store.rows.rows, row.state = .delivered →
      row ∈ s.store.rows.rows ∨ ∃ worker lease beforeUpdate grant,
        action = .acknowledge worker lease beforeUpdate ∧
        .outboxDeliver ∈ worker.capabilities ∧ lease.key = row.key ∧ s.IsLive row.key grant ∧
        grant.worker = worker.identity ∧ grant.record.lease = lease := by
  cases action with
  | insert tenantId digest message availableAt createdAt =>
    cases h
    refine ⟨.of_rows fun row hrow => s.store.rows.mem_insert_of_mem hrow, ?_⟩
    intro row hrow hdelivered
    rcases s.store.rows.mem_insert hrow with rfl | hrow
    · cases hdelivered
    · exact .inl hrow
  | wait tenantId ms =>
    cases h
    exact ⟨.of_rows fun _ hrow => hrow, fun _ hrow _ => .inl hrow⟩
  | discover worker limit =>
    obtain ⟨hstore, -, -⟩ := attempt_discover h
    refine ⟨.of_rows fun _ hrow => hstore ▸ hrow, fun _ hrow _ => .inl ?_⟩
    rw [hstore] at hrow
    exact hrow
  | claim index circumstances =>
    obtain ⟨t, hsteps, hstore, -, -⟩ := attempt_claim hv h
    obtain ⟨hcontinues, hnothing⟩ := continues_of_transitions hsteps
    constructor
    · exact hcontinues.trans (.of_rows fun _ hrow => hstore ▸ hrow)
    · intro row hrow hdelivered
      rw [hstore] at hrow
      exact .inl (hnothing row hrow hdelivered)
  | acknowledge worker lease beforeUpdate =>
    obtain ⟨hcapability, row, hrow, hholds, rfl⟩ := attempt_acknowledge h
    refine ⟨continues_endLease hrow hholds.2.1 fun _ => rfl, ?_⟩
    intro row' hrow' hdelivered
    rcases mem_writeRow (s := { s with store := s.store.wait row.tenantId beforeUpdate }) hrow
      hrow' with rfl | ⟨hmem, -⟩
    · obtain ⟨grant, hlive, hworker, hlease⟩ := isLive_of_holdsLease hv hrow hholds
      exact .inr ⟨worker, lease, beforeUpdate, grant, rfl, hcapability, hholds.1.symm, hlive,
        hworker, hlease⟩
    · exact .inl hmem
  | fail worker lease beforeUpdate =>
    obtain ⟨row, hrow, hholds, delay, rfl⟩ := attempt_fail h
    refine ⟨continues_endLease hrow hholds.2.1 fun _ => rfl, ?_⟩
    intro row' hrow' hdelivered
    rcases mem_writeRow (s := { s with store := s.store.wait row.tenantId beforeUpdate }) hrow
      hrow' with rfl | ⟨hmem, -⟩
    · exact absurd hdelivered (stateAfterAttempt_ne_delivered row)
    · exact .inl hmem

end OutboxSystem

/-! ### The work that is left -/

/-- How much work a row still asks for: two changes for every attempt that is left, and one for
the lease that it has. -/
def OutboxRow.outstanding (row : OutboxRow) : ℕ :=
  match row.state with
  | .pending | .retryWait => 2 * (row.maxAttempts - row.attemptCount)
  | .leased => 2 * (row.maxAttempts - row.attemptCount) + 1
  | .delivered | .exhausted => 0

def OutboxStore.outstanding (store : OutboxStore) : ℕ :=
  (store.rows.rows.map OutboxRow.outstanding).sum

theorem OutboxRow.outstanding_recover_lt {row : OutboxRow} {now : ℕ}
    (hexpired : row.isExpired now = true) (delay : ℕ) :
    (row.recover now delay).outstanding < row.outstanding := by
  simp only [isExpired, and_eq_true, decide_eq_true_eq] at hexpired
  rcases Sound.stateAfterAttempt_eq row with ⟨-, hstate⟩ | ⟨-, hstate⟩ <;>
    simp [outstanding, recover, hstate, hexpired.1]

theorem OutboxRow.outstanding_grant_lt {row : OutboxRow} {ended : List ℕ} {now : ℕ}
    (hsound : row.Sound grants ended now) (hdue : row.isDue now = true) (worker : WorkerIdentity)
    (token : String) :
    (row.grant worker token now).outstanding < row.outstanding := by
  have hlt := hsound.attempt_lt_of_isDue hdue
  simp only [isDue, and_eq_true, or_eq_true, decide_eq_true_eq] at hdue
  rcases hdue.1 with hstate | hstate <;> simp only [outstanding, grant, hstate] <;> omega

namespace OutboxSystem

variable {s s' : OutboxSystem}

theorem outstanding_writeRow_lt {row : OutboxRow} (hrow : row ∈ s.store.rows.rows)
    {hf : ∀ row, (f row).key = row.key} {ended : List ℕ}
    (hlt : (f row).outstanding < row.outstanding) :
    (s.writeRow row.key f hf grants ended).store.outstanding < s.store.outstanding := by
  simp only [OutboxStore.outstanding, writeRow, Table.update, Table.mapRows, List.map_map]
  refine sum_lt_sum _ _ (fun other hother => ?_) ⟨row, hrow, ?_⟩
  · simp only [Function.comp_apply]
    split
    · rename_i hkey
      rw [s.store.rows.eq_of_key_eq hother hrow hkey]
      exact hlt.le
    · exact le_rfl
  · simpa only [Function.comp_apply, if_true] using hlt

theorem ClaimTransition.outstanding (h : ClaimTransition s s') (hv : s.Valid) :
    s'.store.rows = s.store.rows ∨ s'.store.outstanding < s.store.outstanding := by
  cases h with
  | wait tenantId ms => exact .inl rfl
  | recover hrow hexpired delay =>
    exact .inr (outstanding_writeRow_lt hrow (OutboxRow.outstanding_recover_lt hexpired delay))
  | grant hrow hdue grant hattempt hexpires hkey =>
    exact .inr (outstanding_writeRow_lt hrow
      (OutboxRow.outstanding_grant_lt (hv.sound _ hrow) hdue _ _))

theorem outstanding_of_transitions (h : Relation.ReflTransGen ClaimTransition s s')
    (hv : s.Valid) :
    s'.store.rows = s.store.rows ∨ s'.store.outstanding < s.store.outstanding := by
  induction h with
  | refl => exact .inl rfl
  | @tail t u hsteps hstep ih =>
    have hlast := hstep.outstanding (valid_of_transitions hsteps hv)
    rcases ih with hrows | hlt <;> rcases hlast with hrows' | hlt'
    · exact .inl (hrows'.trans hrows)
    · refine .inr ?_
      rwa [OutboxStore.outstanding, OutboxStore.outstanding, ← hrows]
    · refine .inr ?_
      rwa [OutboxStore.outstanding, OutboxStore.outstanding, hrows']
    · exact .inr (hlt'.trans hlt)

/-- A claim that comes to a row which it has to do something about leaves less work. -/
theorem claimOutbox_outstanding (hv : s.Valid) (batch : ClaimBatch)
    {circumstances : OutboxKey → RowCircumstances} {row : OutboxRow} {rows : List OutboxRow}
    (hlocked : s.store.lockedRows batch circumstances = row :: rows) (hlimit : 0 < batch.limit)
    (hcandidate : row.isExpired (s.store.clock row.tenantId) = true ∨
      row.isDue (s.store.clock row.tenantId) = true) :
    ∃ progress, s.store.claimOutbox batch circumstances = .ok progress ∧
      (s.during batch.worker progress).store.outstanding < s.store.outstanding := by
  obtain ⟨hnodup, hstored⟩ := lockedRows_spec s.store batch circumstances
  rw [hlocked, map_cons, nodup_cons] at hnodup
  rw [hlocked] at hstored
  have hstart : (s.during batch.worker ⟨s.store, []⟩).Valid := by
    rw [during_start]
    exact hv
  obtain ⟨middle, hmiddle, hsteps, hothers, hchanged⟩ :=
    claimRow_spec batch circumstances hstart (hstored row mem_cons_self)
  obtain ⟨progress, hprogress, hrest⟩ := claimRows_spec batch circumstances
    (valid_of_transitions hsteps hstart) hnodup.2 fun other hother =>
      hothers other (hstored other (mem_cons_of_mem row hother))
        fun hkey => hnodup.1 (hkey ▸ List.mem_map_of_mem hother)
  have hfirst : middle.store.outstanding < s.store.outstanding := by
    rcases outstanding_of_transitions hsteps hstart with hrows | hlt
    · have hgone := hchanged (hcandidate.imp_right fun hdue => ⟨hlimit, hdue⟩)
      have hrows : middle.store.rows = s.store.rows := hrows
      rw [hrows] at hgone
      exact absurd (hstored row mem_cons_self) hgone
    · exact hlt
  refine ⟨progress, ?_, ?_⟩
  · rw [OutboxStore.claimOutbox, hlocked, foldlM_cons, hmiddle]
    exact hprogress
  · rcases outstanding_of_transitions hrest (valid_of_transitions hsteps hstart) with hrows | hlt
    · have hrows : progress.store.rows = middle.store.rows := hrows
      simpa only [during, OutboxStore.outstanding, hrows] using hfirst
    · exact hlt.trans hfirst

/-! ### Claiming again -/

def isCandidate (s : OutboxSystem) (row : OutboxRow) : Prop :=
  row.isExpired (s.store.clock row.tenantId) = true ∨
    row.isDue (s.store.clock row.tenantId) = true

theorem exists_isCandidate (hv : s.Valid) {row : OutboxRow} (hrow : row ∈ s.store.rows.rows)
    (hopen : row.state = .pending ∨ row.state = .retryWait ∨ row.state = .leased) :
    ∃ ms, isCandidate { s with store := s.store.wait row.tenantId ms } row := by
  have hdue (hstate : row.state = .pending ∨ row.state = .retryWait) :
      isCandidate { s with store := s.store.wait row.tenantId row.availableAt } row := by
    refine .inr ?_
    simp [OutboxRow.isDue, OutboxStore.clock_wait_self, hstate]
  rcases hopen with hpending | hretry | hleased
  · exact ⟨_, hdue (.inl hpending)⟩
  · exact ⟨_, hdue (.inr hretry)⟩
  · obtain ⟨columns, hcolumns⟩ := Option.isSome_iff_exists.mp
      ((hv.sound row hrow).checks.2.2.2.1.mp hleased)
    refine ⟨columns.expiresAt, .inl ?_⟩
    simp [OutboxRow.isExpired, OutboxStore.clock_wait_self, hleased, hcolumns]

/-- What a claim meets when nothing else goes on. -/
def undisturbed : OutboxKey → RowCircumstances := fun _ => ⟨false, 0, 0, "token"⟩

/-- The rows locked right after a discovery are candidates, and there are some if any row is. -/
theorem lockedRows_outboxDiscovery (worker : WorkerIdentity) (limit : ℕ) {row : OutboxRow}
    (hrow : row ∈ s.store.rows.rows) (hcandidate : s.isCandidate row) :
    ∃ first rest, s.store.lockedRows ⟨worker, limit, s.store.outboxDiscovery⟩ undisturbed =
      first :: rest ∧ s.isCandidate first := by
  set batch : ClaimBatch := ⟨worker, limit, s.store.outboxDiscovery⟩ with hbatch
  have hmem (other : OutboxRow) : other ∈ s.store.lockedRows batch undisturbed ↔
      other ∈ s.store.rows.rows ∧ other.key ∈ s.store.outboxDiscovery := by
    rw [OutboxStore.lockedRows, (perm_insertionSort _ _).mem_iff, Table.mem_select]
    simp [undisturbed, hbatch]
  have hdiscovered (key : OutboxKey) (hkey : key ∈ s.store.outboxDiscovery) :
      ∃ other ∈ s.store.rows.rows, other.key = key ∧ s.isCandidate other := by
    obtain ⟨other, hother, rfl⟩ := List.mem_map.mp hkey
    have hfiltered := (perm_insertionSort _ _).mem_iff.mp (mem_of_mem_take hother)
    obtain ⟨hstored, hcan⟩ := List.mem_filter.mp hfiltered
    rw [or_eq_true] at hcan
    exact ⟨other, hstored, rfl, hcan.symm⟩
  cases hlocked : s.store.lockedRows batch undisturbed with
  | cons first rest =>
    have hfirst := (hmem first).mp (hlocked ▸ mem_cons_self)
    obtain ⟨other, hother, hkey, hcan⟩ := hdiscovered _ hfirst.2
    obtain rfl := s.store.rows.eq_of_key_eq hother hfirst.1 hkey
    exact ⟨other, rest, rfl, hcan⟩
  | nil =>
    -- the first row in the order of the queue is discovered, and it is locked
    exfalso
    set ordered := (s.store.rows.rows.filter fun row => row.isDue (s.store.clock row.tenantId) ||
      row.isExpired (s.store.clock row.tenantId)).insertionSort fun left right =>
        left.isQueuedBefore (fun row => [row.outboxId]) right = true with hordered
    have hin : row ∈ ordered := by
      refine (perm_insertionSort _ _).mem_iff.mpr (List.mem_filter.mpr ⟨hrow, ?_⟩)
      rw [or_eq_true]
      exact hcandidate.symm
    obtain ⟨first, rest, hsplit⟩ := exists_cons_of_ne_nil (ne_nil_of_mem hin)
    have hkey : first.key ∈ s.store.outboxDiscovery := by
      change first.key ∈ (ordered.take candidateLimit).map OutboxRow.key
      rw [hsplit]
      exact List.mem_map_of_mem mem_cons_self
    obtain ⟨other, hother, hsame, -⟩ := hdiscovered _ hkey
    have hlockedOther := (hmem other).mpr ⟨hother, hsame ▸ hkey⟩
    rw [hlocked] at hlockedOther
    exact not_mem_nil hlockedOther

end OutboxSystem

/-- The actions with which workers claim rows, and the passage of time. -/
def OutboxAction.isClaiming : OutboxAction → Bool
  | .wait .. | .discover .. | .claim .. => true
  | .insert .. | .acknowledge .. | .fail .. => false

namespace OutboxSystem

variable {s s' : OutboxSystem}

theorem perform_claim {index : ℕ} {batch : ClaimBatch}
    {circumstances : OutboxKey → RowCircumstances} {progress : ClaimProgress}
    (hbatch : s.batches[index]? = some batch)
    (hprogress : s.store.claimOutbox batch circumstances = .ok progress) :
    s.perform (.claim index circumstances) =
      { s with
        store := progress.store
        batches := s.batches.eraseIdx index
        granted := s.grantedWith batch.worker progress.claimed } := by
  rw [perform, attempt, hbatch]
  simp only [hprogress]
  rfl

variable {row : OutboxRow}

theorem exists_round (hv : s.Valid) (hrow : row ∈ s.store.rows.rows)
    (hopen : row.state = .pending ∨ row.state = .retryWait ∨ row.state = .leased) :
    ∃ actions s', Run (Guarded Step fun _ action => action.isClaiming = true) s actions s' ∧
      s'.store.outstanding < s.store.outstanding := by
  obtain ⟨ms, hcandidate⟩ := exists_isCandidate hv hrow hopen
  set waited : OutboxSystem := { s with store := s.store.wait row.tenantId ms } with hwaited
  let worker : WorkerIdentity := ⟨"worker", "instance"⟩
  let batch : ClaimBatch := ⟨worker, maxClaimBatch, waited.store.outboxDiscovery⟩
  let discovered : OutboxSystem := { waited with batches := waited.batches ++ [batch] }
  have hvw : waited.Valid := hv.wait row.tenantId ms
  have hvd : discovered.Valid := hvw.congr rfl rfl rfl
  obtain ⟨first, rest, hlocked, hfirst⟩ := lockedRows_outboxDiscovery (s := waited)
    worker maxClaimBatch hrow hcandidate
  obtain ⟨progress, hprogress, hlt⟩ := claimOutbox_outstanding hvd batch hlocked
    (Nat.succ_pos 31) hfirst
  have hbatch : discovered.batches[waited.batches.length]? = some batch := by
    simp [discovered]
  exact ⟨[.wait row.tenantId ms, .discover ⟨worker, [.outboxDeliver]⟩ none,
    .claim waited.batches.length undisturbed], _, .cons ⟨rfl, rfl⟩ (.cons ⟨rfl, rfl⟩
      (.cons ⟨(perform_claim hbatch hprogress).symm, rfl⟩ (.nil _))), hlt⟩

theorem deliversNothing_of_claiming (hv : s.Valid) {actions : List OutboxAction}
    (hrun : Run (Guarded Step fun _ action => action.isClaiming = true) s actions s') :
    s'.Valid ∧ Continues s s' ∧ DeliversNothing s s' := by
  induction hrun with
  | nil s => exact ⟨hv, .of_rows fun _ hrow => hrow, fun _ hrow _ => hrow⟩
  | @cons s t u action actions hstep _ ih =>
    obtain ⟨hstep, hclaiming⟩ := hstep
    obtain ⟨hvu, hcontinues, hnothing⟩ := ih (hv.step hstep)
    rcases step_cases hstep with hok | rfl
    · obtain ⟨hfirst, hdelivered⟩ := continues_attempt hv hok
      refine ⟨hvu, hfirst.trans hcontinues, fun row hrow hstate => ?_⟩
      rcases hdelivered row (hnothing row hrow hstate) hstate with
        hmem | ⟨worker, lease, beforeUpdate, grant, rfl, -⟩
      · exact hmem
      · cases hclaiming
    · exact ⟨hvu, hcontinues, hnothing⟩

/-- A row with attempts left is leased once more in some continuation: the induction is on the work
that is left. -/
theorem exists_further_lease (hv : s.Valid) (hrow : row ∈ s.store.rows.rows)
    (hopen : row.state = .pending ∨ row.state = .retryWait ∨ row.state = .leased) {n : ℕ}
    (hattempt : row.attemptCount ≤ n) (hlt : n < row.maxAttempts) :
    ∃ actions s', Run Step s actions s' ∧ n < (s'.granted row.key).length := by
  induction hwork : s.store.outstanding using Nat.strong_induction_on generalizing s row with
  | _ work ih =>
    obtain ⟨actions, t, hrun, hless⟩ := exists_round hv hrow hopen
    obtain ⟨hvt, hcontinues, hnothing⟩ := deliversNothing_of_claiming hv hrun
    obtain ⟨row', hrow', hkey, hcontent⟩ := hcontinues.kept row hrow
    have hmax : row'.maxAttempts = row.maxAttempts := congrArg (·.2.2.1) hcontent
    have hsound := hvt.sound row' hrow'
    by_cases hclaimed : row'.attemptCount ≤ n
    · have hopen' : row'.state = .pending ∨ row'.state = .retryWait ∨ row'.state = .leased := by
        cases hstate : row'.state with
        | pending => exact .inl rfl
        | retryWait => exact .inr (.inl rfl)
        | leased => exact .inr (.inr rfl)
        | delivered =>
          have hsame := s.store.rows.eq_of_key_eq (hnothing row' hrow' hstate) hrow hkey
          rw [hsame] at hstate
          simp [hstate] at hopen
        | exhausted =>
          have hused := hsound.attempt_eq_max hstate
          omega
      obtain ⟨actions', s', hrun', hfurther⟩ :=
        ih t.store.outstanding (hwork ▸ hless) hvt hrow' hopen' hclaimed (hmax ▸ hlt) rfl
      exact ⟨actions ++ actions', s', hrun.of_guarded.append hrun', hkey ▸ hfurther⟩
    · refine ⟨actions, t, hrun.of_guarded, ?_⟩
      rw [← hkey, ← hsound.attempt_eq_length]
      omega

/-- Some continuation grants a further lease for the row. -/
def CanBeClaimedAgain (s : OutboxSystem) (key : OutboxKey) : Prop :=
  ∃ actions s', Run Step s actions s' ∧ (s.granted key).length < (s'.granted key).length

theorem continues_run (hv : s.Valid) {actions : List OutboxAction} (hrun : Run Step s actions s') :
    s'.Valid ∧ Continues s s' := by
  induction hrun with
  | nil s => exact ⟨hv, .of_rows fun _ hrow => hrow⟩
  | cons hstep _ ih =>
    obtain ⟨hvu, hcontinues⟩ := ih (hv.step hstep)
    rcases step_cases hstep with hok | rfl
    · exact ⟨hvu, (continues_attempt hv hok).1.trans hcontinues⟩
    · exact ⟨hvu, hcontinues⟩

theorem canBeClaimedAgain_iff (hv : s.Valid) (hrow : row ∈ s.store.rows.rows)
    (hopen : row.state = .pending ∨ row.state = .retryWait ∨ row.state = .leased) :
    s.CanBeClaimedAgain row.key ↔ row.attemptCount < row.maxAttempts := by
  have hlength := (hv.sound row hrow).attempt_eq_length
  constructor
  · rintro ⟨actions, s', hrun, hfurther⟩
    obtain ⟨hv', hcontinues⟩ := continues_run hv hrun
    obtain ⟨row', hrow', hkey, hcontent⟩ := hcontinues.kept row hrow
    have hmax : row'.maxAttempts = row.maxAttempts := congrArg (·.2.2.1) hcontent
    have hsound := hv'.sound row' hrow'
    have hle := hsound.attempt_le_max
    rw [hsound.attempt_eq_length, hkey, hmax] at hle
    omega
  · intro hlt
    obtain ⟨actions, s', hrun, hfurther⟩ := exists_further_lease hv hrow hopen le_rfl hlt
    exact ⟨actions, s', hrun, hlength ▸ hfurther⟩

/-- In every reachable state of the outbox, a row has at most one live lease, as many attempts as
leases were granted for it and no more than its maximum, and it is exhausted only when they are
used up; a row that is neither delivered nor exhausted is pending, waiting or leased, and can be
claimed again while attempts are left, which is always so unless it is leased.  A step keeps every
row with its message and leaves delivered and exhausted rows alone, and it delivers a row only as
an acknowledgement that presents the row's live lease. -/
theorem outbox_delivery (hs : Reachable Step IsInitial s) :
    (∀ key grant grant', s.IsLive key grant → s.IsLive key grant' → grant = grant') ∧
    (∀ row ∈ s.store.rows.rows,
      row.attemptCount = (s.granted row.key).length ∧ row.attemptCount ≤ row.maxAttempts ∧
      (row.state = .exhausted → row.attemptCount = row.maxAttempts) ∧
      (row.state = .delivered ∨ row.state = .exhausted ∨
        (row.state = .pending ∨ row.state = .retryWait) ∧ s.CanBeClaimedAgain row.key ∨
        row.state = .leased ∧
          (s.CanBeClaimedAgain row.key ↔ row.attemptCount < row.maxAttempts))) ∧
    ∀ action s', Step s action s' → ∀ row ∈ s.store.rows.rows,
      (∃ row' ∈ s'.store.rows.rows, row'.key = row.key ∧ row'.content = row.content) ∧
      (row.state = .delivered ∨ row.state = .exhausted → row ∈ s'.store.rows.rows) ∧
      ∀ row' ∈ s'.store.rows.rows, row'.key = row.key → row'.state = .delivered →
        row.state ≠ .delivered →
        ∃ worker lease beforeUpdate grant, action = .acknowledge worker lease beforeUpdate ∧
          .outboxDeliver ∈ worker.capabilities ∧ lease.key = row.key ∧ s.IsLive row.key grant ∧
          grant.worker = worker.identity ∧ grant.record.lease = lease := by
  have hv := valid_of_reachable hs
  refine ⟨fun _ _ _ => isLive_unique hv, fun row hrow => ?_, fun action s' hstep row hrow => ?_⟩
  · have hsound := hv.sound row hrow
    refine ⟨hsound.attempt_eq_length, hsound.attempt_le_max, hsound.attempt_eq_max, ?_⟩
    cases hstate : row.state with
    | pending =>
      have hlt : row.attemptCount < row.maxAttempts :=
        hsound.attempt_eq_zero hstate ▸ hsound.maxAttempts_pos
      exact .inr (.inr (.inl ⟨.inl rfl, (canBeClaimedAgain_iff hv hrow (.inl hstate)).mpr hlt⟩))
    | retryWait =>
      exact .inr (.inr (.inl ⟨.inr rfl, (canBeClaimedAgain_iff hv hrow (.inr (.inl hstate))).mpr
        (hsound.attempt_lt hstate)⟩))
    | leased =>
      exact .inr (.inr (.inr ⟨rfl, canBeClaimedAgain_iff hv hrow (.inr (.inr hstate))⟩))
    | delivered => exact .inl rfl
    | exhausted => exact .inr (.inl rfl)
  · rcases step_cases hstep with hok | rfl
    · obtain ⟨hcontinues, hdelivered⟩ := continues_attempt hv hok
      refine ⟨hcontinues.kept row hrow, hcontinues.settled row hrow, ?_⟩
      intro row' hrow' hkey hstate hopen
      rcases hdelivered row' hrow' hstate with hmem | hack
      · exact absurd (s.store.rows.eq_of_key_eq hmem hrow hkey ▸ hstate) hopen
      · exact hkey ▸ hack
    · refine ⟨⟨row, hrow, rfl, rfl⟩, fun _ => hrow, fun row' hrow' hkey hstate hopen => ?_⟩
      exact absurd (s'.store.rows.eq_of_key_eq hrow' hrow hkey ▸ hstate) hopen

/-! ### The reducer of the states -/

/-- Transitions of the reducer take one state and number of attempts to another, with a lease for
every further attempt. -/
def Advances (before later : OutboxState × ℕ) : Prop :=
  ∃ transitions : List OutboxTransition,
    transitions.foldlM reduceOutboxState before.1 = .ok later.1 ∧
      later.2 = before.2 + transitions.count .lease

theorem Advances.of_eq {before later : OutboxState × ℕ} (h : later = before) :
    Advances before later :=
  ⟨[], h ▸ rfl, h ▸ rfl⟩

theorem Advances.trans {before middle later : OutboxState × ℕ} (h : Advances before middle)
    (h' : Advances middle later) : Advances before later := by
  obtain ⟨transitions, hfold, hcount⟩ := h
  obtain ⟨transitions', hfold', hcount'⟩ := h'
  refine ⟨transitions ++ transitions', ?_, ?_⟩
  · rw [foldlM_append, hfold]
    exact hfold'
  · rw [count_append, hcount', hcount, Nat.add_assoc]

/-- The state of a row and its number of attempts; a row to come is pending without any. -/
def progressOf (s : OutboxSystem) (key : OutboxKey) : OutboxState × ℕ :=
  ((s.store.rows.find? key).map fun row => (row.state, row.attemptCount)).getD (.pending, 0)

theorem progressOf_key (hrow : row ∈ s.store.rows.rows) :
    s.progressOf row.key = (row.state, row.attemptCount) := by
  rw [progressOf, s.store.rows.find?_eq_some_iff.mpr ⟨hrow, rfl⟩]
  rfl

theorem progressOf_congr {t : OutboxSystem} (h : t.store.rows = s.store.rows) (key : OutboxKey) :
    t.progressOf key = s.progressOf key := by
  rw [progressOf, h, progressOf]

/-- A row that is inserted has made no progress. -/
theorem progressOf_insert (hrows : s'.store.rows = s.store.rows.insert row)
    (hpending : row.state = .pending) (hattempt : row.attemptCount = 0) (key : OutboxKey) :
    s'.progressOf key = s.progressOf key := by
  cases hfound : s.store.rows.find? key with
  | some other =>
    obtain ⟨hother, rfl⟩ := s.store.rows.find?_eq_some_iff.mp hfound
    rw [progressOf_key hother, progressOf_key (hrows ▸ s.store.rows.mem_insert_of_mem hother)]
  | none =>
    have habsent : s.progressOf key = (.pending, 0) := by rw [progressOf, hfound]; rfl
    cases hfound' : s'.store.rows.find? key with
    | none => rw [habsent, progressOf, hfound']; rfl
    | some other =>
      obtain ⟨hother, rfl⟩ := s'.store.rows.find?_eq_some_iff.mp hfound'
      rcases s.store.rows.mem_insert (hrows ▸ hother) with rfl | hold
      · rw [progressOf_key hother, habsent, hpending, hattempt]
      · cases hfound.symm.trans (s.store.rows.find?_eq_some_iff.mpr ⟨hold, rfl⟩)

theorem advances_writeRow (hrow : row ∈ s.store.rows.rows) {hf : ∀ row, (f row).key = row.key}
    {ended : List ℕ}
    (h : Advances (row.state, row.attemptCount) ((f row).state, (f row).attemptCount))
    (key : OutboxKey) :
    Advances (s.progressOf key) ((s.writeRow row.key f hf grants ended).progressOf key) := by
  by_cases hkey : key = row.key
  · have hwritten : f row ∈ (s.writeRow row.key f hf grants ended).store.rows.rows :=
      s.store.rows.mem_update_self hf hrow
    have hprogress := progressOf_key hwritten
    rw [hf row] at hprogress
    rwa [hkey, progressOf_key hrow, hprogress]
  · have hfind : (s.store.rows.update row.key f hf).find? key = s.store.rows.find? key := by
      refine Option.ext fun other => ?_
      rw [Table.find?_eq_some_iff, Table.find?_eq_some_iff]
      refine and_congr_left fun hother => ⟨fun h => ?_, fun h => ?_⟩
      · obtain ⟨before, hbefore, rfl⟩ := (s.store.rows.mem_update hf).mp h
        split at hother
        · rename_i hsame
          exact absurd (hother.symm.trans ((hf before).trans hsame)) hkey
        · rename_i hsame
          rwa [if_neg hsame]
      · exact s.store.rows.mem_update_of_ne hf h (hother ▸ hkey)
    exact .of_eq (by simp only [progressOf, writeRow, hfind])

/-- The latest attempt ends without a delivery. -/
theorem advances_stateAfterAttempt (hleased : row.state = .leased) :
    Advances (row.state, row.attemptCount) (row.stateAfterAttempt, row.attemptCount) := by
  rw [hleased]
  rcases OutboxRow.Sound.stateAfterAttempt_eq row with ⟨-, h⟩ | ⟨-, h⟩ <;> rw [h]
  · exact ⟨[.exhaust], rfl, rfl⟩
  · exact ⟨[.retry], rfl, rfl⟩

theorem ClaimTransition.advances (h : ClaimTransition s s') (key : OutboxKey) :
    Advances (s.progressOf key) (s'.progressOf key) := by
  cases h with
  | wait tenantId ms => exact .of_eq rfl
  | recover hrow hexpired delay =>
    simp only [OutboxRow.isExpired, and_eq_true, decide_eq_true_eq] at hexpired
    exact advances_writeRow hrow (advances_stateAfterAttempt hexpired.1) key
  | grant hrow hdue grant hattempt hexpires hkey =>
    simp only [OutboxRow.isDue, and_eq_true, or_eq_true, decide_eq_true_eq] at hdue
    refine advances_writeRow hrow ⟨[.lease], ?_, rfl⟩ key
    rcases hdue.1 with hstate | hstate <;> rw [hstate] <;> rfl

theorem advances_endLease (hrow : row ∈ s.store.rows.rows) {beforeUpdate : ℕ}
    {f : ℕ → OutboxRow → OutboxRow} {hf : ∀ now row, (f now row).key = row.key}
    (h : ∀ now, Advances (row.state, row.attemptCount)
      ((f now row).state, (f now row).attemptCount)) (key : OutboxKey) :
    Advances (s.progressOf key) ((s.endLease row beforeUpdate f hf).progressOf key) :=
  advances_writeRow (s := { s with store := s.store.wait row.tenantId beforeUpdate }) hrow
    (h _) key

theorem advances_step (hv : s.Valid) {action : OutboxAction} (hstep : Step s action s')
    (key : OutboxKey) : Advances (s.progressOf key) (s'.progressOf key) := by
  rcases step_cases hstep with h | rfl
  · cases action with
    | insert tenantId digest message availableAt createdAt =>
      cases h
      exact .of_eq (progressOf_insert rfl rfl rfl key)
    | wait tenantId ms =>
      cases h
      exact .of_eq rfl
    | discover worker limit =>
      exact .of_eq (progressOf_congr (congrArg (·.rows) (attempt_discover h).1) key)
    | claim index circumstances =>
      obtain ⟨t, hsteps, hstore, -, -⟩ := attempt_claim hv h
      rw [progressOf_congr (congrArg (·.rows) hstore)]
      clear hstore
      induction hsteps with
      | refl => exact .of_eq rfl
      | tail _ hlast ih => exact ih.trans (hlast.advances key)
    | acknowledge worker lease beforeUpdate =>
      obtain ⟨-, row, hrow, hholds, rfl⟩ := attempt_acknowledge h
      exact advances_endLease hrow (fun _ => ⟨[.deliver], by rw [hholds.2.1]; rfl, rfl⟩) key
    | fail worker lease beforeUpdate =>
      obtain ⟨row, hrow, hholds, delay, rfl⟩ := attempt_fail h
      exact advances_endLease hrow (fun _ => advances_stateAfterAttempt hholds.2.1) key
  · exact .of_eq rfl

theorem advances_run (hv : s.Valid) {actions : List OutboxAction} (hrun : Run Step s actions s')
    (key : OutboxKey) : Advances (s.progressOf key) (s'.progressOf key) := by
  induction hrun with
  | nil s => exact .of_eq rfl
  | cons hstep _ ih => exact (advances_step hv hstep key).trans (ih (hv.step hstep))

/-- However the operations of the outbox interleave, the rows that they write follow the reducer: a
row of a later state is reached from `pending`, and from what it was in any state before, through
transitions of `reduceOutboxState` that lease it once for each attempt it has made meanwhile. -/
theorem rows_follow_reducer (hs : Reachable Step IsInitial s) {actions : List OutboxAction}
    (hrun : Run Step s actions s') :
    ∀ row ∈ s'.store.rows.rows, Advances (.pending, 0) (row.state, row.attemptCount) ∧
      ∀ earlier ∈ s.store.rows.rows, earlier.key = row.key →
        Advances (earlier.state, earlier.attemptCount) (row.state, row.attemptCount) := by
  have hv := valid_of_reachable hs
  intro row hrow
  obtain ⟨initial, before, ⟨clock, rfl⟩, hbefore⟩ := hs
  have hfrom := advances_run (valid_empty clock) (hbefore.append hrun) row.key
  have hlater := advances_run hv hrun row.key
  rw [progressOf_key hrow] at hfrom hlater
  refine ⟨hfrom, fun earlier hearlier hkey => ?_⟩
  rwa [← hkey, progressOf_key hearlier] at hlater

/-! ### The last attempt -/

theorem run_foldl (s : OutboxSystem) (actions : List OutboxAction) :
    Run Step s actions (actions.foldl perform s) := by
  induction actions generalizing s with
  | nil => exact .nil s
  | cons action actions ih => exact .cons rfl (ih (s.perform action))

/-- One row, claimed fifteen times by a worker that never reports. -/
def lastAttemptActions : List OutboxAction :=
  .insert "tenant" "digest" (.jobStateChanged "job" "queued") 0 0 ::
    (List.replicate 15 [.wait "tenant" 100000, .discover ⟨⟨"worker", "instance"⟩, [.outboxDeliver]⟩
      none, .claim 0 undisturbed]).flatten

/-- The state in which the row is leased for the last time. -/
def lastAttempt : OutboxSystem := lastAttemptActions.foldl perform (empty fun _ => 0)

theorem reachable_lastAttempt : Reachable Step IsInitial lastAttempt :=
  ⟨_, _, ⟨_, rfl⟩, run_foldl _ _⟩

theorem lastAttempt_rows :
    lastAttempt.store.rows.rows.map (fun row => (row.state, row.attemptCount, row.maxAttempts)) =
      [(.leased, 8, 8)] := by
  decide +kernel

theorem outbox_delivery_lastAttempt : ∃ row ∈ lastAttempt.store.rows.rows,
    row.attemptCount = (lastAttempt.granted row.key).length ∧ row.attemptCount = 8 := by
  obtain ⟨row, hrow, hcolumns⟩ := List.mem_map.mp
    (lastAttempt_rows ▸ mem_singleton_self (OutboxState.leased, 8, 8))
  have hattempt : row.attemptCount = 8 := (Prod.ext_iff.mp (Prod.ext_iff.mp hcolumns).2).1
  exact ⟨row, hrow, ((outbox_delivery reachable_lastAttempt).2.1 row hrow).1, hattempt⟩

theorem rows_follow_reducer_lastAttempt : ∃ row ∈ lastAttempt.store.rows.rows,
    row.attemptCount = 8 ∧ Advances (.pending, 0) (.leased, 8) := by
  obtain ⟨row, hrow, hcolumns⟩ := List.mem_map.mp
    (lastAttempt_rows ▸ mem_singleton_self (OutboxState.leased, 8, 8))
  obtain ⟨hleased, hattempt, -⟩ : row.state = .leased ∧ row.attemptCount = 8 ∧
      row.maxAttempts = 8 := by simpa using hcolumns
  have hfollows := (rows_follow_reducer ⟨_, [], ⟨_, rfl⟩, .nil _⟩
    (run_foldl (empty fun _ => 0) lastAttemptActions) row hrow).1
  rw [hleased, hattempt] at hfollows
  exact ⟨row, hrow, hattempt, hfollows⟩

/-- A row that is leased for the last time is neither delivered nor exhausted, and cannot be
claimed again. -/
theorem not_canBeClaimedAgain_lastAttempt : Reachable Step IsInitial lastAttempt ∧
    ∃ row ∈ lastAttempt.store.rows.rows, row.state = .leased ∧
      ¬ lastAttempt.CanBeClaimedAgain row.key := by
  obtain ⟨row, hrow, hcolumns⟩ := List.mem_map.mp
    (lastAttempt_rows ▸ mem_singleton_self (OutboxState.leased, 8, 8))
  obtain ⟨hleased, hattempt, hmax⟩ : row.state = .leased ∧ row.attemptCount = 8 ∧
      row.maxAttempts = 8 := by simpa using hcolumns
  refine ⟨reachable_lastAttempt, row, hrow, hleased, ?_⟩
  rw [canBeClaimedAgain_iff (valid_of_reachable reachable_lastAttempt) hrow
    (.inr (.inr hleased)), hattempt, hmax]
  exact lt_irrefl 8

end OutboxSystem

end ApiTruth.Orchestration
