import ApiTruth.Catalog.Promotions
import ApiTruth.Orchestration.PullRequest

/-!
# Reopening a closed pull request

A closed or merged pull request is only reopened by newer evidence.  Events that are replayed,
stale, in conflict or incomparable leave the recorded update alone.  A reconciliation records what
it observes unless that is stale, in conflict or reopens the pull request without being newer, so
an incomparable observation may still turn a closed pull request into a merged one.

## Main definitions

* `PullRequestRows.Newer` : a later canonical sequence of the same provider.
* `PullRequestRows.LeavesOnlyOnNewer` : the recorded state changes only on newer evidence.

## Main results

* `PullRequestRows.recorded_perform_cases` : what one action does to the recorded update.
* `PullRequestRows.closed_reopens_only_on_newer` : the guarantee for every action.
* `PullRequestRows.closed_left_on_incomparable` : an incomparable observation changes the state.
-/

namespace ApiTruth.Orchestration

open Catalog Checked TransitionSystem Option Except

namespace PullRequestRows

/-- The update of a provider that an action brings. -/
def Action.update : Action → Option PullRequestUpdate
  | .event update => some update
  | .reconcile _ _ _ update => some update
  | _ => none

/-- The second update has a greater canonical sequence of the same provider. -/
def Newer (recorded next : PullRequestUpdate) : Prop :=
  recorded.evidence.provider = next.evidence.provider ∧
    ∃ m n, recorded.evidence.sequence? = some m ∧ next.evidence.sequence? = some n ∧ m < n

variable {rows : PullRequestRows}

theorem newer_of_classification {recorded next : PullRequestUpdate}
    (h : classifyProviderUpdate (some recorded) next = .newer) : Newer recorded next := by
  have hbefore := before_of_newer h
  obtain ⟨hprovider, x, y, hx, hy, -⟩ := id hbefore
  exact ⟨hprovider, _, _, hx.sequence?, hy.sequence?, hbefore.sequence_lt hx.sequence? hy.sequence?⟩

/-! ### What an action does to the recorded update -/

@[simp] theorem recorded_requestReconciliation (update : PullRequestUpdate) :
    (rows.requestReconciliation update).recorded = rows.recorded := by
  cases h : rows.checkpoint <;> simp [recorded, requestReconciliation, h]

@[simp] theorem recorded_acceptUpdate (update : PullRequestUpdate)
    (job : Option PullRequestJobId) :
    (rows.acceptUpdate update job).recorded = some update := by
  unfold acceptUpdate
  split <;> rfl

@[simp] theorem recorded_updateJob (id : PullRequestJobId) (f : JobState → JobState) :
    (rows.updateJob id f).recorded = rows.recorded := rfl

variable {update : PullRequestUpdate} {next : PullRequestRows}

theorem recorded_schedule_event {disposition : EventDisposition}
    (h : rows.schedulePullRequest update none = .ok (next, disposition)) :
    next.recorded = rows.recorded ∨ next.recorded = some update ∧
      (rows.classification update = .first ∨ rows.classification update = .newer) := by
  unfold schedulePullRequest at h
  split at h
  · exact .inl (by rw [← (Prod.mk.inj (ok.inj h)).1])
  · simp only [isNone_none, Bool.true_and, isSome_none, Bool.false_eq_true, ↓reduceIte] at h
    split at h
    · simp at h
    · exact .inl (by rw [← (Prod.mk.inj (ok.inj h)).1])
    · left
      split at h
      · rw [← (Prod.mk.inj (ok.inj h)).1]
      · split at h
        · rw [← (Prod.mk.inj (ok.inj h)).1]
        · rw [← (Prod.mk.inj (ok.inj h)).1, recorded_requestReconciliation]
    · left
      rw [← (Prod.mk.inj (ok.inj h)).1, recorded_requestReconciliation]
    · rename_i hclass
      refine .inr ⟨by rw [← (Prod.mk.inj (ok.inj h)).1, recorded_acceptUpdate], .inl ?_⟩
      split at hclass
      · simp at hclass
      · exact hclass
    · rename_i hclass
      refine .inr ⟨by rw [← (Prod.mk.inj (ok.inj h)).1, recorded_acceptUpdate], .inr ?_⟩
      split at hclass
      · simp at hclass
      · exact hclass

theorem recorded_completeReconciliation {job : PullRequestJobId} {leaseValid : Bool}
    {configuredBaseBranch : String}
    (h : rows.completeReconciliation job leaseValid configuredBaseBranch update = .ok next) :
    next.recorded = some update ∧ update.relevantPayload.state ≠ .updated ∧
      rows.refusesObservation update = false := by
  simp only [completeReconciliation, require_bind_eq_ok, orRaise_bind_eq_ok] at h
  obtain ⟨-, hobserved, -, -, checkpoint, -, -, hrefused, hscope, h⟩ := h
  have hstate : update.relevantPayload.state ≠ .updated := by
    simp only [isObservedPullRequest, Bool.and_eq_true, bne_iff_ne] at hobserved
    exact hobserved.1.1.2
  refine ⟨?_, hstate, hrefused⟩
  simp only [bind_eq_ok, pure_eq_ok] at h
  obtain ⟨⟨scheduled, disposition⟩, hscheduled, rfl⟩ := h
  simp only [schedulePullRequest, hscope, Bool.not_true, Bool.false_eq_true, ↓reduceIte,
    isNone_some, Bool.false_and, isSome_some, ok.injEq, Prod.mk.injEq] at hscheduled
  rw [recorded_updateJob, ← hscheduled.1, recorded_acceptUpdate]

theorem recorded_perform_cases (rows : PullRequestRows) (action : Action) :
    (rows.perform action).recorded = rows.recorded ∨
      ∃ update, action.update = some update ∧ (rows.perform action).recorded = some update ∧
        (action = .event update ∧
            (rows.classification update = .first ∨ rows.classification update = .newer) ∨
          (∀ other, action ≠ .event other) ∧ update.relevantPayload.state ≠ .updated ∧
            rows.refusesObservation update = false) := by
  cases action with
  | activate configuration => exact .inl rfl
  | moveJobs jobs => exact .inl rfl
  | event update =>
    simp only [perform]
    split
    · rename_i next disposition h
      refine (recorded_schedule_event h).imp_right fun ⟨hrecorded, hclass⟩ => ?_
      exact ⟨update, rfl, hrecorded, .inl ⟨rfl, hclass⟩⟩
    · exact .inl rfl
  | reconcile job leaseValid configuredBaseBranch update =>
    simp only [perform]
    split
    · rename_i next h
      obtain ⟨hrecorded, hobserved⟩ := recorded_completeReconciliation h
      exact .inr ⟨update, rfl, hrecorded, .inr ⟨by simp, hobserved⟩⟩
    · exact .inl rfl

/-- An observation that is not refused is neither stale nor in conflict, and reopens the pull
request only when it is newer. -/
theorem classification_of_not_refused {recorded update : PullRequestUpdate}
    (hrecorded : rows.recorded = some recorded)
    (h : rows.refusesObservation update = false) :
    classifyProviderUpdate (some recorded) update ≠ .stale ∧
      classifyProviderUpdate (some recorded) update ≠ .conflict ∧
      (update.relevantPayload.state = .open → recorded.relevantPayload.state.isTerminal = true →
        classifyProviderUpdate (some recorded) update = .newer) := by
  simp only [refusesObservation, hrecorded, Bool.or_eq_false_iff, Bool.and_eq_false_iff,
    beq_eq_false_iff_ne, bne_eq_false_iff_eq] at h
  obtain ⟨⟨hstale, hconflict⟩, hreopens⟩ := h
  refine ⟨hstale, hconflict, fun hopen hterminal => ?_⟩
  simpa [hopen, hterminal] using hreopens

theorem isTerminal_eq_false_iff {state : PullRequestState} :
    state.isTerminal = false ↔ state = .open ∨ state = .updated := by
  cases state <;> simp [PullRequestState.isTerminal]

/-! ### The guarantee -/

/-- The recorded state of a closed or merged pull request is left only for newer evidence. -/
def LeavesOnlyOnNewer (rows : PullRequestRows) (action : Action) : Prop :=
  ∀ recorded next, rows.recorded = some recorded →
    recorded.relevantPayload.state.isTerminal = true →
    (rows.perform action).recorded = some next →
    next.relevantPayload.state ≠ recorded.relevantPayload.state → Newer recorded next

/-- A closed or merged pull request is reopened only by an event or a reconciliation with a greater
canonical sequence of the same provider.  Replayed, stale and conflicting updates leave its state
alone, and so do incomparable events. -/
theorem closed_reopens_only_on_newer (rows : PullRequestRows) (action : Action)
    {recorded : PullRequestUpdate} (hrecorded : rows.recorded = some recorded)
    (hterminal : recorded.relevantPayload.state.isTerminal = true) :
    ∃ next, (rows.perform action).recorded = some next ∧
      (next.relevantPayload.state.isTerminal = false →
        action.update = some next ∧ Newer recorded next) ∧
      (∀ update, action.update = some update →
        classifyProviderUpdate (some recorded) update ∈
          [ProviderUpdateClassification.exactReplay, .stale, .conflict] →
        next.relevantPayload.state = recorded.relevantPayload.state) ∧
      ∀ update, action = .event update →
        classifyProviderUpdate (some recorded) update = .incomparable → next = recorded := by
  have hclassification (update : PullRequestUpdate) :
      rows.classification update = classifyProviderUpdate (some recorded) update := by
    rw [classification, hrecorded]
  rcases recorded_perform_cases rows action with
    hsame | ⟨update, hupdate, hnext, ⟨rfl, hclass⟩ | ⟨hevent, hstate, hrefused⟩⟩
  · refine ⟨recorded, hsame.trans hrecorded, fun hopen => ?_, fun _ _ _ => rfl, fun _ _ _ => rfl⟩
    rw [hterminal] at hopen
    simp at hopen
  · -- an accepted event is newer: there is a recorded update, so it is not the first
    have hnewer : classifyProviderUpdate (some recorded) update = .newer := by
      rw [hclassification] at hclass
      exact hclass.resolve_left (classifyProviderUpdate_ne_first recorded update)
    refine ⟨update, hnext, fun _ => ⟨hupdate, newer_of_classification hnewer⟩,
      fun other hother hin => ?_, fun other hother hincomparable => ?_⟩
    · cases hother
      simp [hnewer] at hin
    · cases hother
      simp [hnewer] at hincomparable
  · obtain ⟨hstale, hconflict, hreopens⟩ := classification_of_not_refused hrecorded hrefused
    refine ⟨update, hnext, fun hopen => ⟨hupdate, ?_⟩, fun other hother hin => ?_,
      fun other hother => absurd hother (hevent other)⟩
    · have hisOpen := (isTerminal_eq_false_iff.mp hopen).resolve_right hstate
      exact newer_of_classification (hreopens hisOpen hterminal)
    · cases hupdate.symm.trans hother
      simp only [List.mem_cons, List.not_mem_nil, or_false] at hin
      rcases hin with hreplay | hstale' | hconflict'
      · rw [(repeats_of_exactReplay hreplay).2]
      · exact absurd hstale' hstale
      · exact absurd hconflict' hconflict

/-! ### An incomparable observation -/

def unseenPullRequest : PullRequestRows where
  configuration := ⟨"config-a", "git", ["main"]⟩
  checkpoint := none
  jobs _ := none

/-- An update of the pull request into `main`. -/
def sampleUpdate (state : PullRequestState) (order : Option ProviderOrder) : PullRequestUpdate where
  evidence := ⟨"git", "reference", order⟩
  relevantPayload := ⟨state, "main", "base", "feature", "head"⟩

/-- The job that reconciles the pull request after its first incomparable event. -/
def sampleJob : PullRequestJobId := ⟨.prReconciliation, "base", "head", 1, "config-a"⟩

/-- The pull request is closed, an event without an order asks for a reconciliation, and a worker
leases its job. -/
def closedPullRequest : PullRequestRows :=
  ((unseenPullRequest.perform (.event (sampleUpdate .closed (some ⟨.sequence, "10"⟩)))).perform
    (.event (sampleUpdate .merged none))).perform (.moveJobs fun _ => some .leased)

/-- The reconciliation observes a merged pull request, again without an order. -/
def observeMerged : Action := .reconcile sampleJob true "main" (sampleUpdate .merged none)

/-- The guarantee at work: the merged observation does not reopen the pull request. -/
theorem closed_reopens_only_on_newer_merged :
    ∃ next, (closedPullRequest.perform observeMerged).recorded = some next ∧
      next.relevantPayload.state.isTerminal = true := by
  have hrecorded : closedPullRequest.recorded =
      some (sampleUpdate .closed (some ⟨.sequence, "10"⟩)) := by decide
  obtain ⟨next, hnext, hreopens, -⟩ :=
    closed_reopens_only_on_newer closedPullRequest observeMerged hrecorded rfl
  refine ⟨next, hnext, ?_⟩
  by_contra hopen
  obtain ⟨hupdate, -, m, n, -, hn, -⟩ := hreopens (Bool.eq_false_iff.mpr hopen)
  cases hupdate
  simp [sampleUpdate, ProviderReference.sequence?] at hn

/-- The state of a closed pull request can be left without newer evidence. -/
theorem closed_left_on_incomparable :
    ¬ ∀ rows action, Reachable Step IsInitial rows → LeavesOnlyOnNewer rows action := by
  intro h
  have hreachable : Reachable Step IsInitial closedPullRequest :=
    ⟨unseenPullRequest, _, rfl, .cons rfl (.cons rfl (.cons rfl (.nil _)))⟩
  obtain ⟨-, m, n, -, hn, -⟩ := h closedPullRequest observeMerged hreachable
    (sampleUpdate .closed (some ⟨.sequence, "10"⟩)) (sampleUpdate .merged none) (by decide) rfl
    (by decide) (by decide)
  simp [sampleUpdate, ProviderReference.sequence?] at hn

end PullRequestRows

end ApiTruth.Orchestration
