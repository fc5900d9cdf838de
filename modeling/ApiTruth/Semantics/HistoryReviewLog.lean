import ApiTruth.Foundation.Tables
import ApiTruth.Semantics.HistoryReview
import Mathlib.Data.List.Chain

/-!
# The log of history reviews

Recording calls of any number of sessions interleave statement by statement.  Under the advisory
lock each of them behaves as if it ran alone, so it is enough to follow one call at a time: on a log
of versions `1..n` a call replays the review of its expected version, appends version `n + 1`, or
raises and stores nothing.

## Main definitions

* `IsLinearLog` : the reviews of one history record have the versions `1..n`.
* `LogInvariant` : the logs are linear, and receipts and rows correspond.
* `AnswersFrom` : what a call that commits answers and stores.

## Main results

* `execute_of_mem`, `execute_of_stale`, `execute_of_latest` : the three outcomes of a call.
* `history_reviews_form_linear_log` : every interleaving keeps a linear log, answers replays and
  conflicts from it, and is read back from it.
-/

namespace ApiTruth.Semantics

open Checked Locking List Decimal

/-! ### Linear logs -/

/-- The stored versions are `1..n`, each one more than the version that was expected. -/
structure IsLinearLog (log : List StoredReview) : Prop where
  versions : log.map (·.reviewVersion) = List.range' 1 log.length
  expected : ∀ row ∈ log, row.reviewVersion = row.expectedVersion + 1

namespace IsLinearLog

variable {log : List StoredReview}

theorem nil : IsLinearLog [] where
  versions := rfl
  expected _ h := absurd h not_mem_nil

section

variable (h : IsLinearLog log)
include h

variable {row : StoredReview}

theorem append (hrow : row.expectedVersion = log.length)
    (hversion : row.reviewVersion = row.expectedVersion + 1) : IsLinearLog (log ++ [row]) where
  versions := by
    rw [map_append, h.versions, length_append, length_singleton,
      range'_1_concat, map_singleton, hversion, hrow, Nat.add_comm]
  expected := List.forall_mem_append.mpr ⟨h.expected, List.forall_mem_singleton.mpr hversion⟩

theorem expected_lt (hrow : row ∈ log) :
    row.expectedVersion < log.length := by
  have hmem : row.reviewVersion ∈ List.range' 1 log.length :=
    h.versions ▸ List.mem_map_of_mem hrow
  have hversion := h.expected row hrow
  have hrange := (List.mem_range'_1.mp hmem).2
  omega

theorem exists_of_lt {version : ℕ} (hversion : version < log.length) :
    ∃ row ∈ log, row.expectedVersion = version := by
  have hmem : version + 1 ∈ log.map (·.reviewVersion) := by
    rw [h.versions, mem_range'_1]
    omega
  obtain ⟨row, hrow, heq⟩ := List.mem_map.mp hmem
  have hexpected := h.expected row hrow
  exact ⟨row, hrow, by omega⟩

theorem nodup_expected : (log.map (·.expectedVersion)).Nodup := by
  have hversions : (log.map (·.reviewVersion)).Nodup := h.versions ▸ nodup_range'
  refine (nodup_map_iff_inj_on (Nodup.of_map _ hversions)).mpr ?_
  intro row hrow other hother heq
  refine inj_on_of_nodup_map hversions hrow hother ?_
  rw [h.expected row hrow, h.expected other hother, heq]

theorem filter_expected_of_mem (hrow : row ∈ log) :
    log.filter (fun other => decide (other.expectedVersion = row.expectedVersion)) = [row] := by
  let table : Table StoredReview.expectedVersion := ⟨log, h.nodup_expected⟩
  have hfind : table.find? row.expectedVersion = some row :=
    table.find?_eq_some_iff.mpr ⟨hrow, rfl⟩
  calc table.rows.filter (fun other => decide (other.expectedVersion = row.expectedVersion))
      = (table.find? row.expectedVersion).toList := table.filter_key _
    _ = [row] := by rw [hfind]; rfl

theorem pairwise_lt :
    log.Pairwise fun row other => row.reviewVersion < other.reviewVersion := by
  have hrange : (List.range' 1 log.length).Pairwise (· < ·) := pairwise_lt_range'
  rw [← h.versions] at hrange
  exact List.pairwise_map.mp hrange

end

end IsLinearLog

theorem newestFirst_eq_reverse {log : List StoredReview}
    (h : log.Pairwise fun row other => row.reviewVersion < other.reviewVersion) :
    newestFirst log = log.reverse := by
  induction log with
  | nil => rfl
  | cons row log ih =>
    obtain ⟨hrow, hlog⟩ := List.pairwise_cons.mp h
    have hinsert : ∀ others : List StoredReview,
        (∀ other ∈ others, row.reviewVersion < other.reviewVersion) →
          others.orderedInsert (fun row other => other.reviewVersion ≤ row.reviewVersion) row =
            others ++ [row] := by
      intro others hothers
      induction others with
      | nil => rfl
      | cons other others ihothers =>
        obtain ⟨hother, hothers⟩ := List.forall_mem_cons.mp hothers
        rw [orderedInsert_cons, if_neg (Nat.not_le.mpr hother), ihothers hothers, cons_append]
    rw [newestFirst, insertionSort_cons, ← newestFirst, ih hlog, reverse_cons]
    exact hinsert _ fun other hother => hrow other (List.mem_reverse.mp hother)

theorem mem_reviewsOf {rows : List StoredReview} {identity : HistoryIdentity} :
    row ∈ reviewsOf rows identity ↔ row ∈ rows ∧ row.identity = identity := by
  rw [reviewsOf, mem_filter, decide_eq_true_eq]

theorem reviewsOf_append (rows inserted : List StoredReview) (identity : HistoryIdentity) :
    reviewsOf (rows ++ inserted) identity =
      reviewsOf rows identity ++ reviewsOf inserted identity :=
  filter_append ..

/-- The row is what the request asks for, at the version that it expects. -/
structure Records (call : ReviewCall) (parsed : SemanticHistoryReviewRequest) (row : StoredReview) :
    Prop where
  identity : row.identity = call.identity
  expectedVersion : row.expectedVersion = Decimal.value parsed.expectedVersion
  decision : row.decision = parsed.decision

def receiptOf (row : StoredReview) (replayed : Bool) : SemanticHistoryReviewReceipt :=
  { recordOf row with replayed }

/-! ### One call -/

section Calls

variable {sha256 : String → String} {archive : Archive} {call : ReviewCall}
  {parsed : SemanticHistoryReviewRequest} {rows : List StoredReview}

variable (h : call.admitted = .ok parsed)

include h in
theorem isCanonical_expected :
    isCanonical parsed.expectedVersion = true :=
  (bigintString_iff.mp (versions_of_parse (admitted_eq_ok.mp h).1).2).1

include h in
theorem expected_lt_maxBigint :
    value parsed.expectedVersion < maxBigint := by
  have hle := (bigintString_iff.mp (versions_of_parse (admitted_eq_ok.mp h).1).2).2.2.2
  exact Nat.lt_of_le_of_lt hle (by decide)

include h in
theorem isRecorded_row (hauthorized : IsAuthorized archive call.scope call.history)
    (hcreated : isCreatedAt call.createdAt = true) :
    IsRecorded sha256 archive (call.row sha256 parsed) where
  reviewVersion := rfl
  bounded := expected_lt_maxBigint h
  createdAt := hcreated
  digest source hsource := by
    have heq : sourceOf call.scope call.history = source :=
      Option.some.inj (hauthorized.symm.trans hsource)
    rw [← heq, ReviewCall.row, toString_value (isCanonical_expected h)]
    exact digest_eq_sourceDigest (isCanonical_of_admitted h) ..

theorem records_row (call : ReviewCall) (parsed : SemanticHistoryReviewRequest) :
    Records call parsed (call.row sha256 parsed) := ⟨rfl, rfl, rfl⟩

include h in
theorem insertedReceipt_row (hauthorized : IsAuthorized archive call.scope call.history)
    (hcreated : isCreatedAt call.createdAt = true) :
    insertedReceipt sha256 call parsed (call.row sha256 parsed) =
      .ok (receiptOf (call.row sha256 parsed) false) := by
  have hrecorded : IsRecorded sha256 archive (call.row sha256 parsed) :=
    isRecorded_row h hauthorized hcreated
  have hverify := verify_projection hrecorded rfl hauthorized (isCanonical_of_admitted h)
  rw [insertedReceipt, hverify]
  exact require_bind_eq_ok.mpr ⟨⟨rfl, rfl⟩, rfl⟩

theorem insertedReceipt_eq_error (sha256 : String → String)
    (parsed : SemanticHistoryReviewRequest) (hcreated : isCreatedAt call.createdAt ≠ true) :
    ∃ code, insertedReceipt sha256 call parsed (call.row sha256 parsed) = .error code := by
  cases hreceipt : insertedReceipt sha256 call parsed (call.row sha256 parsed) with
  | error code => exact ⟨code, rfl⟩
  | ok receipt =>
    obtain ⟨record, hverify, -⟩ := bind_eq_ok.mp hreceipt
    simp only [verify, require_bind_eq_ok, orRaise_bind_eq_ok] at hverify
    obtain ⟨-, -, -, ⟨hok, -⟩, -⟩ := hverify
    exact absurd hok hcreated

variable (h : call.admitted = .ok parsed)
  (hauthorized : IsAuthorized archive call.scope call.history)
  (hrecorded : ∀ row ∈ rows, IsRecorded sha256 archive row)
  (hlog : IsLinearLog (reviewsOf rows call.identity))
include h hauthorized hrecorded hlog

omit hlog in
theorem verify_of_mem (hrow : row ∈ reviewsOf rows call.identity) :
    verify sha256 (projection row) call.scope call.history = .ok (recordOf row) := by
  obtain ⟨hmem, hidentity⟩ := mem_reviewsOf.mp hrow
  exact verify_projection (hrecorded row hmem) hidentity hauthorized (isCanonical_of_admitted h)

/-- At a used version the same decision is replayed and another one is a conflict. -/
theorem execute_of_mem (hrow : row ∈ reviewsOf rows call.identity)
    (hexpected : row.expectedVersion = value parsed.expectedVersion) :
    (recordSemanticHistoryReview sha256 archive call).execute rows =
      (if row.decision = parsed.decision then .ok (receiptOf row true) else .error .conflict,
        []) := by
  have hfilter := hlog.filter_expected_of_mem hrow
  rw [hexpected] at hfilter
  have hverify := verify_of_mem h hauthorized hrecorded hrow
  simp only [recordSemanticHistoryReview, h, Program.execute_read, hfilter, Program.execute_finish,
    replay, hverify]
  by_cases hdecision : row.decision = parsed.decision
  · rw [if_pos hdecision]
    exact Prod.ext (require_bind_eq_ok.mpr ⟨hdecision, rfl⟩) rfl
  · rw [if_neg hdecision]
    refine Prod.ext ?_ rfl
    change (require (row.decision = parsed.decision) _ >>= fun _ => _) = _
    rw [require, if_neg hdecision]
    rfl

theorem currentVersion_eq : currentVersion sha256 call rows =
    .ok (toString (reviewsOf rows call.identity).length) := by
  rw [currentVersion, newestFirst_eq_reverse hlog.pairwise_lt, head?_reverse]
  rcases eq_nil_or_concat (reviewsOf rows call.identity) with hnil | ⟨older, latest, hconcat⟩
  · rw [hnil]
    rfl
  · have hlatest : latest ∈ reviewsOf rows call.identity := by
      rw [hconcat]
      simp
    have hlength : latest.reviewVersion = (reviewsOf rows call.identity).length := by
      have hversions := hlog.versions
      rw [hconcat, concat_eq_append, map_append, length_append,
        length_singleton, range'_1_concat, map_singleton] at hversions
      rw [hconcat, length_concat]
      have hlast := (append_inj' hversions rfl).2
      rw [List.singleton_inj.mp hlast, Nat.add_comm]
    have hverify := verify_of_mem h hauthorized hrecorded hlatest
    rw [← hlength, hconcat, concat_eq_append, getLast?_concat]
    simp only [hverify]
    rfl

theorem execute_of_not_used (hunused : ∀ row ∈ reviewsOf rows call.identity,
      row.expectedVersion ≠ value parsed.expectedVersion) :
    (recordSemanticHistoryReview sha256 archive call).execute rows =
      if (reviewsOf rows call.identity).length = value parsed.expectedVersion then
        (insertReview sha256 archive call parsed).execute rows
      else (.error .conflict, []) := by
  have hfilter : (reviewsOf rows call.identity).filter (fun row =>
      decide (row.expectedVersion = value parsed.expectedVersion)) = [] :=
    List.filter_eq_nil_iff.mpr fun row hrow => by simpa using hunused row hrow
  have hcurrent : toString (reviewsOf rows call.identity).length = parsed.expectedVersion ↔
      (reviewsOf rows call.identity).length = value parsed.expectedVersion := by
    rw [← value_inj (isCanonical_toString _) (isCanonical_expected h), value_toString]
  simp only [recordSemanticHistoryReview, h, Program.execute_read, hfilter,
    currentVersion_eq h hauthorized hrecorded hlog, hcurrent]
  split_ifs <;> rfl

/-- A version that the log has not reached is a conflict. -/
theorem execute_of_stale
    (hstale : (reviewsOf rows call.identity).length < value parsed.expectedVersion) :
    (recordSemanticHistoryReview sha256 archive call).execute rows = (.error .conflict, []) := by
  rw [execute_of_not_used h hauthorized hrecorded hlog, if_neg (Nat.ne_of_lt hstale)]
  intro row hrow
  have hlt := hlog.expected_lt hrow
  omega

section

variable (hlatest : (reviewsOf rows call.identity).length = Decimal.value parsed.expectedVersion)
include hlatest

theorem execute_of_latest :
    (recordSemanticHistoryReview sha256 archive call).execute rows =
      (insertReview sha256 archive call parsed).execute rows := by
  rw [execute_of_not_used h hauthorized hrecorded hlog, if_pos hlatest]
  intro row hrow
  have hlt := hlog.expected_lt hrow
  omega

theorem execute_of_accepted (haccepts : accepts archive rows (call.row sha256 parsed) = true)
    (hcreated : isCreatedAt call.createdAt = true) :
    (recordSemanticHistoryReview sha256 archive call).execute rows =
      (.ok (receiptOf (call.row sha256 parsed) false), [call.row sha256 parsed]) := by
  rw [execute_of_latest h hauthorized hrecorded hlog hlatest, insertReview, Program.execute_read,
    if_pos haccepts, insertedReceipt_row h hauthorized hcreated]
  rfl

theorem execute_of_refused (hrefused : ¬ (accepts archive rows (call.row sha256 parsed) = true ∧
      isCreatedAt call.createdAt = true)) :
    ∃ code, (recordSemanticHistoryReview sha256 archive call).execute rows = (.error code, []) := by
  rw [execute_of_latest h hauthorized hrecorded hlog hlatest, insertReview, Program.execute_read]
  by_cases haccepts : accepts archive rows (call.row sha256 parsed) = true
  · have hcreated : isCreatedAt call.createdAt ≠ true := fun h => hrefused ⟨haccepts, h⟩
    obtain ⟨code, hreceipt⟩ := insertedReceipt_eq_error sha256 parsed hcreated
    rw [if_pos haccepts, hreceipt]
    exact ⟨code, rfl⟩
  · rw [if_neg haccepts]
    exact ⟨_, rfl⟩

end

omit hrecorded in
/-- The constraints of the table admit the next row of a log: what can refuse it is an empty owner
or a digest that is none. -/
theorem accepts_row_iff
    (hlatest : (reviewsOf rows call.identity).length = value parsed.expectedVersion) :
    accepts archive rows (call.row sha256 parsed) = true ↔
      isSha256 (call.row sha256 parsed).recordSha256 = true ∧ call.scope.tenantId ≠ "" ∧
        call.scope.principalId ≠ "" := by
  have hbound := expected_lt_maxBigint h
  have hid : 0 < call.identity.historyId := by
    obtain ⟨hcanonical, -, hpositive, -⟩ :=
      bigintString_iff.mp (require_eq_ok.mp (admitted_eq_ok.mp h).2.2).1
    refine Nat.pos_of_ne_zero fun hzero => hpositive rfl ?_
    rw [← toString_value hcanonical]
    exact congrArg toString hzero
  have hkeys : ∀ other ∈ reviewsOf rows call.identity,
      other.reviewVersion ≠ value parsed.expectedVersion + 1 ∧
        other.expectedVersion ≠ value parsed.expectedVersion := by
    intro other hother
    have hlt := hlog.expected_lt hother
    have hversion := hlog.expected other hother
    omega
  have hreference : (archive call.identity).isSome = true :=
    Option.isSome_iff_exists.mpr ⟨_, hauthorized⟩
  have hall : ((reviewsOf rows call.identity).all fun other =>
      other.reviewVersion ≠ value parsed.expectedVersion + 1 &&
        other.expectedVersion ≠ value parsed.expectedVersion) = true := by
    simpa using hkeys
  have hbounds : 0 < value parsed.expectedVersion + 1 ∧
      value parsed.expectedVersion + 1 ≤ maxBigint ∧
        value parsed.expectedVersion < maxBigint := ⟨Nat.succ_pos _, hbound, hbound⟩
  change (decide _ && isSha256 _ && _ && _ && _ && _) = true ↔ _
  simp only [Bool.and_eq_true, decide_eq_true_eq]
  constructor
  · rintro ⟨⟨⟨⟨⟨-, hsha⟩, -⟩, -⟩, htenant, hprincipal, -⟩, -⟩
    exact ⟨hsha, htenant, hprincipal⟩
  · rintro ⟨hsha, htenant, hprincipal⟩
    exact ⟨⟨⟨⟨⟨hbounds, hsha⟩, hall⟩, hreference⟩, htenant, hprincipal, hid⟩, rfl⟩

end Calls

/-! ### Every interleaving -/

section Runs

variable {sha256 : String → String} {hashtextextended : String → ℤ} {archive : Archive}

abbrev Answer := Except SemanticHistoryReviewErrorCode SemanticHistoryReviewReceipt

/-- The logs are linear, every row can be read back, every receipt is the receipt of a row, and
every row has been answered with a receipt when it was stored. -/
structure LogInvariant (sha256 : String → String) (archive : Archive)
    (finished : List (ReviewCall × Answer)) (rows : List StoredReview) : Prop where
  linear : ∀ identity, IsLinearLog (reviewsOf rows identity)
  recorded : ∀ row ∈ rows, IsRecorded sha256 archive row
  receipts : ∀ call receipt, (call, .ok receipt) ∈ finished → ∃ parsed row,
    call.admitted = .ok parsed ∧ row ∈ rows ∧ Records call parsed row ∧
      receipt.toSemanticHistoryReviewRecord = recordOf row
  origins : ∀ row ∈ rows, ∃ call parsed, call.admitted = .ok parsed ∧ Records call parsed row ∧
    (call, .ok (receiptOf row false)) ∈ finished

/-- The caller is authorised for the archived source. -/
def Admits (archive : Archive) (call : ReviewCall) : Prop :=
  IsAuthorized archive call.scope call.history

variable {finished : List (ReviewCall × Answer)} {rows : List StoredReview}

theorem LogInvariant.nil : LogInvariant sha256 archive [] [] where
  linear _ := .nil
  recorded _ h := absurd h not_mem_nil
  receipts _ _ h := absurd h not_mem_nil
  origins _ h := absurd h not_mem_nil

section

variable (h : LogInvariant sha256 archive finished rows)
include h

theorem LogInvariant.error (call : ReviewCall) (code : SemanticHistoryReviewErrorCode) :
    LogInvariant sha256 archive (finished ++ [(call, .error code)]) (rows ++ []) where
  linear identity := (append_nil rows).symm ▸ h.linear identity
  recorded := (append_nil rows).symm ▸ h.recorded
  receipts other receipt hmem := by
    rcases List.mem_append.mp hmem with hold | hnew
    · rw [append_nil]
      exact h.receipts other receipt hold
    · cases List.mem_singleton.mp hnew
  origins row hrow := by
    rw [append_nil] at hrow
    obtain ⟨other, parsed, hadmitted, hrecords, hmem⟩ := h.origins row hrow
    exact ⟨other, parsed, hadmitted, hrecords, mem_append_left _ hmem⟩

variable {parsed : SemanticHistoryReviewRequest}

theorem LogInvariant.replayed {call : ReviewCall} (hadmitted : call.admitted = .ok parsed)
    (hrow : row ∈ rows) (hrecords : Records call parsed row) :
    LogInvariant sha256 archive (finished ++ [(call, .ok (receiptOf row true))]) (rows ++ []) where
  linear identity := (append_nil rows).symm ▸ h.linear identity
  recorded := (append_nil rows).symm ▸ h.recorded
  receipts other receipt hmem := by
    rw [append_nil]
    rcases List.mem_append.mp hmem with hold | hnew
    · exact h.receipts other receipt hold
    · cases List.mem_singleton.mp hnew
      exact ⟨parsed, row, hadmitted, hrow, hrecords, rfl⟩
  origins other hother := by
    rw [append_nil] at hother
    obtain ⟨call', parsed', hadmitted', hrecords', hmem⟩ := h.origins other hother
    exact ⟨call', parsed', hadmitted', hrecords', mem_append_left _ hmem⟩

theorem LogInvariant.appended {call : ReviewCall} (hadmitted : call.admitted = .ok parsed)
    (hauthorized : Admits archive call)
    (hlatest : (reviewsOf rows call.identity).length = value parsed.expectedVersion)
    (hcreated : isCreatedAt call.createdAt = true) :
    LogInvariant sha256 archive
      (finished ++ [(call, .ok (receiptOf (call.row sha256 parsed) false))])
      (rows ++ [call.row sha256 parsed]) where
  linear identity := by
    rw [reviewsOf_append]
    by_cases hidentity : call.identity = identity
    · subst hidentity
      have hself : reviewsOf [call.row sha256 parsed] call.identity = [call.row sha256 parsed] := by
        simp [reviewsOf, ReviewCall.row]
      rw [hself]
      exact (h.linear call.identity).append hlatest.symm rfl
    · have hnone : reviewsOf [call.row sha256 parsed] identity = [] := by
        simp [reviewsOf, ReviewCall.row, hidentity]
      rw [hnone, append_nil]
      exact h.linear identity
  recorded := List.forall_mem_append.mpr ⟨h.recorded,
    List.forall_mem_singleton.mpr (isRecorded_row hadmitted hauthorized hcreated)⟩
  receipts other receipt hmem := by
    rcases List.mem_append.mp hmem with hold | hnew
    · obtain ⟨parsed', row, hadmitted', hrow, hrecords, hreceipt⟩ := h.receipts other receipt hold
      exact ⟨parsed', row, hadmitted', mem_append_left _ hrow, hrecords, hreceipt⟩
    · cases List.mem_singleton.mp hnew
      exact ⟨parsed, _, hadmitted, mem_append_right _ mem_cons_self, records_row _ _, rfl⟩
  origins row hrow := by
    rcases List.mem_append.mp hrow with hold | hnew
    · obtain ⟨call', parsed', hadmitted', hrecords, hmem⟩ := h.origins row hold
      exact ⟨call', parsed', hadmitted', hrecords, mem_append_left _ hmem⟩
    · rw [List.mem_singleton.mp hnew]
      exact ⟨call, parsed, hadmitted, records_row _ _, mem_append_right _ mem_cons_self⟩

theorem LogInvariant.call {call : ReviewCall} (hauthorized : Admits archive call) :
    LogInvariant sha256 archive
      (finished ++ [(call, ((recordSemanticHistoryReview sha256 archive call).execute rows).1)])
      (rows ++ ((recordSemanticHistoryReview sha256 archive call).execute rows).2) := by
  cases hadmitted : call.admitted with
  | error code =>
    have hexecute : (recordSemanticHistoryReview sha256 archive call).execute rows =
        (.error code, []) := by
      rw [recordSemanticHistoryReview, hadmitted]
      rfl
    rw [hexecute]
    exact h.error call code
  | ok parsed =>
    have hlog := h.linear call.identity
    rcases lt_trichotomy (value parsed.expectedVersion)
      (reviewsOf rows call.identity).length with hused | hlatest | hstale
    · obtain ⟨row, hrow, hexpected⟩ := hlog.exists_of_lt hused
      rw [execute_of_mem hadmitted hauthorized h.recorded hlog hrow hexpected]
      obtain ⟨hmem, hidentity⟩ := mem_reviewsOf.mp hrow
      by_cases hdecision : row.decision = parsed.decision
      · rw [if_pos hdecision]
        exact h.replayed hadmitted hmem ⟨hidentity, hexpected, hdecision⟩
      · rw [if_neg hdecision]
        exact h.error call .conflict
    · by_cases hstored : accepts archive rows (call.row sha256 parsed) = true ∧
          isCreatedAt call.createdAt = true
      · rw [execute_of_accepted hadmitted hauthorized h.recorded hlog hlatest.symm hstored.1
          hstored.2]
        exact h.appended hadmitted hauthorized hlatest.symm hstored.2
      · obtain ⟨code, hexecute⟩ := execute_of_refused hadmitted hauthorized h.recorded hlog
          hlatest.symm hstored
        rw [hexecute]
        exact h.error call code
    · rw [execute_of_stale hadmitted hauthorized h.recorded hlog hstale]
      exact h.error call .conflict

end

theorem logInvariant_of_sequential
    (h : (historyReviews sha256 hashtextextended archive).Sequential (Admits archive) finished
      rows) : LogInvariant sha256 archive finished rows := by
  induction h with
  | nil => exact .nil
  | call _ call hadmits ih => exact ih.call hadmits

end Runs

/-! ### Reading the log -/

section Reads

variable {sha256 : String → String} {archive : Archive} {scope : SemanticHistoryScope}
  {history : SemanticHistoryRecord} {rows : List StoredReview}

theorem areConsecutive_iff {records : List SemanticHistoryReviewRecord} :
    areConsecutive records = true ↔ records.IsChain fun newer older =>
      value newer.reviewVersion = value older.reviewVersion + 1 := by
  induction records with
  | nil => simp [areConsecutive]
  | cons newer records ih =>
    cases records with
    | nil => simp [areConsecutive]
    | cons older records =>
      rw [areConsecutive, Bool.and_eq_true, decide_eq_true_eq, ih, isChain_cons_cons]

theorem IsLinearLog.isChain_reverse {log : List StoredReview} (h : IsLinearLog log) :
    log.reverse.IsChain fun newer older => newer.reviewVersion = older.reviewVersion + 1 := by
  have hrange := isChain_range' 1 log.length 1
  rw [← h.versions] at hrange
  exact List.isChain_reverse.mpr ((isChain_map _).mp hrange)

theorem mapM_verify_eq (hauthorized : IsAuthorized archive scope history)
    (hid : isCanonical history.historyId = true) {selected : List StoredReview}
    (hselected : ∀ row ∈ selected,
      IsRecorded sha256 archive row ∧ row.identity = identityOf scope history) :
    selected.mapM (fun row => verify sha256 (projection row) scope history) =
      .ok (selected.map recordOf) := by
  induction selected with
  | nil => rfl
  | cons row selected ih =>
    obtain ⟨⟨hrow, hidentity⟩, hrest⟩ := List.forall_mem_cons.mp hselected
    rw [mapM_cons, verify_projection hrow hidentity hauthorized hid, ih hrest]
    rfl

/-- An authorised reader gets the end of the log, newest first, and is told whether it is all. -/
theorem readSemanticHistoryReviews_eq (hrecorded : ∀ row ∈ rows, IsRecorded sha256 archive row)
    (hlog : IsLinearLog (reviewsOf rows (identityOf scope history)))
    (hauthorized : IsAuthorized archive scope history)
    (hvalid : validateHistory scope history = .ok ⟨⟩) {limit : ℤ} (hlow : 1 ≤ limit)
    (hhigh : limit ≤ 20) :
    readSemanticHistoryReviews sha256 scope history limit rows = .ok {
      historyId := history.historyId
      records := ((reviewsOf rows (identityOf scope history)).reverse.take limit.toNat).map recordOf
      truncated := decide
        (limit.toNat < (reviewsOf rows (identityOf scope history)).length) } := by
  have hrows : ∀ row ∈ (reviewsOf rows (identityOf scope history)).reverse.take (limit.toNat + 1),
      IsRecorded sha256 archive row ∧ row.identity = identityOf scope history := by
    intro row hrow
    obtain ⟨hmem, hidentity⟩ := mem_reviewsOf.mp (List.mem_reverse.mp (mem_of_mem_take hrow))
    exact ⟨hrecorded row hmem, hidentity⟩
  have hconsecutive : areConsecutive
      (((reviewsOf rows (identityOf scope history)).reverse.take (limit.toNat + 1)).map
        recordOf) = true := by
    rw [areConsecutive_iff, isChain_map]
    refine (hlog.isChain_reverse.take _).imp fun newer older hversion => ?_
    simp only [recordOf, value_toString, hversion]
  have htruncated : limit.toNat < ((reviewsOf rows (identityOf scope history)).reverse.take
      (limit.toNat + 1)).length ↔
        limit.toNat < (reviewsOf rows (identityOf scope history)).length := by
    rw [length_take, length_reverse]
    omega
  have hmap := mapM_verify_eq hauthorized (isCanonical_of_validateHistory hvalid) hrows
  rw [readSemanticHistoryReviews, require_bind_eq_ok]
  refine ⟨⟨hlow, hhigh⟩, ?_⟩
  rw [hvalid, newestFirst_eq_reverse hlog.pairwise_lt]
  refine bind_eq_ok.mpr ⟨⟨⟩, rfl, bind_eq_ok.mpr ⟨_, hmap, ?_⟩⟩
  rw [require_bind_eq_ok]
  refine ⟨hconsecutive, ?_⟩
  simp only [htruncated, ← map_take, take_take, Nat.min_eq_left (Nat.le_succ _)]
  rfl

end Reads

/-! ### The whole of it -/

section Log

variable (sha256 : String → String)

/-- What a call answers and stores when it commits between two states. -/
structure AnswersFrom {τ : Type*} (s t : State StoredReview Answer ReviewCall τ)
    (call : ReviewCall) (answer : Answer) : Prop where
  refused : ∀ code, call.admitted = .error code → answer = .error code ∧ t.rows = s.rows
  replay : ∀ parsed earlier earlierParsed receipt, call.admitted = .ok parsed →
    earlier.admitted = .ok earlierParsed → (earlier, .ok receipt) ∈ s.finished →
      earlier.identity = call.identity →
        earlierParsed.expectedVersion = parsed.expectedVersion →
          earlierParsed.decision = parsed.decision →
            answer = .ok { receipt with replayed := true } ∧ t.rows = s.rows
  changed : ∀ parsed, call.admitted = .ok parsed → ∀ row ∈ reviewsOf s.rows call.identity,
    row.expectedVersion = Decimal.value parsed.expectedVersion →
      row.decision ≠ parsed.decision → answer = .error .conflict ∧ t.rows = s.rows
  stale : ∀ parsed, call.admitted = .ok parsed →
    Decimal.value parsed.expectedVersion ≠ (reviewsOf s.rows call.identity).length →
      (∀ row ∈ reviewsOf s.rows call.identity,
        row.expectedVersion = Decimal.value parsed.expectedVersion →
          row.decision ≠ parsed.decision) →
        answer = .error .conflict ∧ t.rows = s.rows
  appended : ∀ parsed, call.admitted = .ok parsed →
    Decimal.value parsed.expectedVersion = (reviewsOf s.rows call.identity).length →
      isSha256 (call.row sha256 parsed).recordSha256 = true → call.scope.tenantId ≠ "" →
        call.scope.principalId ≠ "" → isCreatedAt call.createdAt = true →
          answer = .ok (receiptOf (call.row sha256 parsed) false) ∧
            t.rows = s.rows ++ [call.row sha256 parsed]

variable {sha256} {hashtextextended : String → ℤ} {archive : Archive} {τ : Type*} [DecidableEq τ]

omit [DecidableEq τ] in
theorem answersFrom_of_execute {s t : State StoredReview Answer ReviewCall τ} {call : ReviewCall}
    {answer : Answer} {inserted : List StoredReview}
    (hinv : LogInvariant sha256 archive s.finished s.rows) (hauthorized : Admits archive call)
    (hexecute : (recordSemanticHistoryReview sha256 archive call).execute s.rows =
      (answer, inserted))
    (hrows : t.rows = s.rows ++ inserted) : AnswersFrom sha256 s t call answer := by
  have hlog := hinv.linear call.identity
  have hoften {outcome : Answer × List StoredReview}
      (h : (recordSemanticHistoryReview sha256 archive call).execute s.rows = outcome) :
      answer = outcome.1 ∧ t.rows = s.rows ++ outcome.2 := by
    rw [hexecute] at h
    rw [hrows, ← h]
    exact ⟨rfl, rfl⟩
  have hchanged : ∀ parsed, call.admitted = .ok parsed → ∀ row ∈ reviewsOf s.rows call.identity,
      row.expectedVersion = value parsed.expectedVersion →
        row.decision ≠ parsed.decision → answer = .error .conflict ∧ t.rows = s.rows := by
    intro parsed hadmitted row hrow hexpected hdecision
    have hmem := execute_of_mem hadmitted hauthorized hinv.recorded hlog hrow hexpected
    rw [if_neg hdecision] at hmem
    simpa using hoften hmem
  refine ⟨?_, ?_, hchanged, ?_, ?_⟩
  · intro code hadmitted
    have hprogram : (recordSemanticHistoryReview sha256 archive call).execute s.rows =
        (.error code, []) := by
      rw [recordSemanticHistoryReview, hadmitted]
      rfl
    simpa using hoften hprogram
  · intro parsed earlier earlierParsed receipt hadmitted hearlier hfinished hidentity hexpected
      hdecision
    obtain ⟨parsed', row, hparsed', hrow, hrecords, hreceipt⟩ :=
      hinv.receipts earlier receipt hfinished
    obtain rfl : earlierParsed = parsed' := Except.ok.inj (hearlier.symm.trans hparsed')
    have hmem := execute_of_mem hadmitted hauthorized hinv.recorded hlog
      (mem_reviewsOf.mpr ⟨hrow, hrecords.identity.trans hidentity⟩)
      (hrecords.expectedVersion.trans (congrArg value hexpected))
    rw [if_pos (hrecords.decision.trans hdecision)] at hmem
    rw [hreceipt]
    simpa [receiptOf] using hoften hmem
  · intro parsed hadmitted hne hnone
    rcases lt_or_gt_of_ne hne with hused | hstale
    · obtain ⟨row, hrow, hexpected⟩ := hlog.exists_of_lt hused
      exact hchanged parsed hadmitted row hrow hexpected (hnone row hrow hexpected)
    · simpa using hoften (execute_of_stale hadmitted hauthorized hinv.recorded hlog hstale)
  · intro parsed hadmitted hlatest hsha htenant hprincipal hcreated
    have haccepts := (accepts_row_iff hadmitted hauthorized hlog hlatest.symm).mpr
      ⟨hsha, htenant, hprincipal⟩
    exact hoften (execute_of_accepted hadmitted hauthorized hinv.recorded hlog hlatest.symm haccepts
      hcreated)

/-- In every interleaving of recording calls of authorised callers the reviews of each history
record are a log of the versions `1..n`, every review was answered with its receipt when it was
stored, a call that commits replays, conflicts or appends as the log says, and a reader gets the end
of the log. -/
theorem history_reviews_form_linear_log {s : State StoredReview Answer ReviewCall τ}
    (hs : TransitionSystem.Reachable
      ((historyReviews sha256 hashtextextended archive).Step (Admits archive))
      (· = Service.initial) s) :
    (∀ identity, IsLinearLog (reviewsOf s.rows identity)) ∧
    (∀ row ∈ s.rows, ∃ call parsed, call.admitted = .ok parsed ∧ Records call parsed row ∧
      (call, .ok (receiptOf row false)) ∈ s.finished) ∧
    (∀ session t,
      (historyReviews sha256 hashtextextended archive).Step (Admits archive) s (.commit session) t →
        ∃ call answer, t.finished = s.finished ++ [(call, answer)] ∧
          AnswersFrom sha256 s t call answer) ∧
    (∀ session t,
      (historyReviews sha256 hashtextextended archive).Step (Admits archive) s (.abort session) t →
        t.rows = s.rows) ∧
    ∀ scope history (limit : ℤ), IsAuthorized archive scope history →
      validateHistory scope history = .ok ⟨⟩ → 1 ≤ limit → limit ≤ 20 →
        readSemanticHistoryReviews sha256 scope history limit s.rows = .ok {
          historyId := history.historyId
          records :=
            ((reviewsOf s.rows (identityOf scope history)).reverse.take limit.toNat).map recordOf
          truncated := decide
            (limit.toNat < (reviewsOf s.rows (identityOf scope history)).length) } := by
  have hinv := logInvariant_of_sequential (Service.sequential_of_reachable hs)
  refine ⟨hinv.linear, hinv.origins, ?_, ?_, ?_⟩
  · intro session t hstep
    cases hstep with
    | @commit _ call answer inserted hactive =>
      exact ⟨call, answer, rfl, answersFrom_of_execute hinv
        (Service.admits_of_reachable hs hactive) (Service.commit_eq_execute hs hactive) rfl⟩
  · intro session t hstep
    cases hstep with
    | abort hactive => rfl
  · intro scope history limit hauthorized hvalid hlow hhigh
    exact readSemanticHistoryReviews_eq hinv.recorded (hinv.linear _) hauthorized hvalid hlow hhigh

/-- A history record of one endpoint and its scope. -/
def sampleScope : SemanticHistoryScope where
  tenantId := "t"
  principalId := "p"
  selection := ⟨"r", "s", .null⟩
  pin := .null
  configurationHash := "c"
  provider := "openai"
  model := "m"
  endpointIds := ["e"]

def sampleHistory : SemanticHistoryRecord where
  historyId := "7"
  verification := "inferred"
  normative := false
  result := .null
  requestedEndpointIds := ["e"]
  provenance := ⟨"openai", "m", "v", .null, .null⟩

def sampleCall (decision : String) : ReviewCall where
  scope := sampleScope
  history := sampleHistory
  request := .obj [("historyId", .str "7"), ("decision", .str decision),
    ("expectedVersion", .str "0")]
  createdAt := "2026-01-01T00:00:00.123456Z"

def sampleSha256 (_ : String) : String := String.ofList (List.replicate 64 'a')

def sampleArchive : Archive := fun identity =>
  if identity = identityOf sampleScope sampleHistory then
    some (sourceOf sampleScope sampleHistory)
  else none

theorem sampleCall_admits (decision : String) : Admits sampleArchive (sampleCall decision) :=
  if_pos rfl

theorem sample_sequential :
    (historyReviews sampleSha256 (fun _ => 0) sampleArchive).Sequential (Admits sampleArchive)
      [(sampleCall "dismissed", ((recordSemanticHistoryReview sampleSha256 sampleArchive
        (sampleCall "dismissed")).execute []).1)]
      ((recordSemanticHistoryReview sampleSha256 sampleArchive
        (sampleCall "dismissed")).execute []).2 :=
  .call .nil _ (sampleCall_admits "dismissed")

/-- A run of two sessions after which the log has its first review. -/
theorem history_reviews_linear_after_first :
    ∃ s : State StoredReview Answer ReviewCall (Fin 2), s.rows.map (·.reviewVersion) = [1] ∧
      ∀ identity, IsLinearLog (reviewsOf s.rows identity) := by
  have hrun : ∃ s : State StoredReview Answer ReviewCall (Fin 2), _ :=
    Service.reachable_of_sequential sample_sequential
  obtain ⟨s, hs, -, hrows, -⟩ := hrun
  refine ⟨s, ?_, (history_reviews_form_linear_log hs).1⟩
  rw [hrows]
  decide +kernel

end Log

end ApiTruth.Semantics
