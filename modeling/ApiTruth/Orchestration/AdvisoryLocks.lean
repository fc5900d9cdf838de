import ApiTruth.Foundation.Json.Text
import ApiTruth.Foundation.Traverse
import Mathlib.Data.Prod.Lex

/-!
# Advisory locks

Transactions of the orchestration take advisory locks on texts.  A lock has a namespace and parts;
its text is the canonical JSON array of both, except in the namespace of catalog branches, where it
is the key that the catalog itself locks.  A transaction takes its locks in one fixed order, by the
rank of the namespace and then by the bytes of the text.

## Main definitions

* `AdvisoryLockKey`, `AdvisoryLockKey.WellFormed` : locks, and those that the constructors build.
* `advisoryLockIdentity`, `catalogBranchAdvisoryKey` : the texts.
* `canonicalAdvisoryLocks` : the locks of a transaction in order.

## Main results

* `advisoryLockIdentity_inj` : well-formed locks are determined by their texts.
* `exists_canonicalAdvisoryLocks` : what the order of well-formed locks is.
-/

namespace ApiTruth.Orchestration

open Json List Option OrderedMap

/-! ### Locks -/

/-- `LOCK_NAMESPACES`, in their order. -/
inductive LockNamespace
  | configurationTenant
  | capacityGlobal
  | capacityRepository
  | capacityService
  | subjectBranch
  | subjectPr
  | reconciliationBranch
  | reconciliationPr
  | analysisCheckpoint
  | catalogBranch
deriving DecidableEq, Repr

namespace LockNamespace

/-- The text of a namespace. -/
def name : LockNamespace → String
  | configurationTenant => "configuration.tenant"
  | capacityGlobal => "capacity.global"
  | capacityRepository => "capacity.repository"
  | capacityService => "capacity.service"
  | subjectBranch => "subject.branch"
  | subjectPr => "subject.pr"
  | reconciliationBranch => "reconciliation.branch"
  | reconciliationPr => "reconciliation.pr"
  | analysisCheckpoint => "analysis.checkpoint"
  | catalogBranch => "catalog.branch"

/-- `namespaceRank`. -/
def rank : LockNamespace → ℕ
  | configurationTenant => 0
  | capacityGlobal => 1
  | capacityRepository => 2
  | capacityService => 3
  | subjectBranch => 4
  | subjectPr => 5
  | reconciliationBranch => 6
  | reconciliationPr => 7
  | analysisCheckpoint => 8
  | catalogBranch => 9

theorem name_injective : Function.Injective name := by
  intro a b h
  cases a <;> cases b <;> first | rfl | exact absurd h (by decide)

end LockNamespace

structure AdvisoryLockKey where
  space : LockNamespace
  parts : List String
  advisoryIdentity : Option String := none
deriving DecidableEq, Repr

/-- `validatedLock`; nothing where the source throws. -/
def validatedLock (input : AdvisoryLockKey) : Option AdvisoryLockKey :=
  if input.parts.isEmpty || input.parts.any (· == "") then none
  else if input.advisoryIdentity.isSome &&
    (input.space != .catalogBranch || input.advisoryIdentity == some "") then none
  else some input

/-- `advisoryLockIdentity` of a validated lock; nothing stands for `undefined`. -/
def advisoryLockIdentity (lock : AdvisoryLockKey) : Option String :=
  if lock.space = .catalogBranch then lock.advisoryIdentity
  else some (Json.arr (.str lock.space.name :: lock.parts.map .str)).canonicalJson

def lockRank (lock : AdvisoryLockKey) : ℕ ×ₗ String :=
  toLex (lock.space.rank, (advisoryLockIdentity lock).getD "")

/-- `canonicalAdvisoryLocks`; nothing where the source throws. -/
def canonicalAdvisoryLocks (inputs : List AdvisoryLockKey) : Option (List AdvisoryLockKey) := do
  let entries ← inputs.mapM fun input => do
    let lock ← validatedLock input
    let identity ← advisoryLockIdentity lock
    return (identity, lock)
  return ((OrderedMap.ofEntries entries).entries.map Prod.snd).insertionSort
    fun left right => lockRank left ≤ lockRank right

/-! ### The key of the catalog -/

def lengthPrefixed (value : String) : String :=
  toString value.utf8ByteSize ++ ":" ++ value

def catalogBranchAdvisoryKey (tenantId repositoryId serviceId branch : String) : String :=
  String.join ([tenantId, repositoryId, serviceId, branch].map lengthPrefixed)

def catalogBranchLock (tenantId repositoryId serviceId branch : String) : AdvisoryLockKey where
  space := .catalogBranch
  parts := [tenantId, repositoryId, serviceId, branch]
  advisoryIdentity := some (catalogBranchAdvisoryKey tenantId repositoryId serviceId branch)

def configurationLock (tenantId : String) : AdvisoryLockKey where
  space := .configurationTenant
  parts := [tenantId]

def capacityGlobalLock (tenantId : String) : AdvisoryLockKey where
  space := .capacityGlobal
  parts := [tenantId]

def capacityRepositoryLock (tenantId repositoryId : String) : AdvisoryLockKey where
  space := .capacityRepository
  parts := [tenantId, repositoryId]

def capacityServiceLock (tenantId repositoryId serviceId : String) : AdvisoryLockKey where
  space := .capacityService
  parts := [tenantId, repositoryId, serviceId]

def branchLock (tenantId repositoryId serviceId branch : String) : AdvisoryLockKey where
  space := .subjectBranch
  parts := [tenantId, repositoryId, serviceId, branch]

def pullRequestLock (tenantId repositoryId serviceId pullRequestId : String) : AdvisoryLockKey where
  space := .subjectPr
  parts := [tenantId, repositoryId, serviceId, pullRequestId]

def reconciliationBranchLock (tenantId repositoryId serviceId branch : String) :
    AdvisoryLockKey where
  space := .reconciliationBranch
  parts := [tenantId, repositoryId, serviceId, branch]

def reconciliationPullRequestLock (tenantId repositoryId serviceId pullRequestId : String) :
    AdvisoryLockKey where
  space := .reconciliationPr
  parts := [tenantId, repositoryId, serviceId, pullRequestId]

def analysisCheckpointLock (tenantId repositoryId serviceId identity : String) :
    AdvisoryLockKey where
  space := .analysisCheckpoint
  parts := [tenantId, repositoryId, serviceId, identity]

structure AdvisoryLockKey.WellFormed (lock : AdvisoryLockKey) : Prop where
  parts_ne_nil : lock.parts ≠ []
  part_ne : ∀ part ∈ lock.parts, part ≠ ""
  plain : lock.space ≠ .catalogBranch → lock.advisoryIdentity = none
  catalog : lock.space = .catalogBranch → ∃ tenantId repositoryId serviceId branch,
    lock = catalogBranchLock tenantId repositoryId serviceId branch

variable {lock : AdvisoryLockKey} {left right : AdvisoryLockKey} {inputs : List AdvisoryLockKey}

theorem wellFormed_plain (hspace : lock.space ≠ .catalogBranch)
    (hidentity : lock.advisoryIdentity = none) (hnil : lock.parts ≠ [])
    (hparts : ∀ part ∈ lock.parts, part ≠ "") : lock.WellFormed :=
  ⟨hnil, hparts, fun _ => hidentity, fun h => absurd h hspace⟩

theorem wellFormed_catalogBranchLock {t r s b : String} (h : ∀ part ∈ [t, r, s, b], part ≠ "") :
    (catalogBranchLock t r s b).WellFormed :=
  ⟨cons_ne_nil _ _, h, fun hspace => absurd rfl hspace, fun _ => ⟨t, r, s, b, rfl⟩⟩

theorem eq_of_append_eq {s t u v : String} (h : s ++ u = t ++ v)
    (hsize : s.utf8ByteSize = t.utf8ByteSize) : s = t ∧ u = v := by
  have hbytes : s.toByteArray.data.toList ++ u.toByteArray.data.toList =
      t.toByteArray.data.toList ++ v.toByteArray.data.toList := by
    simpa using congrArg (fun text : String => text.toByteArray.data.toList) h
  have hinj {x y : String} (hxy : x.toByteArray.data.toList = y.toByteArray.data.toList) : x = y :=
    String.toByteArray_inj.mp (ByteArray.ext (Array.toList_inj.mp hxy))
  obtain ⟨hst, huv⟩ := append_inj hbytes (by simpa using hsize)
  exact ⟨hinj hst, hinj huv⟩

theorem toDigits_inj {m n : ℕ} (h : Nat.toDigits 10 m = Nat.toDigits 10 n) : m = n := by
  rw [← Nat.ofDigitChars_ten_toDigits (n := m), h, Nat.ofDigitChars_ten_toDigits]

theorem toDigits_append_inj {m n : ℕ} {u v : List Char}
    (h : Nat.toDigits 10 m ++ ':' :: u = Nat.toDigits 10 n ++ ':' :: v) : m = n ∧ u = v := by
  have hnotMem (k : ℕ) : ':' ∉ Nat.toDigits 10 k := fun hmem =>
    absurd (Nat.isDigit_of_mem_toDigits (by decide) (by decide) hmem) (by decide)
  have hsplit (k : ℕ) (w : List Char) : (Nat.toDigits 10 k ++ ':' :: w).takeWhile (· != ':') =
      Nat.toDigits 10 k := by
    have hall : ∀ c ∈ Nat.toDigits 10 k, (c != ':') = true := by
      intro c hc
      rw [bne_iff_ne]
      rintro rfl
      exact hnotMem k hc
    rw [takeWhile_append_of_pos hall, takeWhile_cons_of_neg (by decide), append_nil]
  have hdigits := (hsplit m u).symm.trans ((congrArg _ h).trans (hsplit n v))
  rw [hdigits] at h
  exact ⟨toDigits_inj hdigits, (List.cons.inj (append_cancel_left h)).2⟩

theorem lengthPrefixed_append_inj {a b u v : String}
    (h : lengthPrefixed a ++ u = lengthPrefixed b ++ v) : a = b ∧ u = v := by
  have hlist : Nat.toDigits 10 a.utf8ByteSize ++ ':' :: (a ++ u).toList =
      Nat.toDigits 10 b.utf8ByteSize ++ ':' :: (b ++ v).toList := by
    simpa [lengthPrefixed] using congrArg String.toList h
  obtain ⟨hsize, hrest⟩ := toDigits_append_inj hlist
  exact eq_of_append_eq (String.toList_injective hrest) hsize

theorem catalogBranchAdvisoryKey_inj {t r s b t' r' s' b' : String}
    (h : catalogBranchAdvisoryKey t r s b = catalogBranchAdvisoryKey t' r' s' b') :
    t = t' ∧ r = r' ∧ s = s' ∧ b = b' := by
  have hjoin (t r s b : String) : catalogBranchAdvisoryKey t r s b =
      lengthPrefixed t ++ (lengthPrefixed r ++ (lengthPrefixed s ++ (lengthPrefixed b ++ ""))) := by
    simp [catalogBranchAdvisoryKey, String.join, String.append_assoc]
  rw [hjoin, hjoin] at h
  obtain ⟨htenant, h⟩ := lengthPrefixed_append_inj h
  obtain ⟨hrepository, h⟩ := lengthPrefixed_append_inj h
  obtain ⟨hservice, h⟩ := lengthPrefixed_append_inj h
  exact ⟨htenant, hrepository, hservice, (lengthPrefixed_append_inj h).1⟩

/-! ### Texts of locks -/

theorem isDigit_head_catalogBranchAdvisoryKey (t r s b : String) :
    ∃ c cs, (catalogBranchAdvisoryKey t r s b).toList = c :: cs ∧ c.isDigit = true := by
  have hlist : ∃ cs, (catalogBranchAdvisoryKey t r s b).toList =
      Nat.toDigits 10 t.utf8ByteSize ++ cs := by
    simp [catalogBranchAdvisoryKey, String.join, lengthPrefixed]
  obtain ⟨cs, hcs⟩ := hlist
  cases hdigits : Nat.toDigits 10 t.utf8ByteSize with
  | nil => exact absurd hdigits Nat.toDigits_ne_nil
  | cons c ds =>
    rw [hdigits] at hcs
    exact ⟨c, ds ++ cs, hcs, Nat.isDigit_of_mem_toDigits (by decide) (by decide)
      (hdigits ▸ mem_cons_self)⟩

theorem head_arr_canonicalJson (x : Json) (xs : List Json) :
    ∃ cs, (Json.arr (x :: xs)).canonicalJson.toList = '[' :: cs := by
  rw [canonicalJson, stringify, String.toList_ofList, canon_arr, map_cons, chars]
  exact ⟨_, rfl⟩

/-- Well-formed locks are determined by their texts. -/
theorem advisoryLockIdentity_inj (hleft : left.WellFormed)
    (hright : right.WellFormed) (h : advisoryLockIdentity left = advisoryLockIdentity right) :
    left = right := by
  have hmixed {t r s b : String} {lock : AdvisoryLockKey} (hspace : lock.space ≠ .catalogBranch)
      (heq : advisoryLockIdentity (catalogBranchLock t r s b) = advisoryLockIdentity lock) :
      False := by
    have hkey : some (catalogBranchAdvisoryKey t r s b) = advisoryLockIdentity lock := heq
    rw [advisoryLockIdentity, if_neg hspace] at hkey
    have htexts := congrArg String.toList (Option.some.inj hkey)
    obtain ⟨c, cs, hkey, hdigit⟩ := isDigit_head_catalogBranchAdvisoryKey t r s b
    obtain ⟨ds, harr⟩ := head_arr_canonicalJson (.str lock.space.name) (lock.parts.map .str)
    rw [hkey, harr] at htexts
    rw [(List.cons.inj htexts).1] at hdigit
    exact absurd hdigit (by decide)
  by_cases hl : left.space = .catalogBranch <;> by_cases hr : right.space = .catalogBranch
  · obtain ⟨t, r, s, b, rfl⟩ := hleft.catalog hl
    obtain ⟨t', r', s', b', rfl⟩ := hright.catalog hr
    obtain ⟨rfl, rfl, rfl, rfl⟩ := catalogBranchAdvisoryKey_inj (Option.some.inj h)
    rfl
  · obtain ⟨t, r, s, b, rfl⟩ := hleft.catalog hl
    exact (hmixed hr h).elim
  · obtain ⟨t, r, s, b, rfl⟩ := hright.catalog hr
    exact (hmixed hl h.symm).elim
  · rw [advisoryLockIdentity, advisoryLockIdentity, if_neg hl, if_neg hr, Option.some.injEq,
      canonicalJson_inj] at h
    simp only [canon_arr, map_cons, canon_str, List.map_map, Json.arr.injEq, List.cons.injEq,
      Json.str.injEq] at h
    obtain ⟨space, parts, identity⟩ := left
    obtain ⟨space', parts', identity'⟩ := right
    obtain rfl := LockNamespace.name_injective h.1
    obtain rfl : parts = parts' :=
      List.map_injective_iff.mpr (fun x y hxy => by simpa using hxy) h.2
    obtain rfl : identity = none := hleft.plain hl
    obtain rfl : identity' = none := hright.plain hr
    rfl

/-! ### The order of locks -/

theorem validatedLock_of_wellFormed (h : lock.WellFormed) :
    validatedLock lock = some lock := by
  have hparts : (lock.parts.isEmpty || lock.parts.any (· == "")) = false := by
    simp only [Bool.or_eq_false_iff, isEmpty_eq_false_iff, List.any_eq_false]
    exact ⟨h.parts_ne_nil, fun part hpart heq => h.part_ne part hpart (eq_of_beq heq)⟩
  have hidentity : (lock.advisoryIdentity.isSome &&
      (lock.space != .catalogBranch || lock.advisoryIdentity == some "")) = false := by
    by_cases hspace : lock.space = .catalogBranch
    · obtain ⟨t, r, s, b, rfl⟩ := h.catalog hspace
      obtain ⟨c, cs, hkey, -⟩ := isDigit_head_catalogBranchAdvisoryKey t r s b
      have hne : catalogBranchAdvisoryKey t r s b ≠ "" := by
        intro hempty
        rw [hempty] at hkey
        cases hkey
      simp [catalogBranchLock, hne]
    · rw [h.plain hspace]
      rfl
  rw [validatedLock, hparts, hidentity]
  rfl

theorem exists_advisoryLockIdentity (h : lock.WellFormed) :
    ∃ identity, advisoryLockIdentity lock = some identity := by
  rw [advisoryLockIdentity]
  split_ifs with hspace
  · obtain ⟨t, r, s, b, rfl⟩ := h.catalog hspace
    exact ⟨_, rfl⟩
  · exact ⟨_, rfl⟩

def AdvisoryLockKey.Precedes (left right : AdvisoryLockKey) : Prop := lockRank left < lockRank right

def AdvisoryLockKey.identity (lock : AdvisoryLockKey) : String := (advisoryLockIdentity lock).getD ""

theorem AdvisoryLockKey.identity_inj (hleft : left.WellFormed)
    (hright : right.WellFormed) (h : left.identity = right.identity) : left = right := by
  obtain ⟨text, htext⟩ := exists_advisoryLockIdentity hleft
  obtain ⟨text', htext'⟩ := exists_advisoryLockIdentity hright
  rw [identity, identity, htext, htext', getD_some, getD_some] at h
  exact advisoryLockIdentity_inj hleft hright (htext.trans (h ▸ htext'.symm))

theorem canonicalAdvisoryLocks_of_wellFormed
    (h : ∀ lock ∈ inputs, lock.WellFormed) : canonicalAdvisoryLocks inputs =
      some (((ofEntries (inputs.map fun lock => (lock.identity, lock))).entries.map
        Prod.snd).insertionSort fun left right => lockRank left ≤ lockRank right) := by
  have hentries : inputs.mapM (fun input => do
      let lock ← validatedLock input
      let identity ← advisoryLockIdentity lock
      return (identity, lock)) = some (inputs.map fun lock => (lock.identity, lock)) := by
    rw [mapM_eq_some_iff, forall₂_map_right_iff, forall₂_same]
    intro lock hlock
    obtain ⟨text, htext⟩ := exists_advisoryLockIdentity (h lock hlock)
    simp only [bind_eq_bind, validatedLock_of_wellFormed (h lock hlock), bind_some,
      AdvisoryLockKey.identity, htext]
    rfl
  rw [canonicalAdvisoryLocks, hentries]
  rfl

/-- Well-formed locks are put in an order without repetition. -/
theorem exists_canonicalAdvisoryLocks (h : ∀ lock ∈ inputs, lock.WellFormed) :
    ∃ locks, canonicalAdvisoryLocks inputs = some locks ∧ (∀ lock, lock ∈ locks ↔ lock ∈ inputs) ∧
      locks.Pairwise AdvisoryLockKey.Precedes := by
  refine ⟨_, canonicalAdvisoryLocks_of_wellFormed h, fun lock => ?_, ?_⟩
  · rw [(perm_insertionSort _ _).mem_iff, List.mem_map]
    constructor
    · rintro ⟨entry, hentry, rfl⟩
      obtain ⟨lock, hlock, rfl⟩ := List.mem_map.mp (mem_of_mem_ofEntries hentry)
      exact hlock
    · intro hlock
      have hkey : lock.identity ∈
          (ofEntries (inputs.map fun lock => (lock.identity, lock))).keys := by
        rw [mem_keys_ofEntries, List.map_map]
        exact List.mem_map_of_mem hlock
      obtain ⟨entry, hentry, hidentity⟩ := List.mem_map.mp hkey
      obtain ⟨other, hother, rfl⟩ := List.mem_map.mp (mem_of_mem_ofEntries hentry)
      exact ⟨_, hentry, AdvisoryLockKey.identity_inj (h other hother) (h lock hlock) hidentity⟩
  · set entries := (ofEntries (inputs.map fun lock => (lock.identity, lock))) with hmap
    have hle := pairwise_insertionSort
      (fun left right : AdvisoryLockKey => lockRank left ≤ lockRank right) (entries.entries.map Prod.snd)
    have hne : ((entries.entries.map Prod.snd).map AdvisoryLockKey.identity).Nodup := by
      have heq : (entries.entries.map Prod.snd).map AdvisoryLockKey.identity =
          entries.entries.map Prod.fst := by
        rw [List.map_map]
        refine map_congr_left fun entry hentry => ?_
        obtain ⟨lock, -, rfl⟩ := List.mem_map.mp (mem_of_mem_ofEntries hentry)
        rfl
      rw [heq]
      exact entries.nodup
    have hsorted := ((perm_insertionSort
      (fun left right : AdvisoryLockKey => lockRank left ≤ lockRank right)
        (entries.entries.map Prod.snd)).map AdvisoryLockKey.identity).nodup_iff.mpr hne
    refine (hle.and (List.pairwise_map.mp hsorted)).imp fun hlocks => ?_
    refine lt_of_le_of_ne hlocks.1 fun heq => hlocks.2 ?_
    exact congrArg (fun rank : ℕ ×ₗ String => (ofLex rank).2) heq

end ApiTruth.Orchestration
