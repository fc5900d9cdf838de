import ApiTruth.Ir.Host
import ApiTruth.Ir.StrictJson
import Mathlib.Algebra.BigOperators.Group.List.Basic

/-!
# Parsed document cache

Strict parses of documents are kept under the scope, the path and the digest that the caller names,
at most as many and as large as the limits allow.  A parse is kept or reused only if the digest is
that of the path and of the text in UTF-8.

## Main definitions

* `ParsedDocumentCache.parse`, `clear` : the calls.
* `IsConsistent` : the limits are kept, and the bytes are those of the entries.
* `IsFresh` : every entry is the parse of a text with its digest.

## Main results

* `isConsistent_parse`, `isFresh_parse` : what one call preserves.
* `parse_eq_parseDocument` : a call returns what a fresh parse returns.
* `parsedDocumentCache_transparent` : the calls of a run return fresh parses, within the limits.
-/

namespace ApiTruth.Analyzers

open ApiTruth.Ir ApiTruth.Ir.Host List OrderedMap JsString

variable {ν ε : Type}

/-! ### Texts -/

/-- The character of a code point; a lone surrogate is replaced. -/
def scalar (point : ℕ) : Char := if point.isValidChar then Char.ofNat point else '\ufffd'

/-- `Buffer.from(text, "utf8")`. -/
def encode (text : JsString) : List UInt8 :=
  utf8 (String.ofList ((JsString.codePoints text).map scalar))

/-- The text has no lone surrogates, as every text that was decoded from bytes. -/
def IsWellFormed (text : JsString) : Prop := ∀ point ∈ JsString.codePoints text, point.isValidChar

theorem encode_inj {text text' : JsString} (h : IsWellFormed text) (h' : IsWellFormed text')
    (heq : encode text = encode text') : text = text' := by
  have hpoints {s : JsString} (hs : IsWellFormed s) :
      ((codePoints s).map scalar).map Char.toNat = codePoints s := by
    rw [List.map_map]
    refine (map_congr_left fun point hpoint => ?_).trans (List.map_id' _)
    show (if point.isValidChar then Char.ofNat point else '\ufffd').toNat = point
    rw [if_pos (hs point hpoint), Char.ofNat, dif_pos (hs point hpoint)]
    rfl
  have hchars := String.ofList_injective (utf8_injective heq)
  exact codePoints_injective (by rw [← hpoints h, hchars, hpoints h'])

/-! ### Keys -/

/-- The scope of a document, its path and its digest. -/
structure ParsedDocumentCacheKey where
  tenantId : JsString
  repositoryId : JsString
  serviceId : JsString
  serviceRoot : JsString
  configFingerprint : JsString
  adapterId : JsString
  adapterVersion : JsString
  irVersion : JsString
  documentPath : JsString
  digest : JsString

def hasSuffix (suffix : String) (path : JsString) : Bool := (JsString.ofString suffix).isSuffixOf path

/-- `/^sha256:[a-f0-9]{64}$/i`. -/
def isDigest (digest : JsString) : Bool :=
  let letters := digest.map fun unit => (JsonDocument.charOf unit).toLower
  letters.take 7 == "sha256:".toList && letters.length == 71 &&
    (letters.drop 7).all fun c => c.isDigit || ('a' ≤ c && c ≤ 'f')

def validKey (key : ParsedDocumentCacheKey) : Bool :=
  [key.tenantId, key.repositoryId, key.serviceId, key.serviceRoot, key.configFingerprint,
      key.adapterId, key.adapterVersion, key.irVersion, key.documentPath, key.digest].all
    (fun value => 0 < value.length && value.length ≤ 2048) && isDigest key.digest &&
    (hasSuffix ".json" key.documentPath || hasSuffix ".yml" key.documentPath ||
      hasSuffix ".yaml" key.documentPath)

/-- The members of the key and of the constant `cache`, in the order of their names. -/
def ParsedDocumentCacheKey.members (key : ParsedDocumentCacheKey) :
    List (JsString × JsonTree (Option JsonNumber)) :=
  [("adapterId", key.adapterId), ("adapterVersion", key.adapterVersion),
    ("cache", JsString.ofString "strict-document-parse-v1"),
    ("configFingerprint", key.configFingerprint), ("digest", key.digest),
    ("documentPath", key.documentPath), ("irVersion", key.irVersion),
    ("repositoryId", key.repositoryId), ("serviceId", key.serviceId),
    ("serviceRoot", key.serviceRoot), ("tenantId", key.tenantId)].map
    fun field => (JsString.ofString field.1, .str field.2)

/-- `canonicalJsonStringify` of the key. -/
def ParsedDocumentCacheKey.canonical (key : ParsedDocumentCacheKey) : String :=
  String.ofList (JsonTree.chars .numerals (JsonTree.canon .numerals (.obj key.members)))

theorem sortMembers_eq_self {α : Type} {members : List (JsString × α)}
    (h : (members.map Prod.fst).Pairwise fun a b => collation.le a b = true) :
    JsonTree.sortMembers members = members := (List.pairwise_map.mp h).insertionSort_eq

theorem canonical_injective {key key' : ParsedDocumentCacheKey}
    (h : key.canonical = key'.canonical) : key = key' := by
  have hnames (key : ParsedDocumentCacheKey) : key.members.map Prod.fst =
      ["adapterId", "adapterVersion", "cache", "configFingerprint", "digest", "documentPath",
        "irVersion", "repositoryId", "serviceId", "serviceRoot", "tenantId"].map
        ofString := by
    simp only [ParsedDocumentCacheKey.members, map_cons, map_nil]
  have hformed (key : ParsedDocumentCacheKey) : (JsonTree.obj key.members).WellFormed :=
    .obj (by rw [hnames]; decide +kernel)
      (by simp [ParsedDocumentCacheKey.members, JsonTree.WellFormed.str])
  have hcanon (key : ParsedDocumentCacheKey) :
      JsonTree.canon .numerals (.obj key.members) = .obj key.members := by
    have hvalues : key.members.map (fun m => (m.1, JsonTree.canon .numerals m.2)) = key.members := by
      simp [ParsedDocumentCacheKey.members, JsonTree.canon]
    have hsorted : (key.members.map Prod.fst).Pairwise fun a b => collation.le a b := by
      rw [hnames]
      decide +kernel
    rw [JsonTree.canon_obj, hvalues]
    rw [sortMembers_eq_self hsorted]
  rw [ParsedDocumentCacheKey.canonical, ParsedDocumentCacheKey.canonical,
    String.ofList_inj, JsonTree.chars_canon_inj (hformed key) (hformed key'), hcanon, hcanon] at h
  simp only [ParsedDocumentCacheKey.members, map_cons, map_nil, JsonTree.obj.injEq,
    List.cons.injEq, Prod.mk.injEq, JsonTree.str.injEq, true_and, and_true] at h
  obtain ⟨h₁, h₂, h₃, h₄, h₅, h₆, h₇, h₈, h₉, h₁₀⟩ := h
  cases key
  cases key'
  exact ParsedDocumentCacheKey.mk.injEq .. ▸ ⟨h₁₀, h₇, h₈, h₉, h₃, h₁, h₂, h₆, h₅, h₄⟩

/-! ### Calls -/

structure Entry (ν : Type) where
  value : JsonTree ν
  bytes : ℕ

structure CacheLimits where
  maxEntries : ℕ
  maxBytes : ℕ
  valid : 1 ≤ maxEntries ∧ maxEntries ≤ 256 ∧ 1 ≤ maxBytes ∧ maxBytes ≤ 64000000

/-- The entries in the order in which they were set, and the counters. -/
structure ParsedDocumentCache (ν : Type) where
  values : List (String × Entry ν) := []
  retainedBytes : ℕ := 0
  hits : ℕ := 0
  misses : ℕ := 0
  parseFailures : ℕ := 0
  evictions : ℕ := 0

/-- The errors of a call: an invalid key, or an error of a parser. -/
inductive CacheError (ε : Type)
  | invalidKey
  | json (error : ScanError)
  | yaml (error : ε)
deriving DecidableEq

variable (format : NumberFormat ν) (parseStrictYaml : JsString → Except ε (JsonTree ν))
  (sha256 : List UInt8 → JsString) (limits : CacheLimits)

def parseDocument (path text : JsString) : Except (CacheError ε) (JsonTree ν) :=
  if hasSuffix ".yml" path || hasSuffix ".yaml" path then (parseStrictYaml text).mapError .yaml
  else (parseStrictJson format text {}).mapError .json

def textDigest (path text : JsString) : JsString :=
  JsString.ofString "sha256:" ++ sha256 (encode path ++ 0 :: encode text)

namespace ParsedDocumentCache

/-- Drop entries, the oldest first, until one more of the given size fits. -/
def makeRoom (bytes : ℕ) :
    List (String × Entry ν) → ParsedDocumentCache ν → ParsedDocumentCache ν
  | [], cache => { cache with values := [] }
  | oldest :: rest, cache =>
    if limits.maxEntries ≤ rest.length + 1 ∨ limits.maxBytes < cache.retainedBytes + bytes then
      makeRoom bytes rest { cache with
        retainedBytes := cache.retainedBytes - oldest.2.bytes
        evictions := cache.evictions + 1 }
    else { cache with values := oldest :: rest }

/-- Keep a value, unless it is too large.  `JSON.stringify` throws only for a text that is longer
than the limit allows. -/
def store (cache : ParsedDocumentCache ν) (canonical : String) (value : JsonTree ν) :
    ParsedDocumentCache ν :=
  let bytes := (String.ofList (value.chars format)).utf8ByteSize
  if limits.maxBytes < bytes then cache
  else
    let room := makeRoom limits bytes cache.values cache
    { room with
      values := room.values ++ [(canonical, ⟨value, bytes⟩)]
      retainedBytes := room.retainedBytes + bytes }

/-- Move an entry behind the others. -/
def promote (cache : ParsedDocumentCache ν) (canonical : String) (cached : Entry ν) :
    ParsedDocumentCache ν :=
  { cache with
    values := cache.values.filter (·.1 ≠ canonical) ++ [(canonical, cached)]
    hits := cache.hits + 1 }

/-- Parse a text whose value has not been found. -/
def miss (cache : ParsedDocumentCache ν) (key : ParsedDocumentCacheKey) (text : JsString) :
    Except (CacheError ε) (JsonTree ν) × ParsedDocumentCache ν :=
  let missed := { cache with misses := cache.misses + 1 }
  match parseDocument format parseStrictYaml key.documentPath text with
  | .error error => (.error error, { missed with parseFailures := missed.parseFailures + 1 })
  | .ok value =>
    if textDigest sha256 key.documentPath text ≠ key.digest then (.ok value, missed)
    else (.ok value, missed.store format limits key.canonical value)

def parse (cache : ParsedDocumentCache ν) (key : ParsedDocumentCacheKey) (text : JsString) :
    Except (CacheError ε) (JsonTree ν) × ParsedDocumentCache ν :=
  if ¬ validKey key then (.error .invalidKey, cache)
  else
    match cache.values.lookup key.canonical with
    | some cached =>
      if textDigest sha256 key.documentPath text = key.digest then
        (.ok cached.value, cache.promote key.canonical cached)
      else cache.miss format parseStrictYaml sha256 limits key text
    | none => cache.miss format parseStrictYaml sha256 limits key text

def clear (cache : ParsedDocumentCache ν) : ParsedDocumentCache ν :=
  { cache with values := [], retainedBytes := 0 }

end ParsedDocumentCache

inductive CacheCall
  | clear
  | parse (key : ParsedDocumentCacheKey) (text : JsString)

/-- The results of a sequence of calls, and the cache after them. -/
def runCalls : ParsedDocumentCache ν → List CacheCall →
    List (Except (CacheError ε) (JsonTree ν)) × ParsedDocumentCache ν
  | cache, [] => ([], cache)
  | cache, .clear :: calls => runCalls cache.clear calls
  | cache, .parse key text :: calls =>
    let outcome := cache.parse format parseStrictYaml sha256 limits key text
    (runCalls outcome.2 calls).map (outcome.1 :: ·) id

def freshParses : List CacheCall → List (Except (CacheError ε) (JsonTree ν))
  | [] => []
  | .clear :: calls => freshParses calls
  | .parse key text :: calls =>
    parseDocument format parseStrictYaml key.documentPath text :: freshParses calls

/-! ### What a call preserves -/

/-- The entries have different keys, are as many and as large as the limits allow, and are counted. -/
structure IsConsistent (cache : ParsedDocumentCache ν) : Prop where
  keys : (cache.values.map Prod.fst).Nodup
  entries : cache.values.length ≤ limits.maxEntries
  counted : cache.retainedBytes = (cache.values.map fun entry => entry.2.bytes).sum
  bytes : cache.retainedBytes ≤ limits.maxBytes

/-- Every entry is the parse of a text that has the digest of its key. -/
def IsFresh (cache : ParsedDocumentCache ν) : Prop :=
  ∀ entry ∈ cache.values, ∃ key text, entry.1 = ParsedDocumentCacheKey.canonical key ∧
    IsWellFormed text ∧ textDigest sha256 key.documentPath text = key.digest ∧
    parseDocument format parseStrictYaml key.documentPath text = .ok entry.2.value

namespace ParsedDocumentCache

variable {format parseStrictYaml sha256 limits} {cache : ParsedDocumentCache ν}
  {key : ParsedDocumentCacheKey} {text : JsString}

/-- What remains when room is made: the newest entries, counted, with room for one more. -/
theorem makeRoom_spec {bytes : ℕ} (hbytes : bytes ≤ limits.maxBytes)
    {entries : List (String × Entry ν)}
    (hcounted : cache.retainedBytes = (entries.map fun entry => entry.2.bytes).sum) :
    let room := makeRoom limits bytes entries cache
    room.values <:+ entries ∧ room.values.length < limits.maxEntries ∧
      room.retainedBytes = (room.values.map fun entry => entry.2.bytes).sum ∧
      room.retainedBytes + bytes ≤ limits.maxBytes := by
  induction entries generalizing cache with
  | nil =>
    rw [map_nil, sum_nil] at hcounted
    simp only [makeRoom, hcounted, length_nil, Nat.zero_add]
    exact ⟨suffix_rfl, limits.valid.1, rfl, hbytes⟩
  | cons oldest rest ih =>
    rw [map_cons, sum_cons] at hcounted
    rw [makeRoom]
    split_ifs with hfull
    · obtain ⟨hsuffix, hspec⟩ := @ih { cache with
        retainedBytes := cache.retainedBytes - oldest.2.bytes
        evictions := cache.evictions + 1 } (by simp only [hcounted]; omega)
      exact ⟨hsuffix.trans (suffix_cons _ _), hspec⟩
    · rw [not_or, not_le, not_lt] at hfull
      exact ⟨suffix_rfl, hfull.1, by simpa using hcounted, hfull.2⟩

theorem miss_cases (cache : ParsedDocumentCache ν) :
    let outcome := cache.miss format parseStrictYaml sha256 limits key text
    let fresh := parseDocument format parseStrictYaml key.documentPath text
    outcome.1 = fresh ∧ (outcome.2.values = cache.values ∧
        outcome.2.retainedBytes = cache.retainedBytes ∨
      ∃ value, fresh = .ok value ∧ textDigest sha256 key.documentPath text = key.digest ∧
        outcome.2 = { cache with misses := cache.misses + 1 }.store format limits key.canonical
          value) := by
  dsimp only [miss]
  cases hfresh : parseDocument format parseStrictYaml key.documentPath text with
  | error error => exact ⟨rfl, .inl ⟨rfl, rfl⟩⟩
  | ok value =>
    split_ifs with hdigest
    · exact ⟨rfl, .inl ⟨rfl, rfl⟩⟩
    · exact ⟨rfl, .inr ⟨value, rfl, not_not.mp hdigest, rfl⟩⟩

theorem parse_cases (cache : ParsedDocumentCache ν) (text : JsString) (hkey : validKey key = true) :
    let outcome := cache.parse format parseStrictYaml sha256 limits key text
    (∃ cached, cache.values.lookup key.canonical = some cached ∧
      textDigest sha256 key.documentPath text = key.digest ∧
      outcome = (.ok cached.value, cache.promote key.canonical cached)) ∨
    (textDigest sha256 key.documentPath text = key.digest →
        cache.values.lookup key.canonical = none) ∧
      outcome = cache.miss format parseStrictYaml sha256 limits key text := by
  unfold parse
  rw [if_neg (not_not.mpr hkey)]
  cases hlookup : cache.values.lookup key.canonical with
  | none => exact .inr ⟨fun _ => rfl, rfl⟩
  | some cached =>
    by_cases hdigest : textDigest sha256 key.documentPath text = key.digest
    · exact .inl ⟨cached, rfl, hdigest, if_pos hdigest⟩
    · exact .inr ⟨fun h => absurd h hdigest, if_neg hdigest⟩

variable {canonical : String} {value : JsonTree ν}

theorem promote_perm {cached : Entry ν} (hkeys : (cache.values.map Prod.fst).Nodup)
    (hlookup : cache.values.lookup canonical = some cached) :
    (cache.promote canonical cached).values.Perm cache.values := by
  have hmem := (lookup_eq_some_iff hkeys).mp hlookup
  have hnodup : (cache.promote canonical cached).values.Nodup := by
    rw [promote, nodup_append_comm]
    exact List.nodup_cons.mpr ⟨by simp, hkeys.of_map.filter _⟩
  refine (perm_ext_iff_of_nodup hnodup hkeys.of_map).mpr fun entry => ?_
  rw [promote, mem_append, mem_filter, mem_singleton]
  constructor
  · rintro (⟨hentry, -⟩ | rfl)
    · exact hentry
    · exact hmem
  · intro hentry
    by_cases hkey : entry.1 = canonical
    · exact .inr (inj_on_of_nodup_map hkeys hentry hmem hkey)
    · exact .inl ⟨hentry, decide_eq_true hkey⟩

theorem isConsistent_store
    (h : IsConsistent limits cache) (hnew : cache.values.lookup canonical = none) :
    IsConsistent limits (cache.store format limits canonical value) := by
  dsimp only [store]
  split_ifs with hsize
  · exact h
  · obtain ⟨hsuffix, hlength, hcounted, hbytes⟩ := makeRoom_spec (not_lt.mp hsize) h.counted
    have hnotMem : canonical ∉ cache.values.map Prod.fst := fun hmem => by
      obtain ⟨value, hvalue⟩ := exists_lookup_of_mem_keys hmem
      rw [hnew] at hvalue
      cases hvalue
    refine ⟨?_, by simpa [Nat.succ_le_iff] using hlength, by simp [hcounted], hbytes⟩
    rw [map_append, nodup_append_comm]
    exact List.nodup_cons.mpr ⟨fun hmem => hnotMem ((hsuffix.map _).subset hmem),
      h.keys.sublist (hsuffix.map _).sublist⟩

theorem isFresh_store {misses : ℕ}
    (hcounted : cache.retainedBytes = (cache.values.map fun entry => entry.2.bytes).sum)
    (h : IsFresh format parseStrictYaml sha256 cache)
    (hvalue : ∃ text, IsWellFormed text ∧ textDigest sha256 key.documentPath text = key.digest ∧
      parseDocument format parseStrictYaml key.documentPath text = .ok value) :
    IsFresh format parseStrictYaml sha256
      ({ cache with misses := misses }.store format limits key.canonical value) := by
  dsimp only [store]
  split_ifs with hsize
  · exact h
  · have hmissed : ({ cache with misses := misses } : ParsedDocumentCache ν).retainedBytes = _ :=
      hcounted
    obtain ⟨hsuffix, -⟩ := makeRoom_spec (not_lt.mp hsize) hmissed
    refine List.forall_mem_append.mpr ⟨fun entry hentry => h entry (hsuffix.subset hentry), ?_⟩
    exact List.forall_mem_singleton.mpr ⟨key, hvalue.imp fun text htext => ⟨rfl, htext⟩⟩

/-- A call keeps the limits. -/
theorem isConsistent_parse (h : IsConsistent limits cache) :
    IsConsistent limits (cache.parse format parseStrictYaml sha256 limits key text).2 := by
  by_cases hkey : validKey key = true
  · rcases parse_cases cache text hkey with
      ⟨cached, hlookup, -, heq⟩ | ⟨hnone, heq⟩
    · rw [heq]
      have hperm := promote_perm h.keys hlookup
      exact ⟨(hperm.map _).nodup_iff.mpr h.keys, hperm.length_eq.trans_le h.entries,
        h.counted.trans ((hperm.map _).sum_eq).symm, h.bytes⟩
    · rw [heq]
      rcases (miss_cases cache).2 with
        ⟨hvalues, hretained⟩ | ⟨value, -, hdigest, hstore⟩
      · exact ⟨hvalues ▸ h.keys, hvalues ▸ h.entries, by rw [hretained, hvalues, h.counted],
          hretained ▸ h.bytes⟩
      · rw [hstore]
        exact isConsistent_store ⟨h.keys, h.entries, h.counted, h.bytes⟩ (hnone hdigest)
  · rw [parse, if_pos hkey]
    exact h

/-- The entries that a call adds or moves are fresh. -/
theorem isFresh_parse (hkey : validKey key = true) (htext : IsWellFormed text)
    (hconsistent : IsConsistent limits cache) (h : IsFresh format parseStrictYaml sha256 cache) :
    IsFresh format parseStrictYaml sha256
      (cache.parse format parseStrictYaml sha256 limits key text).2 := by
  rcases parse_cases cache text hkey with
    ⟨cached, hlookup, -, heq⟩ | ⟨hnone, heq⟩
  · rw [heq]
    exact fun entry hentry => h entry ((promote_perm hconsistent.keys hlookup).mem_iff.mp hentry)
  · rw [heq]
    rcases (miss_cases cache).2 with ⟨hvalues, -⟩ | ⟨value, hvalue, hdigest, hstore⟩
    · exact fun entry hentry => h entry (hvalues ▸ hentry)
    · rw [hstore]
      exact isFresh_store hconsistent.counted h ⟨text, htext, hdigest, hvalue⟩

/-- A call with a valid key and a text without lone surrogates returns the fresh parse. -/
theorem parse_eq_parseDocument (hsha256 : Function.Injective sha256) (hkey : validKey key = true)
    (htext : IsWellFormed text) (hconsistent : IsConsistent limits cache)
    (h : IsFresh format parseStrictYaml sha256 cache) :
    (cache.parse format parseStrictYaml sha256 limits key text).1 =
      parseDocument format parseStrictYaml key.documentPath text := by
  rcases parse_cases cache text hkey with
    ⟨cached, hlookup, hdigest, heq⟩ | ⟨-, heq⟩
  · obtain ⟨key', text', hcanonical, htext', hdigest', hvalue⟩ :=
      h _ ((lookup_eq_some_iff hconsistent.keys).mp hlookup)
    obtain rfl := canonical_injective hcanonical
    have hbytes := hsha256 (append_cancel_left (hdigest.trans hdigest'.symm))
    obtain rfl := encode_inj htext htext' (List.cons.inj (append_cancel_left hbytes)).2
    rw [heq, hvalue]
  · rw [heq]
    exact (miss_cases cache).1

theorem values_of_parse_error {error : CacheError ε}
    (h : (cache.parse format parseStrictYaml sha256 limits key text).1 = .error error) :
    (cache.parse format parseStrictYaml sha256 limits key text).2.values = cache.values ∧
      (cache.parse format parseStrictYaml sha256 limits key text).2.retainedBytes =
        cache.retainedBytes := by
  by_cases hkey : validKey key = true
  · rcases parse_cases cache text hkey with ⟨cached, -, -, heq⟩ | ⟨-, heq⟩
    · rw [heq] at h
      cases h
    · rw [heq] at h ⊢
      rcases (miss_cases cache).2 with hsame | ⟨value, hvalue, -, -⟩
      · exact hsame
      · rw [(miss_cases cache).1, hvalue] at h
        cases h
  · rw [parse, if_pos hkey]
    exact ⟨rfl, rfl⟩

theorem isConsistent_runCalls (calls : List CacheCall) (h : IsConsistent limits cache) :
    IsConsistent limits (runCalls format parseStrictYaml sha256 limits cache calls).2 := by
  induction calls generalizing cache with
  | nil => exact h
  | cons call calls ih =>
    cases call with
    | clear => exact ih ⟨nodup_nil, Nat.zero_le _, rfl, Nat.zero_le _⟩
    | parse key text => exact ih (isConsistent_parse h)

theorem fst_runCalls (hsha256 : Function.Injective sha256) {calls : List CacheCall}
    (hcalls : ∀ key text, .parse key text ∈ calls → validKey key = true ∧ IsWellFormed text)
    (hconsistent : IsConsistent limits cache) (h : IsFresh format parseStrictYaml sha256 cache) :
    (runCalls format parseStrictYaml sha256 limits cache calls).1 =
      freshParses format parseStrictYaml calls := by
  induction calls generalizing cache with
  | nil => rfl
  | cons call calls ih =>
    have hrest : ∀ key text, .parse key text ∈ calls → validKey key = true ∧ IsWellFormed text :=
      fun key text hmem => hcalls key text (mem_cons_of_mem _ hmem)
    cases call with
    | clear =>
      exact ih hrest ⟨nodup_nil, Nat.zero_le _, rfl, Nat.zero_le _⟩ (forall_mem_nil _)
    | parse key text =>
      obtain ⟨hkey, htext⟩ := hcalls key text mem_cons_self
      exact congrArg₂ List.cons (parse_eq_parseDocument hsha256 hkey htext hconsistent h)
        (ih hrest (isConsistent_parse hconsistent) (isFresh_parse hkey htext hconsistent h))

end ParsedDocumentCache

open ParsedDocumentCache

/-- The cache keeps its limits over every run of calls, its results are those of fresh parses for
valid keys and texts without lone surrogates, and a failed call keeps nothing. -/
theorem parsedDocumentCache_transparent (hsha256 : Function.Injective sha256) :
    (∀ calls, IsConsistent limits (runCalls format parseStrictYaml sha256 limits {} calls).2) ∧
    (∀ calls, (∀ key text, .parse key text ∈ calls → validKey key = true ∧ IsWellFormed text) →
      (runCalls format parseStrictYaml sha256 limits {} calls).1 =
        freshParses format parseStrictYaml calls) ∧
    ∀ (cache : ParsedDocumentCache ν) key text error,
      (cache.parse format parseStrictYaml sha256 limits key text).1 = .error error →
      (cache.parse format parseStrictYaml sha256 limits key text).2.values = cache.values ∧
        (cache.parse format parseStrictYaml sha256 limits key text).2.retainedBytes =
          cache.retainedBytes := by
  have hconsistent : IsConsistent limits ({} : ParsedDocumentCache ν) :=
    ⟨nodup_nil, Nat.zero_le _, rfl, Nat.zero_le _⟩
  exact ⟨fun calls => isConsistent_runCalls calls hconsistent,
    fun calls hcalls => fst_runCalls hsha256 hcalls hconsistent (forall_mem_nil _),
    fun cache key text error h => values_of_parse_error h⟩

def sampleHex : String := "ad496510d597e26ef60b0064c013fad6efe4da8705762fa52cd2a821f8d7fe2b"

/-- The digest of the sample document, and other values for all other bytes. -/
def sampleDigest (bytes : List UInt8) : JsString :=
  if bytes = utf8 "a.json\x00\"\ufffd\"" then JsString.ofString sampleHex
  else 0x78 :: bytes.map UInt8.toUInt16

theorem sampleDigest_injective : Function.Injective sampleDigest := by
  intro bytes bytes' h
  have hhead : (ofString sampleHex).head? ≠ some 0x78 := by decide +kernel
  unfold sampleDigest at h
  split_ifs at h with hbytes hbytes'
  · rw [hbytes, hbytes']
  · exact absurd (congrArg List.head? h) hhead
  · exact absurd (congrArg List.head? h).symm hhead
  · exact List.map_injective_iff.mpr (fun a b hab => by simpa using congrArg UInt16.toUInt8 hab)
      (List.cons.inj h).2

def sampleKey : ParsedDocumentCacheKey where
  tenantId := JsString.ofString "t"
  repositoryId := JsString.ofString "r"
  serviceId := JsString.ofString "s"
  serviceRoot := JsString.ofString "."
  configFingerprint := JsString.ofString "f"
  adapterId := JsString.ofString "openapi3-document"
  adapterVersion := JsString.ofString "1"
  irVersion := JsString.ofString "1"
  documentPath := JsString.ofString "a.json"
  digest := JsString.ofString ("sha256:" ++ sampleHex)

def unitText (unit : UInt16) : JsString := [0x22, unit, 0x22]

/-- The results of the calls with JSON documents, for a cache with one entry. -/
def sampleRun (calls : List CacheCall) :
    List (Except (CacheError Unit) (JsonTree (Option JsonNumber))) :=
  (runCalls .numerals (fun _ => .error ()) sampleDigest ⟨1, 100, by decide⟩ {} calls).1

theorem parsedDocumentCache_transparent_hit :
    sampleRun [.parse sampleKey (unitText 0xfffd), .parse sampleKey (unitText 0xfffd)] =
      [.ok (.str [0xfffd]), .ok (.str [0xfffd])] := by
  refine ((parsedDocumentCache_transparent _ _ _ _ sampleDigest_injective).2.1 _
    fun key text h => ?_).trans (by decide +kernel)
  have heq : key = sampleKey ∧ text = unitText 0xfffd := by simpa using h
  rw [heq.1, heq.2, IsWellFormed]
  decide +kernel

/-- A lone surrogate is read as the replacement character that was parsed before. -/
theorem not_parsedDocumentCache_transparent :
    sampleRun [.parse sampleKey (unitText 0xfffd), .parse sampleKey (unitText 0xd800)] ≠
      freshParses .numerals (fun _ => .error ())
        [.parse sampleKey (unitText 0xfffd), .parse sampleKey (unitText 0xd800)] ∧
      validKey sampleKey = true ∧ Function.Injective sampleDigest :=
  ⟨by decide +kernel, by decide +kernel, sampleDigest_injective⟩

end ApiTruth.Analyzers
