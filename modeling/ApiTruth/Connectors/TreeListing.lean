import ApiTruth.Ir.Host
import ApiTruth.Foundation.Collation
import ApiTruth.Foundation.Traverse
import Mathlib.Algebra.GroupWithZero.Nat
import Mathlib.Algebra.Order.BigOperators.Group.List
import Mathlib.Data.List.Basic

/-!
# Listings of a committed tree

A listing is a sequence of records, each ended by a zero byte: mode, type and object name, a tab and
the path.  The parser decodes the fields, refuses unsafe paths, repetitions and paths below files,
and sorts what it has read.

## Main definitions

* `recordsFrom` : the records of a listing.
* `readRecord`, `parseTreeEntries` : the entry of a record, and the entries of a listing.
* `TreeEntry.bytes` : the record of an entry.
* `IsPlain` : the fields are ASCII and the path does not begin with a byte order mark.

## Main results

* `entries_of_parseTreeEntries` : what is known of the entries of an accepted listing.
* `bytes_readRecord` : an entry has the bytes of its record without what the decoders take away.
* `perm_bytes_iff` : the entries are the records exactly if all records are plain.
-/

namespace ApiTruth.Connectors

open ApiTruth.Ir.Host List

structure TreeEntry where
  path : String
  mode : String
  type : String
  object : String
deriving DecidableEq, Repr

/-! ### Decoders -/

/-- `toString("ascii")`, which clears the highest bit of every byte. -/
def ascii (bytes : List UInt8) : String :=
  String.ofList (bytes.map fun b => Char.ofNat (b.toNat % 128))

/-- The bytes of a text whose characters are ASCII. -/
def asciiBytes (text : String) : List UInt8 := text.toList.map fun c => UInt8.ofNat c.toNat

def fromUtf8 (bytes : List UInt8) : Option String := String.fromUTF8? ⟨bytes.toArray⟩

def byteOrderMark : List UInt8 := [0xef, 0xbb, 0xbf]

/-- The bytes without a byte order mark in front. -/
def withoutMark (bytes : List UInt8) : List UInt8 :=
  if byteOrderMark.isPrefixOf bytes then bytes.drop 3 else bytes

/-- `new TextDecoder("utf-8", { fatal: true }).decode`. -/
def decode (bytes : List UInt8) : Option String := fromUtf8 (withoutMark bytes)

/-! ### Paths -/

/-- `/[\u0000-\u001f\u007f]/`. -/
def isControl (c : Char) : Bool := c.toNat < 0x20 || c.toNat == 0x7f

/-- A segment of a path that is accepted.  No character outside of ASCII has a lower case in the
name of the directory of Git. -/
def isSafeSegment (part : List Char) : Bool :=
  part != [] && part != ['.'] && part != ['.', '.'] && part.map Char.toLower != ".git".toList &&
    !part.any isControl

def segments (path : String) : List (List Char) := path.toList.splitOn '/'

/-- A path that is accepted, for `posix.normalize`. -/
def isSafePath (normalize : String → String) (path : String) : Bool :=
  path != "" && path.toList.head? != some '/' && !path.toList.contains '\\' &&
    !path.toList.contains ':' && normalize path == path && (segments path).all isSafeSegment

/-- `/^[a-f0-9]{40}$/i`. -/
def isObjectName (name : String) : Bool :=
  name.toList.length == 40 &&
    name.toList.all fun c => c.isDigit || ('a' ≤ c.toLower && c.toLower ≤ 'f')

/-! ### Records -/

/-- The records of a listing, after the bytes of the current one.  A last record must be ended. -/
def recordsFrom : List UInt8 → List UInt8 → Option (List (List UInt8))
  | [], [] => some []
  | _ :: _, [] => none
  | record, b :: rest =>
    if b = 0 then (recordsFrom [] rest).map (record :: ·) else recordsFrom (record ++ [b]) rest

/-- The bytes in front of the tab. -/
def metadata (record : List UInt8) : List UInt8 := record.takeWhile (· != 9)

def pathBytes (record : List UInt8) : List UInt8 := (record.dropWhile (· != 9)).tail

def readRecord (normalize : String → String) (record : List UInt8) : Option TreeEntry :=
  if 9 ∉ record then none
  else
    match ((metadata record).map (· % 128)).splitOn 32 with
    | [mode, type, object] => do
      let path ← decode (pathBytes record)
      if mode = [] ∨ type = [] ∨ ¬ isObjectName (ascii object) ∨ ¬ isSafePath normalize path then
        none
      else some ⟨path, ascii mode, ascii type, ascii object⟩
    | _ => none

def addRecord (normalize : String → String) (maxFiles : ℕ) (entries : List TreeEntry)
    (record : List UInt8) : Option (List TreeEntry) := do
  let entry ← readRecord normalize record
  if entry.path ∈ entries.map TreeEntry.path ∨ maxFiles ≤ entries.length then none
  else some (entries ++ [entry])

/-- A path that stands for a directory of another one. -/
def hasDirectoryEntry (entries : List TreeEntry) : Bool :=
  entries.any fun entry => (List.range (segments entry.path).length).any fun index =>
    0 < index && entries.any fun other =>
      other.path.toList == ['/'].intercalate ((segments entry.path).take index)

/-- `parseTreeEntries`, with an order of strings. -/
def parseTreeEntries (normalize : String → String) (order : Collation String) (maxFiles : ℕ)
    (output : List UInt8) : Option (List TreeEntry) := do
  let records ← recordsFrom [] output
  let entries ← (records.filter (· != [])).foldlM (addRecord normalize maxFiles) []
  if hasDirectoryEntry entries then none else some (order.sortBy TreeEntry.path entries)

/-! ### What is read -/

/-- The records of a listing that are not empty. -/
def records (output : List UInt8) : List (List UInt8) :=
  ((recordsFrom [] output).getD []).filter (· != [])

/-- The record of an entry. -/
def TreeEntry.bytes (entry : TreeEntry) : List UInt8 :=
  asciiBytes entry.mode ++ 32 :: asciiBytes entry.type ++ 32 :: asciiBytes entry.object ++
    9 :: utf8 entry.path

/-- The fields of the record are ASCII and its path does not begin with a byte order mark. -/
def IsPlain (record : List UInt8) : Prop :=
  (∀ b ∈ metadata record, b < 128) ∧ byteOrderMark.isPrefixOf (pathBytes record) = false

instance (record : List UInt8) : Decidable (IsPlain record) :=
  inferInstanceAs (Decidable (_ ∧ _))

/-- Entries with safe and distinct paths, none of which leads through another one. -/
structure AreFiles (normalize : String → String) (entries : List TreeEntry) : Prop where
  safe : ∀ entry ∈ entries, isSafePath normalize entry.path = true
  nodup : (entries.map TreeEntry.path).Nodup
  apart : ∀ entry ∈ entries, ∀ other ∈ entries,
    segments other.path <+: segments entry.path → other = entry

/-- The record without the highest bits of its fields and without a byte order mark. -/
def cleaned (record : List UInt8) : List UInt8 :=
  (metadata record).map (· % 128) ++ 9 :: withoutMark (pathBytes record)

theorem fromUtf8_eq_some_iff {bytes : List UInt8} {text : String} :
    fromUtf8 bytes = some text ↔ utf8 text = bytes := by
  unfold fromUtf8 String.fromUTF8? utf8
  constructor
  · intro h
    split at h
    · cases h
      rfl
    · cases h
  · rintro rfl
    have hvalid : ByteArray.IsValidUTF8 ⟨text.toUTF8.data.toList.toArray⟩ := text.isValidUTF8
    rw [dif_pos hvalid]
    rfl

theorem segments_injective : Function.Injective segments := by
  intro path path' h
  have hjoin := congrArg (List.intercalate ['/']) h
  rw [segments, segments, intercalate_splitOn, intercalate_splitOn] at hjoin
  exact String.toList_inj.mp hjoin

theorem hasDirectoryEntry_of_segments {entries : List TreeEntry} {entry other : TreeEntry}
    (hentry : entry ∈ entries) (hother : other ∈ entries)
    (hinitial : segments other.path <+: segments entry.path) (hne : other.path ≠ entry.path) :
    hasDirectoryEntry entries = true := by
  have hlength : (segments other.path).length < (segments entry.path).length :=
    lt_of_le_of_ne hinitial.length_le fun heq =>
      hne (segments_injective (hinitial.eq_of_length heq))
  have hpos : 0 < (segments other.path).length := List.length_pos_iff.mpr (splitOn_ne_nil _ _)
  have hjoin : ['/'].intercalate (segments other.path) = other.path.toList :=
    intercalate_splitOn _
  refine List.any_eq_true.mpr ⟨entry, hentry,
    List.any_eq_true.mpr ⟨_, List.mem_range.mpr hlength, ?_⟩⟩
  rw [← List.prefix_iff_eq_take.mp hinitial, hjoin, Bool.and_eq_true]
  exact ⟨decide_eq_true hpos, List.any_eq_true.mpr ⟨other, hother, beq_self_eq_true _⟩⟩

theorem asciiBytes_ascii (bytes : List UInt8) :
    asciiBytes (ascii bytes) = bytes.map (· % 128) := by
  rw [asciiBytes, ascii, String.toList_ofList, List.map_map]
  refine map_congr_left fun b _ => ?_
  have hvalid : (b.toNat % 128).isValidChar := .inl (by omega)
  have hchar : (Char.ofNat (b.toNat % 128)).toNat = b.toNat % 128 := by
    rw [Char.ofNat, dif_pos hvalid]
    rfl
  show UInt8.ofNat (Char.ofNat (b.toNat % 128)).toNat = b % 128
  exact UInt8.toNat_inj.mp (by simp; omega)

/-- A list is a permutation of its images exactly if every value is its own image, provided that
the images of other values weigh less. -/
theorem perm_map_iff {α : Type*} {f : α → α} (weight : α → ℕ) {values : List α}
    (h : ∀ a ∈ values, f a = a ∨ weight (f a) < weight a) :
    (values.map f).Perm values ↔ ∀ a ∈ values, f a = a := by
  constructor
  · intro hperm a ha
    by_contra hne
    have hle (b : α) (hb : b ∈ values) : weight (f b) ≤ weight b := by
      rcases h b hb with heq | hlt
      · rw [heq]
      · exact hlt.le
    have hlt : (values.map (weight ∘ f)).sum < (values.map weight).sum :=
      sum_lt_sum _ _ hle ⟨a, ha, (h a ha).resolve_left hne⟩
    have heq : (values.map (weight ∘ f)).sum = (values.map weight).sum := by
      rw [← List.map_map]
      exact (hperm.map weight).sum_eq
    omega
  · intro hfix
    rw [map_congr_left hfix, List.map_id']

theorem notMem_of_recordsFrom {record output : List UInt8} {records : List (List UInt8)}
    (h : recordsFrom record output = some records) (hrecord : 0 ∉ record) :
    ∀ r ∈ records, 0 ∉ r := by
  fun_induction recordsFrom record output generalizing records with
  | case1 => simp_all
  | case2 => cases h
  | case3 record rest ih =>
    obtain ⟨records, hrecords, rfl⟩ := Option.map_eq_some_iff.mp h
    exact List.forall_mem_cons.mpr ⟨hrecord, ih hrecords (by simp)⟩
  | case4 record b rest hb ih => exact ih h (by simp [hrecord, Ne.symm hb])

section Entries

variable {normalize : String → String} {record : List UInt8} {entry : TreeEntry}

theorem readRecord_eq_some (h : readRecord normalize record = some entry) :
    9 ∈ record ∧ ∃ mode type object : List UInt8,
      ((metadata record).map (· % 128)).splitOn 32 = [mode, type, object] ∧
        entry.mode = ascii mode ∧ entry.type = ascii type ∧ entry.object = ascii object ∧
        decode (pathBytes record) = some entry.path ∧ isSafePath normalize entry.path = true := by
  unfold readRecord at h
  split at h
  · cases h
  · rename_i htab
    split at h
    · rename_i mode type object hsplit
      obtain ⟨path, hpath, h⟩ := Option.bind_eq_some_iff.mp h
      split at h
      · cases h
      · rename_i hchecks
        cases h
        simp only [not_or, not_not] at hchecks
        exact ⟨by simpa using htab, mode, type, object, hsplit, rfl, rfl, rfl, hpath,
          hchecks.2.2.2⟩
    · cases h

/-- An entry has the bytes of its record without what the decoders take away. -/
theorem bytes_readRecord (h : readRecord normalize record = some entry) :
    entry.bytes = cleaned record := by
  obtain ⟨-, mode, type, object, hsplit, hmode, htype, hobject, hpath, -⟩ := readRecord_eq_some h
  have hmetadata : [32].intercalate [mode, type, object] = (metadata record).map (· % 128) := by
    rw [← hsplit, intercalate_splitOn]
  have hlow :
      ((metadata record).map (· % 128)).map (· % 128) = (metadata record).map (· % 128) := by
    rw [List.map_map]
    exact map_congr_left fun b _ => UInt8.toNat_inj.mp (by simp)
  have hpath' : utf8 entry.path = withoutMark (pathBytes record) := fromUtf8_eq_some_iff.mp hpath
  rw [TreeEntry.bytes, hmode, htype, hobject, asciiBytes_ascii, asciiBytes_ascii,
    asciiBytes_ascii, hpath', cleaned, ← hlow, ← hmetadata]
  simp [List.intercalate]

theorem metadata_append_pathBytes (h : 9 ∈ record) :
    metadata record ++ 9 :: pathBytes record = record := by
  induction record with
  | nil => cases h
  | cons b record ih =>
    by_cases hb : b = 9
    · subst hb
      simp [metadata, pathBytes]
    · have hmem : 9 ∈ record := (List.mem_cons.mp h).resolve_left (Ne.symm hb)
      simpa [metadata, pathBytes, hb] using ih hmem

theorem withoutMark_eq_self_iff {bytes : List UInt8} :
    withoutMark bytes = bytes ↔ byteOrderMark.isPrefixOf bytes = false := by
  unfold withoutMark
  split
  · rename_i hmark
    obtain ⟨rest, rfl⟩ := List.isPrefixOf_iff_prefix.mp hmark
    have hne : (byteOrderMark ++ rest).drop 3 ≠ byteOrderMark ++ rest := fun heq => by
      have hlength := congrArg List.length heq
      simp [byteOrderMark] at hlength
      omega
    simp only [hmark, hne, Bool.true_eq_false]
  · rename_i hmark
    exact iff_of_true rfl (Bool.eq_false_iff.mpr hmark)

theorem mod_eq_self_iff {b : UInt8} : b % 128 = b ↔ b < 128 := by
  rw [← UInt8.toNat_inj, UInt8.lt_iff_toNat_lt, UInt8.toNat_mod]
  exact Nat.mod_eq_iff_lt (by decide)

theorem map_mod_eq_self_iff {bytes : List UInt8} :
    bytes.map (· % 128) = bytes ↔ ∀ b ∈ bytes, b < 128 := by
  nth_rewrite 2 [← List.map_id bytes]
  rw [map_inj_left]
  simp only [id, mod_eq_self_iff]

theorem cleaned_eq_self_iff (h : 9 ∈ record) : cleaned record = record ↔ IsPlain record := by
  rw [IsPlain, ← map_mod_eq_self_iff, ← withoutMark_eq_self_iff]
  nth_rewrite 2 [← metadata_append_pathBytes h]
  rw [cleaned]
  constructor
  · intro heq
    obtain ⟨hmetadata, hpath⟩ := append_inj heq (by simp)
    exact ⟨hmetadata, (List.cons.inj hpath).2⟩
  · rintro ⟨hmetadata, hpath⟩
    rw [hmetadata, hpath]

/-- The length of a record and the sum of its bytes. -/
def weight (record : List UInt8) : ℕ := (record.map fun b => b.toNat + 1).sum

theorem weight_append (bytes bytes' : List UInt8) :
    weight (bytes ++ bytes') = weight bytes + weight bytes' := by
  simp only [weight, map_append, sum_append]

theorem withoutMark_eq_or_weight_lt (bytes : List UInt8) :
    withoutMark bytes = bytes ∨ weight (withoutMark bytes) < weight bytes := by
  rw [withoutMark_eq_self_iff, withoutMark]
  split
  · rename_i hmark
    obtain ⟨rest, rfl⟩ := List.isPrefixOf_iff_prefix.mp hmark
    have hmark : 0 < weight byteOrderMark := by decide
    rw [weight_append]
    exact .inr (by simpa [byteOrderMark] using hmark)
  · rename_i hmark
    exact .inl (Bool.eq_false_iff.mpr hmark)

theorem map_mod_eq_or_weight_lt (bytes : List UInt8) :
    bytes.map (· % 128) = bytes ∨ weight (bytes.map (· % 128)) < weight bytes := by
  rw [map_mod_eq_self_iff]
  by_cases hall : ∀ b ∈ bytes, b < 128
  · exact .inl hall
  · obtain ⟨b, hb, hlt⟩ : ∃ b ∈ bytes, ¬ b < 128 := by simpa using hall
    refine .inr ?_
    rw [weight, List.map_map]
    refine sum_lt_sum _ _ (fun c _ => ?_) ⟨b, hb, ?_⟩
    · show (c % 128).toNat + 1 ≤ c.toNat + 1
      exact Nat.succ_le_succ (Nat.mod_le _ _)
    · show (b % 128).toNat + 1 < b.toNat + 1
      rw [UInt8.lt_iff_toNat_lt] at hlt
      simp at hlt ⊢
      omega

theorem cleaned_eq_or_weight_lt (h : 9 ∈ record) :
    cleaned record = record ∨ weight (cleaned record) < weight record := by
  have hrecord := metadata_append_pathBytes h
  have hweight : weight record = weight (metadata record) + (10 + weight (pathBytes record)) := by
    nth_rewrite 1 [← hrecord]
    rw [weight_append]
    rfl
  have hclean : weight (cleaned record) = weight ((metadata record).map (· % 128)) +
      (10 + weight (withoutMark (pathBytes record))) := by
    rw [cleaned, weight_append]
    rfl
  rcases map_mod_eq_or_weight_lt (metadata record) with hmeta | hmeta <;>
    rcases withoutMark_eq_or_weight_lt (pathBytes record) with hpath | hpath
  · exact .inl (by rw [cleaned, hmeta, hpath, hrecord])
  · exact .inr (by rw [hclean, hweight, hmeta]; omega)
  · exact .inr (by rw [hclean, hweight, hpath]; omega)
  · exact .inr (by omega)

theorem foldlM_addRecord {maxFiles : ℕ} {records : List (List UInt8)}
    {entries entries' : List TreeEntry}
    (h : records.foldlM (addRecord normalize maxFiles) entries = some entries')
    (hnodup : (entries.map TreeEntry.path).Nodup) :
    ∃ read, entries' = entries ++ read ∧ (entries'.map TreeEntry.path).Nodup ∧
      List.Forall₂ (fun record entry => readRecord normalize record = some entry) records read := by
  induction records generalizing entries with
  | nil =>
    cases h
    exact ⟨[], by simp, hnodup, .nil⟩
  | cons record records ih =>
    obtain ⟨next, hnext, hrest⟩ := Option.bind_eq_some_iff.mp h
    obtain ⟨entry, hentry, hnext⟩ := Option.bind_eq_some_iff.mp hnext
    split at hnext
    · cases hnext
    · rename_i hnew
      cases hnext
      have hnodup' : ((entries ++ [entry]).map TreeEntry.path).Nodup := by
        rw [map_append, nodup_append_comm]
        exact List.nodup_cons.mpr ⟨(not_or.mp hnew).1, hnodup⟩
      obtain ⟨read, rfl, hall, hread⟩ := ih hrest hnodup'
      exact ⟨entry :: read, by simp, hall, .cons hentry hread⟩

section Parse

variable {order : Collation String} {maxFiles : ℕ} {output : List UInt8} {entries : List TreeEntry}
  (h : parseTreeEntries normalize order maxFiles output = some entries)

include h

/-- What is known of the entries of an accepted listing. -/
theorem entries_of_parseTreeEntries :
    ∃ read, entries = order.sortBy TreeEntry.path read ∧ (read.map TreeEntry.path).Nodup ∧
      hasDirectoryEntry read = false ∧ (∀ record ∈ records output, 0 ∉ record) ∧
      List.Forall₂ (fun record entry => readRecord normalize record = some entry)
        (records output) read := by
  obtain ⟨all, hall, h⟩ := Option.bind_eq_some_iff.mp h
  obtain ⟨read, hread, h⟩ := Option.bind_eq_some_iff.mp h
  split at h
  · cases h
  · rename_i hdirectory
    cases h
    obtain ⟨read, rfl, hnodup, hforall⟩ := foldlM_addRecord hread nodup_nil
    have hrecords : records output = all.filter (· != []) := by rw [records, hall, Option.getD_some]
    have hzero : ∀ record ∈ records output, 0 ∉ record := fun record hrecord =>
      notMem_of_recordsFrom hall (by simp) record (mem_of_mem_filter (hrecords ▸ hrecord))
    exact ⟨read, rfl, hnodup, Bool.eq_false_iff.mpr hdirectory, hzero, hrecords ▸ hforall⟩

theorem areFiles_of_parseTreeEntries : AreFiles normalize entries := by
  obtain ⟨read, rfl, hnodup, hdirectory, -, hread⟩ := entries_of_parseTreeEntries h
  have hperm := order.sortBy_perm TreeEntry.path read
  refine ⟨fun entry hentry => ?_, (hperm.map _).nodup_iff.mpr hnodup,
    fun entry hentry other hother hinitial => ?_⟩
  · obtain ⟨record, -, hrecord⟩ := hread.exists_left (hperm.mem_iff.mp hentry)
    obtain ⟨-, -, -, -, -, -, -, -, -, hsafe⟩ := readRecord_eq_some hrecord
    exact hsafe
  · by_contra hne
    have hpath : other.path ≠ entry.path := fun hpath => hne <|
      inj_on_of_nodup_map hnodup (hperm.mem_iff.mp hother) (hperm.mem_iff.mp hentry) hpath
    rw [hasDirectoryEntry_of_segments (hperm.mem_iff.mp hentry) (hperm.mem_iff.mp hother) hinitial
      hpath] at hdirectory
    cases hdirectory

theorem zero_notMem_path : ∀ entry ∈ entries, 0 ∉ utf8 entry.path := by
  obtain ⟨read, rfl, -, -, hzero, hread⟩ := entries_of_parseTreeEntries h
  intro entry hentry
  obtain ⟨record, hrecord, hentry⟩ :=
    hread.exists_left ((order.sortBy_perm TreeEntry.path read).mem_iff.mp hentry)
  obtain ⟨-, -, -, -, -, -, -, -, hpath, -⟩ := readRecord_eq_some hentry
  have hpath' : utf8 entry.path = withoutMark (pathBytes record) := fromUtf8_eq_some_iff.mp hpath
  have hsubset : pathBytes record ⊆ record :=
    ((tail_sublist _).trans (dropWhile_sublist _)).subset
  rw [hpath', withoutMark]
  refine fun hmem => hzero record hrecord (hsubset ?_)
  split at hmem
  · exact mem_of_mem_drop hmem
  · exact hmem

/-- The entries are the records exactly if all records are plain. -/
theorem perm_bytes_iff :
    (entries.map TreeEntry.bytes).Perm (records output) ↔
      ∀ record ∈ records output, IsPlain record := by
  obtain ⟨read, rfl, -, -, -, hread⟩ := entries_of_parseTreeEntries h
  have htab : ∀ record ∈ records output, 9 ∈ record := fun record hrecord => by
    obtain ⟨entry, -, hentry⟩ := hread.exists_right hrecord
    exact (readRecord_eq_some hentry).1
  have hbytes : read.map TreeEntry.bytes = (records output).map cleaned :=
    (hread.imp fun _ _ hentry => (bytes_readRecord hentry).symm).map_eq.symm
  have hsorted := ((order.sortBy_perm TreeEntry.path read).map TreeEntry.bytes)
  rw [hbytes] at hsorted
  rw [hsorted.congr_left, perm_map_iff weight fun record hrecord =>
    cleaned_eq_or_weight_lt (htab record hrecord)]
  exact forall₂_congr fun record hrecord => cleaned_eq_self_iff (htab record hrecord)

end Parse

end Entries

end ApiTruth.Connectors
