import ApiTruth.Connectors.TreeListing

/-!
# Materialized source

The blobs of a committed tree are written below a service path of a temporary project, and a digest
is taken over paths, modes and digests of the contents.

## Main definitions

* `materializeGitSource` : the files that are written and the text of the digest.
* `IsConfined` : the files are written once and strictly below the service path.
* `SameFiles` : two listings contain the same files with the same modes and contents.

## Main results

* `sourceDigest_eq_iff` : the digested texts are equal exactly if the same entries were written.
* `materializeGitSource_exact_iff` : listings are read exactly, and their digests tell their files
  apart, if and only if all their records are plain.
-/

namespace ApiTruth.Connectors

open ApiTruth.Ir.Host List Option

/-- What is materialized, with the listing and the blobs that Git returns. -/
structure GitInput where
  serviceRoot : String
  maxFiles : ℕ
  maxBytes : ℕ
  temporaryProject : List (List Char)
  listing : List UInt8
  blob : String → Option (List UInt8)

structure MaterializedGitFile where
  path : String
  mode : ℕ
  byteLength : ℕ
  sha256 : List UInt8

structure WrittenFile where
  destination : List (List Char)
  bytes : List UInt8
  mode : ℕ

structure MaterializedGitSource where
  files : List MaterializedGitFile := []
  sourceDigest : List UInt8 := []
  writtenBytes : ℕ := 0
  written : List WrittenFile := []

/-! ### Paths -/

def validLimits (input : GitInput) : Bool :=
  1 ≤ input.maxFiles && input.maxFiles ≤ 20000 && 1 ≤ input.maxBytes &&
    input.maxBytes ≤ 100000000

/-- `normalizeServiceRoot`, except for the root itself. -/
def isServiceRoot (normalize : String → String) (value : String) : Bool :=
  value != "" && value.toList.head? != some '/' && !value.toList.contains '\\' &&
    normalize value == value && (segments value).all fun segment =>
      isSafeSegment segment && !segment.any (":*?[]".toList.contains ·)

/-- `resolve`, for segments below an absolute path. -/
def resolve (root parts : List (List Char)) : List (List Char) :=
  parts.foldl (fun path part => if part = [] ∨ part = ['.'] then path
    else if part = ['.', '.'] then path.dropLast else path ++ [part]) root

/-- `relative`, for the segments of absolute paths. -/
def relative : List (List Char) → List (List Char) → List (List Char)
  | a :: root, b :: path =>
    if a = b then relative root path
    else List.replicate (root.length + 1) ['.', '.'] ++ b :: path
  | root, path => List.replicate root.length ['.', '.'] ++ path

def inside (root path : List (List Char)) : Bool :=
  !(List.isPrefixOf ['.', '.'] ((relative root path).headD []))

def servicePath (normalize : String → String) (input : GitInput) :
    Option (List (List Char)) :=
  if input.serviceRoot = "." then some input.temporaryProject
  else
    let path := resolve input.temporaryProject (segments input.serviceRoot)
    if isServiceRoot normalize input.serviceRoot && inside input.temporaryProject path then some path
    else none

/-- `/\.(?:[cm]?[jt]s|tsx|jsx|json|ya?ml)$/i`. -/
def isSourceFile (path : String) : Bool :=
  [".js", ".ts", ".cjs", ".cts", ".mjs", ".mts", ".tsx", ".jsx", ".json", ".yml", ".yaml"].any
    fun suffix => suffix.toList.isSuffixOf (path.toList.map Char.toLower)

/-! ### Files -/

variable (normalize : String → String) (order : Collation String)
  (sha256 : List UInt8 → List UInt8)

/-- The digested text of a file: path, mode and digest, each ended by a zero byte. -/
def digestText (fields : List UInt8 × List UInt8 × List UInt8) : List UInt8 :=
  fields.1 ++ 0 :: (fields.2.1 ++ 0 :: (fields.2.2 ++ [0]))

/-- Write one more file.  The destination is new, so that the flag `wx` does not refuse it. -/
def materializeFile (input : GitInput) (path : List (List Char)) (source : MaterializedGitSource)
    (entry : TreeEntry) : Option MaterializedGitSource := do
  let bytes ← input.blob entry.object
  let destination := resolve path (segments entry.path)
  if input.maxBytes < source.writtenBytes + bytes.length ∨
      isSourceFile entry.path ∧ decode bytes = none ∨ ¬ inside path destination then
    none
  else
    let mode := if entry.mode = "100755" then 0o755 else 0o644
    some {
      files := source.files ++ [⟨entry.path, mode, bytes.length, sha256 bytes⟩]
      sourceDigest := source.sourceDigest ++
        digestText (utf8 entry.path, utf8 entry.mode, sha256 bytes)
      writtenBytes := source.writtenBytes + bytes.length
      written := source.written ++ [⟨destination, bytes, mode⟩] }

/-- `materializeGitSource`, after the commit and its tree have been found. -/
def materializeGitSource (input : GitInput) : Option MaterializedGitSource := do
  let path ← servicePath normalize input
  let entries ← parseTreeEntries normalize order input.maxFiles input.listing
  if ¬ validLimits input ∨ min (128 * 1024 * 1024) (input.maxFiles * 4096 + 4096) <
        input.listing.length ∨
      ∃ entry ∈ entries, entry.type ≠ "blob" ∨ entry.mode ≠ "100644" ∧ entry.mode ≠ "100755" then
    none
  else entries.foldlM (materializeFile sha256 input path) {}

def MaterializedGitSource.treeDigest (source : MaterializedGitSource) : List UInt8 :=
  asciiBytes "sha256:" ++ sha256 source.sourceDigest

/-! ### What is materialized -/

/-- The content of a blob.  All blobs of a materialized listing have been read. -/
def GitInput.content (input : GitInput) (object : String) : List UInt8 :=
  (input.blob object).getD []

/-- The file that a record stands for: path, mode and content. -/
def GitInput.committedFile (input : GitInput) (record : List UInt8) :
    List UInt8 × List UInt8 × List UInt8 :=
  let fields := (metadata record).splitOn 32
  (pathBytes record, fields.headD [], input.content (ascii (fields.getD 2 [])))

/-- Both listings contain the same files with the same modes and contents. -/
def SameFiles (input input' : GitInput) : Prop :=
  ∀ file, file ∈ (records input.listing).map input.committedFile ↔
    file ∈ (records input'.listing).map input'.committedFile

def IsPlainListing (input : GitInput) : Prop := ∀ record ∈ records input.listing, IsPlain record

def IsExact (input : GitInput) : Prop :=
  ∃ entries, parseTreeEntries normalize order input.maxFiles input.listing = some entries ∧
    (entries.map TreeEntry.bytes).Perm (records input.listing)

/-- Every file is written once, strictly below the service path, through safe segments, and none is
written below another one. -/
structure IsConfined (path : List (List Char)) (written : List WrittenFile) : Prop where
  below : ∀ file ∈ written, ∃ parts ≠ [], parts.all isSafeSegment ∧
    file.destination = path ++ parts
  once : (written.map WrittenFile.destination).Nodup
  apart : written.Pairwise fun file other =>
    ¬ file.destination <+: other.destination ∧ ¬ other.destination <+: file.destination

variable {normalize order sha256} {input input' : GitInput} {source source' : MaterializedGitSource}

theorem resolve_of_safe {root parts : List (List Char)} (h : parts.all isSafeSegment = true) :
    resolve root parts = root ++ parts := by
  induction parts generalizing root with
  | nil => simp [resolve]
  | cons part parts ih =>
    obtain ⟨hpart, hparts⟩ := Bool.and_eq_true_iff.mp h
    simp only [isSafeSegment, Bool.and_eq_true, bne_iff_ne] at hpart
    have hstep : resolve root (part :: parts) = resolve (root ++ [part]) parts := by
      simp [resolve, hpart]
    rw [hstep, ih hparts, append_assoc, singleton_append]

theorem segments_safe {path : String} (h : isSafePath normalize path = true) :
    (segments path).all isSafeSegment = true := (Bool.and_eq_true_iff.mp h).2

variable {entries : List TreeEntry}

theorem foldlM_materializeFile {path : List (List Char)}
    (hsafe : ∀ entry ∈ entries, isSafePath normalize entry.path = true)
    (h : entries.foldlM (materializeFile sha256 input path) source = some source') :
    source'.written.map WrittenFile.destination = source.written.map WrittenFile.destination ++
        entries.map (path ++ segments ·.path) ∧
      source'.sourceDigest = source.sourceDigest ++ (entries.map fun entry =>
        (utf8 entry.path, utf8 entry.mode, sha256 (input.content entry.object))).flatMap
          digestText := by
  induction entries generalizing source with
  | nil =>
    cases h
    simp
  | cons entry entries ih =>
    obtain ⟨next, hnext, hrest⟩ := bind_eq_some_iff.mp h
    obtain ⟨bytes, hbytes, hnext⟩ := bind_eq_some_iff.mp hnext
    have hcontent : input.content entry.object = bytes := by rw [GitInput.content, hbytes]; rfl
    have hentry := segments_safe (hsafe entry mem_cons_self)
    simp only [resolve_of_safe hentry] at hnext
    split at hnext
    · cases hnext
    · cases hnext
      obtain ⟨hwritten, hdigest⟩ :=
        ih (fun other hother => hsafe other (mem_cons_of_mem _ hother)) hrest
      exact ⟨by simp [hwritten], by simp [hdigest, hcontent]⟩

section Run

variable (h : materializeGitSource normalize order sha256 input = some source)

include h

theorem entries_of_materializeGitSource :
    ∃ path entries, servicePath normalize input = some path ∧
      parseTreeEntries normalize order input.maxFiles input.listing = some entries ∧
      (∀ entry ∈ entries, utf8 entry.mode = asciiBytes entry.mode ∧ 0 ∉ utf8 entry.mode) ∧
      source.written.map WrittenFile.destination = entries.map (path ++ segments ·.path) ∧
      source.sourceDigest = (entries.map fun entry => (utf8 entry.path, utf8 entry.mode,
        sha256 (input.content entry.object))).flatMap digestText := by
  obtain ⟨path, hpath, h⟩ := bind_eq_some_iff.mp h
  obtain ⟨entries, hentries, h⟩ := bind_eq_some_iff.mp h
  split at h
  · cases h
  · rename_i hchecks
    have hmode (entry : TreeEntry) (hentry : entry ∈ entries) :
        utf8 entry.mode = asciiBytes entry.mode ∧ 0 ∉ utf8 entry.mode := by
      have hmodes : entry.mode = "100644" ∨ entry.mode = "100755" := by
        by_contra hmode
        exact hchecks (.inr (.inr ⟨entry, hentry, .inr (not_or.mp hmode)⟩))
      rcases hmodes with hmode | hmode <;> rw [hmode] <;> decide
    obtain ⟨hwritten, hdigest⟩ :=
      foldlM_materializeFile (areFiles_of_parseTreeEntries hentries).safe h
    exact ⟨path, entries, hpath, hentries, hmode, by simpa using hwritten, by simpa using hdigest⟩

theorem isConfined_of_materializeGitSource :
    ∃ path, servicePath normalize input = some path ∧ input.temporaryProject <+: path ∧
      IsConfined path source.written := by
  obtain ⟨path, entries, hpath, hentries, -, hwritten, -⟩ := entries_of_materializeGitSource h
  have hfiles := areFiles_of_parseTreeEntries hentries
  have hproject : input.temporaryProject <+: path := by
    unfold servicePath at hpath
    split at hpath
    · exact (Option.some.inj hpath) ▸ prefix_rfl
    · simp only [ite_none_right_eq_some, Bool.and_eq_true, Option.some.injEq] at hpath
      obtain ⟨⟨hroot, -⟩, rfl⟩ := hpath
      have hsafe : (segments input.serviceRoot).all isSafeSegment = true := by
        simp only [isServiceRoot, Bool.and_eq_true, List.all_eq_true] at hroot ⊢
        exact fun segment hsegment => (hroot.2 segment hsegment).1
      rw [resolve_of_safe hsafe]
      exact prefix_append ..
  have hapart : (source.written.map WrittenFile.destination).Pairwise fun destination other =>
      ¬ destination <+: other ∧ ¬ other <+: destination := by
    rw [hwritten, pairwise_map]
    refine (Nodup.of_map _ hfiles.nodup).imp_of_mem fun {entry other} hentry hother hne => ?_
    rw [prefix_append_right_inj, prefix_append_right_inj]
    exact ⟨fun hinitial => hne (hfiles.apart _ hother _ hentry hinitial),
      fun hinitial => hne (hfiles.apart _ hentry _ hother hinitial).symm⟩
  refine ⟨path, hpath, hproject, fun file hfile => ?_,
    hapart.imp fun {destination other} hne (heq : destination = other) =>
      hne.1 (heq ▸ prefix_rfl), List.pairwise_map.mp hapart⟩
  obtain ⟨entry, hentry, hdestination⟩ :=
    List.mem_map.mp (hwritten ▸ List.mem_map_of_mem (f := WrittenFile.destination) hfile)
  exact ⟨segments entry.path, splitOn_ne_nil _ _, segments_safe (hfiles.safe entry hentry),
    hdestination.symm⟩

end Run

theorem flatMap_digestText_inj {fields fields' : List (List UInt8 × List UInt8 × List UInt8)}
    (hzero : ∀ f ∈ fields, 0 ∉ f.1 ∧ 0 ∉ f.2.1 ∧ 0 ∉ f.2.2)
    (hzero' : ∀ f ∈ fields', 0 ∉ f.1 ∧ 0 ∉ f.2.1 ∧ 0 ∉ f.2.2)
    (h : fields.flatMap digestText = fields'.flatMap digestText) : fields = fields' := by
  induction fields generalizing fields' with
  | nil =>
    cases fields' with
    | nil => rfl
    | cons f' fields' => simp [digestText] at h
  | cons f fields ih =>
    cases fields' with
    | nil => simp [digestText] at h
    | cons f' fields' =>
      obtain ⟨path', mode', digest'⟩ := f'
      obtain ⟨⟨hpath, hmode, hdigest⟩, hfields⟩ := List.forall_mem_cons.mp hzero
      obtain ⟨⟨hpath', hmode', hdigest'⟩, hfields'⟩ := List.forall_mem_cons.mp hzero'
      simp only [flatMap_cons, digestText, append_assoc, cons_append, nil_append] at h
      obtain ⟨rfl, hmodes⟩ := (List.append_cons_inj_of_notMem_left hpath hpath').mp h
      obtain ⟨rfl, hdigests⟩ := (List.append_cons_inj_of_notMem_left hmode hmode').mp hmodes
      obtain ⟨rfl, hrest⟩ := (List.append_cons_inj_of_notMem_left hdigest hdigest').mp hdigests
      rw [ih hfields hfields' hrest]

/-! ### Equal digests -/

section Digests

/-- What is digested of an entry, before its content is digested. -/
def GitInput.shown (input : GitInput) (entry : TreeEntry) : String × List UInt8 × List UInt8 :=
  (entry.path, asciiBytes entry.mode, input.content entry.object)

theorem committedFile_of_isPlain {record : List UInt8} {entry : TreeEntry}
    (h : readRecord normalize record = some entry) (hplain : IsPlain record) :
    input.committedFile record = (utf8 entry.path, (input.shown entry).2) := by
  obtain ⟨-, mode, type, object, hsplit, hmode, -, hobject, hpath, -⟩ := readRecord_eq_some h
  have hpath' : utf8 entry.path = withoutMark (pathBytes record) := fromUtf8_eq_some_iff.mp hpath
  rw [map_mod_eq_self_iff.mpr hplain.1] at hsplit
  have hmetadata : [32].intercalate [mode, type, object] = metadata record := by
    rw [← hsplit, intercalate_splitOn]
  have hlow : mode.map (· % 128) = mode := map_mod_eq_self_iff.mpr fun b hb =>
    hplain.1 b (hmetadata ▸ by simp [List.intercalate, hb])
  rw [hpath', withoutMark_eq_self_iff.mpr hplain.2, GitInput.shown, hmode, hobject,
    asciiBytes_ascii, hlow, GitInput.committedFile, hsplit]
  rfl

theorem map_committedFile {read : List TreeEntry} {listed : List (List UInt8)}
    (h : List.Forall₂ (fun record entry => readRecord normalize record = some entry) listed read)
    (hplain : ∀ record ∈ listed, IsPlain record) :
    listed.map input.committedFile =
      (read.map input.shown).map fun shown => (utf8 shown.1, shown.2) := by
  induction h with
  | nil => rfl
  | cons hentry _ ih =>
    obtain ⟨hrecord, hplain⟩ := List.forall_mem_cons.mp hplain
    rw [map_cons, committedFile_of_isPlain hentry hrecord, ih hplain]
    rfl

theorem mem_committedFile_iff {maxFiles : ℕ}
    (h : parseTreeEntries normalize order maxFiles input.listing = some entries)
    (hplain : IsPlainListing input) {file : List UInt8 × List UInt8 × List UInt8} :
    file ∈ (records input.listing).map input.committedFile ↔
      file ∈ (entries.map input.shown).map fun shown => (utf8 shown.1, shown.2) := by
  obtain ⟨read, rfl, -, -, -, hread⟩ := entries_of_parseTreeEntries h
  rw [map_committedFile hread hplain]
  exact (((order.sortBy_perm TreeEntry.path read).map _).map _).mem_iff.symm

/-- Entries in the order of their paths are the same as soon as they contain the same files. -/
theorem map_shown_eq_iff {entries entries' : List TreeEntry} {maxFiles maxFiles' : ℕ}
    (h : parseTreeEntries normalize order maxFiles input.listing = some entries)
    (h' : parseTreeEntries normalize order maxFiles' input'.listing = some entries') :
    entries.map input.shown = entries'.map input'.shown ↔
      ∀ shown, shown ∈ entries.map input.shown ↔ shown ∈ entries'.map input'.shown := by
  refine ⟨fun heq shown => by rw [heq], fun hmem => ?_⟩
  obtain ⟨read, rfl, hnodup, -⟩ := entries_of_parseTreeEntries h
  obtain ⟨read', rfl, hnodup', -⟩ := entries_of_parseTreeEntries h'
  have hsort (input : GitInput) (read : List TreeEntry) :
      (order.sortBy TreeEntry.path read).map input.shown =
        order.sortBy Prod.fst (read.map input.shown) :=
    map_insertionSort _ _ input.shown read fun _ _ _ _ => Iff.rfl
  have hpaths (input : GitInput) (read : List TreeEntry) :
      (read.map input.shown).map Prod.fst = read.map TreeEntry.path := by
    rw [List.map_map]
    rfl
  have hfirst : ((read.map input.shown).map Prod.fst).Nodup := hpaths input read ▸ hnodup
  have hperm : (read.map input.shown).Perm (read'.map input'.shown) := by
    refine (perm_ext_iff_of_nodup hfirst.of_map
      (Nodup.of_map Prod.fst (hpaths input' read' ▸ hnodup'))).mpr fun shown => ?_
    rw [← ((order.sortBy_perm TreeEntry.path read).map input.shown).mem_iff, hmem,
      ((order.sortBy_perm TreeEntry.path read').map input'.shown).mem_iff]
  rw [hsort, hsort, Collation.sortBy_eq_of_perm hperm hfirst]

theorem digested_eq_map
    (hmode : ∀ entry ∈ entries, utf8 entry.mode = asciiBytes entry.mode ∧ 0 ∉ utf8 entry.mode) :
    (entries.map fun entry =>
        (utf8 entry.path, utf8 entry.mode, sha256 (input.content entry.object))) =
      (entries.map input.shown).map fun shown => (utf8 shown.1, shown.2.1, sha256 shown.2.2) := by
  rw [List.map_map]
  refine map_congr_left fun entry hentry => ?_
  rw [(hmode entry hentry).1]
  rfl

theorem zero_notMem_digested {maxFiles : ℕ}
    (h : parseTreeEntries normalize order maxFiles input.listing = some entries)
    (hmode : ∀ entry ∈ entries, utf8 entry.mode = asciiBytes entry.mode ∧ 0 ∉ utf8 entry.mode)
    (hzero : ∀ bytes, 0 ∉ sha256 bytes) :
    ∀ f ∈ entries.map fun entry =>
      (utf8 entry.path, utf8 entry.mode, sha256 (input.content entry.object)),
      0 ∉ f.1 ∧ 0 ∉ f.2.1 ∧ 0 ∉ f.2.2 := by
  intro f hf
  obtain ⟨entry, hentry, rfl⟩ := List.mem_map.mp hf
  exact ⟨zero_notMem_path h entry hentry, (hmode entry hentry).2, hzero _⟩

variable (hsha256 : Function.Injective sha256) (hzero : ∀ bytes, 0 ∉ sha256 bytes)
  (h : materializeGitSource normalize order sha256 input = some source)
  (h' : materializeGitSource normalize order sha256 input' = some source')

include hsha256 hzero h h'

/-- The digested texts are equal exactly if the same entries were written. -/
theorem sourceDigest_eq_iff :
    ∃ entries entries',
      parseTreeEntries normalize order input.maxFiles input.listing = some entries ∧
      parseTreeEntries normalize order input'.maxFiles input'.listing = some entries' ∧
      (source.sourceDigest = source'.sourceDigest ↔
        entries.map input.shown = entries'.map input'.shown) := by
  obtain ⟨-, entries, -, hentries, hmode, -, hdigest⟩ := entries_of_materializeGitSource h
  obtain ⟨-, entries', -, hentries', hmode', -, hdigest'⟩ := entries_of_materializeGitSource h'
  have hinjective : Function.Injective fun shown : String × List UInt8 × List UInt8 =>
      (utf8 shown.1, shown.2.1, sha256 shown.2.2) := by
    rintro ⟨path, mode, content⟩ ⟨path', mode', content'⟩ heq
    simp only [Prod.mk.injEq, utf8_injective.eq_iff, hsha256.eq_iff] at heq ⊢
    exact heq
  refine ⟨entries, entries', hentries, hentries', ?_⟩
  rw [hdigest, hdigest', digested_eq_map hmode, digested_eq_map hmode']
  refine ⟨fun heq => hinjective.list_map (flatMap_digestText_inj ?_ ?_ heq), fun heq => by rw [heq]⟩
  · exact fun f hf => zero_notMem_digested hentries hmode hzero f (digested_eq_map hmode ▸ hf)
  · exact fun f hf => zero_notMem_digested hentries' hmode' hzero f (digested_eq_map hmode' ▸ hf)

/-- The digests of listings of plain records are equal exactly if both contain the same files. -/
theorem treeDigest_eq_iff (hplain : IsPlainListing input) (hplain' : IsPlainListing input') :
    source.treeDigest sha256 = source'.treeDigest sha256 ↔ SameFiles input input' := by
  obtain ⟨entries, entries', hentries, hentries', hdigest⟩ :=
    sourceDigest_eq_iff hsha256 hzero h h'
  have hinjective : Function.Injective fun shown : String × List UInt8 × List UInt8 =>
      (utf8 shown.1, shown.2) := utf8_injective.prodMap Function.injective_id
  rw [MaterializedGitSource.treeDigest, MaterializedGitSource.treeDigest, append_cancel_left_eq,
    hsha256.eq_iff, hdigest, map_shown_eq_iff hentries hentries', SameFiles]
  simp only [mem_committedFile_iff hentries hplain, mem_committedFile_iff hentries' hplain']
  constructor
  · intro hmem file
    simp only [List.mem_map, hmem]
  · intro hmem shown
    rw [← List.mem_map_of_injective hinjective, hmem, List.mem_map_of_injective hinjective]

end Digests

/-! ### Listings and digests -/

/-- The files of an accepted listing are written once and strictly below the service path.  The
entries are exactly the records, and the digests of two listings are equal exactly if both contain
the same files, if and only if all their records are plain. -/
theorem materializeGitSource_exact_iff (hsha256 : Function.Injective sha256)
    (hzero : ∀ bytes, 0 ∉ sha256 bytes) :
    (∀ output maxFiles entries, parseTreeEntries normalize order maxFiles output = some entries →
      AreFiles normalize entries ∧ ((entries.map TreeEntry.bytes).Perm (records output) ↔
        ∀ record ∈ records output, IsPlain record)) ∧
    (∀ input source, materializeGitSource normalize order sha256 input = some source →
      ∃ path, servicePath normalize input = some path ∧ input.temporaryProject <+: path ∧
        IsConfined path source.written) ∧
    ∀ input input' source source',
      materializeGitSource normalize order sha256 input = some source →
      materializeGitSource normalize order sha256 input' = some source' →
      ((IsExact normalize order input ∧ IsExact normalize order input' ∧
        (source.treeDigest sha256 = source'.treeDigest sha256 ↔ SameFiles input input')) ↔
          IsPlainListing input ∧ IsPlainListing input') := by
  refine ⟨fun output maxFiles entries h => ⟨areFiles_of_parseTreeEntries h, perm_bytes_iff h⟩,
    fun input source h => isConfined_of_materializeGitSource h,
    fun input input' source source' h h' => ⟨?_, ?_⟩⟩
  · rintro ⟨⟨entries, hentries, hperm⟩, ⟨entries', hentries', hperm'⟩, -⟩
    exact ⟨(perm_bytes_iff hentries).mp hperm, (perm_bytes_iff hentries').mp hperm'⟩
  · rintro ⟨hplain, hplain'⟩
    obtain ⟨-, entries, -, hentries, -⟩ := entries_of_materializeGitSource h
    obtain ⟨-, entries', -, hentries', -⟩ := entries_of_materializeGitSource h'
    exact ⟨⟨entries, hentries, (perm_bytes_iff hentries).mpr hplain⟩, ⟨entries', hentries',
      (perm_bytes_iff hentries').mpr hplain'⟩, treeDigest_eq_iff hsha256 hzero h h' hplain hplain'⟩

/-- A digest that writes every byte as two letters. -/
def letters (bytes : List UInt8) : List UInt8 := bytes.flatMap fun b => [97 + b / 16, 97 + b % 16]

theorem letters_injective : Function.Injective letters := by
  intro bytes bytes' h
  induction bytes generalizing bytes' with
  | nil =>
    cases bytes' with
    | nil => rfl
    | cons b' bytes' => simp [letters] at h
  | cons b bytes ih =>
    cases bytes' with
    | nil => simp [letters] at h
    | cons b' bytes' =>
      simp only [letters, flatMap_cons, cons_append, nil_append, List.cons.injEq,
        UInt8.add_right_inj] at h
      obtain ⟨hdiv, hmod, hrest⟩ := h
      have hb : b = b' := by
        rw [← UInt8.toNat_inj, UInt8.toNat_div] at hdiv
        rw [← UInt8.toNat_inj, UInt8.toNat_mod] at hmod
        simp at hdiv hmod
        exact UInt8.toNat_inj.mp (by omega)
      rw [hb, ih hrest]

theorem zero_notMem_letters (bytes : List UInt8) : 0 ∉ letters bytes := by
  simp only [letters, mem_flatMap, not_exists, not_and]
  intro b _ hzero
  have hb := b.toNat_lt
  simp only [mem_cons, not_mem_nil, or_false, ← UInt8.toNat_inj] at hzero
  simp at hzero
  omega

/-- The listing of one empty file with the given path. -/
def fileInput (path : List UInt8) : GitInput where
  serviceRoot := "."
  maxFiles := 1
  maxBytes := 1
  temporaryProject := ["tmp".toList]
  listing := asciiBytes "100644 blob e69de29bb2d1d6434b8b29ae775ad8c2e48c5391\t" ++ path ++ [0]
  blob object := if object = "e69de29bb2d1d6434b8b29ae775ad8c2e48c5391" then some [] else none

def codePoints : Collation String := .ofKey id Function.injective_id

theorem materializeGitSource_exact_iff_plain :
    ∃ source, materializeGitSource id codePoints letters (fileInput (asciiBytes "a.txt")) =
        some source ∧
      IsExact id codePoints (fileInput (asciiBytes "a.txt")) ∧
      IsConfined ["tmp".toList] source.written := by
  obtain ⟨hparse, hwrite, hdigest⟩ := @materializeGitSource_exact_iff id codePoints letters
    letters_injective zero_notMem_letters
  obtain ⟨source, hsource⟩ := isSome_iff_exists.mp (show (materializeGitSource id codePoints
    letters (fileInput (asciiBytes "a.txt"))).isSome = true by decide +kernel)
  have hplain : IsPlainListing (fileInput (asciiBytes "a.txt")) := by
    unfold IsPlainListing
    decide +kernel
  obtain ⟨path, hpath, -, hconfined⟩ := hwrite _ _ hsource
  cases hpath
  exact ⟨source, hsource, ((hdigest _ _ _ _ hsource hsource).mpr ⟨hplain, hplain⟩).1, hconfined⟩

/-- A path that begins with a byte order mark is read without it. -/
theorem not_materializeGitSource_exact :
    ∃ source source',
      materializeGitSource id codePoints letters
        (fileInput (byteOrderMark ++ asciiBytes "a.txt")) = some source ∧
      materializeGitSource id codePoints letters (fileInput (asciiBytes "a.txt")) = some source' ∧
      source.treeDigest letters = source'.treeDigest letters ∧
      ¬ SameFiles (fileInput (byteOrderMark ++ asciiBytes "a.txt"))
        (fileInput (asciiBytes "a.txt")) ∧
      ¬ IsExact id codePoints (fileInput (byteOrderMark ++ asciiBytes "a.txt")) := by
  obtain ⟨source, hsource⟩ := isSome_iff_exists.mp (show (materializeGitSource id codePoints
    letters (fileInput (byteOrderMark ++ asciiBytes "a.txt"))).isSome = true by decide +kernel)
  obtain ⟨source', hsource'⟩ := isSome_iff_exists.mp (show (materializeGitSource id
    codePoints letters (fileInput (asciiBytes "a.txt"))).isSome = true by decide +kernel)
  have hdigest : (materializeGitSource id codePoints letters
        (fileInput (byteOrderMark ++ asciiBytes "a.txt"))).map (·.treeDigest letters) =
      (materializeGitSource id codePoints letters (fileInput (asciiBytes "a.txt"))).map
        (·.treeDigest letters) := by decide +kernel
  rw [hsource, hsource'] at hdigest
  refine ⟨source, source', hsource, hsource', Option.some.inj hdigest, fun hsame => ?_, ?_⟩
  · exact absurd ((hsame (byteOrderMark ++ asciiBytes "a.txt", asciiBytes "100644", [])).mp
      (by decide +kernel)) (by decide +kernel)
  · rintro ⟨entries, hentries, hperm⟩
    exact absurd ((perm_bytes_iff hentries).mp hperm) (by decide +kernel)

end ApiTruth.Connectors
