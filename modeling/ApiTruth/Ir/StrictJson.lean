import ApiTruth.Foundation.Checked
import ApiTruth.Foundation.Js.Documents
import Mathlib.Algebra.Order.Ring.Rat
import Mathlib.Data.List.DropRight
import Mathlib.Data.Nat.Cast.Order.Ring
import Mathlib.Order.WithBotTop

/-!
# Strict JSON documents

`parseStrictJson` parses a document and then scans its text, to refuse names that an object repeats,
too many values and too deep a nesting.  The scanner relies on the parser for the syntax.

## Main definitions

* `Limit` : the numbers that options set.
* `whitespace`, `closeQuote`, `string`, `scan` : the scanner, with a bound on the number of nested
  calls.
* `parseStrictJson` : the parser with the scanner.

## Main results

* `scan_reads` : the scanner consumes a value, or refuses it for its names, its size or its depth.
* `parseStrictJson_exact` : the documents that are accepted.
-/

namespace ApiTruth.Ir

open JsonDocument List Option

/-! ### Limits -/

/-- A number of the options: a finite one, an infinite one, or none. -/
inductive Limit
  | number (value : WithBot (WithTop ℚ))
  | nan

namespace Limit

def ofCount (count : ℕ) : WithBot (WithTop ℚ) := ((count : ℚ) : WithTop ℚ)

/-- The count is not greater than the limit; no count is greater than `NaN`. -/
def Allows (limit : Limit) (count : ℕ) : Prop :=
  match limit with
  | number value => ofCount count ≤ value
  | nan => True

instance (limit : Limit) (count : ℕ) : Decidable (limit.Allows count) :=
  match limit with
  | number value => inferInstanceAs (Decidable (ofCount count ≤ value))
  | nan => inferInstanceAs (Decidable True)

theorem Allows.mono {limit : Limit} {count count' : ℕ} (h : limit.Allows count')
    (hle : count ≤ count') : limit.Allows count := by
  cases limit with
  | number value =>
    refine le_trans ?_ h
    exact WithBot.coe_le_coe.mpr (WithTop.coe_le_coe.mpr (Nat.cast_le.mpr hle))
  | nan => exact trivial

end Limit

theorem Limit.allows_max {limit : Limit} {a b : ℕ} :
    limit.Allows (max a b) ↔ limit.Allows a ∧ limit.Allows b := by
  refine ⟨fun h => ⟨h.mono (le_max_left _ _), h.mono (le_max_right _ _)⟩, fun h => ?_⟩
  rcases max_choice a b with hmax | hmax <;> rw [hmax]
  · exact h.1
  · exact h.2

/-! ### The scanner -/

/-- The codes of `StrictJsonError`, the syntax error that `JSON.parse` throws for a literal, and that
the bound on the calls is used up. -/
inductive ScanError
  | invalidJsonDocument
  | duplicateJsonKey
  | documentStructureLimitExceeded
  | syntaxError
  | bound
deriving DecidableEq, Repr

/-- The values that have been counted and the text from the index on. -/
structure Scanner where
  nodes : ℕ
  index : JsString
deriving DecidableEq

/-- `/\s/`. -/
def isWhite (unit : UInt16) : Bool :=
  decide (0x09 ≤ unit ∧ unit ≤ 0x0d) || unit == 0x20 || unit == 0xa0 || unit == 0x1680
    || decide (0x2000 ≤ unit ∧ unit ≤ 0x200a) || unit == 0x2028 || unit == 0x2029
    || unit == 0x202f || unit == 0x205f || unit == 0x3000 || unit == 0xfeff

def whitespace (index : JsString) : JsString := index.dropWhile isWhite

/-- `/[\s,\]\x7d]/`. -/
def isStop (unit : UInt16) : Bool :=
  isWhite unit || charOf unit == ',' || charOf unit == ']' || charOf unit == '}'

/-- The loop of `string`: the units up to the closing quote, and what follows it. -/
def closeQuote : JsString → Option (JsString × JsString)
  | [] => none
  | unit :: rest =>
    if charOf unit = '\\' then
      match rest with
      | [] => none
      | escaped :: rest => (closeQuote rest).map (Prod.map (unit :: escaped :: ·) id)
    else if charOf unit = '"' then some ([unit], rest)
    else (closeQuote rest).map (Prod.map (unit :: ·) id)

section Scan

variable {ν : Type} (format : NumberFormat ν)

def string (index : JsString) : Except ScanError (JsString × JsString) :=
  match closeQuote index.tail with
  | none => .error .invalidJsonDocument
  | some (body, rest) =>
    match parse format (index.take 1 ++ body) with
    | some (.str key) => .ok (key, rest)
    | _ => .error .syntaxError

variable (maxDepth maxNodes : Limit)

mutual

def scan : ℕ → ℕ → Scanner → Except ScanError Scanner
  | 0, _, _ => .error .bound
  | bound + 1, depth, ⟨nodes, index⟩ =>
    if ¬maxNodes.Allows (nodes + 1) ∨ ¬maxDepth.Allows depth then
      .error .documentStructureLimitExceeded
    else
      let index := whitespace index
      if index.head?.map charOf = some '{' then
        let index := whitespace index.tail
        if index.head?.map charOf = some '}' then .ok ⟨nodes + 1, index.tail⟩
        else scanMembers bound depth [] ⟨nodes + 1, index⟩
      else if index.head?.map charOf = some '[' then
        let index := whitespace index.tail
        if index.head?.map charOf = some ']' then .ok ⟨nodes + 1, index.tail⟩
        else scanItems bound depth ⟨nodes + 1, index⟩
      else if index.head?.map charOf = some '"' then
        (string format index).map fun (_, index) => ⟨nodes + 1, index⟩
      else .ok ⟨nodes + 1, index.dropWhile (!isStop ·)⟩

def scanMembers : ℕ → ℕ → List JsString → Scanner → Except ScanError Scanner
  | 0, _, _, _ => .error .bound
  | bound + 1, depth, keys, ⟨nodes, index⟩ =>
    if index = [] then .ok ⟨nodes, index⟩
    else do
      let (key, index) ← string format index
      if key ∈ keys then .error .duplicateJsonKey
      else do
        let scanner ← scan bound (depth + 1) ⟨nodes, (whitespace index).tail⟩
        let index := whitespace scanner.index
        if index.head?.map charOf = some '}' then .ok ⟨scanner.nodes, index.tail⟩
        else scanMembers bound depth (keys ++ [key]) ⟨scanner.nodes, whitespace index.tail⟩

def scanItems : ℕ → ℕ → Scanner → Except ScanError Scanner
  | 0, _, _ => .error .bound
  | bound + 1, depth, ⟨nodes, index⟩ =>
    if index = [] then .ok ⟨nodes, index⟩
    else do
      let scanner ← scan bound (depth + 1) ⟨nodes, index⟩
      let index := whitespace scanner.index
      if index.head?.map charOf = some ']' then .ok ⟨scanner.nodes, index.tail⟩
      else scanItems bound depth ⟨scanner.nodes, whitespace index.tail⟩

end

end Scan

/-- The options of `parseStrictJson`. -/
structure StrictJsonOptions where
  maxDepth : Option Limit := none
  maxNodes : Option Limit := none

namespace StrictJsonOptions

def depthLimit (options : StrictJsonOptions) : Limit := options.maxDepth.getD (.number (128 : ℚ))

def nodeLimit (options : StrictJsonOptions) : Limit := options.maxNodes.getD (.number (50000 : ℚ))

end StrictJsonOptions

def parseStrictJson {ν : Type} (format : NumberFormat ν) (text : JsString)
    (options : StrictJsonOptions) : Except ScanError (JsonTree ν) :=
  match parse format text with
  | none => .error .invalidJsonDocument
  | some value =>
    (scan format options.depthLimit options.nodeLimit (2 * text.length) 0 ⟨0, text⟩).map
      fun _ => value

/-! ### Literals -/

theorem hexValue_ne {c d : Char} {value : ℕ} (h : JsonTree.hexValue c = some value)
    (hd : JsonTree.hexValue d = none) : c ≠ d := by
  rintro rfl
  rw [hd] at h
  cases h

variable {unit : UInt16} {text rest : JsString}

theorem closeQuote_plain {text : JsString} (hquote : charOf unit ≠ '"')
    (hslash : charOf unit ≠ '\\') :
    closeQuote (unit :: text) = (closeQuote text).map (Prod.map (unit :: ·) id) := by
  rw [closeQuote.eq_def]
  simp only [hslash, hquote, ↓reduceIte]

theorem closeQuote_hex {text : JsString} {value : ℕ}
    (h : JsonTree.hexValue (charOf unit) = some value) :
    closeQuote (unit :: text) = (closeQuote text).map (Prod.map (unit :: ·) id) :=
  closeQuote_plain (hexValue_ne h (by decide)) (hexValue_ne h (by decide))

variable {literal name : JsString} {c : Char}

theorem closeQuote_literal (h : IsLiteral literal name)
    (rest : JsString) : closeQuote (literal ++ rest) = some (literal, rest) := by
  induction h with
  | quote hquote =>
    rw [singleton_append, closeQuote.eq_def]
    simp only [hquote, Char.reduceEq, ↓reduceIte]
  | escape hslash hescape _ ih =>
    rw [cons_append, append_assoc, closeQuote.eq_def]
    simp only [hslash, ↓reduceIte]
    cases hescape with
    | short =>
      simp only [singleton_append, ih]
      rfl
    | unicode hletter hunit =>
      simp only [JsonTree.hexUnit, bind_eq_bind, bind_eq_some_iff] at hunit
      obtain ⟨_, ha, _, hb, _, hc, _, hd, -⟩ := hunit
      simp only [cons_append, nil_append, closeQuote_hex ha, closeQuote_hex hb,
        closeQuote_hex hc, closeQuote_hex hd, ih]
      rfl
  | plain hquote hslash _ _ ih =>
    rw [cons_append, closeQuote_plain hquote hslash, ih]
    rfl

/-! ### White space and stops -/

theorem toNat_of_charOf (h : charOf unit = c) (hc : c ≠ '\x00') :
    unit.toNat = c.toNat := by
  subst h
  by_cases hvalid : unit.toNat.isValidChar
  · rw [charOf, Char.ofNat, dif_pos hvalid]
    rfl
  · refine absurd ?_ hc
    rw [charOf, Char.ofNat, dif_neg hvalid]
    rfl

theorem toNat_of_isWhite (h : isWhite unit = true) :
    unit.toNat ≤ 0x20 ∨ 0xa0 ≤ unit.toNat := by
  simp only [isWhite, Bool.or_eq_true, decide_eq_true_eq, beq_iff_eq, UInt16.le_iff_toNat_le,
    ← UInt16.toNat_inj] at h
  simp only [UInt16.reduceToNat] at h
  omega

theorem isWhite_of_isSpaceUnit (h : isSpaceUnit unit = true) : isWhite unit = true := by
  simp only [isSpaceUnit, JsonTree.isJsonSpace, Bool.or_eq_true, beq_iff_eq] at h
  have hunit {n : ℕ} {c : Char} (hc : charOf unit = c) (hne : c ≠ '\x00') (hn : c.toNat = n) :
      unit.toNat = n := (toNat_of_charOf hc hne).trans hn
  simp only [isWhite, Bool.or_eq_true, decide_eq_true_eq, beq_iff_eq, UInt16.le_iff_toNat_le,
    ← UInt16.toNat_inj]
  simp only [UInt16.reduceToNat]
  rcases h with ((h | h) | h) | h
  · have := hunit (n := 0x20) h (by decide) rfl
    omega
  · have := hunit (n := 0x09) h (by decide) rfl
    omega
  · have := hunit (n := 0x0a) h (by decide) rfl
    omega
  · have := hunit (n := 0x0d) h (by decide) rfl
    omega

theorem whitespace_of_skipSpace
    (hskip : skipSpace text = unit :: rest) (hunit : isWhite unit = false) :
    whitespace text = unit :: rest := by
  have htext : text = text.takeWhile isSpaceUnit ++ unit :: rest := by
    rw [← hskip]
    exact List.takeWhile_append_dropWhile.symm
  rw [whitespace, htext, dropWhile_append_of_pos fun u hu =>
    isWhite_of_isSpaceUnit (mem_takeWhile_imp hu), dropWhile_cons, hunit]
  rfl

theorem isWhite_of_charOf (h : charOf unit = c)
    (hlow : 0x20 < c.toNat) (hhigh : c.toNat < 0xa0) : isWhite unit = false := by
  rw [Bool.eq_false_iff]
  intro hwhite
  have hne : c ≠ '\x00' := by
    rintro rfl
    exact absurd hlow (by decide)
  have := toNat_of_charOf h hne
  have := toNat_of_isWhite hwhite
  omega

theorem isStop_of_isNumberish (h : isNumberish unit = true) :
    isStop unit = false := by
  have hrange : 0x20 < (charOf unit).toNat ∧ (charOf unit).toNat < 0xa0 := by
    simp only [isNumberish, JsonTree.isNumberish, isNumberChar, Bool.or_eq_true, beq_iff_eq] at h
    rcases h with ((((h | h) | h) | h) | h) | h
    · simp only [Char.isDigit, Bool.and_eq_true, decide_eq_true_eq, UInt32.le_iff_toNat_le] at h
      obtain ⟨hlow, hhigh⟩ := h
      change 48 ≤ (charOf unit).toNat at hlow
      change (charOf unit).toNat ≤ 57 at hhigh
      omega
    all_goals
      rw [h]
      decide
  have hne {c : Char} (hc : JsonTree.isNumberish c = false) : charOf unit ≠ c := by
    intro heq
    rw [isNumberish, heq, hc] at h
    cases h
  simp [isStop, isWhite_of_charOf rfl hrange.1 hrange.2, hne (c := ',') rfl, hne (c := ']') rfl,
    hne (c := '}') rfl]

section Scan

variable {ν : Type} {format : NumberFormat ν}

theorem skipSpace_of_charOf (hunit : charOf unit = c)
    (hc : JsonTree.isJsonSpace c = false) (text : JsString) :
    skipSpace (unit :: text) = unit :: text := by
  rw [skipSpace, dropWhile_cons, isSpaceUnit, hunit, hc]
  rfl

theorem parse_literal {quote : UInt16} (hquote : charOf quote = '"')
    (h : IsLiteral literal name) : parse format (quote :: literal) = some (.str name) := by
  have hread : readString literal = some (name, []) := by
    simpa using h.readString []
  have hdocument : document format (quote :: literal) = some (.str name) :=
    document_eq_some_iff.mpr ⟨[], .string (skipSpace_of_charOf hquote rfl _) hquote hread, rfl⟩
  rw [parse, hdocument]
  rfl

theorem string_of_readString {quote : UInt16} {text name rest : JsString}
    (hquote : charOf quote = '"') (h : readString text = some (name, rest)) :
    string format (quote :: text) = .ok (name, rest) := by
  obtain ⟨literal, hliteral, rfl⟩ := exists_isLiteral_of_readString h
  rw [string, tail_cons, closeQuote_literal hliteral]
  simp only [take_succ_cons, take_zero, singleton_append, parse_literal hquote hliteral]

/-! ### Values are consumed -/

/-- The text behind a value starts with a unit that stops the scanner, if it is not empty. -/
def Ends (rest : JsString) : Prop := ∀ unit ∈ rest.head?, isStop unit = true

/-- The scanner goes on with what fits, and refuses anything else for its names or its size. -/
def Outcome (fits : Prop) (next : Scanner) (result : Except ScanError Scanner) : Prop :=
  fits ∧ result = .ok next ∨
    ¬fits ∧ (result = .error .duplicateJsonKey ∨ result = .error .documentStructureLimitExceeded)

variable {result : Except ScanError Scanner} {tree : JsonTree ν} {piece : Piece ν}

variable {fits fits' : Prop} {next next' : Scanner} {word : List Char}

theorem Outcome.bind {step : Scanner → Except ScanError Scanner} (h : Outcome fits next result)
    (hnext : fits → Outcome fits' next' (step next)) (hfits : fits' → fits) :
    Outcome fits' next' (result >>= step) := by
  rcases h with ⟨hfit, rfl⟩ | ⟨hnot, rfl | rfl⟩
  · exact hnext hfit
  · exact .inr ⟨mt hfits hnot, .inl rfl⟩
  · exact .inr ⟨mt hfits hnot, .inr rfl⟩

theorem Outcome.congr {next : Scanner}
    (hiff : fits ↔ fits') (h : Outcome fits next result) : Outcome fits' next result := by
  rwa [Outcome, hiff] at h

theorem ends_of_skipSpace
    (hskip : skipSpace text = unit :: rest) (hunit : isStop unit = true) : Ends text := by
  intro first hfirst
  cases text with
  | nil => cases hfirst
  | cons head tail =>
    obtain rfl := Option.some.inj hfirst
    cases hspace : isSpaceUnit head with
    | true => simp [isStop, isWhite_of_isSpaceUnit hspace]
    | false =>
      rw [skipSpace, dropWhile_cons, hspace] at hskip
      rw [(List.cons.inj hskip).1]
      exact hunit

theorem isNumberish_of_readNumber
    (h : readNumber format (unit :: text) = some (tree, rest)) : isNumberish unit = true := by
  unfold readNumber at h
  simp only at h
  split_ifs at h with htoken
  by_contra hunit
  rw [takeWhile_cons_of_neg hunit] at htoken
  simp [JsonTree.isNumberToken, JsonTree.isUnsignedToken] at htoken

theorem isWhite_of_wordOf
    (h : wordOf (charOf unit) = some (tree, word)) : isWhite unit = false := by
  unfold wordOf at h
  split_ifs at h with hn ht hf
  · exact isWhite_of_charOf hn (by decide) (by decide)
  · exact isWhite_of_charOf ht (by decide) (by decide)
  · exact isWhite_of_charOf hf (by decide) (by decide)

theorem isWhite_of_isStop (h : isStop unit = false) : isWhite unit = false := by
  simp only [isStop, Bool.or_eq_false_iff] at h
  exact h.1.1.1

variable (h : Reads format piece text rest)

include h in
theorem exists_head_of_reads :
    ∃ unit tail, skipSpace text = unit :: tail ∧ isWhite unit = false := by
  induction h with
  | word hskip hunit _ => exact ⟨_, _, hskip, isWhite_of_wordOf hunit⟩
  | string hskip hunit _ | emptyArray hskip hunit _ _ | array hskip hunit _ _
  | emptyObject hskip hunit _ _ | object hskip hunit _ _ =>
    exact ⟨_, _, hskip, isWhite_of_charOf hunit (by decide) (by decide)⟩
  | number hskip _ h =>
    exact ⟨_, _, hskip, isWhite_of_isStop (isStop_of_isNumberish (isNumberish_of_readNumber h))⟩
  | lastItem _ _ _ ih => exact ih
  | nextItem _ _ _ _ ih _ => exact ih
  | lastMember hstart hquote | nextMember hstart hquote =>
    exact ⟨_, _, hstart, isWhite_of_charOf hquote (by decide) (by decide)⟩

include h in
theorem whitespace_of_reads : whitespace text = skipSpace text := by
  obtain ⟨unit, tail, hskip, hunit⟩ := exists_head_of_reads h
  rw [whitespace_of_skipSpace hskip hunit, hskip]

section Limits

variable (format) (maxDepth maxNodes : Limit)

/-- A tree fits at a depth and behind a number of values. -/
def Fits (depth nodes : ℕ) (tree : JsonTree ν) : Prop :=
  HasDistinctNames tree ∧ maxNodes.Allows (nodes + nodeCount tree) ∧
    maxDepth.Allows (depth + nesting tree)

def FitItems (depth nodes : ℕ) (items : List (JsonTree ν)) : Prop :=
  (∀ item ∈ items, HasDistinctNames item) ∧ maxNodes.Allows (nodes + nodeCountItems items) ∧
    maxDepth.Allows (depth + nestingItems items)

/-- Members fit in an object of a depth that has members of the given names already. -/
def FitMembers (depth nodes : ℕ) (keys : List JsString)
    (members : List (JsString × JsonTree ν)) : Prop :=
  (members.map Prod.fst).Nodup ∧ (∀ member ∈ members, member.1 ∉ keys) ∧
    (∀ member ∈ members, HasDistinctNames member.2) ∧
    maxNodes.Allows (nodes + nodeCountMembers members) ∧
    maxDepth.Allows (depth + nestingMembers members)

/-- The scanner consumes a piece with a bound of about twice its length. -/
def IsScanned (piece : Piece ν) (text rest : JsString) : Prop :=
  ∀ bound depth nodes, match piece with
    | .value tree => Ends rest → 2 * (text.length - rest.length) ≤ bound + 1 →
      ∀ start, skipSpace start = skipSpace text →
        Outcome (Fits maxDepth maxNodes depth nodes tree) ⟨nodes + nodeCount tree, rest⟩
          (scan format maxDepth maxNodes bound depth ⟨nodes, start⟩)
    | .items items => 2 * (text.length - rest.length) ≤ bound →
      Outcome (FitItems maxDepth maxNodes depth nodes items) ⟨nodes + nodeCountItems items, rest⟩
        (scanItems format maxDepth maxNodes bound depth ⟨nodes, skipSpace text⟩)
    | .members members => 2 * (text.length - rest.length) ≤ bound → ∀ keys,
      Outcome (FitMembers maxDepth maxNodes depth nodes keys members)
        ⟨nodes + nodeCountMembers members, rest⟩
        (scanMembers format maxDepth maxNodes bound depth keys ⟨nodes, skipSpace text⟩)

variable {format maxDepth maxNodes} {depth nodes : ℕ}

theorem outcome_of_limits {fits : Prop} {next : Scanner}
    (hfits : fits → maxNodes.Allows (nodes + 1) ∧ maxDepth.Allows depth)
    (h : maxNodes.Allows (nodes + 1) → maxDepth.Allows depth → Outcome fits next result) :
    Outcome fits next (if ¬maxNodes.Allows (nodes + 1) ∨ ¬maxDepth.Allows depth then
      .error .documentStructureLimitExceeded else result) := by
  split_ifs with hlimits
  · exact .inr ⟨fun hfit => hlimits.elim (absurd (hfits hfit).1) (absurd (hfits hfit).2), .inr rfl⟩
  · rw [not_or, not_not, not_not] at hlimits
    exact h hlimits.1 hlimits.2

theorem isScanned_leaf {tail : JsString}
    (hskip : skipSpace text = unit :: tail) (hunit : isWhite unit = false)
    (hnames : HasDistinctNames tree) (hcount : nodeCount tree = 1) (hnesting : nesting tree = 0)
    (hlength : rest.length < text.length)
    (h : Ends rest → ∀ bound depth nodes start, whitespace start = unit :: tail →
      maxNodes.Allows (nodes + 1) → maxDepth.Allows depth →
      scan format maxDepth maxNodes (bound + 1) depth ⟨nodes, start⟩ = .ok ⟨nodes + 1, rest⟩) :
    IsScanned format maxDepth maxNodes (.value tree) text rest := by
  intro bound depth nodes hends hbound start hstart
  obtain ⟨bound, rfl⟩ : ∃ n, bound = n + 1 := ⟨bound - 1, by omega⟩
  have hwhite := whitespace_of_skipSpace (hstart.trans hskip) hunit
  rw [Fits, hcount, hnesting, add_zero]
  by_cases hlimits : maxNodes.Allows (nodes + 1) ∧ maxDepth.Allows depth
  · exact .inl ⟨⟨hnames, hlimits⟩, h hends bound depth nodes start hwhite hlimits.1 hlimits.2⟩
  · refine .inr ⟨fun hfits => hlimits hfits.2, .inr ?_⟩
    rw [scan, if_pos (not_and_or.mp hlimits)]

theorem isStop_of_charOf (h : charOf unit = c)
    (hlow : 0x20 < c.toNat) (hhigh : c.toNat < 0xa0) (hcomma : c ≠ ',') (hbracket : c ≠ ']')
    (hbrace : c ≠ '}') : isStop unit = false := by
  simp [isStop, isWhite_of_charOf h hlow hhigh, h, hcomma, hbracket, hbrace]

theorem dropWhile_isStop {units rest : JsString} (hunits : ∀ unit ∈ units, isStop unit = false)
    (hrest : Ends rest) : (units ++ rest).dropWhile (!isStop ·) = rest := by
  rw [dropWhile_append_of_pos fun unit hunit => by simp [hunits unit hunit]]
  cases rest with
  | nil => rfl
  | cons unit rest =>
    rw [dropWhile_cons, hrest unit rfl]
    rfl

theorem scan_other {bound depth nodes : ℕ} {start tail : JsString}
    (hstart : whitespace start = unit :: tail) (hnodes : maxNodes.Allows (nodes + 1))
    (hdepth : maxDepth.Allows depth) (hbrace : charOf unit ≠ '{') (hbracket : charOf unit ≠ '[')
    (hquote : charOf unit ≠ '"') :
    scan format maxDepth maxNodes (bound + 1) depth ⟨nodes, start⟩ =
      .ok ⟨nodes + 1, (unit :: tail).dropWhile (!isStop ·)⟩ := by
  rw [scan, if_neg (by simp [hnodes, hdepth]), hstart]
  simp [hbrace, hbracket, hquote]

variable {items : List (JsonTree ν)} {members : List (JsString × JsonTree ν)} {keys : List JsString}

theorem fits_arr_iff :
    Fits maxDepth maxNodes depth nodes (.arr items) ↔
      FitItems maxDepth maxNodes depth (nodes + 1) items := by
  have hnames : HasDistinctNames (.arr items) ↔ ∀ item ∈ items, HasDistinctNames item :=
    ⟨fun h => by cases h with | arr h => exact h, .arr⟩
  rw [Fits, FitItems, hnames, nodeCount, nesting, Nat.add_right_comm, Nat.add_assoc nodes]

theorem fits_obj_iff :
    Fits maxDepth maxNodes depth nodes (.obj members) ↔
      FitMembers maxDepth maxNodes depth (nodes + 1) [] members := by
  have hnames : HasDistinctNames (.obj members) ↔ (members.map Prod.fst).Nodup ∧
      ∀ member ∈ members, HasDistinctNames member.2 :=
    ⟨fun h => by cases h with | obj hnames h => exact ⟨hnames, h⟩, fun h => .obj h.1 h.2⟩
  rw [Fits, FitMembers, hnames, nodeCount, nesting, Nat.add_right_comm, Nat.add_assoc nodes]
  simp only [not_mem_nil, not_false_eq_true, implies_true, true_and, and_assoc]

theorem fitItems_cons_iff {item : JsonTree ν} :
    FitItems maxDepth maxNodes depth nodes (item :: items) ↔
      Fits maxDepth maxNodes (depth + 1) nodes item ∧
        FitItems maxDepth maxNodes depth (nodes + nodeCount item) items := by
  have hdepth : depth + max (nesting item + 1) (nestingItems items) =
      max (depth + 1 + nesting item) (depth + nestingItems items) := by omega
  rw [FitItems, Fits, FitItems, forall_mem_cons, nodeCountItems, nestingItems, hdepth,
    Limit.allows_max, ← Nat.add_assoc]
  constructor
  · rintro ⟨⟨hitem, hitems⟩, hnodes, hnesting, hnestings⟩
    exact ⟨⟨hitem, hnodes.mono (Nat.le_add_right _ _), hnesting⟩, hitems, hnodes, hnestings⟩
  · rintro ⟨⟨hitem, -, hnesting⟩, hitems, hnodes, hnestings⟩
    exact ⟨⟨hitem, hitems⟩, hnodes, hnesting, hnestings⟩

theorem fitMembers_cons_iff {name : JsString} {member : JsonTree ν} :
    FitMembers maxDepth maxNodes depth nodes keys ((name, member) :: members) ↔
      name ∉ keys ∧ Fits maxDepth maxNodes (depth + 1) nodes member ∧
        FitMembers maxDepth maxNodes depth (nodes + nodeCount member) (keys ++ [name])
          members := by
  have hdepth : depth + max (nesting member + 1) (nestingMembers members) =
      max (depth + 1 + nesting member) (depth + nestingMembers members) := by omega
  rw [FitMembers, Fits, FitMembers, forall_mem_cons, forall_mem_cons, nodeCountMembers,
    nestingMembers, hdepth, Limit.allows_max, ← Nat.add_assoc, map_cons, nodup_cons]
  simp only [List.mem_map, mem_append, mem_singleton, not_or]
  constructor
  · rintro ⟨⟨hnew, hnodup⟩, ⟨hkey, hkeys⟩, ⟨hmember, hmembers⟩, hnodes, hnesting, hnestings⟩
    exact ⟨hkey, ⟨hmember, hnodes.mono (Nat.le_add_right _ _), hnesting⟩, hnodup, fun other hother
      => ⟨hkeys other hother, fun heq => hnew ⟨other, hother, heq⟩⟩, hmembers, hnodes, hnestings⟩
  · rintro ⟨hkey, ⟨hmember, -, hnesting⟩, hnodup, hkeys, hmembers, hnodes, hnestings⟩
    exact ⟨⟨fun ⟨other, hother, heq⟩ => (hkeys other hother).2 heq, hnodup⟩, ⟨hkey, fun other hother
      => (hkeys other hother).1⟩, ⟨hmember, hmembers⟩, hnodes, hnesting, hnestings⟩

def IsWordLetter (c : Char) : Prop := ('a' ≤ c) ∧ c ≤ 'z'

theorem isStop_of_isWordLetter (h : IsWordLetter (charOf unit)) :
    isStop unit = false := by
  have hlow : 97 ≤ (charOf unit).toNat := h.1
  have hhigh : (charOf unit).toNat ≤ 122 := h.2
  refine isStop_of_charOf rfl (by omega) (by omega) ?_ ?_ ?_ <;>
    · intro heq
      rw [heq] at hlow hhigh
      revert hlow hhigh
      decide

theorem ne_of_isWordLetter {c d : Char} (h : IsWordLetter c)
    (hd : (decide ('a' ≤ d) && decide (d ≤ 'z')) = false) : c ≠ d := by
  rintro rfl
  rw [Bool.and_eq_false_iff, decide_eq_false_iff_not, decide_eq_false_iff_not] at hd
  exact hd.elim (absurd h.1) (absurd h.2)

theorem wordOf_cases
    (h : wordOf c = some (tree, word)) : IsWordLetter c ∧ (∀ letter ∈ word, IsWordLetter letter) ∧
      HasDistinctNames tree ∧ nodeCount tree = 1 ∧ nesting tree = 0 := by
  unfold wordOf at h
  have hall {word : List Char} (hword : (word.all fun c => 'a' ≤ c && c ≤ 'z') = true) :
      ∀ letter ∈ word, IsWordLetter letter := fun letter hletter => by
    simpa [IsWordLetter] using List.all_eq_true.mp hword letter hletter
  split_ifs at h with hn ht hf
  · cases h
    exact ⟨hn ▸ ⟨by decide, by decide⟩, hall (by decide), .null, rfl, rfl⟩
  · cases h
    exact ⟨ht ▸ ⟨by decide, by decide⟩, hall (by decide), .bool _, rfl, rfl⟩
  · cases h
    exact ⟨hf ▸ ⟨by decide, by decide⟩, hall (by decide), .bool _, rfl, rfl⟩

theorem readNumber_cases (h : readNumber format text = some (tree, rest)) :
    nodeCount tree = 1 ∧ nesting tree = 0 ∧ HasDistinctNames tree ∧
      ∃ units : JsString, (∀ unit ∈ units, isNumberish unit = true) ∧ text = units ++ rest := by
  unfold readNumber at h
  simp only at h
  split_ifs at h
  cases h
  exact ⟨rfl, rfl, .num _, _, fun _ hunit => mem_takeWhile_imp hunit,
    List.takeWhile_append_dropWhile.symm⟩

theorem isStop_of_bracket
    (h : charOf unit = ',' ∨ charOf unit = ']' ∨ charOf unit = '}') : isStop unit = true := by
  rcases h with h | h | h <;> simp [isStop, h]

theorem skipSpace_skipSpace (text : JsString) : skipSpace (skipSpace text) = skipSpace text :=
  dropWhile_idempotent _ _

include h in
theorem skipSpace_ne_nil : skipSpace text ≠ [] := by
  obtain ⟨unit, tail, hskip, -⟩ := exists_head_of_reads h
  rw [hskip]
  exact cons_ne_nil _ _

theorem outcome_member {text start named colon name : JsString} {quote mark : UInt16}
    {bound depth nodes : ℕ} (hstart : skipSpace text = quote :: start) (hquote : charOf quote = '"')
    (hname : readString start = some (name, named)) (hcolon : skipSpace named = mark :: colon)
    (hmark : charOf mark = ':') (hscan : Outcome fits next
      (scan format maxDepth maxNodes bound (depth + 1) ⟨nodes, colon⟩))
    (hfits : fits' → fits) (hkey : fits' → name ∉ keys)
    (h : name ∉ keys → fits → Outcome fits' next'
      (if (whitespace next.index).head?.map charOf = some '}' then
        .ok ⟨next.nodes, (whitespace next.index).tail⟩
      else scanMembers format maxDepth maxNodes bound depth (keys ++ [name])
        ⟨next.nodes, whitespace (whitespace next.index).tail⟩)) :
    Outcome fits' next'
      (scanMembers format maxDepth maxNodes (bound + 1) depth keys ⟨nodes, skipSpace text⟩) := by
  have hwhite := whitespace_of_skipSpace hcolon (isWhite_of_charOf hmark (by decide) (by decide))
  rw [scanMembers, hstart, if_neg (cons_ne_nil _ _), string_of_readString hquote hname]
  change Outcome fits' next' (if name ∈ keys then .error .duplicateJsonKey else
    scan format maxDepth maxNodes bound (depth + 1) ⟨nodes, (whitespace named).tail⟩ >>= _)
  rw [hwhite, tail_cons]
  split_ifs with hmem
  · exact .inr ⟨fun hfit => hkey hfit hmem, .inl rfl⟩
  · exact hscan.bind (h hmem) hfits

include h in
/-- The scanner consumes what the parser reads. -/
theorem scan_reads :
    IsScanned format maxDepth maxNodes piece text rest := by
  induction h with
  | @word text rest after unit tree word hskip hunit h =>
    have hrest := length_lt_of_skipSpace hskip
    obtain ⟨-, letters, hletters, rfl⟩ := readWord_eq_some_iff.mp h
    rw [length_append] at hrest
    obtain ⟨hlead, hword, hnames, hcount, hnesting⟩ := wordOf_cases hunit
    have hstop : ∀ letter ∈ unit :: letters, isStop letter = false := by
      refine List.forall_mem_cons.mpr ⟨isStop_of_isWordLetter hlead, fun letter hletter => ?_⟩
      exact isStop_of_isWordLetter (hword _ (hletters ▸ List.mem_map_of_mem hletter))
    refine isScanned_leaf hskip (isWhite_of_wordOf hunit) hnames hcount hnesting (by omega)
      fun hends bound depth nodes start hstart hnodes hdepth => ?_
    rw [scan_other hstart hnodes hdepth (ne_of_isWordLetter hlead rfl) (ne_of_isWordLetter hlead
      rfl) (ne_of_isWordLetter hlead rfl), ← cons_append, dropWhile_isStop hstop hends]
  | string hskip hunit h =>
    have hrest := length_lt_of_skipSpace hskip
    have hread := length_readString_lt h
    refine isScanned_leaf hskip (isWhite_of_charOf hunit (by decide) (by decide)) (.str _) rfl rfl
      (by omega) fun _ bound depth nodes start hstart hnodes hdepth => ?_
    rw [scan, if_neg (by simp [hnodes, hdepth]), hstart]
    simp only [head?_cons, map_some, hunit, Option.some.injEq, Char.reduceEq,
      ↓reduceIte, string_of_readString hunit h]
    rfl
  | @number text rest after unit tree hskip hunit h =>
    have hread := length_readNumber_lt h
    have hle := hskip ▸ length_skipSpace_le text
    have hnumberish := isNumberish_of_readNumber h
    obtain ⟨hcount, hnesting, hnames, hsplit⟩ := readNumber_cases h
    simp only [IsLead, not_or] at hunit
    refine isScanned_leaf hskip (isWhite_of_isStop (isStop_of_isNumberish hnumberish)) hnames hcount
      hnesting (by omega) fun hends bound depth nodes start hstart hnodes hdepth => ?_
    rw [scan_other hstart hnodes hdepth hunit.2.2.2.2.2 hunit.2.2.2.2.1 hunit.2.2.2.1]
    obtain ⟨units, hunits, heq⟩ := hsplit
    rw [heq, dropWhile_isStop (fun unit hunit => isStop_of_isNumberish (hunits unit hunit)) hends]
  | emptyArray hskip hunit hclose hbracket =>
    have hrest := length_lt_of_skipSpace hskip
    have hafter := length_lt_of_skipSpace hclose
    have hwhite := whitespace_of_skipSpace hclose
      (isWhite_of_charOf hbracket (by decide) (by decide))
    refine isScanned_leaf hskip (isWhite_of_charOf hunit (by decide) (by decide))
      (.arr fun _ hitem => absurd hitem not_mem_nil) rfl rfl (by omega)
      fun _ bound depth nodes start hstart hnodes hdepth => ?_
    rw [scan, if_neg (by simp [hnodes, hdepth]), hstart]
    simp [hunit, hwhite, hbracket]
  | array hskip hunit hopen h ih =>
    have hrest := length_lt_of_skipSpace hskip
    intro bound depth nodes hends hbound start hstart
    obtain ⟨bound, rfl⟩ : ∃ n, bound = n + 1 := ⟨bound - 1, by have := h.isReadWithin.1; omega⟩
    have hwhite := whitespace_of_skipSpace (hstart.trans hskip)
      (isWhite_of_charOf hunit (by decide) (by decide))
    refine outcome_of_limits (fun hfits => ⟨hfits.2.1.mono ?_, hfits.2.2.mono ?_⟩)
      fun hnodes hdepth => ?_
    · rw [nodeCount]
      omega
    · exact Nat.le_add_right _ _
    · rw [hwhite, nodeCount, Nat.add_comm _ 1, ← Nat.add_assoc]
      simp only [head?_cons, tail_cons, map_some, hunit, Option.some.injEq,
        Char.reduceEq, ↓reduceIte, whitespace_of_reads h, hopen]
      exact (ih bound depth (nodes + 1) (by omega)).congr fits_arr_iff.symm
  | emptyObject hskip hunit hclose hbrace =>
    have hrest := length_lt_of_skipSpace hskip
    have hafter := length_lt_of_skipSpace hclose
    have hwhite := whitespace_of_skipSpace hclose (isWhite_of_charOf hbrace (by decide) (by decide))
    refine isScanned_leaf hskip (isWhite_of_charOf hunit (by decide) (by decide))
      (.obj nodup_nil fun _ hmember => absurd hmember not_mem_nil) rfl rfl (by omega)
      fun _ bound depth nodes start hstart hnodes hdepth => ?_
    rw [scan, if_neg (by simp [hnodes, hdepth]), hstart]
    simp [hunit, hwhite, hbrace]
  | object hskip hunit hopen h ih =>
    have hrest := length_lt_of_skipSpace hskip
    intro bound depth nodes hends hbound start hstart
    obtain ⟨bound, rfl⟩ : ∃ n, bound = n + 1 := ⟨bound - 1, by have := h.isReadWithin.1; omega⟩
    have hwhite := whitespace_of_skipSpace (hstart.trans hskip)
      (isWhite_of_charOf hunit (by decide) (by decide))
    refine outcome_of_limits (fun hfits => ⟨hfits.2.1.mono ?_, hfits.2.2.mono ?_⟩)
      fun hnodes hdepth => ?_
    · rw [nodeCount]
      omega
    · exact Nat.le_add_right _ _
    · rw [hwhite, nodeCount, Nat.add_comm _ 1, ← Nat.add_assoc]
      simp only [head?_cons, tail_cons, map_some, hunit, ↓reduceIte, whitespace_of_reads h, hopen]
      exact (ih bound depth (nodes + 1) (by omega) []).congr fits_obj_iff.symm
  | lastItem h hskip hunit ih =>
    intro bound depth nodes hbound
    have hrest := length_lt_of_skipSpace hskip
    have hvalue := h.isReadWithin.1
    obtain ⟨bound, rfl⟩ : ∃ n, bound = n + 1 := ⟨bound - 1, by omega⟩
    have hscan := ih bound (depth + 1) nodes (ends_of_skipSpace hskip (isStop_of_bracket (.inr (.inl
      hunit)))) (by omega) _ (skipSpace_skipSpace _)
    rw [scanItems, if_neg (skipSpace_ne_nil h)]
    refine hscan.bind (fun hfits => .inl ⟨fitItems_cons_iff.mpr ⟨hfits, ?_⟩, ?_⟩) fun hfits =>
      (fitItems_cons_iff.mp hfits).1
    · exact ⟨fun _ hitem => absurd hitem not_mem_nil, hfits.2.1,
        hfits.2.2.mono (by rw [nestingItems]; omega)⟩
    · simp [whitespace_of_skipSpace hskip (isWhite_of_charOf hunit (by decide) (by decide)), hunit,
        nodeCountItems]
  | @nextItem text after rest behind unit item items h hskip hunit hnext ih ihNext =>
    intro bound depth nodes hbound
    have hrest := length_lt_of_skipSpace hskip
    have hvalue := h.isReadWithin.1
    have hitems := hnext.isReadWithin.1
    obtain ⟨bound, rfl⟩ : ∃ n, bound = n + 1 := ⟨bound - 1, by omega⟩
    have hscan := ih bound (depth + 1) nodes (ends_of_skipSpace hskip (isStop_of_bracket (.inl
      hunit))) (by omega) _ (skipSpace_skipSpace _)
    have hnextScan := ihNext bound depth (nodes + nodeCount item) (by omega)
    rw [scanItems, if_neg (skipSpace_ne_nil h)]
    refine hscan.bind (fun hfits => ?_) fun hfits => (fitItems_cons_iff.mp hfits).1
    simp only [whitespace_of_skipSpace hskip (isWhite_of_charOf hunit (by decide) (by decide)),
      head?_cons, map_some, hunit, Option.some.injEq, Char.reduceEq, ↓reduceIte,
      tail_cons, whitespace_of_reads hnext, nodeCountItems, ← Nat.add_assoc]
    exact hnextScan.congr ⟨fun h => fitItems_cons_iff.mpr ⟨hfits, h⟩,
      fun h => (fitItems_cons_iff.mp h).2⟩
  | lastMember hstart hquote hname hcolon hmark h hskip hunit ih =>
    intro bound depth nodes hbound keys
    have hmember := length_member_lt hstart hname hcolon
    have hrest := length_lt_of_skipSpace hskip
    have hvalue := h.isReadWithin.1
    obtain ⟨bound, rfl⟩ : ∃ n, bound = n + 1 := ⟨bound - 1, by omega⟩
    have hscan := ih bound (depth + 1) nodes
      (ends_of_skipSpace hskip (isStop_of_bracket (.inr (.inr hunit)))) (by omega) _ rfl
    refine outcome_member hstart hquote hname hcolon hmark hscan
      (fun hfits => (fitMembers_cons_iff.mp hfits).2.1) (fun hfits => (fitMembers_cons_iff.mp hfits).1)
      fun hkey hfits => .inl ⟨fitMembers_cons_iff.mpr ⟨hkey, hfits, ?_⟩, ?_⟩
    · exact ⟨nodup_nil, fun _ hmember => absurd hmember not_mem_nil,
        fun _ hmember => absurd hmember not_mem_nil, hfits.2.1,
        hfits.2.2.mono (by rw [nestingMembers]; omega)⟩
    · simp [whitespace_of_skipSpace hskip (isWhite_of_charOf hunit (by decide) (by decide)), hunit,
        nodeCountMembers]
  | @nextMember text start named colon after rest behind name quote mark unit member members hstart
      hquote hname hcolon hmark h hskip hunit hnext ih ihNext =>
    intro bound depth nodes hbound keys
    have hmember := length_member_lt hstart hname hcolon
    have hrest := length_lt_of_skipSpace hskip
    have hvalue := h.isReadWithin.1
    have hmembers := hnext.isReadWithin.1
    obtain ⟨bound, rfl⟩ : ∃ n, bound = n + 1 := ⟨bound - 1, by omega⟩
    have hscan := ih bound (depth + 1) nodes
      (ends_of_skipSpace hskip (isStop_of_bracket (.inl hunit))) (by omega) _ rfl
    have hnextScan := ihNext bound depth (nodes + nodeCount member) (by omega) (keys ++ [name])
    refine outcome_member hstart hquote hname hcolon hmark hscan
      (fun hfits => (fitMembers_cons_iff.mp hfits).2.1) (fun hfits => (fitMembers_cons_iff.mp hfits).1)
      fun hkey hfits => ?_
    simp only [whitespace_of_skipSpace hskip (isWhite_of_charOf hunit (by decide) (by decide)),
      head?_cons, map_some, hunit, Option.some.injEq, Char.reduceEq, ↓reduceIte,
      tail_cons, whitespace_of_reads hnext, nodeCountMembers, ← Nat.add_assoc]
    exact hnextScan.congr ⟨fun h => fitMembers_cons_iff.mpr ⟨hkey, hfits, h⟩,
      fun h => (fitMembers_cons_iff.mp h).2.2⟩

end Limits

theorem ends_of_skipSpace_eq_nil {rest : JsString} (h : skipSpace rest = []) : Ends rest := by
  intro unit hunit
  have hspace : isSpaceUnit unit = true :=
    List.dropWhile_eq_nil_iff.mp h unit (mem_of_mem_head? hunit)
  simp [isStop, isWhite_of_isSpaceUnit hspace]

/-- A document is accepted when its tree has distinct names, and is neither too large nor too
deep; the scanner reads each value of a document up to its end. -/
theorem parseStrictJson_exact (format : NumberFormat ν) (text : JsString)
    (options : StrictJsonOptions) :
    (∀ value, parseStrictJson format text options = .ok value ↔
      parse format text = some value ∧
        ∃ tree rest, Reads format (.value tree) text rest ∧ skipSpace rest = [] ∧
          HasDistinctNames tree ∧ options.nodeLimit.Allows (nodeCount tree) ∧
          options.depthLimit.Allows (nesting tree)) ∧
    ∀ tree start rest, Reads format (.value tree) start rest → Ends rest →
      ∀ bound depth nodes, 2 * (start.length - rest.length) ≤ bound + 1 →
        Outcome (Fits options.depthLimit options.nodeLimit depth nodes tree)
          ⟨nodes + nodeCount tree, rest⟩
          (scan format options.depthLimit options.nodeLimit bound depth ⟨nodes, start⟩) := by
  have hscan (tree : JsonTree ν) (start rest : JsString) (h : Reads format (.value tree) start rest)
      (hends : Ends rest) (bound depth nodes : ℕ)
      (hbound : 2 * (start.length - rest.length) ≤ bound + 1) :
      Outcome (Fits options.depthLimit options.nodeLimit depth nodes tree)
        ⟨nodes + nodeCount tree, rest⟩
        (scan format options.depthLimit options.nodeLimit bound depth ⟨nodes, start⟩) :=
    scan_reads h bound depth nodes hends hbound start rfl
  refine ⟨fun value => ?_, hscan⟩
  have houtcome {tree : JsonTree ν} {rest : JsString} (h : Reads format (.value tree) text rest)
      (hrest : skipSpace rest = []) :=
    hscan tree text rest h (ends_of_skipSpace_eq_nil hrest) (2 * text.length) 0 0 (by omega)
  simp only [Fits, Nat.zero_add] at houtcome
  unfold parseStrictJson
  cases hparse : parse format text with
  | none => simp
  | some parsed =>
    obtain ⟨tree, hdocument, -⟩ := Option.map_eq_some_iff.mp hparse
    obtain ⟨rest, hreads, hrest⟩ := document_eq_some_iff.mp hdocument
    simp only [Option.some.injEq]
    constructor
    · intro h
      rcases houtcome hreads hrest with ⟨hfits, -⟩ | ⟨-, herror | herror⟩
      · obtain ⟨-, -, hvalue⟩ := Checked.map_eq_ok.mp h
        exact ⟨hvalue, tree, rest, hreads, hrest, hfits⟩
      · rw [herror] at h
        cases h
      · rw [herror] at h
        cases h
    · rintro ⟨rfl, tree', rest', hreads', hrest', hfits⟩
      rcases houtcome hreads' hrest' with ⟨-, hok⟩ | ⟨hnot, -⟩
      · rw [hok]
        rfl
      · exact absurd hfits hnot

end Scan

end ApiTruth.Ir
