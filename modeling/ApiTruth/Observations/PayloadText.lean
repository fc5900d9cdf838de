import ApiTruth.Foundation.Js.Numerals
import ApiTruth.Ir.StrictJson
import ApiTruth.Observations.SyntheticExamples

/-!
# Texts of observed payloads

`parsePayloadText` parses a JSON text within bounds and withholds texts with repeated names.  It has
a reader of its own for strings, words and numbers.  A number must be finite, and one that the
rounding makes a whole number must have been this number in the text, so that no fraction passes for
an integer.

## Main definitions

* `closeString`, `payloadString` : the strings.
* `isInexact`, `payloadNumber` : the numbers.
* `payloadValue`, `payloadMembers`, `payloadItems` : the values, with a bound on the number of nested
  calls.
* `parsePayloadText` : the parser.
* `IsPayload` : the trees within the bounds that do not depend on the place in the tree.

## Main results

* `isInexact_eq_false_iff` : the test of the digits finds the numbers that are no whole numbers.
* `sound_payloadValue` : a value that has been read is a value of the grammar, within the bounds.
* `isParsed_of_reads` : a value of the grammar within the bounds is read.
* `parsePayloadText_exact` : the texts that are accepted, with their values.
-/

namespace ApiTruth.Observations

open Checked JsonDocument List Option JsString Decimal

/-! ### The parser -/

/-- A `FieldPresenceInputError`, and that the bound on the calls is used up. -/
inductive PayloadError
  | invalidFieldPresenceInput
  | bound
deriving DecidableEq, Repr

/-- The numbers of values and of members so far, and the text from the index on. -/
structure PayloadCursor where
  nodes : ℕ
  members : ℕ
  index : JsString
deriving DecidableEq

/-- `/[0-9a-fA-F]/`. -/
def isHexUnit (unit : UInt16) : Bool := (JsonTree.hexValue (charOf unit)).isSome

/-- The loop of `string`: the units up to the closing quote, and what follows it. -/
def closeString : JsString → Option (JsString × JsString)
  | [] => none
  | unit :: rest =>
    if charOf unit = '"' then some ([unit], rest)
    else if unit.toNat < 0x20 then none
    else if charOf unit = '\\' then
      match rest with
      | [] => none
      | escaped :: rest =>
        if charOf escaped = 'u' then
          match rest with
          | a :: b :: c :: d :: rest =>
            if isHexUnit a && isHexUnit b && isHexUnit c && isHexUnit d then
              (closeString rest).map (Prod.map ([unit, escaped, a, b, c, d] ++ ·) id)
            else none
          | _ => none
        else if ['"', '\\', '/', 'b', 'f', 'n', 'r', 't'].contains (charOf escaped) then
          (closeString rest).map (Prod.map ([unit, escaped] ++ ·) id)
        else none
    else (closeString rest).map (Prod.map (unit :: ·) id)

/-- The test of a double that is a whole number: the text has a digit other than zero behind the
point. -/
def isInexact (token : List Char) : Bool :=
  let parts := numberParts token
  let digits := parts.digits.dropWhile (· == '0')
  let scale := (Double.ofRat (exponentValue parts.exponent)).minus parts.fraction.length
  !digits.isEmpty && scale.below 0 &&
    (scale.atMost (-digits.length) || (scale.sliceFrom digits).any fun c => '1' ≤ c && c ≤ '9')

def isPayloadNumber (token : List Char) (parsed : Double) : Bool :=
  parsed.isFinite && (!parsed.isInteger || (parsed.isSafeInteger && !isInexact token))

def startsWith (index : JsString) (word : List Char) : Bool :=
  decide ((index.take word.length).map charOf = word)

section Parser

variable {ν : Type} (numbers : DoubleFormat ν)

/-- `string`. -/
def payloadString (index : JsString) : Except PayloadError (JsString × JsString) :=
  if index.head?.map charOf ≠ some '"' then .error .invalidFieldPresenceInput
  else match closeString index.tail with
    | none => .error .invalidFieldPresenceInput
    | some (body, rest) =>
      match parse numbers.toNumberFormat (index.take 1 ++ body) with
      | some (.str string) => .ok (string, rest)
      | _ => .error .invalidFieldPresenceInput

def payloadLiterals : List (List Char × JsonTree ν) :=
  [(['t', 'r', 'u', 'e'], .bool true), (['f', 'a', 'l', 's', 'e'], .bool false),
    (['n', 'u', 'l', 'l'], .null)]

/-- The word at the index, with its value and what follows it. -/
def payloadLiteral (index : JsString) : Option (JsonTree ν × JsString) :=
  (payloadLiterals.find? fun literal => startsWith index literal.1).map fun literal =>
    (literal.2, index.drop literal.1.length)

/-- The number at the index, and what follows it. -/
def payloadNumber (index : JsString) : Except PayloadError (JsonTree ν × JsString) :=
  match matchNumber (index.map charOf) with
  | none => .error .invalidFieldPresenceInput
  | some token =>
    if isPayloadNumber token (numbers.value (numbers.read token)) then
      .ok (.num (numbers.read token), index.drop token.length)
    else .error .invalidFieldPresenceInput

mutual

/-- `value`. -/
def payloadValue : ℕ → ℕ → PayloadCursor → Except PayloadError (JsonTree ν × PayloadCursor)
  | 0, _, _ => .error .bound
  | bound + 1, depth, ⟨nodes, members, index⟩ =>
    if 10000 < nodes + 1 ∨ 32 < depth then .error .invalidFieldPresenceInput
    else
      let index := skipSpace index
      if index.head?.map charOf = some '"' then do
        let (string, index) ← payloadString numbers index
        return (.str string, ⟨nodes + 1, members, index⟩)
      else if index.head?.map charOf = some '{' then
        let index := skipSpace index.tail
        if index.head?.map charOf = some '}' then
          .ok (.obj [], ⟨nodes + 1, members, index.tail⟩)
        else payloadMembers bound depth [] ⟨nodes + 1, members, index⟩
      else if index.head?.map charOf = some '[' then
        let index := skipSpace index.tail
        if index.head?.map charOf = some ']' then
          .ok (.arr [], ⟨nodes + 1, members, index.tail⟩)
        else payloadItems bound depth [] ⟨nodes + 1, members, index⟩
      else match payloadLiteral index with
        | some (parsed, index) => .ok (parsed, ⟨nodes + 1, members, index⟩)
        | none => do
          let (parsed, index) ← payloadNumber numbers index
          return (parsed, ⟨nodes + 1, members, index⟩)

/-- The loop over the members of an object.  The names of the members so far are those that have
been seen. -/
def payloadMembers : ℕ → ℕ → List (JsString × JsonTree ν) → PayloadCursor →
    Except PayloadError (JsonTree ν × PayloadCursor)
  | 0, _, _, _ => .error .bound
  | bound + 1, depth, result, ⟨nodes, members, index⟩ => do
    let (key, index) ← payloadString numbers (skipSpace index)
    if 1024 < byteLength key ∨ 2048 < members + 1 ∨ key ∈ result.map Prod.fst then
      .error .invalidFieldPresenceInput
    else
      let index := skipSpace index
      if index.head?.map charOf ≠ some ':' then .error .invalidFieldPresenceInput
      else do
        let (member, cursor) ← payloadValue bound (depth + 1) ⟨nodes, members + 1, index.tail⟩
        let result := result ++ [(key, member)]
        let index := skipSpace cursor.index
        if index.head?.map charOf = some '}' then
          .ok (.obj result, ⟨cursor.nodes, cursor.members, index.tail⟩)
        else if index.head?.map charOf ≠ some ',' then .error .invalidFieldPresenceInput
        else payloadMembers bound depth result ⟨cursor.nodes, cursor.members, index.tail⟩

def payloadItems : ℕ → ℕ → List (JsonTree ν) → PayloadCursor →
    Except PayloadError (JsonTree ν × PayloadCursor)
  | 0, _, _, _ => .error .bound
  | bound + 1, depth, result, cursor =>
    if 2048 ≤ result.length then .error .invalidFieldPresenceInput
    else do
      let (item, cursor) ← payloadValue bound (depth + 1) cursor
      let result := result ++ [item]
      let index := skipSpace cursor.index
      if index.head?.map charOf = some ']' then
        .ok (.arr result, ⟨cursor.nodes, cursor.members, index.tail⟩)
      else if index.head?.map charOf ≠ some ',' then .error .invalidFieldPresenceInput
      else payloadItems bound depth result ⟨cursor.nodes, cursor.members, index.tail⟩

end

def parsePayloadText (text : JsString) : Except PayloadError (JsonTree ν) :=
  if 256 * 1024 < byteLength text then .error .invalidFieldPresenceInput
  else do
    let (result, cursor) ← payloadValue numbers (2 * text.length + 1) 0 ⟨0, 0, text⟩
    if skipSpace cursor.index = [] then .ok result else .error .invalidFieldPresenceInput

end Parser

/-! ### Numbers -/

/-- The double next to a number is finite, and is this number, and a safe one, if it is whole. -/
def IsExactNumber (value : ℚ) : Prop :=
  ∃ x, Double.ofRat value = .finite x ∧ (x.den = 1 → x = value ∧ |value| ≤ 2 ^ 53 - 1)

variable {c : Char}

theorem isNonzero_iff (h : c.isDigit = true) :
    ¬('1' ≤ c && c ≤ '9') = true ↔ c = '0' := by
  have hrange : 48 ≤ c.toNat ∧ c.toNat ≤ 57 := by
    simp only [Char.isDigit, Bool.and_eq_true, decide_eq_true_eq] at h
    exact h
  have hone : '1' ≤ c ↔ 49 ≤ c.toNat := UInt32.le_iff_toNat_le
  have hnine : c ≤ '9' ↔ c.toNat ≤ 57 := UInt32.le_iff_toNat_le
  have hzero : c = '0' ↔ c.toNat = 48 := Char.toNat_inj.symm
  simp only [Bool.and_eq_true, decide_eq_true_eq, hone, hnine, hzero]
  omega

/-- The test of the digits finds the numbers that are no whole numbers. -/
theorem isInexact_eq_false_iff {parts : NumberParts} {letter : Char} (h : parts.IsToken)
    (hletter : letter = 'e' ∨ letter = 'E') (hlength : parts.digits.length < 2 ^ 51) :
    isInexact (parts.text letter) = false ↔ ∃ n : ℤ, parts.value = n := by
  have hdigits : ∀ c ∈ parts.digits.dropWhile (· == '0'), c.isDigit = true := fun c hc => by
    have hmem := (dropWhile_sublist _).subset hc
    rcases List.mem_append.mp hmem with hmem | hmem
    · exact h.whole c hmem
    · exact h.fraction c hmem
  have hstripped : (parts.digits.dropWhile (· == '0')).length ≤ parts.digits.length :=
    length_dropWhile_le _ _
  have hfraction : parts.fraction.length ≤ 2 ^ 51 := by
    rw [NumberParts.digits, length_append] at hlength
    omega
  have hhead : (parts.digits.dropWhile (· == '0')).head? ≠ some '0' := by
    intro hzero
    have hstop := head?_dropWhile_not (· == '0') parts.digits
    rw [hzero] at hstop
    cases hstop
  have hvalue := valueFrom_dropWhile parts.digits
  rw [parts.exists_value_iff, isInexact, h.numberParts_text hletter, ← hvalue]
  generalize parts.digits.dropWhile (· == '0') = digits at hdigits hstripped hhead
  have hscale : exponentValue parts.exponent - parts.fraction.length = parts.scale := rfl
  by_cases hempty : digits = []
  · simp [hempty, valueFrom]
  rw [(Double.compare_minus_ofRat _ hfraction (by norm_num)).2, hscale,
    (Double.compare_minus_ofRat _ hfraction (abs_lt.mpr ⟨by omega, by omega⟩)).1, hscale]
  rcases le_or_gt 0 parts.scale with hnonneg | hneg
  · simp [hnonneg, hnonneg.not_gt]
  obtain ⟨count, hcount⟩ : ∃ count : ℕ, parts.scale = -count := ⟨(-parts.scale).toNat, by omega⟩
  rw [or_iff_right hneg.not_ge, hcount, neg_neg, Int.toNat_natCast]
  rcases le_or_gt digits.length count with hle | hlt
  · have hdvd := not_pow_dvd_valueFrom hdigits hempty hhead hle
    have hatMost : -(count : ℤ) ≤ -digits.length := by omega
    simp [hempty, hdvd, hatMost]
    omega
  · have hexact : (Double.ofRat (exponentValue parts.exponent)).minus parts.fraction.length =
        .finite ((-count : ℤ) : ℚ) := by
      rcases Double.minus_ofRat (exponentValue parts.exponent) hfraction with
        heq | ⟨hlarge, -⟩ | ⟨hlarge, -⟩
      · rw [heq, hscale, hcount]
      · omega
      · omega
    have hatMost : ¬-(count : ℤ) ≤ -digits.length := by omega
    have hslice := Double.sliceFrom_neg (show 0 < count by omega) digits
    rw [hexact, hslice, pow_dvd_valueFrom_iff hdigits hlt.le]
    have hany : ((digits.drop (digits.length - count)).any fun c => '1' ≤ c && c ≤ '9') = false ↔
        ∀ c ∈ digits.drop (digits.length - count), c = '0' := by
      rw [List.any_eq_false]
      exact forall₂_congr fun c hc => isNonzero_iff (hdigits c (mem_of_mem_drop hc))
    rw [← hany, List.isEmpty_eq_false_iff.mpr hempty, decide_eq_true (by omega : -(count : ℤ) < 0),
      decide_eq_false hatMost]
    rfl

variable {token : List Char}

theorem isPayloadNumber_iff (h : JsonTree.isNumberToken token = true)
    (hlength : token.length < 2 ^ 51) :
    isPayloadNumber token (Double.ofRat (decimalValue token)) = true ↔
      IsExactNumber (decimalValue token) := by
  obtain ⟨parts, letter, hparts, hletter, rfl⟩ := exists_of_isNumberToken h
  have hvalue : decimalValue (parts.text letter) = parts.value := by
    rw [decimalValue, hparts.numberParts_text hletter]
  have hdigits : parts.digits.length < 2 ^ 51 := parts.length_digits_le letter |>.trans_lt hlength
  have hinexact := isInexact_eq_false_iff hparts hletter hdigits
  rw [hvalue, isPayloadNumber, IsExactNumber]
  cases hdouble : Double.ofRat parts.value with
  | infinite negative => simp [Double.isFinite]
  | finite x =>
    simp only [Double.isFinite, Double.isInteger, Double.isSafeInteger, Bool.true_and,
      Bool.or_eq_true, Bool.and_eq_true, Bool.not_eq_true', decide_eq_false_iff_not,
      decide_eq_true_eq, hinexact, Double.finite.injEq, exists_eq_left']
    rw [← imp_iff_not_or]
    refine imp_congr_right fun hwhole => ?_
    constructor
    · rintro ⟨⟨-, hsafe⟩, n, hn⟩
      rw [hn] at hdouble
      have hx : x = parts.value := by
        rw [hn]
        exact Double.ofRat_intCast_eq_finite hdouble (by linarith)
      exact ⟨hx, hx ▸ hsafe⟩
    · rintro ⟨rfl, hsafe⟩
      exact ⟨⟨hwhole, hsafe⟩, parts.value.num, (Rat.coe_int_num_of_den_eq_one hwhole).symm⟩

/-! ### Strings -/

theorem contains_shortEscape_iff :
    ['"', '\\', '/', 'b', 'f', 'n', 'r', 't'].contains c = true ↔
      ∃ unit, JsonTree.shortEscape c = some unit := by
  unfold JsonTree.shortEscape
  constructor
  · intro h
    simp only [contains_eq_mem, decide_eq_true_eq, mem_cons, not_mem_nil, or_false] at h
    rcases h with rfl | rfl | rfl | rfl | rfl | rfl | rfl | rfl <;> exact ⟨_, rfl⟩
  · rintro ⟨unit, hunit⟩
    split_ifs at hunit with h h h h h h <;> simp_all
    rcases h with rfl | rfl | rfl <;> simp

theorem hexUnit_eq_some_iff {a b c d : UInt16} :
    (isHexUnit a && isHexUnit b && isHexUnit c && isHexUnit d) = true ↔
      ∃ unit, JsonTree.hexUnit (charOf a) (charOf b) (charOf c) (charOf d) = some unit := by
  simp only [isHexUnit, JsonTree.hexUnit]
  cases JsonTree.hexValue (charOf a) <;> cases JsonTree.hexValue (charOf b) <;>
    cases JsonTree.hexValue (charOf c) <;> cases JsonTree.hexValue (charOf d) <;> simp

theorem closeString_literal {literal name : JsString} (h : IsLiteral literal name)
    (rest : JsString) : closeString (literal ++ rest) = some (literal, rest) := by
  induction h with
  | quote hquote =>
    rw [singleton_append, closeString.eq_def]
    simp only [hquote, ↓reduceIte]
  | @escape slash unit letters literal name hslash hescape _ ih =>
    have hcontrol : ¬slash.toNat < 0x20 := by
      rw [Ir.toNat_of_charOf hslash (by decide)]
      decide
    rw [cons_append, append_assoc, closeString.eq_def]
    simp only [hslash, hcontrol, Char.reduceEq, ↓reduceIte]
    cases hescape with
    | short hletter hunit =>
      have hcontains := contains_shortEscape_iff.mpr ⟨_, hunit⟩
      simp only [singleton_append, hletter, ↓reduceIte, hcontains, ih]
      rfl
    | unicode hletter hunit =>
      have hhex := hexUnit_eq_some_iff.mpr ⟨_, hunit⟩
      simp only [cons_append, nil_append, hletter, ↓reduceIte, hhex, ih]
      rfl
  | plain hquote hslash hcontrol _ ih =>
    rw [cons_append, closeString.eq_def]
    simp only [hquote, hslash, hcontrol, ↓reduceIte, ih]
    rfl

theorem exists_isLiteral_of_closeString {text body rest : JsString}
    (h : closeString text = some (body, rest)) :
    ∃ name, IsLiteral body name ∧ text = body ++ rest := by
  induction hlength : text.length using Nat.strong_induction_on generalizing text body with
  | _ n ih =>
    have hmap {units after : JsString} (hlt : after.length < n)
        (hafter : (closeString after).map (Prod.map (units ++ ·) id) = some (body, rest)) :
        ∃ body' name, IsLiteral body' name ∧ after = body' ++ rest ∧ body = units ++ body' := by
      obtain ⟨⟨body', rest'⟩, hclose, hsome⟩ := Option.map_eq_some_iff.mp hafter
      cases hsome
      obtain ⟨name, hliteral, heq⟩ := ih _ hlt hclose rfl
      exact ⟨body', name, hliteral, heq, rfl⟩
    rw [closeString.eq_def] at h
    split at h
    · cases h
    next unit tail =>
    rw [length_cons] at hlength
    split_ifs at h with hquote hcontrol hslash
    · cases h
      exact ⟨[], .quote hquote, rfl⟩
    · split at h
      · cases h
      next escaped tail =>
      rw [length_cons] at hlength
      split_ifs at h with hu hshort
      · split at h
        · next a b c d tail =>
          split_ifs at h with hhex
          obtain ⟨read, hread⟩ := hexUnit_eq_some_iff.mp hhex
          simp only [length_cons] at hlength
          obtain ⟨body', name, hliteral, rfl, rfl⟩ := hmap (by omega) h
          exact ⟨_, .escape hslash (.unicode hu hread) hliteral, rfl⟩
        · cases h
      · obtain ⟨read, hread⟩ := contains_shortEscape_iff.mp hshort
        obtain ⟨body', name, hliteral, rfl, rfl⟩ := hmap (by omega) h
        exact ⟨_, .escape hslash (.short hu hread) hliteral, rfl⟩
    · have hunit : (closeString tail).map (Prod.map ([unit] ++ ·) id) = some (body, rest) := h
      obtain ⟨body', name, hliteral, rfl, rfl⟩ := hmap (by omega) hunit
      exact ⟨_, .plain hquote hslash hcontrol hliteral, rfl⟩

section Reads

variable {ν : Type} {numbers : DoubleFormat ν}

theorem payloadString_eq_ok_iff {index string rest : JsString} :
    payloadString numbers index = .ok (string, rest) ↔
      ∃ quote start, index = quote :: start ∧ charOf quote = '"' ∧
        readString start = some (string, rest) := by
  unfold payloadString
  constructor
  · intro h
    split_ifs at h with hquote
    rw [not_not] at hquote
    obtain ⟨quote, hhead, hunit⟩ := Option.map_eq_some_iff.mp hquote
    obtain ⟨start, rfl⟩ : ∃ start, index = quote :: start :=
      ⟨_, (cons_head?_tail hhead).symm⟩
    split at h
    · cases h
    next body rest' hclose =>
    obtain ⟨name, hliteral, rfl⟩ := exists_isLiteral_of_closeString hclose
    rw [take_succ_cons, take_zero, singleton_append, Ir.parse_literal hunit hliteral] at h
    cases h
    exact ⟨quote, _, rfl, hunit, hliteral.readString _⟩
  · rintro ⟨quote, start, rfl, hunit, hread⟩
    obtain ⟨literal, hliteral, rfl⟩ := exists_isLiteral_of_readString hread
    rw [head?_cons, map_some, hunit, tail_cons, closeString_literal hliteral,
      if_neg (not_not.mpr rfl)]
    simp only [take_succ_cons, take_zero, singleton_append, Ir.parse_literal hunit hliteral]

theorem payloadString_ne_bound (index : JsString) :
    payloadString numbers index ≠ .error .bound := by
  unfold payloadString
  split_ifs
  · simp
  · split
    · simp
    · split <;> simp

/-! ### Words and numbers -/

variable {letters : List Char} {unit : UInt16} {tail : JsString} {word : List Char}
  {text : JsString}

theorem exists_cons_of_startsWith {index : JsString} {first : Char}
    (h : startsWith index (first :: letters) = true) :
    ∃ unit tail, index = unit :: tail ∧ charOf unit = first ∧
      (tail.take letters.length).map charOf = letters ∧
      index.drop (first :: letters).length = tail.drop letters.length := by
  rw [startsWith, decide_eq_true_eq] at h
  cases index with
  | nil => cases h
  | cons unit tail =>
    obtain ⟨hunit, htail⟩ := List.cons.inj h
    exact ⟨unit, tail, rfl, hunit, htail, rfl⟩

theorem startsWith_of_ne {first : Char}
    (h : charOf unit ≠ first) : startsWith (unit :: tail) (first :: letters) = false := by
  rw [startsWith, decide_eq_false_iff_not, length_cons, take_succ_cons, map_cons]
  exact fun heq => h (List.cons.inj heq).1

theorem startsWith_append {letters : JsString}
    (hword : charOf unit :: letters.map charOf = word) (rest : JsString) :
    startsWith (unit :: (letters ++ rest)) word = true ∧
      (unit :: (letters ++ rest)).drop word.length = rest := by
  subst hword
  rw [startsWith, decide_eq_true_eq, length_cons, take_succ_cons, map_cons,
    length_map, take_left, drop_succ_cons, drop_left]
  exact ⟨rfl, rfl⟩

variable {index rest : JsString} {tree : JsonTree ν}

theorem payloadLiteral_eq_some_iff :
    payloadLiteral index = some (tree, rest) ↔
      ∃ unit tail word, index = unit :: tail ∧ wordOf (charOf unit) = some (tree, word) ∧
        readWord tree word tail = some (tree, rest) := by
  unfold payloadLiteral
  constructor
  · intro h
    obtain ⟨⟨word, value⟩, hfind, hsome⟩ := Option.map_eq_some_iff.mp h
    cases hsome
    have hstarts := find?_some hfind
    have hword {first : Char} {letters : List Char} (hcons : word = first :: letters)
        (hfirst : wordOf first = some (value, letters)) : ∃ unit tail word',
        index = unit :: tail ∧ wordOf (charOf unit) = some (value, word') ∧
          readWord value word' tail = some (value, index.drop word.length) := by
      subst hcons
      obtain ⟨unit, tail, rfl, rfl, htail, hdrop⟩ := exists_cons_of_startsWith hstarts
      exact ⟨unit, tail, letters, rfl, hfirst, by rw [readWord, if_pos htail, hdrop]⟩
    rcases List.mem_cons.mp (mem_of_find?_eq_some hfind) with hmem | hmem
    · cases hmem
      exact hword rfl rfl
    rcases List.mem_cons.mp hmem with hmem | hmem
    · cases hmem
      exact hword rfl rfl
    · cases List.mem_singleton.mp hmem
      exact hword rfl rfl
  · rintro ⟨unit, tail, word, rfl, hunit, hread⟩
    obtain ⟨-, letters, rfl, rfl⟩ := readWord_eq_some_iff.mp hread
    unfold wordOf at hunit
    split_ifs at hunit with hn ht hf
    · obtain ⟨rfl, hletters⟩ := Prod.mk.inj (Option.some.inj hunit)
      have hword : charOf unit :: letters.map charOf = ['n', 'u', 'l', 'l'] := by rw [hn, hletters]
      obtain ⟨hfind, hdrop⟩ := startsWith_append hword rest
      have htrue : startsWith (unit :: (letters ++ rest)) ['t', 'r', 'u', 'e'] = false :=
        startsWith_of_ne (by rw [hn]; decide)
      have hfalse : startsWith (unit :: (letters ++ rest)) ['f', 'a', 'l', 's', 'e'] = false :=
        startsWith_of_ne (by rw [hn]; decide)
      simp only [payloadLiterals, find?_cons, htrue, hfalse, hfind, map_some, hdrop]
    · obtain ⟨rfl, hletters⟩ := Prod.mk.inj (Option.some.inj hunit)
      have hword : charOf unit :: letters.map charOf = ['t', 'r', 'u', 'e'] := by rw [ht, hletters]
      obtain ⟨hfind, hdrop⟩ := startsWith_append hword rest
      simp only [payloadLiterals, find?_cons, hfind, map_some, hdrop]
    · obtain ⟨rfl, hletters⟩ := Prod.mk.inj (Option.some.inj hunit)
      have hword : charOf unit :: letters.map charOf = ['f', 'a', 'l', 's', 'e'] := by
        rw [hf, hletters]
      obtain ⟨hfind, hdrop⟩ := startsWith_append hword rest
      have htrue : startsWith (unit :: (letters ++ rest)) ['t', 'r', 'u', 'e'] = false :=
        startsWith_of_ne (by rw [hf]; decide)
      simp only [payloadLiterals, find?_cons, htrue, hfind, map_some, hdrop]

def StopsNumber (rest : JsString) : Prop := JsonTree.Delimited (rest.map charOf)

theorem span_numberish {index : JsString} {rest : List Char}
    (hindex : index.map charOf = token ++ rest)
    (htoken : ∀ c ∈ token, JsonTree.isNumberish c = true) (hrest : JsonTree.Delimited rest) :
    (index.takeWhile isNumberish).map charOf = token ∧
      index.dropWhile isNumberish = index.drop token.length := by
  have htake : (index.take token.length).map charOf = token := by
    rw [map_take, hindex, take_left]
  have hdrop : (index.drop token.length).map charOf = rest := by
    rw [map_drop, hindex, drop_left]
  have hunits : ∀ unit ∈ index.take token.length, isNumberish unit = true := fun unit hunit =>
    htoken _ (htake ▸ List.mem_map_of_mem hunit)
  have hstop : (index.drop token.length).takeWhile isNumberish = [] ∧
      (index.drop token.length).dropWhile isNumberish = index.drop token.length := by
    cases hafter : index.drop token.length with
    | nil => exact ⟨rfl, rfl⟩
    | cons unit tail =>
      have hunit : isNumberish unit = false := hrest _ (by rw [← hdrop, hafter]; rfl)
      rw [takeWhile_cons_of_neg (by simp [hunit]), dropWhile_cons_of_neg (by simp [hunit])]
      exact ⟨rfl, rfl⟩
  conv_lhs =>
    rw [← take_append_drop token.length index]
  rw [takeWhile_append_of_pos hunits, hstop.1, append_nil, htake]
  refine ⟨rfl, ?_⟩
  conv_lhs =>
    rw [← take_append_drop token.length index]
  rw [dropWhile_append_of_pos hunits, hstop.2]

theorem payloadNumber_of_readNumber {x : Option JsonNumber}
    (h : readNumber NumberFormat.exact index = some (.num x, rest))
    (hexact : IsExactNumber (exactValue x)) (hlength : index.length < 2 ^ 51) :
    ∃ parsed, payloadNumber numbers index = .ok (parsed, rest) := by
  unfold readNumber at h
  simp only at h
  split_ifs at h with htoken
  obtain ⟨hread, rfl⟩ := Prod.mk.inj (Option.some.inj h)
  cases hread
  rw [exactValue_read htoken] at hexact
  have hstop : JsonTree.Delimited ((index.dropWhile isNumberish).map charOf) := by
    intro c hc
    rw [head?_map] at hc
    obtain ⟨unit, hunit, rfl⟩ := Option.map_eq_some_iff.mp hc
    have hnot := head?_dropWhile_not isNumberish index
    rw [hunit] at hnot
    exact hnot
  have hsplit : index.map charOf = (index.takeWhile isNumberish).map charOf ++
      (index.dropWhile isNumberish).map charOf := by
    rw [← map_append, takeWhile_append_dropWhile]
  have hmatch : matchNumber (index.map charOf) = some ((index.takeWhile isNumberish).map charOf) := by
    obtain ⟨parts, letter, hparts, hletter, heq⟩ := exists_of_isNumberToken htoken
    rw [hsplit, heq]
    exact hparts.matchNumber_append hletter hstop
  have htest : isPayloadNumber ((index.takeWhile isNumberish).map charOf)
      (numbers.value (numbers.read ((index.takeWhile isNumberish).map charOf))) = true := by
    rw [numbers.value_read _ htoken, isPayloadNumber_iff htoken]
    · exact hexact
    · rw [length_map]
      exact ( takeWhile_prefix _).length_le.trans_lt hlength
  refine ⟨.num (numbers.read ((index.takeWhile isNumberish).map charOf)), ?_⟩
  have hdrop := (span_numberish hsplit (fun c hc => ?_) hstop).2
  · unfold payloadNumber
    rw [hmatch]
    simp only [htest, ↓reduceIte, hdrop]
  · obtain ⟨unit, hunit, rfl⟩ := List.mem_map.mp hc
    exact mem_takeWhile_imp (p := isNumberish) hunit

theorem readNumber_of_payloadNumber {parsed : JsonTree ν}
    (h : payloadNumber numbers index = .ok (parsed, rest)) (hrest : StopsNumber rest)
    (hlength : index.length < 2 ^ 51) :
    readNumber numbers.toNumberFormat index = some (parsed, rest) ∧
      ∃ x, readNumber NumberFormat.exact index = some (.num x, rest) ∧
        IsExactNumber (exactValue x) := by
  unfold payloadNumber at h
  split at h
  · cases h
  next token hmatch =>
  split_ifs at h with htest
  cases h
  obtain ⟨parts, letter, rest, hparts, hletter, rfl, hindex⟩ := exists_of_matchNumber hmatch
  have htoken := hparts.isNumberToken_text hletter
  have hdelimited : JsonTree.Delimited rest := by
    rwa [StopsNumber, map_drop, hindex, drop_left] at hrest
  obtain ⟨htake, hdrop⟩ := span_numberish hindex (hparts.isNumberish_text hletter) hdelimited
  have hshort : (parts.text letter).length < 2 ^ 51 := by
    refine lt_of_le_of_lt ?_ hlength
    rw [← htake, length_map]
    exact ( takeWhile_prefix _).length_le
  rw [numbers.value_read _ htoken, isPayloadNumber_iff htoken hshort] at htest
  refine ⟨?_, NumberFormat.exact.read (parts.text letter), ?_, ?_⟩
  · simp only [readNumber, htake, hdrop, htoken, ↓reduceIte]
  · simp only [readNumber, htake, hdrop, htoken, ↓reduceIte]
  · rwa [exactValue_read htoken]

/-! ### What is read is within the grammar and the bounds -/

/-- The trees within the bounds that do not depend on the place in the tree. -/
inductive IsPayload : JsonTree (Option JsonNumber) → Prop
  | null : IsPayload .null
  | bool (b : Bool) : IsPayload (.bool b)
  | num {x : Option JsonNumber} (h : IsExactNumber (exactValue x)) : IsPayload (.num x)
  | str (s : JsString) : IsPayload (.str s)
  | arr {items : List (JsonTree (Option JsonNumber))} (hlength : items.length ≤ 2048)
      (h : ∀ item ∈ items, IsPayload item) : IsPayload (.arr items)
  | obj {members : List (JsString × JsonTree (Option JsonNumber))}
      (hnames : (members.map Prod.fst).Nodup)
      (hkeys : ∀ member ∈ members, byteLength member.1 ≤ 1024)
      (h : ∀ member ∈ members, IsPayload member.2) : IsPayload (.obj members)

/-- A value has been read from one cursor to the next, at a depth; it has an exact counterpart. -/
structure ReadsValue (numbers : DoubleFormat ν) (depth : ℕ) (cursor next : PayloadCursor)
    (tree : JsonTree ν) (exact : JsonTree (Option JsonNumber)) : Prop where
  reads : Reads numbers.toNumberFormat (.value tree) cursor.index next.index
  readsExact : Reads NumberFormat.exact (.value exact) cursor.index next.index
  names : HasDistinctNames tree
  payload : IsPayload exact
  nodes : next.nodes = cursor.nodes + nodeCount exact
  members : next.members = cursor.members + memberCount exact
  nodesLe : next.nodes ≤ 10000
  depthLe : depth + nesting exact ≤ 32
  membersLe : cursor.members ≤ 2048 → next.members ≤ 2048

structure ReadsItems (numbers : DoubleFormat ν) (depth : ℕ) (cursor next : PayloadCursor)
    (items : List (JsonTree ν)) (exact : List (JsonTree (Option JsonNumber))) : Prop where
  reads : Reads numbers.toNumberFormat (.items items) cursor.index next.index
  readsExact : Reads NumberFormat.exact (.items exact) cursor.index next.index
  names : ∀ item ∈ items, HasDistinctNames item
  payload : ∀ item ∈ exact, IsPayload item
  nodes : next.nodes = cursor.nodes + nodeCountItems exact
  members : next.members = cursor.members + memberCountItems exact
  nodesLe : next.nodes ≤ 10000
  depthLe : depth + nestingItems exact ≤ 32
  membersLe : cursor.members ≤ 2048 → next.members ≤ 2048

/-- The members of an object have been read behind members with the given names. -/
structure ReadsMembers (numbers : DoubleFormat ν) (depth : ℕ) (seen : List JsString)
    (cursor next : PayloadCursor) (members : List (JsString × JsonTree ν))
    (exact : List (JsString × JsonTree (Option JsonNumber))) : Prop where
  reads : Reads numbers.toNumberFormat (.members members) cursor.index next.index
  readsExact : Reads NumberFormat.exact (.members exact) cursor.index next.index
  sameNames : exact.map Prod.fst = members.map Prod.fst
  distinct : (members.map Prod.fst).Nodup
  unseen : ∀ name ∈ members.map Prod.fst, name ∉ seen
  keys : ∀ member ∈ exact, byteLength member.1 ≤ 1024
  names : ∀ member ∈ members, HasDistinctNames member.2
  payload : ∀ member ∈ exact, IsPayload member.2
  nodes : next.nodes = cursor.nodes + nodeCountMembers exact
  members : next.members = cursor.members + memberCountMembers exact
  nodesLe : next.nodes ≤ 10000
  depthLe : depth + nestingMembers exact ≤ 32
  membersLe : next.members ≤ 2048

theorem stopsNumber_of_skipSpace
    (h : (skipSpace text).head?.map charOf = some c) (hc : JsonTree.isNumberish c = false) :
    StopsNumber text := by
  intro d hd
  cases text with
  | nil => cases hd
  | cons unit text =>
    cases hd
    cases hspace : isSpaceUnit unit with
    | true =>
      simp only [isSpaceUnit, JsonTree.isJsonSpace, Bool.or_eq_true, beq_iff_eq] at hspace
      rcases hspace with ((hspace | hspace) | hspace) | hspace <;> rw [hspace] <;> rfl
    | false =>
      rw [skipSpace, dropWhile_cons_of_neg (by simp [hspace]), head?_cons, map_some,
        Option.some.injEq] at h
      rw [h, hc]

theorem stopsNumber_of_skipSpace_eq_nil (h : skipSpace text = []) :
    StopsNumber text := by
  intro d hd
  rw [head?_map] at hd
  obtain ⟨unit, hunit, rfl⟩ := Option.map_eq_some_iff.mp hd
  have hspace := List.dropWhile_eq_nil_iff.mp h unit (mem_of_mem_head? hunit)
  simp only [isSpaceUnit, JsonTree.isJsonSpace, Bool.or_eq_true, beq_iff_eq] at hspace
  rcases hspace with ((hspace | hspace) | hspace) | hspace <;> rw [hspace] <;> rfl

theorem exists_cons_of_head? (h : text.head?.map charOf = some c) :
    ∃ unit rest, text = unit :: rest ∧ charOf unit = c ∧ text.tail = rest := by
  obtain ⟨unit, hhead, hunit⟩ := Option.map_eq_some_iff.mp h
  exact ⟨unit, _, (cons_head?_tail hhead).symm, hunit, rfl⟩

theorem exists_exact_of_wordOf
    (h : wordOf c = some (tree, word)) : ∃ exact : JsonTree (Option JsonNumber),
      wordOf c = some (exact, word) ∧ HasDistinctNames tree ∧ IsPayload exact ∧
        nodeCount exact = 1 ∧ memberCount exact = 0 ∧ nesting exact = 0 := by
  unfold wordOf at h ⊢
  split_ifs at h ⊢
  · cases h
    exact ⟨.null, rfl, .null, .null, rfl, rfl, rfl⟩
  · cases h
    exact ⟨.bool true, rfl, .bool _, .bool _, rfl, rfl, rfl⟩
  · cases h
    exact ⟨.bool false, rfl, .bool _, .bool _, rfl, rfl, rfl⟩

theorem exists_of_readNumber {μ : Type} {format : NumberFormat μ} {text rest : JsString}
    {tree : JsonTree μ} (h : readNumber format text = some (tree, rest)) :
    ∃ unit tail, text = unit :: tail ∧ ¬IsLead (charOf unit) := by
  cases text with
  | nil =>
    have hlt := length_readNumber_lt h
    simp at hlt
  | cons unit tail =>
    refine ⟨unit, tail, rfl, fun hlead => ?_⟩
    have hnumberish := Ir.isNumberish_of_readNumber h
    rw [isNumberish] at hnumberish
    rcases hlead with hlead | hlead | hlead | hlead | hlead | hlead <;>
      · rw [hlead] at hnumberish
        cases hnumberish

theorem ReadsValue.scalar {depth nodes members : ℕ} {text rest : JsString} {tree : JsonTree ν}
    {exact : JsonTree (Option JsonNumber)} (hnodes : nodes + 1 ≤ 10000) (hdepth : depth ≤ 32)
    (reads : Reads numbers.toNumberFormat (.value tree) text rest)
    (readsExact : Reads NumberFormat.exact (.value exact) text rest)
    (names : HasDistinctNames tree) (payload : IsPayload exact)
    (hcount : nodeCount exact = 1 ∧ memberCount exact = 0 ∧ nesting exact = 0) :
    ReadsValue numbers depth ⟨nodes, members, text⟩ ⟨nodes + 1, members, rest⟩ tree exact where
  reads := reads
  readsExact := readsExact
  names := names
  payload := payload
  nodes := by rw [hcount.1]
  members := (Nat.add_zero members ▸ congrArg (members + ·) hcount.2.1).symm
  nodesLe := hnodes
  depthLe := by rw [hcount.2.2, Nat.add_zero]; exact hdepth
  membersLe := id

/-- A value that has been read is a value of the grammar, within the bounds. -/
theorem sound_payloadValue (bound : ℕ) :
    (∀ depth cursor tree next, payloadValue numbers bound depth cursor = .ok (tree, next) →
      StopsNumber next.index → cursor.index.length < 2 ^ 51 →
        ∃ exact, ReadsValue numbers depth cursor next tree exact) ∧
    (∀ depth result cursor tree next,
      payloadMembers numbers bound depth result cursor = .ok (tree, next) →
      cursor.index.length < 2 ^ 51 → ∃ members exact, tree = .obj (result ++ members) ∧
        ReadsMembers numbers depth (result.map Prod.fst) cursor next members exact) ∧
    ∀ depth result cursor tree next,
      payloadItems numbers bound depth result cursor = .ok (tree, next) →
      cursor.index.length < 2 ^ 51 → ∃ items exact, tree = .arr (result ++ items) ∧
        result.length + exact.length ≤ 2048 ∧
        ReadsItems numbers depth cursor next items exact := by
  induction bound with
  | zero =>
    refine ⟨fun _ _ _ _ h => ?_, fun _ _ _ _ _ h => ?_, fun _ _ _ _ _ h => ?_⟩ <;> cases h
  | succ bound ih =>
    obtain ⟨ihValue, ihMembers, ihItems⟩ := ih
    refine ⟨?_, ?_, ?_⟩
    · rintro depth ⟨nodes, members, text⟩ tree next h hstop hlength
      rw [payloadValue] at h
      simp only at h
      split_ifs at h with hbounds hquote hbrace hempty hbracket hempty
      · obtain ⟨⟨string, rest⟩, hstring, h⟩ := bind_eq_ok.mp h
        cases h
        obtain ⟨quote, start, hskip, hunit, hread⟩ := payloadString_eq_ok_iff.mp hstring
        exact ⟨.str string, .scalar (by omega) (by omega) (.string hskip hunit hread)
          (.string hskip hunit hread) (.str _) (.str _) ⟨rfl, rfl, rfl⟩⟩
      · cases h
        obtain ⟨unit, rest, hskip, hunit, htail⟩ := exists_cons_of_head? hbrace
        rw [htail] at hempty ⊢
        obtain ⟨close, after, hclose, hcurly, hafter⟩ := exists_cons_of_head? hempty
        rw [hafter]
        exact ⟨.obj [], .scalar (by omega) (by omega) (.emptyObject hskip hunit hclose hcurly)
          (.emptyObject hskip hunit hclose hcurly) (.obj (by simp) (by simp))
          (.obj (by simp) (by simp) (by simp)) ⟨rfl, rfl, rfl⟩⟩
      · obtain ⟨unit, rest, hskip, hunit, htail⟩ := exists_cons_of_head? hbrace
        rw [htail] at hempty h
        have hrest := length_lt_of_skipSpace hskip
        have hle := length_skipSpace_le rest
        obtain ⟨found, exact, rfl, hfound⟩ := ihMembers _ _ _ _ _ h (by simp only at hlength ⊢; omega)
        have hskipped := (Ir.skipSpace_skipSpace rest).symm
        refine ⟨.obj exact, ?_⟩
        exact {
          reads := .object hskip hunit hempty (hfound.reads.of_skipSpace hskipped)
          readsExact := .object hskip hunit hempty (hfound.readsExact.of_skipSpace hskipped)
          names := .obj hfound.distinct hfound.names
          payload := .obj (hfound.sameNames ▸ hfound.distinct) hfound.keys hfound.payload
          nodes := by rw [hfound.nodes, nodeCount]; simp only; omega
          members := hfound.members
          nodesLe := hfound.nodesLe
          depthLe := hfound.depthLe
          membersLe := fun _ => hfound.membersLe }
      · cases h
        obtain ⟨unit, rest, hskip, hunit, htail⟩ := exists_cons_of_head? hbracket
        rw [htail] at hempty ⊢
        obtain ⟨close, after, hclose, hsquare, hafter⟩ := exists_cons_of_head? hempty
        rw [hafter]
        exact ⟨.arr [], .scalar (by omega) (by omega) (.emptyArray hskip hunit hclose hsquare)
          (.emptyArray hskip hunit hclose hsquare) (.arr (by simp)) (.arr (by simp) (by simp))
          ⟨rfl, rfl, rfl⟩⟩
      · obtain ⟨unit, rest, hskip, hunit, htail⟩ := exists_cons_of_head? hbracket
        rw [htail] at hempty h
        have hrest := length_lt_of_skipSpace hskip
        have hle := length_skipSpace_le rest
        obtain ⟨found, exact, rfl, hcount, hfound⟩ :=
          ihItems _ _ _ _ _ h (by simp only at hlength ⊢; omega)
        have hskipped := (Ir.skipSpace_skipSpace rest).symm
        refine ⟨.arr exact, ?_⟩
        exact {
          reads := .array hskip hunit hempty (hfound.reads.of_skipSpace hskipped)
          readsExact := .array hskip hunit hempty (hfound.readsExact.of_skipSpace hskipped)
          names := .arr hfound.names
          payload := .arr (by simpa using hcount) hfound.payload
          nodes := by rw [hfound.nodes, nodeCount]; simp only; omega
          members := hfound.members
          nodesLe := hfound.nodesLe
          depthLe := hfound.depthLe
          membersLe := hfound.membersLe }
      · split at h
        · next parsed index hliteral =>
          cases h
          obtain ⟨unit, tail, word, hskip, hword, hread⟩ := payloadLiteral_eq_some_iff.mp hliteral
          obtain ⟨exact, hexact, hnames, hpayload, hcount⟩ := exists_exact_of_wordOf hword
          have hreadExact : readWord exact word tail = some (exact, index) :=
            readWord_eq_some_iff.mpr ⟨rfl, (readWord_eq_some_iff.mp hread).2⟩
          exact ⟨exact, .scalar (by omega) (by omega) (.word hskip hword hread)
            (.word hskip hexact hreadExact) hnames hpayload hcount⟩
        · obtain ⟨⟨parsed, rest⟩, hnumber, h⟩ := bind_eq_ok.mp h
          cases h
          have hle := length_skipSpace_le text
          obtain ⟨hread, x, hreadExact, hexact⟩ :=
            readNumber_of_payloadNumber hnumber hstop (by simp only at hlength; omega)
          obtain ⟨unit, tail, hskip, hlead⟩ := exists_of_readNumber hread
          rw [hskip] at hread hreadExact
          exact ⟨.num x, .scalar (by omega) (by omega) (.number hskip hlead hread) (.number hskip
            hlead hreadExact) (Ir.readNumber_cases hread).2.2.1 (.num hexact) ⟨rfl, rfl, rfl⟩⟩
    · rintro depth result ⟨nodes, members, text⟩ tree next h hlength
      obtain ⟨⟨key, named⟩, hkey, h⟩ := bind_eq_ok.mp h
      obtain ⟨quote, start, hstart, hquote, hname⟩ := payloadString_eq_ok_iff.mp hkey
      simp only at h
      split_ifs at h with hbounds hcolon
      rw [not_not] at hcolon
      obtain ⟨mark, colon, hmark, hunit, htail⟩ := exists_cons_of_head? hcolon
      rw [htail] at h
      obtain ⟨⟨member, cursor⟩, hmember, h⟩ := bind_eq_ok.mp h
      simp only at h
      have hmemberLength := length_member_lt hstart hname hmark
      have hvalue := ihValue _ _ _ _ hmember
      have hkeyBytes : byteLength key ≤ 1024 := by omega
      have hcount : members + 1 ≤ 2048 := by omega
      have hunseen : key ∉ result.map Prod.fst := fun hmem => hbounds (.inr (.inr hmem))
      split_ifs at h with hclose hcomma
      · cases h
        obtain ⟨close, after, hskip, hcurly, hafter⟩ := exists_cons_of_head? hclose
        obtain ⟨exact, hread⟩ := hvalue (stopsNumber_of_skipSpace hclose rfl)
          (by simp only at hlength ⊢; omega)
        rw [hafter]
        refine ⟨[(key, member)], [(key, exact)], rfl, ?_⟩
        exact {
          reads := .lastMember hstart hquote hname hmark hunit hread.reads hskip hcurly
          readsExact := .lastMember hstart hquote hname hmark hunit hread.readsExact hskip hcurly
          sameNames := rfl
          distinct := nodup_singleton key
          unseen := by simpa using hunseen
          keys := by simpa using hkeyBytes
          names := by simpa using hread.names
          payload := by simpa using hread.payload
          nodes := by rw [hread.nodes]; rfl
          members := by
            rw [hread.members]
            simp only [memberCountMembers]
            omega
          nodesLe := hread.nodesLe
          depthLe := by
            have hdepth := hread.depthLe
            simp only [nestingMembers]
            omega
          membersLe := hread.membersLe hcount }
      · rw [not_not] at hcomma
        obtain ⟨comma, after, hskip, hunit', hafter⟩ := exists_cons_of_head? hcomma
        obtain ⟨exact, hread⟩ := hvalue (stopsNumber_of_skipSpace hcomma rfl)
          (by simp only at hlength ⊢; omega)
        have h4 := length_lt_of_skipSpace hskip
        have h5 := hread.reads.isReadWithin.1
        rw [hafter] at h
        obtain ⟨found, exacts, rfl, hfound⟩ :=
          ihMembers _ _ _ _ _ h (by simp only at hlength h5 ⊢; omega)
        have hnames : ∀ name ∈ found.map Prod.fst, name ∉ result.map Prod.fst ∧ name ≠ key :=
          fun name hname' => by simpa [not_or] using hfound.unseen name hname'
        refine ⟨(key, member) :: found, (key, exact) :: exacts, by simp, ?_⟩
        exact {
          reads := .nextMember hstart hquote hname hmark hunit hread.reads hskip hunit' hfound.reads
          readsExact := .nextMember hstart hquote hname hmark hunit hread.readsExact hskip hunit'
            hfound.readsExact
          sameNames := congrArg (key :: ·) hfound.sameNames
          distinct := List.nodup_cons.mpr ⟨fun hmem => (hnames key hmem).2 rfl, hfound.distinct⟩
          unseen := List.forall_mem_cons.mpr ⟨hunseen, fun name hname' => (hnames name hname').1⟩
          keys := List.forall_mem_cons.mpr ⟨hkeyBytes, hfound.keys⟩
          names := List.forall_mem_cons.mpr ⟨hread.names, hfound.names⟩
          payload := List.forall_mem_cons.mpr ⟨hread.payload, hfound.payload⟩
          nodes := by
            rw [hfound.nodes, hread.nodes, nodeCountMembers]
            simp only
            omega
          members := by
            rw [hfound.members, hread.members, memberCountMembers]
            simp only
            omega
          nodesLe := hfound.nodesLe
          depthLe := by
            have hdepth := hread.depthLe
            have hdepths := hfound.depthLe
            simp only [nestingMembers]
            omega
          membersLe := hfound.membersLe }
    · rintro depth result cursor tree next h hlength
      rw [payloadItems] at h
      split_ifs at h with hfull
      obtain ⟨⟨item, cursor'⟩, hitem, h⟩ := bind_eq_ok.mp h
      simp only at h
      have hvalue := ihValue _ _ _ _ hitem
      split_ifs at h with hclose hcomma
      · cases h
        obtain ⟨close, after, hskip, hsquare, hafter⟩ := exists_cons_of_head? hclose
        obtain ⟨exact, hread⟩ := hvalue (stopsNumber_of_skipSpace hclose rfl) hlength
        rw [hafter]
        refine ⟨[item], [exact], rfl, by simp only [length_singleton]; omega, ?_⟩
        exact {
          reads := .lastItem hread.reads hskip hsquare
          readsExact := .lastItem hread.readsExact hskip hsquare
          names := by simpa using hread.names
          payload := by simpa using hread.payload
          nodes := hread.nodes
          members := hread.members
          nodesLe := hread.nodesLe
          depthLe := by
            have hdepth := hread.depthLe
            simp only [nestingItems]
            omega
          membersLe := hread.membersLe }
      · rw [not_not] at hcomma
        obtain ⟨comma, after, hskip, hunit, hafter⟩ := exists_cons_of_head? hcomma
        obtain ⟨exact, hread⟩ := hvalue (stopsNumber_of_skipSpace hcomma rfl) hlength
        have h1 := length_lt_of_skipSpace hskip
        have h2 := hread.reads.isReadWithin.1
        rw [hafter] at h
        obtain ⟨found, exacts, rfl, hcount, hfound⟩ :=
          ihItems _ _ _ _ _ h (by simp only at hlength h2 ⊢; omega)
        refine ⟨item :: found, exact :: exacts, by simp, ?_, ?_⟩
        · simp only [length_append, length_cons] at hcount ⊢
          omega
        exact {
          reads := .nextItem hread.reads hskip hunit hfound.reads
          readsExact := .nextItem hread.readsExact hskip hunit hfound.readsExact
          names := List.forall_mem_cons.mpr ⟨hread.names, hfound.names⟩
          payload := List.forall_mem_cons.mpr ⟨hread.payload, hfound.payload⟩
          nodes := by
            rw [hfound.nodes, hread.nodes, nodeCountItems]
            omega
          members := by
            rw [hfound.members, hread.members, memberCountItems]
            omega
          nodesLe := hfound.nodesLe
          depthLe := by
            have hdepth := hread.depthLe
            have hdepths := hfound.depthLe
            simp only [nestingItems]
            omega
          membersLe := fun hle => hfound.membersLe (hread.membersLe hle) }

/-! ### The bound on the calls -/

theorem length_payloadString_lt {index string rest : JsString}
    (h : payloadString numbers index = .ok (string, rest)) : rest.length < index.length := by
  obtain ⟨quote, start, rfl, -, hread⟩ := payloadString_eq_ok_iff.mp h
  exact (length_readString_lt hread).trans (Nat.lt_succ_self _)

theorem length_payloadLiteral_lt
    (h : payloadLiteral index = some (tree, rest)) : rest.length < index.length := by
  obtain ⟨unit, tail, word, rfl, -, hread⟩ := payloadLiteral_eq_some_iff.mp h
  obtain ⟨-, letters, -, rfl⟩ := readWord_eq_some_iff.mp hread
  rw [length_cons, length_append]
  omega

theorem length_payloadNumber_lt
    (h : payloadNumber numbers index = .ok (tree, rest)) : rest.length < index.length := by
  unfold payloadNumber at h
  split at h
  · cases h
  next token hmatch =>
  split_ifs at h
  obtain ⟨-, rfl⟩ := Prod.mk.inj (Except.ok.inj h)
  obtain ⟨parts, letter, rest, hparts, -, rfl, hindex⟩ := exists_of_matchNumber hmatch
  have hlength := congrArg List.length hindex
  have hwhole := List.length_pos_iff.mpr hparts.ne
  simp only [length_map, length_append, NumberParts.text] at hlength
  simp only [length_drop, NumberParts.text, length_append]
  omega

theorem payloadNumber_ne_bound (index : JsString) :
    payloadNumber numbers index ≠ .error .bound := by
  unfold payloadNumber
  split
  · simp
  · split_ifs <;> simp

/-- What follows is shorter, and the bound is not used up if it was enough. -/
structure Ends (length : ℕ) (enough : Prop)
    (result : Except PayloadError (JsonTree ν × PayloadCursor)) : Prop where
  shorter : ∀ tree next, result = .ok (tree, next) → next.index.length < length
  bounded : enough → result ≠ .error .bound

namespace Ends

variable {length : ℕ} {enough : Prop}

theorem invalid : Ends (ν := ν) length enough (.error .invalidFieldPresenceInput) where
  shorter _ _ h := by cases h
  bounded _ := by simp

theorem ok {next : PayloadCursor} (h : next.index.length < length) :
    Ends length enough (.ok (tree, next)) where
  shorter _ _ heq := by
    cases heq
    exact h
  bounded _ := by simp

theorem mono {length' : ℕ} {enough' : Prop}
    {result : Except PayloadError (JsonTree ν × PayloadCursor)} (h : Ends length' enough' result)
    (hlength : length' ≤ length) (henough : enough → enough') : Ends length enough result where
  shorter tree next heq := (h.shorter tree next heq).trans_le hlength
  bounded hyp := h.bounded (henough hyp)

theorem bind {α : Type} {x : Except PayloadError α}
    {f : α → Except PayloadError (JsonTree ν × PayloadCursor)} (hx : enough → x ≠ .error .bound)
    (hf : ∀ a, x = .ok a → Ends length enough (f a)) : Ends length enough (x >>= f) where
  shorter tree next heq := by
    obtain ⟨a, ha, h⟩ := bind_eq_ok.mp heq
    exact (hf a ha).shorter tree next h
  bounded hyp := bind_ne_error (hx hyp) fun a ha => (hf a ha).bounded hyp

end Ends

theorem ends_payloadValue (bound : ℕ) :
    (∀ depth cursor, Ends cursor.index.length (2 * cursor.index.length + 1 ≤ bound)
      (payloadValue numbers bound depth cursor)) ∧
    (∀ depth result cursor, Ends cursor.index.length (2 * cursor.index.length + 2 ≤ bound)
      (payloadMembers numbers bound depth result cursor)) ∧
    ∀ depth result cursor, Ends cursor.index.length (2 * cursor.index.length + 2 ≤ bound)
      (payloadItems numbers bound depth result cursor) := by
  induction bound with
  | zero =>
    refine ⟨fun _ _ => ⟨fun _ _ h => ?_, fun h => ?_⟩, fun _ _ _ => ⟨fun _ _ h => ?_, fun h => ?_⟩,
      fun _ _ _ => ⟨fun _ _ h => ?_, fun h => ?_⟩⟩ <;> cases h
  | succ bound ih =>
    obtain ⟨ihValue, ihMembers, ihItems⟩ := ih
    have hskip (text : JsString) := length_skipSpace_le text
    have hhead {text : JsString} {c : Char} (h : text.head?.map charOf = some c) :
        text.tail.length < text.length := by
      obtain ⟨unit, rest, rfl, -, -⟩ := exists_cons_of_head? h
      exact Nat.lt_succ_self _
    refine ⟨?_, ?_, ?_⟩
    · rintro depth ⟨nodes, members, text⟩
      rw [payloadValue]
      simp only
      have htext := hskip text
      split_ifs with hbounds hquote hbrace hempty hbracket hempty
      · exact .invalid
      · refine .bind (fun _ => payloadString_ne_bound _) ?_
        rintro ⟨string, rest⟩ hstring
        exact .ok ((length_payloadString_lt hstring).trans_le htext)
      · have h1 := hhead hbrace
        have h2 := hhead hempty
        have h3 := hskip (skipSpace text).tail
        exact .ok (by simp only; omega)
      · have h1 := hhead hbrace
        have h2 := hskip (skipSpace text).tail
        exact (ihMembers _ _ _).mono (by simp only; omega) (by simp only; omega)
      · have h1 := hhead hbracket
        have h2 := hhead hempty
        have h3 := hskip (skipSpace text).tail
        exact .ok (by simp only; omega)
      · have h1 := hhead hbracket
        have h2 := hskip (skipSpace text).tail
        exact (ihItems _ _ _).mono (by simp only; omega) (by simp only; omega)
      · split
        · next parsed rest hliteral =>
          exact .ok ((length_payloadLiteral_lt hliteral).trans_le htext)
        · refine .bind (fun _ => payloadNumber_ne_bound _) ?_
          rintro ⟨parsed, rest⟩ hnumber
          exact .ok ((length_payloadNumber_lt hnumber).trans_le htext)
    · rintro depth result ⟨nodes, members, text⟩
      have h1 := hskip text
      refine .bind (fun _ => payloadString_ne_bound _) ?_
      rintro ⟨key, named⟩ hkey
      have h2 := length_payloadString_lt hkey
      have h3 := hskip named
      simp only
      split_ifs with hbounds hcolon
      · exact .invalid
      · exact .invalid
      · have h4 := hhead (not_not.mp hcolon)
        have hmember := ihValue (depth + 1) ⟨nodes, members + 1, (skipSpace named).tail⟩
        refine .bind (fun hyp => hmember.bounded (by simp only; omega)) ?_
        rintro ⟨member, cursor⟩ heq
        have h5 := hmember.shorter _ _ heq
        have h6 := hskip cursor.index
        simp only at h5 ⊢
        split_ifs with hclose hcomma
        · have h7 := hhead hclose
          exact .ok (by simp only; omega)
        · exact .invalid
        · have h7 := hhead (not_not.mp hcomma)
          exact (ihMembers _ _ _).mono (by simp only; omega) (by simp only; omega)
    · rintro depth result cursor
      rw [payloadItems]
      split_ifs with hfull
      · exact .invalid
      · have hitem := ihValue (depth + 1) cursor
        refine .bind (fun hyp => hitem.bounded (by omega)) ?_
        rintro ⟨item, cursor'⟩ heq
        have h1 := hitem.shorter _ _ heq
        have h2 := hskip cursor'.index
        simp only
        split_ifs with hclose hcomma
        · have h3 := hhead hclose
          exact .ok (by simp only; omega)
        · exact .invalid
        · have h3 := hhead (not_not.mp hcomma)
          exact (ihItems _ _ _).mono (by simp only; omega) (by simp only; omega)

/-! ### What is within the grammar and the bounds is read -/

/-- A piece within the bounds is parsed with a bound of about twice its length. -/
def IsParsed (numbers : DoubleFormat ν) (piece : Piece (Option JsonNumber))
    (text rest : JsString) : Prop :=
  ∀ bound depth nodes members start, text.length < 2 ^ 51 → skipSpace start = skipSpace text →
    match piece with
    | .value tree => 2 * (text.length - rest.length) ≤ bound + 1 → IsPayload tree →
      nodes + nodeCount tree ≤ 10000 → depth + nesting tree ≤ 32 →
      members + memberCount tree ≤ 2048 →
        ∃ parsed, payloadValue numbers bound depth ⟨nodes, members, start⟩ =
          .ok (parsed, ⟨nodes + nodeCount tree, members + memberCount tree, rest⟩)
    | .items items => 2 * (text.length - rest.length) ≤ bound → (∀ item ∈ items, IsPayload item) →
      nodes + nodeCountItems items ≤ 10000 → depth + nestingItems items ≤ 32 →
      members + memberCountItems items ≤ 2048 → ∀ result, result.length + items.length ≤ 2048 →
        ∃ parsed, payloadItems numbers bound depth result ⟨nodes, members, start⟩ =
          .ok (parsed, ⟨nodes + nodeCountItems items, members + memberCountItems items, rest⟩)
    | .members ms => 2 * (text.length - rest.length) ≤ bound →
      (ms.map Prod.fst).Nodup → (∀ member ∈ ms, byteLength member.1 ≤ 1024) →
      (∀ member ∈ ms, IsPayload member.2) → nodes + nodeCountMembers ms ≤ 10000 →
      depth + nestingMembers ms ≤ 32 → members + memberCountMembers ms ≤ 2048 →
      ∀ result, (∀ name ∈ ms.map Prod.fst, name ∉ result.map Prod.fst) →
        ∃ parsed, payloadMembers numbers bound depth result ⟨nodes, members, start⟩ =
          .ok (parsed, ⟨nodes + nodeCountMembers ms, members + memberCountMembers ms, rest⟩)

theorem nodeCount_pos {μ : Type} (tree : JsonTree μ) : 0 < nodeCount tree := by
  cases tree <;> simp [nodeCount]

theorem isParsed_value {text rest : JsString} {tree : JsonTree (Option JsonNumber)}
    (hlength : rest.length < text.length)
    (h : ∀ bound depth nodes members start, text.length < 2 ^ 51 →
      skipSpace start = skipSpace text → 2 * (text.length - rest.length) ≤ bound + 2 →
      IsPayload tree → nodes + nodeCount tree ≤ 10000 → depth + nesting tree ≤ 32 →
      members + memberCount tree ≤ 2048 → ¬(10000 < nodes + 1 ∨ 32 < depth) →
        ∃ parsed, payloadValue numbers (bound + 1) depth ⟨nodes, members, start⟩ =
          .ok (parsed, ⟨nodes + nodeCount tree, members + memberCount tree, rest⟩)) :
    IsParsed numbers (.value tree) text rest := by
  intro bound depth nodes members start htext hstart hbound hpayload hnodes hdepth hmembers
  obtain ⟨bound, rfl⟩ : ∃ n, bound = n + 1 := ⟨bound - 1, by omega⟩
  have hpos := nodeCount_pos tree
  exact h bound depth nodes members start htext hstart hbound hpayload hnodes hdepth hmembers
    (by omega)

theorem payloadLiteral_of_not_isLead (h : ¬IsLead (charOf unit)) :
    (payloadLiteral (unit :: tail) : Option (JsonTree ν × JsString)) = none := by
  rw [eq_none_iff_forall_ne_some]
  rintro ⟨tree, rest⟩ hsome
  obtain ⟨unit', tail', word, heq, hword, -⟩ := payloadLiteral_eq_some_iff.mp hsome
  cases heq
  simp only [IsLead, not_or] at h
  simp [wordOf, h] at hword

/-- A value of the grammar within the bounds is read. -/
theorem isParsed_of_reads {piece : Piece (Option JsonNumber)} {text rest : JsString}
    (h : Reads NumberFormat.exact piece text rest) : IsParsed numbers piece text rest := by
  induction h with
  | @word text rest after unit tree word hskip hunit h =>
    have hreads : Reads NumberFormat.exact (.value tree) text after := .word hskip hunit h
    refine isParsed_value hreads.isReadWithin.1 fun bound depth nodes members start _ hstart _ _ _ _ _ hbounds => ?_
    obtain ⟨-, -, -, hcount, -⟩ := Ir.wordOf_cases hunit
    have hmembers : memberCount tree = 0 := by
      unfold wordOf at hunit
      split_ifs at hunit <;> (obtain ⟨rfl, -⟩ := Prod.mk.inj (Option.some.inj hunit)) <;> rfl
    obtain ⟨parsed, hparsed⟩ : ∃ parsed : JsonTree ν,
        wordOf (charOf unit) = some (parsed, word) := by
      unfold wordOf at hunit ⊢
      split_ifs at hunit ⊢ <;>
        (obtain ⟨-, rfl⟩ := Prod.mk.inj (Option.some.inj hunit)) <;> exact ⟨_, rfl⟩
    have hliteral : payloadLiteral (unit :: rest) = some (parsed, after) :=
      payloadLiteral_eq_some_iff.mpr ⟨unit, rest, word, rfl, hparsed,
        readWord_eq_some_iff.mpr ⟨rfl, (readWord_eq_some_iff.mp h).2⟩⟩
    have hne {c : Char} (hc : wordOf (ν := ν) c = none) : charOf unit ≠ c := by
      intro heq
      rw [heq, hc] at hparsed
      cases hparsed
    refine ⟨parsed, ?_⟩
    rw [payloadValue, if_neg hbounds, hstart, hskip]
    simp only [head?_cons, map_some, Option.some.injEq, hne (c := '"') rfl,
      hne (c := '{') rfl, hne (c := '[') rfl, ↓reduceIte, hliteral, hcount, hmembers, Nat.add_zero]
  | @string text rest after string unit hskip hunit h =>
    have hreads : Reads NumberFormat.exact (.value (.str string)) text after :=
      .string hskip hunit h
    refine isParsed_value hreads.isReadWithin.1 fun bound depth nodes members start _ hstart _ _ _ _ _ hbounds => ?_
    have hstring : payloadString numbers (unit :: rest) = .ok (string, after) :=
      payloadString_eq_ok_iff.mpr ⟨_, _, rfl, hunit, h⟩
    refine ⟨.str string, ?_⟩
    rw [payloadValue, if_neg hbounds, hstart, hskip]
    simp only [head?_cons, map_some, hunit, ↓reduceIte, hstring]
    rfl
  | @number text rest after unit tree hskip hunit h =>
    have hreads : Reads NumberFormat.exact (.value tree) text after := .number hskip hunit h
    have hle := hskip ▸ length_skipSpace_le text
    refine isParsed_value hreads.isReadWithin.1 fun bound depth nodes members start htext hstart _ hpayload _ _ _
      hbounds => ?_
    obtain ⟨x, rfl⟩ : ∃ x, tree = .num x := by
      unfold readNumber at h
      simp only at h
      split_ifs at h
      exact ⟨_, (Prod.mk.inj (Option.some.inj h)).1.symm⟩
    cases hpayload with
    | num hexact =>
      obtain ⟨parsed, hparsed⟩ : ∃ parsed, payloadNumber numbers (unit :: rest) =
          .ok (parsed, after) := payloadNumber_of_readNumber h hexact (by omega)
      refine ⟨parsed, ?_⟩
      rw [payloadValue, if_neg hbounds, hstart, hskip]
      have hliteral : (payloadLiteral (unit :: rest) : Option (JsonTree ν × JsString)) = none :=
        payloadLiteral_of_not_isLead hunit
      simp only [IsLead, not_or] at hunit
      simp only [head?_cons, map_some, Option.some.injEq, hunit, ↓reduceIte, hliteral, hparsed]
      rfl
  | @emptyArray text rest after unit close hskip hunit hclose hbracket =>
    have hreads : Reads NumberFormat.exact (.value (.arr [])) text after :=
      .emptyArray hskip hunit hclose hbracket
    refine isParsed_value hreads.isReadWithin.1 fun bound depth nodes members start _ hstart _ _ _ _ _ hbounds => ?_
    refine ⟨.arr [], ?_⟩
    rw [payloadValue, if_neg hbounds, hstart, hskip]
    simp [hunit, hclose, hbracket, nodeCount, nodeCountItems, memberCount, memberCountItems]
  | @array text rest after unit items hskip hunit hopen h ih =>
    have hreads : Reads NumberFormat.exact (.value (.arr items)) text after :=
      .array hskip hunit hopen h
    have hrest := length_lt_of_skipSpace hskip
    refine isParsed_value hreads.isReadWithin.1 fun bound depth nodes members start htext hstart
      hbound hpayload hnodes hdepth hmembers hbounds => ?_
    cases hpayload with
    | arr hlength hitems =>
      simp only [nodeCount, nesting, memberCount] at hnodes hdepth hmembers
      obtain ⟨parsed, hparsed⟩ := ih bound depth (nodes + 1) members (skipSpace rest) (by omega)
        (Ir.skipSpace_skipSpace rest) (by omega) hitems (by omega) hdepth hmembers []
        (by simpa using hlength)
      refine ⟨parsed, ?_⟩
      rw [payloadValue, if_neg hbounds, hstart, hskip]
      simp only [head?_cons, map_some, hunit, Option.some.injEq, Char.reduceEq, ↓reduceIte,
        tail_cons, hopen, hparsed, nodeCount, memberCount, Nat.add_assoc, Nat.add_comm 1]
  | @emptyObject text rest after unit close hskip hunit hclose hbrace =>
    have hreads : Reads NumberFormat.exact (.value (.obj [])) text after :=
      .emptyObject hskip hunit hclose hbrace
    refine isParsed_value hreads.isReadWithin.1 fun bound depth nodes members start _ hstart _ _ _ _ _ hbounds => ?_
    refine ⟨.obj [], ?_⟩
    rw [payloadValue, if_neg hbounds, hstart, hskip]
    simp [hunit, hclose, hbrace, nodeCount, nodeCountMembers, memberCount, memberCountMembers]
  | @object text rest after unit ms hskip hunit hopen h ih =>
    have hreads : Reads NumberFormat.exact (.value (.obj ms)) text after :=
      .object hskip hunit hopen h
    have hrest := length_lt_of_skipSpace hskip
    refine isParsed_value hreads.isReadWithin.1 fun bound depth nodes members start htext hstart
      hbound hpayload hnodes hdepth hmembers hbounds => ?_
    cases hpayload with
    | obj hnames hkeys hvalues =>
      simp only [nodeCount, nesting, memberCount] at hnodes hdepth hmembers
      obtain ⟨parsed, hparsed⟩ := ih bound depth (nodes + 1) members (skipSpace rest) (by omega)
        (Ir.skipSpace_skipSpace rest) (by omega) hnames hkeys hvalues (by omega) hdepth hmembers []
        (by simp)
      refine ⟨parsed, ?_⟩
      rw [payloadValue, if_neg hbounds, hstart, hskip]
      simp only [head?_cons, map_some, hunit, Option.some.injEq, Char.reduceEq, ↓reduceIte,
        tail_cons, hopen, hparsed, nodeCount, memberCount, Nat.add_assoc, Nat.add_comm 1]
  | @lastItem text after rest unit item h hskip hunit ih =>
    intro bound depth nodes members start htext hstart hbound hitems hnodes hdepth hmembers result
      hlength
    have hrest := length_lt_of_skipSpace hskip
    have hvalue := h.isReadWithin.1
    simp only [nodeCountItems, nestingItems, memberCountItems,
      length_singleton] at hnodes hdepth hmembers hlength
    obtain ⟨bound, rfl⟩ : ∃ n, bound = n + 1 := ⟨bound - 1, by omega⟩
    obtain ⟨parsed, hparsed⟩ := ih bound (depth + 1) nodes members start htext hstart (by omega)
      (hitems item mem_cons_self) hnodes (by omega) hmembers
    refine ⟨.arr (result ++ [parsed]), ?_⟩
    rw [payloadItems, if_neg (by omega), hparsed]
    simp only [bind, Except.bind, hskip, head?_cons, map_some, hunit, ↓reduceIte,
      tail_cons, nodeCountItems, memberCountItems, Nat.add_zero]
  | @nextItem text after rest behind unit item items h hskip hunit hnext ih ihNext =>
    intro bound depth nodes members start htext hstart hbound hitems hnodes hdepth hmembers result
      hlength
    have hrest := length_lt_of_skipSpace hskip
    have hvalue := h.isReadWithin.1
    have hnextLength := hnext.isReadWithin.1
    simp only [nodeCountItems, nestingItems, memberCountItems,
      length_cons] at hnodes hdepth hmembers hlength
    obtain ⟨bound, rfl⟩ : ∃ n, bound = n + 1 := ⟨bound - 1, by omega⟩
    obtain ⟨parsed, hparsed⟩ := ih bound (depth + 1) nodes members start htext hstart (by omega)
      (hitems item mem_cons_self) (by omega) (by omega) (by omega)
    obtain ⟨found, hfound⟩ := ihNext bound depth (nodes + nodeCount item) (members + memberCount item)
      rest (by omega) rfl (by omega) (fun i hi => hitems i (mem_cons_of_mem _ hi)) (by omega)
      (by omega) (by omega) (result ++ [parsed])
      (by rw [length_append, length_singleton]; omega)
    refine ⟨found, ?_⟩
    rw [payloadItems, if_neg (by omega), hparsed]
    simp only [bind, Except.bind, hskip, head?_cons, map_some, hunit, Option.some.injEq,
      Char.reduceEq, ne_eq, not_true_eq_false, ↓reduceIte, tail_cons, hfound, nodeCountItems,
      memberCountItems, Nat.add_assoc]
  | @lastMember text start' named colon after rest name quote mark unit member hstart' hquote hname
      hcolon hmark h hskip hunit ih =>
    intro bound depth nodes members start htext hstart hbound hnames hkeys hvalues hnodes hdepth
      hmembers result hunseen
    have hmember := length_member_lt hstart' hname hcolon
    have hrest := length_lt_of_skipSpace hskip
    have hvalue := h.isReadWithin.1
    simp only [nodeCountMembers, nestingMembers, memberCountMembers] at hnodes hdepth hmembers
    obtain ⟨bound, rfl⟩ : ∃ n, bound = n + 1 := ⟨bound - 1, by omega⟩
    obtain ⟨parsed, hparsed⟩ := ih bound (depth + 1) nodes (members + 1) colon (by omega) rfl
      (by omega) (hvalues _ mem_cons_self) hnodes (by omega) (by omega)
    have hstring : payloadString numbers (quote :: start') = .ok (name, named) :=
      payloadString_eq_ok_iff.mpr ⟨_, _, rfl, hquote, hname⟩
    have hbounds : ¬(1024 < byteLength name ∨ 2048 < members + 1 ∨ name ∈ result.map Prod.fst) := by
      have hkey : byteLength name ≤ 1024 := hkeys _ mem_cons_self
      have hname : name ∉ result.map Prod.fst := hunseen name (by simp)
      simp only [hname, or_false]
      omega
    refine ⟨.obj (result ++ [(name, parsed)]), ?_⟩
    rw [payloadMembers, hstart, hstart', hstring]
    simp only [bind, Except.bind, if_neg hbounds, hcolon, head?_cons, map_some, hmark,
      ne_eq, not_true_eq_false, ↓reduceIte, tail_cons, hparsed, hskip, hunit,
      nodeCountMembers, memberCountMembers, Nat.add_zero, Nat.add_assoc, Nat.add_comm 1]
  | @nextMember text start' named colon after rest behind name quote mark unit member ms hstart'
      hquote hname hcolon hmark h hskip hunit hnext ih ihNext =>
    intro bound depth nodes members start htext hstart hbound hnames hkeys hvalues hnodes hdepth
      hmembers result hunseen
    have hmember := length_member_lt hstart' hname hcolon
    have hrest := length_lt_of_skipSpace hskip
    have hvalue := h.isReadWithin.1
    have hnextLength := hnext.isReadWithin.1
    simp only [nodeCountMembers, nestingMembers, memberCountMembers] at hnodes hdepth hmembers
    rw [map_cons, nodup_cons] at hnames
    rw [map_cons, forall_mem_cons] at hunseen
    obtain ⟨bound, rfl⟩ : ∃ n, bound = n + 1 := ⟨bound - 1, by omega⟩
    obtain ⟨parsed, hparsed⟩ := ih bound (depth + 1) nodes (members + 1) colon (by omega) rfl
      (by omega) (hvalues _ mem_cons_self) (by omega) (by omega) (by omega)
    have hfresh : ∀ other ∈ ms.map Prod.fst, other ∉ (result ++ [(name, parsed)]).map Prod.fst := by
      intro other hother
      rw [map_append, map_singleton, mem_append, mem_singleton, not_or]
      exact ⟨hunseen.2 other hother, fun heq => hnames.1 (heq ▸ hother)⟩
    obtain ⟨found, hfound⟩ := ihNext bound depth (nodes + nodeCount member) (members + 1 +
      memberCount member) rest (by omega) rfl (by omega) hnames.2 (fun m hm => hkeys m
      (mem_cons_of_mem _ hm)) (fun m hm => hvalues m (mem_cons_of_mem _ hm)) (by omega) (by omega)
      (by omega) (result ++ [(name, parsed)]) hfresh
    have hstring : payloadString numbers (quote :: start') = .ok (name, named) :=
      payloadString_eq_ok_iff.mpr ⟨_, _, rfl, hquote, hname⟩
    have hbounds : ¬(1024 < byteLength name ∨ 2048 < members + 1 ∨ name ∈ result.map Prod.fst) := by
      have hkey : byteLength name ≤ 1024 := hkeys _ mem_cons_self
      simp only [hunseen.1, or_false]
      omega
    have hcount : members + memberCountMembers ((name, member) :: ms) =
        members + 1 + memberCount member + memberCountMembers ms := by
      rw [memberCountMembers]
      omega
    refine ⟨found, ?_⟩
    rw [payloadMembers, hstart, hstart', hstring, hcount, nodeCountMembers, ← Nat.add_assoc]
    simp only [bind, Except.bind, if_neg hbounds, hcolon, head?_cons, map_some, hmark,
      ne_eq, not_true_eq_false, ↓reduceIte, tail_cons, hparsed, hskip, hunit, Option.some.injEq,
      Char.reduceEq, hfound]

theorem length_le_byteLength (text : JsString) : text.length ≤ byteLength text := by
  have hpoints (points : List ℕ) : (points.flatMap unitsOf).length ≤
      (points.map fun point => if point < 0x80 then 1 else if point < 0x800 then 2
        else if point < 0x10000 then 3 else 4).sum := by
    induction points with
    | nil => simp
    | cons point points ih =>
      rw [flatMap_cons, length_append, map_cons, sum_cons]
      refine Nat.add_le_add ?_ ih
      unfold unitsOf
      split_ifs <;> (simp; try omega)
  calc text.length = (text.codePoints.flatMap unitsOf).length := by
        rw [flatMap_codePoints]
    _ ≤ byteLength text := hpoints _

/-- A text is accepted when it is a JSON text within the bounds, without repeated names, whose
numbers are finite and whose whole numbers are exact; the value is that of `JSON.parse`, and the
parser comes to an end. -/
theorem parsePayloadText_exact (numbers : DoubleFormat ν) (text : JsString) :
    (∀ result, parsePayloadText numbers text = .ok result ↔
      parse numbers.toNumberFormat text = some result ∧ byteLength text ≤ 256 * 1024 ∧
        ∃ tree, document NumberFormat.exact text = some tree ∧ IsPayload tree ∧
          nodeCount tree ≤ 10000 ∧ nesting tree ≤ 32 ∧ memberCount tree ≤ 2048) ∧
    parsePayloadText numbers text ≠ .error .bound := by
  unfold parsePayloadText
  refine ⟨fun result => ?_, ?_⟩
  · have hlength := length_le_byteLength text
    constructor
    · intro h
      split_ifs at h with hbytes
      obtain ⟨⟨tree, cursor⟩, hvalue, h⟩ := bind_eq_ok.mp h
      simp only at h
      split_ifs at h with hrest
      cases h
      obtain ⟨exact, hread⟩ := (sound_payloadValue _).1 _ _ _ _ hvalue
        (stopsNumber_of_skipSpace_eq_nil hrest) (by simp only; omega)
      have hdocument := document_eq_some_iff.mpr ⟨_, hread.reads, hrest⟩
      refine ⟨?_, by omega, exact, document_eq_some_iff.mpr ⟨_, hread.readsExact, hrest⟩,
        hread.payload, ?_, ?_, ?_⟩
      · rw [parse, hdocument, map_some, hread.names.value_eq]
      · have hnodes := hread.nodes
        have hle := hread.nodesLe
        omega
      · simpa using hread.depthLe
      · have hmembers := hread.members
        have hle := hread.membersLe (Nat.zero_le _)
        omega
    · rintro ⟨hparse, hbytes, tree, hdocument, hpayload, hnodes, hdepth, hmembers⟩
      obtain ⟨rest, hreads, hrest⟩ := document_eq_some_iff.mp hdocument
      obtain ⟨parsed, hparsed⟩ : ∃ parsed, payloadValue numbers (2 * text.length + 1) 0 ⟨0, 0, text⟩ =
          .ok (parsed, ⟨0 + nodeCount tree, 0 + memberCount tree, rest⟩) :=
        isParsed_of_reads hreads _ _ _ _ _ (by omega) rfl (by omega) hpayload (by omega) (by omega)
          (by omega)
      obtain ⟨exact, hread⟩ := (sound_payloadValue _).1 _ _ _ _ hparsed
        (stopsNumber_of_skipSpace_eq_nil hrest) (by simp only; omega)
      have hvalue := document_eq_some_iff.mpr ⟨_, hread.reads, hrest⟩
      rw [parse, hvalue, map_some, hread.names.value_eq] at hparse
      cases hparse
      rw [if_neg (by omega), hparsed]
      exact if_pos hrest
  · split_ifs with hbytes
    · simp
    · refine bind_ne_error (((ends_payloadValue _).1 _ _).bounded le_rfl) ?_
      rintro ⟨parsed, cursor⟩ -
      simp only
      split_ifs <;> simp

end Reads

end ApiTruth.Observations
