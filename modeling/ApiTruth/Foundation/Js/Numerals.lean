import ApiTruth.Foundation.Decimal
import ApiTruth.Foundation.Js.Doubles
import ApiTruth.Foundation.Js.JsonParse

/-!
# Numbers of JSON texts

A number of a JSON text has an exact decimal value, and the double next to it.  Whether the value is
a whole number can be read off the digits.

## Main definitions

* `NumberParts`, `numberParts` : the groups of a number.
* `decimalValue`, `NumberFormat.exact` : the exact value of a number, and numbers that are read so.
* `matchNumber` : the longest number at the start of a text.
* `DoubleFormat`, `DoubleFormat.exact` : numbers of JavaScript with the doubles that they are.

## Main results

* `NumberParts.IsToken.matchNumber_append` : a number is matched in front of anything that does not
  go on with it.
* `exists_of_matchNumber` : what is matched is a number.
* `Decimal.pow_dvd_valueFrom_iff` : powers of ten divide a number that ends with zeros.
* `exactValue_read` : the exact value is the one of the groups.
-/

open JsonTree (isNumberToken isUnsignedToken isFractionToken isExponentToken isNumberish)

/-! ### The groups of a number -/

/-- The groups of `/^-?(\d+)(?:\.(\d+))?(?:[eE]([+-]?\d+))?$/`, empty where they do not take part. -/
structure NumberParts where
  negative : Bool
  whole : List Char
  fraction : List Char
  exponent : List Char
deriving DecidableEq

def unsignedParts (text : List Char) : NumberParts :=
  let rest := text.dropWhile Char.isDigit
  let hasFraction := rest.head? = some '.'
  { negative := false
    whole := text.takeWhile Char.isDigit
    fraction := if hasFraction then rest.tail.takeWhile Char.isDigit else []
    exponent := (if hasFraction then rest.tail.dropWhile Char.isDigit else rest).tail }

def numberParts (token : List Char) : NumberParts :=
  if token.head? = some '-' then { unsignedParts token.tail with negative := true }
  else unsignedParts token

/-- The whole number of an exponent, zero for none. -/
def exponentValue : List Char → ℤ
  | '-' :: digits => -Decimal.valueFrom 0 digits
  | '+' :: digits => Decimal.valueFrom 0 digits
  | digits => Decimal.valueFrom 0 digits

namespace NumberParts

/-- The digits in front of and behind the point. -/
def digits (parts : NumberParts) : List Char := parts.whole ++ parts.fraction

/-- The power of ten of the last digit. -/
def scale (parts : NumberParts) : ℤ := exponentValue parts.exponent - parts.fraction.length

/-- The number without its sign. -/
def magnitude (parts : NumberParts) : ℚ := Decimal.valueFrom 0 parts.digits * 10 ^ parts.scale

/-- The exact value of the number. -/
def value (parts : NumberParts) : ℚ := if parts.negative then -parts.magnitude else parts.magnitude

def exponentText (parts : NumberParts) (letter : Char) : List Char :=
  if parts.exponent = [] then [] else letter :: parts.exponent

def fractionText (parts : NumberParts) : List Char :=
  if parts.fraction = [] then [] else '.' :: parts.fraction

def text (parts : NumberParts) (letter : Char) : List Char :=
  (if parts.negative then ['-'] else []) ++
    (parts.whole ++ (parts.fractionText ++ parts.exponentText letter))

end NumberParts

def decimalValue (token : List Char) : ℚ := (numberParts token).value

def IsExponent (exponent : List Char) : Prop :=
  ∃ sign digits, exponent = sign ++ digits ∧ (sign = [] ∨ sign = ['+'] ∨ sign = ['-']) ∧
    digits ≠ [] ∧ ∀ c ∈ digits, c.isDigit = true

structure NumberParts.IsToken (parts : NumberParts) : Prop where
  ne : parts.whole ≠ []
  whole : ∀ c ∈ parts.whole, c.isDigit = true
  zero : parts.whole = ['0'] ∨ parts.whole.head? ≠ some '0'
  fraction : ∀ c ∈ parts.fraction, c.isDigit = true
  exponent : parts.exponent = [] ∨ IsExponent parts.exponent

def StopsDigits (text : List Char) : Prop := ∀ c ∈ text.head?, c.isDigit = false

theorem span_digits {digits rest : List Char} (hdigits : ∀ c ∈ digits, c.isDigit = true)
    (hrest : StopsDigits rest) :
    (digits ++ rest).takeWhile Char.isDigit = digits ∧
      (digits ++ rest).dropWhile Char.isDigit = rest := by
  rw [List.takeWhile_append_of_pos hdigits, List.dropWhile_append_of_pos hdigits]
  cases rest with
  | nil => simp
  | cons c rest => simp [hrest c rfl]

variable {exponent : List Char} {token : List Char}

theorem IsExponent.ne_nil (h : IsExponent exponent) : exponent ≠ [] := by
  obtain ⟨sign, digits, rfl, -, hne, -⟩ := h
  exact List.append_ne_nil_of_right_ne_nil _ hne

def exponentSign (text : List Char) : List Char :=
  text.take (if text.head? = some '+' ∨ text.head? = some '-' then 1 else 0)

/-- `(?:[eE][+-]?[0-9]+)?`. -/
def matchExponent : List Char → List Char
  | letter :: rest =>
    let digits := (rest.drop (exponentSign rest).length).takeWhile Char.isDigit
    if (letter = 'e' ∨ letter = 'E') ∧ digits ≠ [] then letter :: (exponentSign rest ++ digits)
    else []
  | [] => []

/-- `(?:\.[0-9]+)?`. -/
def matchFraction : List Char → List Char
  | point :: rest =>
    let digits := rest.takeWhile Char.isDigit
    if point = '.' ∧ digits ≠ [] then point :: digits else []
  | [] => []

/-- `(?:0|[1-9][0-9]*)`. -/
def matchWhole : List Char → Option (List Char)
  | first :: rest =>
    if first = '0' then some [first]
    else if first.isDigit then some (first :: rest.takeWhile Char.isDigit)
    else none
  | [] => none

/-- `(?:0|[1-9][0-9]*)(?:\.[0-9]+)?(?:[eE][+-]?[0-9]+)?`. -/
def matchUnsigned (text : List Char) : Option (List Char) := do
  let whole ← matchWhole text
  let rest := text.drop whole.length
  let fraction := matchFraction rest
  return whole ++ (fraction ++ matchExponent (rest.drop fraction.length))

/-- `/^-?(?:0|[1-9][0-9]*)(?:\.[0-9]+)?(?:[eE][+-]?[0-9]+)?/`. -/
def matchNumber (text : List Char) : Option (List Char) :=
  if text.head? = some '-' then (matchUnsigned text.tail).map ('-' :: ·) else matchUnsigned text

variable {rest : List Char} {text : List Char}

theorem stopsDigits_of_delimited (h : JsonTree.Delimited rest) :
    StopsDigits rest := fun c hc => by
  have hdelimited := h c hc
  simp only [isNumberish, isNumberChar, Bool.or_eq_false_iff] at hdelimited
  exact hdelimited.1.1.1.1.1

theorem exponentSign_append {sign digits rest : List Char}
    (hsign : sign = [] ∨ sign = ['+'] ∨ sign = ['-']) (hne : digits ≠ [])
    (hdigits : ∀ c ∈ digits, c.isDigit = true) :
    exponentSign (sign ++ (digits ++ rest)) = sign := by
  obtain ⟨first, digits, rfl⟩ := List.exists_cons_of_ne_nil hne
  have hfirst := hdigits first List.mem_cons_self
  rcases hsign with rfl | rfl | rfl
  · have hplus : first ≠ '+' := by rintro rfl; cases hfirst
    have hminus : first ≠ '-' := by rintro rfl; cases hfirst
    simp [exponentSign, hplus, hminus]
  · simp [exponentSign]
  · simp [exponentSign]

theorem matchExponent_append {letter : Char} (hletter : letter = 'e' ∨ letter = 'E')
    {exponent rest : List Char} (h : exponent = [] ∨ IsExponent exponent)
    (hrest : JsonTree.Delimited rest) :
    matchExponent ((if exponent = [] then [] else letter :: exponent) ++ rest) =
      if exponent = [] then [] else letter :: exponent := by
  rcases h with rfl | hexponent
  · cases rest with
    | nil => rfl
    | cons c rest =>
      have hc := hrest c rfl
      rw [if_pos rfl, List.nil_append, matchExponent, if_neg]
      rintro ⟨rfl | rfl, -⟩ <;> cases hc
  · rw [if_neg hexponent.ne_nil]
    obtain ⟨sign, digits, rfl, hsign, hne, hdigits⟩ := hexponent
    rw [List.cons_append, List.append_assoc, matchExponent]
    simp only [exponentSign_append hsign hne hdigits, List.drop_left,
      (span_digits hdigits (stopsDigits_of_delimited hrest)).1]
    rw [if_pos ⟨hletter, hne⟩]

theorem matchFraction_append {fraction rest : List Char}
    (hfraction : ∀ c ∈ fraction, c.isDigit = true) (hpoint : rest.head? ≠ some '.')
    (hrest : StopsDigits rest) :
    matchFraction ((if fraction = [] then [] else '.' :: fraction) ++ rest) =
      if fraction = [] then [] else '.' :: fraction := by
  split_ifs with hempty
  · cases rest with
    | nil => rfl
    | cons c rest =>
      rw [List.nil_append, matchFraction, if_neg]
      rintro ⟨rfl, -⟩
      exact hpoint rfl
  · rw [List.cons_append, matchFraction]
    simp only [(span_digits hfraction hrest).1]
    exact if_pos ⟨trivial, hempty⟩

theorem matchWhole_append {whole rest : List Char} (hne : whole ≠ [])
    (hwhole : ∀ c ∈ whole, c.isDigit = true) (hzero : whole = ['0'] ∨ whole.head? ≠ some '0')
    (hrest : StopsDigits rest) : matchWhole (whole ++ rest) = some whole := by
  obtain ⟨first, whole, rfl⟩ := List.exists_cons_of_ne_nil hne
  rw [List.cons_append, matchWhole]
  rcases hzero with hzero | hzero
  · cases hzero
    exact if_pos rfl
  · have hfirst : first ≠ '0' := fun h => hzero (congrArg some h)
    rw [if_neg hfirst, if_pos (hwhole first List.mem_cons_self),
      (span_digits (fun c hc => hwhole c (List.mem_cons_of_mem _ hc)) hrest).1]

namespace NumberParts

open List

variable {parts : NumberParts} {letter : Char}

theorem head?_exponentText_append (parts : NumberParts) (hletter : letter = 'e' ∨ letter = 'E')
    (hrest : JsonTree.Delimited rest) :
    StopsDigits (parts.exponentText letter ++ rest) ∧
      (parts.exponentText letter ++ rest).head? ≠ some '.' := by
  unfold exponentText
  split_ifs
  · refine ⟨stopsDigits_of_delimited hrest, fun h => ?_⟩
    cases hrest '.' h
  · rcases hletter with rfl | rfl <;> exact ⟨fun c hc => by cases hc; rfl, by simp⟩

theorem stopsDigits_fractionText_append (parts : NumberParts) (hrest : StopsDigits rest) :
    StopsDigits (parts.fractionText ++ rest) := by
  unfold fractionText
  split_ifs
  · exact hrest
  · intro c hc
    cases hc
    rfl

/-- A number is matched in front of anything that does not go on with it. -/
theorem IsToken.matchNumber_append (h : parts.IsToken) (hletter : letter = 'e' ∨ letter = 'E')
    (hrest : JsonTree.Delimited rest) :
    matchNumber (parts.text letter ++ rest) = some (parts.text letter) := by
  obtain ⟨hstops, hpoint⟩ := parts.head?_exponentText_append hletter hrest
  have hexponent : matchExponent (parts.exponentText letter ++ rest) = parts.exponentText letter :=
    matchExponent_append hletter h.exponent hrest
  have hfraction : matchFraction (parts.fractionText ++ (parts.exponentText letter ++ rest)) =
      parts.fractionText := matchFraction_append h.fraction hpoint hstops
  have hwhole : matchWhole
      (parts.whole ++ (parts.fractionText ++ (parts.exponentText letter ++ rest))) =
      some parts.whole :=
    matchWhole_append h.ne h.whole h.zero (parts.stopsDigits_fractionText_append hstops)
  have hminus : (parts.whole ++ (parts.fractionText ++
      (parts.exponentText letter ++ rest))).head? ≠ some '-' := by
    obtain ⟨first, whole, hcons⟩ := exists_cons_of_ne_nil h.ne
    have hfirst := h.whole first (hcons ▸ mem_cons_self)
    rw [hcons]
    rintro ⟨⟩
    cases hfirst
  have hunsigned : matchUnsigned (parts.whole ++ (parts.fractionText ++
      (parts.exponentText letter ++ rest))) =
      some (parts.whole ++ (parts.fractionText ++ parts.exponentText letter)) := by
    simp [matchUnsigned, hwhole, hfraction, hexponent]
  rw [text, append_assoc, append_assoc, append_assoc]
  cases hnegative : parts.negative with
  | true => simp [matchNumber, hunsigned]
  | false =>
    rw [if_neg Bool.false_ne_true, nil_append, nil_append, matchNumber, if_neg hminus, hunsigned]

theorem IsToken.unsignedParts_append (h : parts.IsToken) (hletter : letter = 'e' ∨ letter = 'E') :
    unsignedParts (parts.whole ++ (parts.fractionText ++ parts.exponentText letter)) =
      { parts with negative := false } := by
  have hdelimited : JsonTree.Delimited [] := by simp [JsonTree.Delimited]
  obtain ⟨hstops, hpoint⟩ := parts.head?_exponentText_append hletter hdelimited
  rw [append_nil] at hstops hpoint
  obtain ⟨hwhole, hrest⟩ := span_digits h.whole (parts.stopsDigits_fractionText_append hstops)
  have hexponent : (parts.exponentText letter).tail = parts.exponent := by
    unfold exponentText
    split_ifs with hempty
    · exact hempty.symm
    · rfl
  simp only [unsignedParts, hwhole, hrest]
  by_cases hempty : parts.fraction = []
  · simp [fractionText, hempty, hpoint, hexponent]
  · obtain ⟨hdigits, hafter⟩ := span_digits h.fraction hstops
    simp [fractionText, hempty, hdigits, hafter, hexponent]

theorem IsToken.head?_ne (h : parts.IsToken) (rest : List Char) :
    (parts.whole ++ rest).head? ≠ some '-' := by
  obtain ⟨first, whole, hcons⟩ := exists_cons_of_ne_nil h.ne
  have hfirst := h.whole first (hcons ▸ mem_cons_self)
  rw [hcons]
  rintro ⟨⟩
  cases hfirst

theorem IsToken.numberParts_text (h : parts.IsToken) (hletter : letter = 'e' ∨ letter = 'E') :
    numberParts (parts.text letter) = parts := by
  have hparts := h.unsignedParts_append hletter
  obtain ⟨negative, whole, fraction, exponent⟩ := parts
  rw [text, numberParts]
  cases negative with
  | true => exact congrArg (fun parts : NumberParts => { parts with negative := true }) hparts
  | false => rw [if_neg Bool.false_ne_true, nil_append, if_neg (h.head?_ne _), hparts]

theorem IsToken.isNumberToken_text (h : parts.IsToken) (hletter : letter = 'e' ∨ letter = 'E') :
    isNumberToken (parts.text letter) = true := by
  have hdelimited : JsonTree.Delimited [] := by simp [JsonTree.Delimited]
  obtain ⟨hstops, hpoint⟩ := parts.head?_exponentText_append hletter hdelimited
  rw [append_nil] at hstops hpoint
  obtain ⟨hwhole, hrest⟩ := span_digits h.whole (parts.stopsDigits_fractionText_append hstops)
  have hexponent : isExponentToken (parts.exponentText letter) = true := by
    unfold exponentText
    split_ifs with hempty
    · rfl
    · obtain ⟨sign, digits, heq, hsign, hne, hdigits⟩ := h.exponent.resolve_left hempty
      have hall : digits.all Char.isDigit = true := List.all_eq_true.mpr hdigits
      obtain ⟨first, digits, rfl⟩ := exists_cons_of_ne_nil hne
      have hfirst := hdigits first mem_cons_self
      have hplus : first ≠ '+' := by rintro rfl; cases hfirst
      have hminus : first ≠ '-' := by rintro rfl; cases hfirst
      rw [heq]
      rcases hsign with rfl | rfl | rfl <;> rcases hletter with rfl | rfl <;>
        simpa [isExponentToken, hplus, hminus] using hall
  have hfraction : isFractionToken (parts.fractionText ++ parts.exponentText letter) = true := by
    unfold fractionText
    split_ifs with hempty
    · rw [nil_append, JsonTree.isFractionToken_of_ne fun rest heq => hpoint (by rw [heq]; rfl),
        hexponent]
    · obtain ⟨hdigits, hafter⟩ := span_digits h.fraction hstops
      simp [isFractionToken, hdigits, hafter, hempty, hexponent]
  have hunsigned : isUnsignedToken
      (parts.whole ++ (parts.fractionText ++ parts.exponentText letter)) = true := by
    simp only [isUnsignedToken, hwhole, hrest, hfraction, Bool.and_true]
    rcases h.zero with hzero | hzero
    · simp [hzero]
    · simp [h.ne, hzero]
  rw [text]
  split_ifs
  · exact hunsigned
  · rw [nil_append, JsonTree.isNumberToken_of_ne, hunsigned]
    intro rest heq
    exact h.head?_ne _ (by rw [heq]; rfl)

theorem length_digits_le (parts : NumberParts) (letter : Char) :
    parts.digits.length ≤ (parts.text letter).length := by
  have hfraction : parts.fraction.length ≤ parts.fractionText.length := by
    unfold fractionText
    split_ifs with hempty
    · rw [hempty]
    · exact Nat.le_succ _
  simp only [digits, text, length_append]
  omega

theorem isNumberish_of_isDigit {c : Char} (h : c.isDigit = true) : isNumberish c = true :=
  (Bool.or_eq_true _ _).mpr (.inl (Numeral.isNumberChar_of_isDigit h))

theorem IsToken.isNumberish_text (h : parts.IsToken) (hletter : letter = 'e' ∨ letter = 'E') :
    ∀ c ∈ parts.text letter, isNumberish c = true := by
  have hfraction : ∀ c ∈ parts.fractionText, isNumberish c = true := by
    unfold fractionText
    split_ifs
    · exact forall_mem_nil _
    · exact List.forall_mem_cons.mpr ⟨rfl, fun c hc => isNumberish_of_isDigit (h.fraction c hc)⟩
  have hexponent : ∀ c ∈ parts.exponentText letter, isNumberish c = true := by
    unfold exponentText
    split_ifs with hempty
    · exact forall_mem_nil _
    · obtain ⟨sign, digits, heq, hsign, -, hdigits⟩ := h.exponent.resolve_left hempty
      rw [heq]
      refine List.forall_mem_cons.mpr ⟨by rcases hletter with rfl | rfl <;> rfl, ?_⟩
      refine List.forall_mem_append.mpr ⟨?_, fun c hc => isNumberish_of_isDigit (hdigits c hc)⟩
      rcases hsign with rfl | rfl | rfl <;> simp <;> rfl
  have hsign : ∀ c ∈ (if parts.negative then ['-'] else []), isNumberish c = true := by
    split_ifs
    · simp
      rfl
    · exact forall_mem_nil _
  exact List.forall_mem_append.mpr ⟨hsign, List.forall_mem_append.mpr
    ⟨fun c hc => isNumberish_of_isDigit (h.whole c hc),
      List.forall_mem_append.mpr ⟨hfraction, hexponent⟩⟩⟩

end NumberParts

/-! ### What is matched -/

theorem exponentSign_eq (text : List Char) :
    (exponentSign text = [] ∨ exponentSign text = ['+'] ∨ exponentSign text = ['-']) ∧
      text = exponentSign text ++ text.drop (exponentSign text).length := by
  cases text with
  | nil => exact ⟨.inl rfl, rfl⟩
  | cons c text =>
    by_cases hplus : c = '+'
    · simp [exponentSign, hplus]
    · by_cases hminus : c = '-'
      · simp [exponentSign, hminus]
      · simp [exponentSign, hplus, hminus]

theorem digit_of_mem_takeWhile {c : Char}
    (hc : c ∈ text.takeWhile Char.isDigit) : c.isDigit = true :=
  List.mem_takeWhile_imp (p := Char.isDigit) hc

theorem exists_of_matchExponent (text : List Char) :
    ∃ letter exponent rest, (letter = 'e' ∨ letter = 'E') ∧
      (exponent = [] ∨ IsExponent exponent) ∧
      matchExponent text = (if exponent = [] then [] else letter :: exponent) ∧
      text = (if exponent = [] then [] else letter :: exponent) ++ rest := by
  cases text with
  | nil => exact ⟨'e', [], [], .inl rfl, .inl rfl, rfl, rfl⟩
  | cons letter text =>
    rw [matchExponent]
    split_ifs with h
    · obtain ⟨hletter, hne⟩ := h
      obtain ⟨hsign, htext⟩ := exponentSign_eq text
      refine ⟨letter, _, (text.drop (exponentSign text).length).dropWhile Char.isDigit, hletter,
        .inr ⟨_, _, rfl, hsign, hne, fun c => digit_of_mem_takeWhile⟩, ?_, ?_⟩
      · rw [if_neg (List.append_ne_nil_of_right_ne_nil _ hne)]
      · rw [if_neg (List.append_ne_nil_of_right_ne_nil _ hne), List.cons_append, List.append_assoc,
          List.takeWhile_append_dropWhile, ← htext]
    · exact ⟨'e', [], _, .inl rfl, .inl rfl, rfl, rfl⟩

theorem exists_of_matchFraction (text : List Char) :
    ∃ fraction rest, (∀ c ∈ fraction, c.isDigit = true) ∧
      matchFraction text = (if fraction = [] then [] else '.' :: fraction) ∧
      text = (if fraction = [] then [] else '.' :: fraction) ++ rest := by
  cases text with
  | nil => exact ⟨[], [], List.forall_mem_nil _, rfl, rfl⟩
  | cons point text =>
    rw [matchFraction]
    split_ifs with h
    · obtain ⟨rfl, hne⟩ := h
      refine ⟨_, text.dropWhile Char.isDigit, fun c => digit_of_mem_takeWhile, (if_neg hne).symm, ?_⟩
      rw [if_neg hne, List.cons_append, List.takeWhile_append_dropWhile]
    · exact ⟨[], _, List.forall_mem_nil _, rfl, rfl⟩

theorem exists_of_matchWhole {text whole : List Char} (h : matchWhole text = some whole) :
    whole ≠ [] ∧ (∀ c ∈ whole, c.isDigit = true) ∧ (whole = ['0'] ∨ whole.head? ≠ some '0') ∧
      ∃ rest, text = whole ++ rest := by
  cases text with
  | nil => cases h
  | cons first text =>
    rw [matchWhole] at h
    split_ifs at h with hzero hdigit
    · cases h
      subst hzero
      exact ⟨List.cons_ne_nil _ _, by simp, .inl rfl, text, rfl⟩
    · cases h
      refine ⟨List.cons_ne_nil _ _, List.forall_mem_cons.mpr ⟨hdigit, fun c => digit_of_mem_takeWhile⟩,
        .inr (by simpa using hzero), text.dropWhile Char.isDigit, ?_⟩
      rw [List.cons_append, List.takeWhile_append_dropWhile]

theorem exists_of_matchUnsigned {text token : List Char} (h : matchUnsigned text = some token)
    (negative : Bool) : ∃ (parts : NumberParts) (letter : Char) (rest : List Char),
      parts.IsToken ∧ (letter = 'e' ∨ letter = 'E') ∧ parts.negative = negative ∧
      token = parts.whole ++ (parts.fractionText ++ parts.exponentText letter) ∧
      text = token ++ rest := by
  obtain ⟨whole, hwhole, h⟩ := Option.bind_eq_some_iff.mp h
  obtain ⟨hne, hdigits, hzero, rest, rfl⟩ := exists_of_matchWhole hwhole
  obtain ⟨fraction, behind, hfraction, hmatch, rfl⟩ := exists_of_matchFraction rest
  simp only [hmatch, List.drop_left] at h
  obtain ⟨letter, exponent, after, hletter, hexponent, hmatch', rfl⟩ := exists_of_matchExponent behind
  rw [hmatch'] at h
  refine ⟨⟨negative, whole, fraction, exponent⟩, letter, after, ⟨hne, hdigits, hzero, hfraction,
    hexponent⟩, hletter, rfl, (Option.some.inj h).symm, ?_⟩
  rw [← Option.some.inj h]
  simp only [List.append_assoc]

/-- What is matched is a number at the start of the text. -/
theorem exists_of_matchNumber {text token : List Char} (h : matchNumber text = some token) :
    ∃ (parts : NumberParts) (letter : Char) (rest : List Char), parts.IsToken ∧
      (letter = 'e' ∨ letter = 'E') ∧ token = parts.text letter ∧ text = token ++ rest := by
  unfold matchNumber at h
  split_ifs at h with hminus
  · obtain ⟨token, hmatch, rfl⟩ := Option.map_eq_some_iff.mp h
    obtain ⟨parts, letter, rest, htoken, hletter, hnegative, rfl, htext⟩ :=
      exists_of_matchUnsigned hmatch true
    refine ⟨parts, letter, rest, htoken, hletter, by rw [NumberParts.text, if_pos hnegative]; rfl, ?_⟩
    rw [← List.cons_head?_tail hminus, htext, List.cons_append]
  · obtain ⟨parts, letter, rest, htoken, hletter, hnegative, rfl, htext⟩ :=
      exists_of_matchUnsigned h false
    refine ⟨parts, letter, rest, htoken, hletter, ?_, htext⟩
    rw [NumberParts.text, hnegative, if_neg Bool.false_ne_true, List.nil_append]

/-! ### The numbers of texts -/

theorem exists_of_isExponentToken (h : isExponentToken text = true) :
    ∃ letter exponent, (letter = 'e' ∨ letter = 'E') ∧ (exponent = [] ∨ IsExponent exponent) ∧
      text = if exponent = [] then [] else letter :: exponent := by
  cases text with
  | nil => exact ⟨'e', [], .inl rfl, .inl rfl, rfl⟩
  | cons letter text =>
    simp only [isExponentToken, Bool.and_eq_true, Bool.or_eq_true, beq_iff_eq, Bool.not_eq_true',
      List.isEmpty_eq_false_iff, List.all_eq_true, and_assoc] at h
    obtain ⟨hletter, hdigits⟩ := h
    have hexponent : IsExponent text := by
      split at hdigits
      · exact ⟨['+'], _, rfl, .inr (.inl rfl), hdigits⟩
      · exact ⟨['-'], _, rfl, .inr (.inr rfl), hdigits⟩
      · exact ⟨[], _, rfl, .inl rfl, hdigits⟩
    exact ⟨letter, text, hletter, .inr hexponent, (if_neg hexponent.ne_nil).symm⟩

theorem exists_of_isFractionToken (h : isFractionToken text = true) :
    ∃ fraction rest, (∀ c ∈ fraction, c.isDigit = true) ∧ isExponentToken rest = true ∧
      text = (if fraction = [] then [] else '.' :: fraction) ++ rest := by
  unfold isFractionToken at h
  split at h
  · next text =>
    simp only [Bool.and_eq_true, Bool.not_eq_true', List.isEmpty_eq_false_iff] at h
    refine ⟨text.takeWhile Char.isDigit, _, fun c => digit_of_mem_takeWhile, h.2, ?_⟩
    rw [if_neg h.1, List.cons_append, List.takeWhile_append_dropWhile]
  · exact ⟨[], text, List.forall_mem_nil _, h, rfl⟩

theorem exists_of_isUnsignedToken (h : isUnsignedToken text = true)
    (negative : Bool) : ∃ (parts : NumberParts) (letter : Char), parts.IsToken ∧
      (letter = 'e' ∨ letter = 'E') ∧ parts.negative = negative ∧
      text = parts.whole ++ (parts.fractionText ++ parts.exponentText letter) := by
  simp only [isUnsignedToken, Bool.and_eq_true, Bool.or_eq_true, Bool.not_eq_true',
    List.isEmpty_eq_false_iff, beq_iff_eq, bne_iff_ne] at h
  obtain ⟨⟨hne, hzero⟩, hrest⟩ := h
  obtain ⟨fraction, rest, hfraction, htoken, heq⟩ := exists_of_isFractionToken hrest
  obtain ⟨letter, exponent, hletter, hexponent, rfl⟩ := exists_of_isExponentToken htoken
  refine ⟨⟨negative, _, fraction, exponent⟩, letter,
    ⟨hne, fun c => digit_of_mem_takeWhile, hzero, hfraction, hexponent⟩, hletter, rfl, ?_⟩
  exact List.takeWhile_append_dropWhile.symm.trans (congrArg _ heq)

theorem exists_of_isNumberToken (h : isNumberToken token = true) :
    ∃ (parts : NumberParts) (letter : Char), parts.IsToken ∧ (letter = 'e' ∨ letter = 'E') ∧
      token = parts.text letter := by
  unfold isNumberToken at h
  split at h
  · obtain ⟨parts, letter, hparts, hletter, hnegative, rfl⟩ := exists_of_isUnsignedToken h true
    exact ⟨parts, letter, hparts, hletter, by rw [NumberParts.text, if_pos hnegative]; rfl⟩
  · obtain ⟨parts, letter, hparts, hletter, hnegative, rfl⟩ := exists_of_isUnsignedToken h false
    refine ⟨parts, letter, hparts, hletter, ?_⟩
    rw [NumberParts.text, hnegative, if_neg Bool.false_ne_true, List.nil_append]

/-! ### Digits -/

namespace Decimal

open List

variable {digits : List Char}

theorem valueFrom_eq (n : ℕ) (digits : List Char) :
    valueFrom n digits = n * 10 ^ digits.length + valueFrom 0 digits := by
  induction digits generalizing n with
  | nil => simp [valueFrom]
  | cons digit digits ih =>
    calc valueFrom n (digit :: digits)
        = (10 * n + digitValue digit) * 10 ^ digits.length + valueFrom 0 digits := ih _
      _ = n * 10 ^ (digit :: digits).length +
          ((10 * 0 + digitValue digit) * 10 ^ digits.length + valueFrom 0 digits) := by
        rw [length_cons, pow_succ]
        ring
      _ = n * 10 ^ (digit :: digits).length + valueFrom 0 (digit :: digits) :=
        congrArg _ (ih _).symm

theorem valueFrom_append (high low : List Char) :
    valueFrom 0 (high ++ low) = valueFrom 0 high * 10 ^ low.length + valueFrom 0 low := by
  rw [← valueFrom_eq]
  exact foldl_append

theorem digitValue_eq_zero_iff {digit : Char} (h : digit.isDigit = true) :
    digitValue digit = 0 ↔ digit = '0' := by
  have h48 : 48 ≤ digit.toNat := by
    simp only [Char.isDigit, Bool.and_eq_true, decide_eq_true_eq] at h
    exact h.1
  have h0 : '0'.toNat = 48 := rfl
  rw [← Char.toNat_inj, h0, digitValue, h0]
  omega

variable (h : ∀ c ∈ digits, c.isDigit = true)

include h in
theorem valueFrom_eq_zero_iff :
    valueFrom 0 digits = 0 ↔ ∀ c ∈ digits, c = '0' := by
  induction digits with
  | nil => simp [valueFrom]
  | cons digit digits ih =>
    rw [forall_mem_cons] at h
    rw [forall_mem_cons, ← singleton_append, valueFrom_append, Nat.add_eq_zero_iff, ih h.2,
      mul_eq_zero, or_iff_left (by positivity), ← digitValue_eq_zero_iff h.1]
    simp [valueFrom]

include h in
/-- A power of ten divides a number if the number ends with as many zeros. -/
theorem pow_dvd_valueFrom_iff {count : ℕ} (hcount : count ≤ digits.length) :
    10 ^ count ∣ valueFrom 0 digits ↔
      ∀ c ∈ digits.drop (digits.length - count), c = '0' := by
  have hlow : ∀ c ∈ digits.drop (digits.length - count), c.isDigit = true :=
    fun c hc => h c (mem_of_mem_drop hc)
  have hlength : (digits.drop (digits.length - count)).length = count := by
    rw [length_drop]
    omega
  have hlt := valueFrom_lt _ hlow 0
  rw [hlength, zero_add, one_mul] at hlt
  conv_lhs => rw [← take_append_drop (digits.length - count) digits, valueFrom_append, hlength]
  rw [Nat.dvd_add_right (Nat.dvd_mul_left _ _), ← valueFrom_eq_zero_iff hlow]
  refine ⟨fun hdvd => Nat.eq_zero_of_dvd_of_lt hdvd hlt, fun hzero => ?_⟩
  rw [hzero]
  exact dvd_zero _

include h in
/-- A number without leading zeros is smaller than a power of ten that has more digits. -/
theorem not_pow_dvd_valueFrom (hne : digits ≠ []) (hhead : digits.head? ≠ some '0') {count : ℕ}
    (hcount : digits.length ≤ count) :
    ¬10 ^ count ∣ valueFrom 0 digits := by
  intro hdvd
  have hlt : valueFrom 0 digits < 10 ^ count :=
    (valueFrom_lt _ h 0).trans_le (by simpa using Nat.pow_le_pow_right (by decide) hcount)
  have hzero := (valueFrom_eq_zero_iff h).mp (Nat.eq_zero_of_dvd_of_lt hdvd hlt)
  obtain ⟨first, digits, rfl⟩ := exists_cons_of_ne_nil hne
  exact hhead (congrArg some (hzero first mem_cons_self))

theorem valueFrom_dropWhile (digits : List Char) :
    valueFrom 0 (digits.dropWhile (· == '0')) = valueFrom 0 digits := by
  induction digits with
  | nil => rfl
  | cons digit digits ih =>
    by_cases hzero : digit = '0'
    · subst hzero
      exact ih
    · rw [dropWhile_cons_of_neg (by simpa using hzero)]

/-- A multiple of a power of ten is a whole number unless the power has a negative exponent and
does not divide. -/
theorem exists_intCast_iff (v : ℕ) (scale : ℤ) :
    (∃ n : ℤ, (v : ℚ) * 10 ^ scale = n) ↔ 0 ≤ scale ∨ 10 ^ (-scale).toNat ∣ v := by
  rcases le_or_gt 0 scale with hscale | hscale
  · obtain ⟨k, rfl⟩ := Int.eq_ofNat_of_zero_le hscale
    exact iff_of_true ⟨v * 10 ^ k, by push_cast [zpow_natCast]; rfl⟩ (.inl hscale)
  · obtain ⟨k, rfl⟩ : ∃ k : ℕ, scale = -k := ⟨(-scale).toNat, by omega⟩
    have hten : (10 : ℚ) ^ k ≠ 0 := by positivity
    rw [or_iff_right hscale.not_ge, neg_neg, Int.toNat_natCast, zpow_neg, zpow_natCast]
    constructor
    · rintro ⟨n, hn⟩
      rw [mul_inv_eq_iff_eq_mul₀ hten] at hn
      have hint : (v : ℤ) = n * 10 ^ k := by exact_mod_cast hn
      exact Int.natCast_dvd_natCast.mp ⟨n, by rw [hint]; push_cast; ring⟩
    · rintro ⟨n, rfl⟩
      refine ⟨n, ?_⟩
      rw [mul_inv_eq_iff_eq_mul₀ hten]
      push_cast
      ring

end Decimal

theorem NumberParts.exists_value_iff (parts : NumberParts) :
    (∃ n : ℤ, parts.value = n) ↔ 0 ≤ parts.scale ∨
      10 ^ (-parts.scale).toNat ∣ Decimal.valueFrom 0 parts.digits := by
  rw [← Decimal.exists_intCast_iff, value]
  split_ifs
  · constructor
    · rintro ⟨n, hn⟩
      exact ⟨-n, by rw [Int.cast_neg, ← hn, neg_neg]; rfl⟩
    · rintro ⟨n, hn⟩
      exact ⟨-n, by rw [Int.cast_neg, ← hn]; rfl⟩
  · rfl

/-! ### Exact numbers -/

def signedExponent : List Char → List Char
  | [] => []
  | first :: rest => if first = '+' ∨ first = '-' then first :: rest else '+' :: first :: rest

theorem signedExponent_eq (h : exponent = [] ∨ IsExponent exponent) :
    exponentValue (signedExponent exponent) = exponentValue exponent ∧
      (signedExponent exponent = [] ∨ ∃ sign digits, signedExponent exponent = sign :: digits ∧
        (sign = '+' ∨ sign = '-') ∧ digits ≠ [] ∧ ∀ c ∈ digits, c.isDigit = true) := by
  rcases h with rfl | ⟨sign, digits, rfl, rfl | rfl | rfl, hne, hdigits⟩
  · exact ⟨rfl, .inl rfl⟩
  · obtain ⟨first, digits, rfl⟩ := List.exists_cons_of_ne_nil hne
    have hfirst := hdigits first List.mem_cons_self
    have hplus : first ≠ '+' := by rintro rfl; cases hfirst
    have hminus : first ≠ '-' := by rintro rfl; cases hfirst
    have hsigned : signedExponent (first :: digits) = '+' :: first :: digits :=
      if_neg (by simp [hplus, hminus])
    rw [List.nil_append, hsigned]
    refine ⟨?_, .inr ⟨'+', _, rfl, .inl rfl, hne, hdigits⟩⟩
    simp [exponentValue, hplus, hminus]
  · exact ⟨rfl, .inr ⟨'+', digits, rfl, .inl rfl, hne, hdigits⟩⟩
  · exact ⟨rfl, .inr ⟨'-', digits, rfl, .inr rfl, hne, hdigits⟩⟩

namespace NumberParts

variable {parts : NumberParts}

def withSign (parts : NumberParts) : NumberParts :=
  { parts with exponent := signedExponent parts.exponent }

theorem IsToken.withSign (h : parts.IsToken) : parts.withSign.IsToken := by
  refine ⟨h.ne, h.whole, h.zero, h.fraction, ?_⟩
  rcases (signedExponent_eq h.exponent).2 with hempty | ⟨sign, digits, heq, hsign, hne, hdigits⟩
  · exact .inl hempty
  · refine .inr ⟨[sign], digits, heq, .inr ?_, hne, hdigits⟩
    rcases hsign with rfl | rfl
    · exact .inl rfl
    · exact .inr rfl

theorem IsToken.value_withSign (h : parts.IsToken) : parts.withSign.value = parts.value := by
  have hscale : parts.withSign.scale = parts.scale := by
    rw [scale, scale, NumberParts.withSign, (signedExponent_eq h.exponent).1]
  have hmagnitude : parts.withSign.magnitude = parts.magnitude := by
    rw [magnitude, magnitude, hscale]
    rfl
  rw [value, value, hmagnitude]
  rfl

def numeral (parts : NumberParts) : List Char := parts.withSign.text 'e'

theorem IsToken.isNumeral_numeral (h : parts.IsToken) :
    Numeral.isNumeral parts.numeral = true ∨ parts.value = 0 := by
  have hsigned := h.withSign
  have hdelimited : JsonTree.Delimited [] := by simp [JsonTree.Delimited]
  obtain ⟨hstops, hpoint⟩ := parts.withSign.head?_exponentText_append (.inl rfl) hdelimited
  rw [List.append_nil] at hstops hpoint
  obtain ⟨hwhole, hrest⟩ := span_digits hsigned.whole
    (parts.withSign.stopsDigits_fractionText_append hstops)
  have hexponent : Numeral.isExponent (parts.withSign.exponentText 'e') = true := by
    unfold exponentText
    split_ifs with hempty
    · rfl
    · obtain ⟨sign, digits, heq, hsign, hne, hdigits⟩ :=
        (signedExponent_eq h.exponent).2.resolve_left hempty
      rw [NumberParts.withSign, heq]
      rcases hsign with rfl | rfl <;> simpa [Numeral.isExponent, hne] using hdigits
  have hfraction : Numeral.isFraction
      (parts.withSign.fractionText ++ parts.withSign.exponentText 'e') = true := by
    unfold fractionText
    split_ifs with hempty
    · rw [List.nil_append]
      unfold Numeral.isFraction
      split
      · next rest heq => exact absurd (by rw [heq]; rfl) hpoint
      · exact hexponent
    · obtain ⟨hdigits, hafter⟩ := span_digits hsigned.fraction hstops
      simp [Numeral.isFraction, hdigits, hafter, hempty, hexponent]
  have hunsigned : Numeral.isUnsigned (parts.withSign.whole ++
      (parts.withSign.fractionText ++ parts.withSign.exponentText 'e')) = true := by
    simp only [Numeral.isUnsigned, hwhole, hrest, hfraction, Bool.and_true]
    rcases hsigned.zero with hzero | hzero
    · simp [hzero]
    · simp [hsigned.ne, hzero]
  rw [numeral, text]
  split_ifs with hnegative
  · by_cases hzero : parts.withSign.whole ++
        (parts.withSign.fractionText ++ parts.withSign.exponentText 'e') = ['0']
    · refine .inr ?_
      obtain ⟨first, whole, hcons⟩ := List.exists_cons_of_ne_nil hsigned.ne
      rw [hcons] at hzero
      obtain ⟨rfl, hempty⟩ := List.cons.inj hzero
      obtain ⟨rfl, hempty⟩ := List.append_eq_nil_iff.mp hempty
      have hnone : parts.withSign.fraction = [] := by
        by_contra hne
        rw [fractionText, if_neg hne] at hempty
        cases hempty
      rw [← h.value_withSign, value, magnitude, digits, hcons, hnone]
      simp [Decimal.valueFrom, Decimal.digitValue]
    · refine .inl ?_
      rw [List.singleton_append, Numeral.isNumeral, hunsigned, Bool.and_true, bne_iff_ne]
      exact hzero
  · refine .inl ?_
    rw [List.nil_append]
    unfold Numeral.isNumeral
    split
    · next rest heq => exact absurd (by rw [heq]; rfl) (hsigned.head?_ne _)
    · exact hunsigned

end NumberParts

def readExact (token : List Char) : Option JsonNumber :=
  if h : Numeral.isNumeral token = true then some ⟨token, h⟩
  else if h : Numeral.isNumeral (numberParts token).numeral = true then some ⟨_, h⟩
  else none

theorem readExact_text {x : Option JsonNumber} (h : x ≠ NumberFormat.numerals.negativeZero) :
    readExact (NumberFormat.numerals.text x) = x := by
  cases x with
  | some number => exact dif_pos number.isNumeral
  | none => exact absurd rfl h

/-- The numbers with their exact values: a numeral, or nothing for a zero with a sign. -/
def NumberFormat.exact : NumberFormat (Option JsonNumber) :=
  { NumberFormat.numerals with
    read := readExact
    read_text := fun _ => readExact_text }

def exactValue : Option JsonNumber → ℚ
  | some number => decimalValue number.numeral
  | none => 0

/-- A number is read with its exact value. -/
theorem exactValue_read (h : isNumberToken token = true) :
    exactValue (NumberFormat.exact.read token) = decimalValue token := by
  obtain ⟨parts, letter, hparts, hletter, rfl⟩ := exists_of_isNumberToken h
  have hgroups := hparts.numberParts_text hletter
  simp only [NumberFormat.exact, readExact, hgroups]
  split_ifs with hnumeral hsigned
  · rfl
  · calc decimalValue parts.numeral = parts.withSign.value :=
          congrArg _ (hparts.withSign.numberParts_text (.inl rfl))
      _ = decimalValue (parts.text letter) := by rw [hparts.value_withSign, decimalValue, hgroups]
  · rw [decimalValue, hgroups, hparts.isNumeral_numeral.resolve_left hsigned]
    rfl

/-- Numbers of JavaScript, with the doubles that they are: a number is read as the double next to
its exact value. -/
structure DoubleFormat (ν : Type) extends NumberFormat ν where
  value : ν → Double
  value_read : ∀ token, isNumberToken token = true →
    value (read token) = Double.ofRat (decimalValue token)

/-- The exact numbers stand for the doubles next to them. -/
def DoubleFormat.exact : DoubleFormat (Option JsonNumber) where
  toNumberFormat := NumberFormat.exact
  value number := Double.ofRat (exactValue number)
  value_read _ h := congrArg Double.ofRat (exactValue_read h)
