import ApiTruth.Foundation.Js.Arrangements

/-!
# Parsing JSON texts

`JSON.parse` reads a JSON text, with white space between its tokens, into a tree; of members with
one name the last counts.  A text that was written for a normal tree is read back as this tree.

## Main definitions

* `JsonTree.readUnits`, `JsonTree.readNumber` : the tokens.
* `JsonTree.readValue`, `JsonTree.readItems`, `JsonTree.readMembers` : the values, with a bound on
  the number of calls.
* `JsonTree.parse` : `JSON.parse`.

## Main results

* `JsonTree.readUnits_quote` : a string literal is read back.
* `JsonTree.parse_chars` : the text of a normal tree is read back.
* `JsonTree.chars_canon_inj` : representatives have equal texts only if they are equal.
-/

namespace JsonTree

open List Option JsString Bool

variable {ν : Type}

/-! ### Tokens -/

def isJsonSpace (c : Char) : Bool := c == ' ' || c == '\t' || c == '\n' || c == '\r'

def skipSpace (cs : List Char) : List Char := cs.dropWhile isJsonSpace

def hexValue (c : Char) : Option ℕ :=
  if '0' ≤ c ∧ c ≤ '9' then some (c.toNat - 48)
  else if 'a' ≤ c ∧ c ≤ 'f' then some (c.toNat - 87)
  else if 'A' ≤ c ∧ c ≤ 'F' then some (c.toNat - 55)
  else none

def hexUnit (a b c d : Char) : Option UInt16 := do
  let a ← hexValue a
  let b ← hexValue b
  let c ← hexValue c
  let d ← hexValue d
  return UInt16.ofNat (((a * 16 + b) * 16 + c) * 16 + d)

def shortEscape (c : Char) : Option UInt16 :=
  if c = '"' ∨ c = '\\' ∨ c = '/' then some (UInt16.ofNat c.toNat)
  else if c = 'b' then some 0x08
  else if c = 't' then some 0x09
  else if c = 'n' then some 0x0a
  else if c = 'f' then some 0x0c
  else if c = 'r' then some 0x0d
  else none

/-- The code units of a string literal behind its opening quote, and what follows the literal. -/
def readUnits : List Char → Option (JsString × List Char)
  | '"' :: rest => some ([], rest)
  | '\\' :: 'u' :: a :: b :: c :: d :: rest => do
    let unit ← hexUnit a b c d
    let (units, after) ← readUnits rest
    return (unit :: units, after)
  | '\\' :: c :: rest => do
    let unit ← shortEscape c
    let (units, after) ← readUnits rest
    return (unit :: units, after)
  | c :: rest =>
    if c.toNat < 0x20 then none
    else do
      let (units, after) ← readUnits rest
      return (JsString.unitsOf c.toNat ++ units, after)
  | [] => none

def isNumberish (c : Char) : Bool := isNumberChar c || c == 'E'

def isExponentToken : List Char → Bool
  | [] => true
  | c :: cs =>
    let digits := match cs with
      | '+' :: digits => digits
      | '-' :: digits => digits
      | digits => digits
    (c == 'e' || c == 'E') && !digits.isEmpty && digits.all Char.isDigit

/-- An optional fraction, followed by an optional exponent. -/
def isFractionToken : List Char → Bool
  | '.' :: cs => !(cs.takeWhile Char.isDigit).isEmpty && isExponentToken (cs.dropWhile Char.isDigit)
  | cs => isExponentToken cs

/-- An integer part without leading zeros, a fraction and an exponent. -/
def isUnsignedToken (cs : List Char) : Bool :=
  let digits := cs.takeWhile Char.isDigit
  !digits.isEmpty && (digits == ['0'] || digits.head? != some '0')
    && isFractionToken (cs.dropWhile Char.isDigit)

def isNumberToken : List Char → Bool
  | '-' :: cs => isUnsignedToken cs
  | cs => isUnsignedToken cs

/-- The number at the start of a text, and what follows it. -/
def readNumber (format : NumberFormat ν) (cs : List Char) : Option (JsonTree ν × List Char) :=
  let token := cs.takeWhile isNumberish
  if isNumberToken token then some (.num (format.read token), cs.dropWhile isNumberish) else none

/-- The value of a word whose first letter has been read, and what follows the word. -/
def readWord (value : JsonTree ν) (word cs : List Char) : Option (JsonTree ν × List Char) :=
  if cs.take word.length = word then some (value, cs.drop word.length) else none

/-! ### Values -/

section Values

variable (format : NumberFormat ν)

mutual

/-- The value at the start of a text, and what follows it. -/
def readValue : ℕ → List Char → Option (JsonTree ν × List Char)
  | 0, _ => none
  | bound + 1, cs =>
    match skipSpace cs with
    | [] => none
    | c :: rest =>
      if c = 'n' then readWord .null ['u', 'l', 'l'] rest
      else if c = 't' then readWord (.bool true) ['r', 'u', 'e'] rest
      else if c = 'f' then readWord (.bool false) ['a', 'l', 's', 'e'] rest
      else if c = '"' then (readUnits rest).map fun (units, after) => (.str units, after)
      else if c = '[' then
        match skipSpace rest with
        | ']' :: after => some (.arr [], after)
        | _ => (readItems bound rest).map fun (items, after) => (.arr items, after)
      else if c = '{' then
        match skipSpace rest with
        | '}' :: after => some (.obj [], after)
        | _ => (readMembers bound rest).map fun (members, after) =>
          (.obj (OrderedMap.ofEntries members).entries, after)
      else readNumber format (c :: rest)

def readItems : ℕ → List Char → Option (List (JsonTree ν) × List Char)
  | 0, _ => none
  | bound + 1, cs => do
    let (item, after) ← readValue bound cs
    match skipSpace after with
    | ',' :: rest => do
      let (items, after) ← readItems bound rest
      return (item :: items, after)
    | ']' :: rest => return ([item], rest)
    | _ => none

/-- The members of an object and what follows it. -/
def readMembers : ℕ → List Char → Option (List (JsString × JsonTree ν) × List Char)
  | 0, _ => none
  | bound + 1, cs =>
    match skipSpace cs with
    | '"' :: rest => do
      let (name, after) ← readUnits rest
      match skipSpace after with
      | ':' :: rest => do
        let (value, after) ← readValue bound rest
        match skipSpace after with
        | ',' :: rest => do
          let (members, after) ← readMembers bound rest
          return ((name, value) :: members, after)
        | '}' :: rest => return ([(name, value)], rest)
        | _ => none
      | _ => none
    | _ => none

end

/-- `JSON.parse`. -/
def parse (text : List Char) : Option (JsonTree ν) :=
  match readValue format (2 * text.length) text with
  | some (t, rest) => if skipSpace rest = [] then some t else none
  | none => none

end Values

/-! ### Literals are read back -/

theorem hexValue_hexDigit {n : ℕ} (h : n < 16) : hexValue (hexDigit n) = some n := by
  have hall : ∀ n : Fin 16, hexValue (hexDigit n) = some n.1 := by decide
  exact hall ⟨n, h⟩

theorem hexUnit_hexDigit {unit : ℕ} (h : unit < 0x10000) :
    hexUnit (hexDigit (unit / 4096)) (hexDigit (unit / 256 % 16)) (hexDigit (unit / 16 % 16))
      (hexDigit (unit % 16)) = some (UInt16.ofNat unit) := by
  have hunit : ((unit / 4096 * 16 + unit / 256 % 16) * 16 + unit / 16 % 16) * 16 + unit % 16 =
      unit := by omega
  rw [hexUnit, hexValue_hexDigit (by omega), hexValue_hexDigit (by omega),
    hexValue_hexDigit (by omega), hexValue_hexDigit (by omega)]
  simp only [bind_eq_bind, bind_some, hunit]
  rfl

theorem readUnits_plain {c : Char} (hquote : c ≠ '"') (hslash : c ≠ '\\') (hcontrol : 0x20 ≤ c.toNat)
    (cs : List Char) : readUnits (c :: cs) =
      (readUnits cs).map fun read => (unitsOf c.toNat ++ read.1, read.2) := by
  rw [readUnits.eq_def]
  split
  · simp_all
  · simp_all
  · simp_all
  · next d rest heq =>
    cases heq
    rw [if_neg (by omega)]
    cases readUnits cs <;> rfl
  · simp_all

theorem readUnits_escape {point : ℕ} (h : point < 0x110000) (cs : List Char) :
    readUnits (escape point ++ cs) =
      (readUnits cs).map fun read => (unitsOf point ++ read.1, read.2) := by
  have hshort {c : Char} {unit : UInt16} (hunit : shortEscape c = some unit) (hu : c ≠ 'u') :
      readUnits ('\\' :: c :: cs) = (readUnits cs).map fun read => (unit :: read.1, read.2) := by
    rw [readUnits.eq_def]
    split
    · simp_all
    · simp_all
    · next d rest hlong heq =>
      obtain ⟨rfl, rfl⟩ := List.cons.inj (List.cons.inj heq).2
      rw [hunit]
      cases readUnits cs <;> rfl
    · next d rest _ hother heq =>
      cases heq
      exact (hother _ _ rfl rfl).elim
    · simp_all
  unfold escape
  split_ifs with h1 h2 h3 h4 h5 h6 h7 h8
  · subst h1
    exact hshort rfl (by decide)
  · subst h2
    exact hshort rfl (by decide)
  · subst h3
    exact hshort rfl (by decide)
  · subst h4
    exact hshort rfl (by decide)
  · subst h5
    exact hshort rfl (by decide)
  · subst h6
    exact hshort rfl (by decide)
  · subst h7
    exact hshort rfl (by decide)
  · have hlt : point < 0x10000 := by omega
    simp only [unicodeEscape, cons_append, nil_append]
    rw [readUnits, hexUnit_hexDigit hlt, unitsOf, if_pos hlt]
    cases readUnits cs <;> rfl
  · have hvalid : point.isValidChar := by
      omega
    have hpoint : (Char.ofNat point).toNat = point := by
      rw [Char.ofNat, dif_pos hvalid]
      rfl
    rw [singleton_append, readUnits_plain _ _ _ cs, hpoint]
    · intro heq
      exact h1 (hpoint.symm.trans (congrArg Char.toNat heq))
    · intro heq
      exact h2 (hpoint.symm.trans (congrArg Char.toNat heq))
    · omega

theorem readUnits_points {points : List ℕ} (h : ∀ point ∈ points, point < 0x110000)
    (rest : List Char) : readUnits (points.flatMap escape ++ '"' :: rest) =
      some (points.flatMap unitsOf, rest) := by
  induction points with
  | nil => rfl
  | cons point points ih =>
    rw [flatMap_cons, append_assoc, readUnits_escape (h point mem_cons_self),
      ih fun p hp => h p (mem_cons_of_mem _ hp)]
    rfl

/-- A string literal is read back. -/
theorem readUnits_quote (s : JsString) (rest : List Char) :
    readUnits ((JsString.codePoints s).flatMap escape ++ ['"'] ++ rest) = some (s, rest) := by
  rw [append_assoc, singleton_append, readUnits_points codePoints_lt, flatMap_codePoints]

/-! ### Numbers are read back -/

theorem isExponentToken_of_isExponent : ∀ {cs : List Char}, Numeral.isExponent cs = true →
    isExponentToken cs = true
  | [], _ => rfl
  | c :: cs, h => by
    unfold Numeral.isExponent at h
    split at h
    · next heq => cases heq
    · next sign digits heq =>
      cases heq
      simp only [and_eq_true, or_eq_true, beq_iff_eq] at h
      obtain ⟨⟨rfl | rfl, hne⟩, hdigits⟩ := h
      · simp [isExponentToken, hne, hdigits]
      · simp [isExponentToken, hne, hdigits]
    · cases h

variable {cs : List Char}

theorem isFractionToken_of_ne (hdot : ∀ rest, cs = '.' :: rest → False) :
    isFractionToken cs = isExponentToken cs := by
  unfold isFractionToken
  split
  · next rest => exact (hdot rest rfl).elim
  · rfl

theorem isFractionToken_of_isFraction (h : Numeral.isFraction cs = true) :
    isFractionToken cs = true := by
  unfold Numeral.isFraction at h
  split at h
  · rw [and_eq_true] at h
    exact (and_eq_true _ _).mpr ⟨h.1, isExponentToken_of_isExponent h.2⟩
  · next hdot =>
    rw [isFractionToken_of_ne hdot]
    exact isExponentToken_of_isExponent h

theorem isUnsignedToken_of_isUnsigned (h : Numeral.isUnsigned cs = true) :
    isUnsignedToken cs = true := by
  unfold Numeral.isUnsigned at h
  unfold isUnsignedToken
  rw [and_eq_true] at h ⊢
  exact ⟨h.1, isFractionToken_of_isFraction h.2⟩

theorem isNumberToken_of_ne (hminus : ∀ rest, cs = '-' :: rest → False) :
    isNumberToken cs = isUnsignedToken cs := by
  unfold isNumberToken
  split
  · next rest => exact (hminus rest rfl).elim
  · rfl

theorem isNumberToken_of_isNumeral (h : Numeral.isNumeral cs = true) :
    isNumberToken cs = true := by
  unfold Numeral.isNumeral at h
  split at h
  · exact isUnsignedToken_of_isUnsigned (and_eq_true _ _ ▸ h).2
  · next hminus =>
    rw [isNumberToken_of_ne hminus]
    exact isUnsignedToken_of_isUnsigned h

def Delimited (cs : List Char) : Prop := ∀ c ∈ cs.head?, isNumberish c = false

theorem readNumber_text (format : NumberFormat ν) {x : ν} (hx : x ≠ format.negativeZero)
    {rest : List Char} (hrest : Delimited rest) :
    readNumber format (format.text x ++ rest) = some (.num x, rest) := by
  have hchars : ∀ c ∈ format.text x, isNumberish c = true := fun c hc =>
    (or_eq_true _ _).mpr (.inl ((Numeral.isNumeral_chars (format.isNumeral_text x)).2 c hc))
  have htoken : (format.text x ++ rest).takeWhile isNumberish = format.text x := by
    rw [takeWhile_append_of_pos hchars]
    cases rest with
    | nil => simp
    | cons c cs => simp [hrest c (by simp)]
  have hafter : (format.text x ++ rest).dropWhile isNumberish = rest := by
    rw [dropWhile_append_of_pos hchars]
    cases rest with
    | nil => rfl
    | cons c cs => simp [hrest c (by simp)]
  rw [readNumber]
  simp only [htoken, hafter]
  rw [if_pos (isNumberToken_of_isNumeral (format.isNumeral_text x)), format.read_text x hx]

/-! ### Values are read back -/

section Read

variable {format : NumberFormat ν}

theorem skipSpace_cons {c : Char} (h : isJsonSpace c = false) (cs : List Char) :
    skipSpace (c :: cs) = c :: cs := by
  rw [skipSpace, dropWhile_cons, if_neg (by simp [h])]

/-- Texts of values start with a character that is neither white space nor a bracket. -/
theorem chars_eq_cons (t : JsonTree ν) : ∃ c cs, chars format t = c :: cs ∧
    isJsonSpace c = false ∧ c ≠ ']' := by
  cases t with
  | num x =>
    obtain ⟨hne, hall⟩ := Numeral.isNumeral_chars (format.isNumeral_text x)
    obtain ⟨c, cs, heq⟩ := exists_cons_of_ne_nil hne
    have hc : isNumberChar c = true := hall c (heq ▸ mem_cons_self)
    refine ⟨c, cs, heq, ?_, ?_⟩
    · by_contra hspace
      simp only [isJsonSpace, not_eq_false, or_eq_true, beq_iff_eq] at hspace
      rcases hspace with ((rfl | rfl) | rfl) | rfl <;> cases hc
    · rintro rfl
      cases hc
  | bool b => cases b <;> exact ⟨_, _, rfl, rfl, by decide⟩
  | arr items => cases items <;> exact ⟨_, _, rfl, rfl, by decide⟩
  | obj members =>
    cases members with
    | nil => exact ⟨_, _, rfl, rfl, by decide⟩
    | cons m ms =>
      exact ⟨_, _, rfl, rfl, by decide⟩
  | _ => exact ⟨_, _, rfl, rfl, by decide⟩

theorem delimited_itemsTail (items : List (JsonTree ν)) (rest : List Char) :
    Delimited (itemsTail format items ++ rest) := by
  cases items <;> · intro c hc; simp [itemsTail] at hc; subst hc; rfl

theorem delimited_membersTail (members : List (JsString × JsonTree ν)) (rest : List Char) :
    Delimited (membersTail format members ++ rest) := by
  cases members <;> · intro c hc; simp [membersTail] at hc; subst hc; rfl

/-- The text of the value is read back, whatever follows it. -/
def Reads (format : NumberFormat ν) (t : JsonTree ν) : Prop :=
  ∀ bound rest, 2 * (chars format t).length ≤ bound → Delimited rest →
    readValue format bound (chars format t ++ rest) = some (t, rest)

theorem readItems_chars {items : List (JsonTree ν)} {item : JsonTree ν}
    (h : ∀ i ∈ item :: items, Reads format i) {bound : ℕ} (rest : List Char)
    (hbound : 2 * ((chars format item).length + (itemsTail format items).length) + 1 ≤ bound) :
    readItems format bound (chars format item ++ (itemsTail format items ++ rest)) =
      some (item :: items, rest) := by
  induction items generalizing item bound with
  | nil =>
    obtain ⟨bound, rfl⟩ : ∃ n, bound = n + 1 := ⟨bound - 1, by omega⟩
    rw [readItems, h item mem_cons_self bound _ (by omega) (delimited_itemsTail [] rest)]
    rfl
  | cons next items ih =>
    obtain ⟨bound, rfl⟩ : ∃ n, bound = n + 1 := ⟨bound - 1, by omega⟩
    have hnext := @ih next (fun i hi => h i (mem_cons_of_mem _ hi)) bound (by
      simp only [itemsTail, length_cons, length_append] at hbound
      omega)
    rw [readItems, h item mem_cons_self bound _ (by omega)
      (delimited_itemsTail (next :: items) rest)]
    simp only [itemsTail, cons_append, append_assoc, bind_eq_bind,
      bind_some, skipSpace_cons (c := ',') rfl, hnext]
    rfl

theorem readMembers_chars {members : List (JsString × JsonTree ν)} {name : JsString}
    {value : JsonTree ν} (h : ∀ m ∈ (name, value) :: members, Reads format m.2) {bound : ℕ}
    (rest : List Char) (hbound : 2 * ((quote name).length + (chars format value).length +
      (membersTail format members).length) + 1 ≤ bound) :
    readMembers format bound (quote name ++ ':' :: (chars format value ++
      (membersTail format members ++ rest))) = some ((name, value) :: members, rest) := by
  induction members generalizing name value bound with
  | nil =>
    obtain ⟨bound, rfl⟩ : ∃ n, bound = n + 1 := ⟨bound - 1, by omega⟩
    have hfirst : Reads format value := h (name, value) mem_cons_self
    have hvalue := hfirst bound _ (by omega) (@delimited_membersTail ν format [] rest)
    rw [readMembers, quote, cons_append, skipSpace_cons rfl]
    simp only [readUnits_quote, bind_eq_bind, bind_some, skipSpace_cons (c := ':') rfl, hvalue]
    rfl
  | cons next members ih =>
    obtain ⟨nextName, nextValue⟩ := next
    obtain ⟨bound, rfl⟩ : ∃ n, bound = n + 1 := ⟨bound - 1, by omega⟩
    have hfirst : Reads format value := h (name, value) mem_cons_self
    have hvalue := hfirst bound _ (by omega)
      (@delimited_membersTail ν format ((nextName, nextValue) :: members) rest)
    have hnext := @ih nextName nextValue (fun m hm => h m (mem_cons_of_mem _ hm)) bound (by
      simp only [membersTail, length_cons, length_append] at hbound
      omega)
    rw [readMembers, quote, cons_append, skipSpace_cons rfl]
    simp only [readUnits_quote, bind_eq_bind, bind_some, skipSpace_cons (c := ':') rfl, hvalue]
    simp only [membersTail, cons_append, append_assoc, skipSpace_cons (c := ',') rfl,
      hnext, bind_some]
    rfl

theorem readValue_bracket (bound : ℕ) (rest : List Char) :
    readValue format (bound + 1) ('[' :: rest) = match skipSpace rest with
      | ']' :: after => some (.arr [], after)
      | _ => (readItems format bound rest).map fun (items, after) => (.arr items, after) := rfl

theorem readValue_brace (bound : ℕ) (rest : List Char) :
    readValue format (bound + 1) ('{' :: rest) = match skipSpace rest with
      | '}' :: after => some (.obj [], after)
      | _ => (readMembers format bound rest).map fun (members, after) =>
        (.obj (OrderedMap.ofEntries members).entries, after) := rfl

theorem reads_arr {items : List (JsonTree ν)} (h : ∀ item ∈ items, Reads format item) :
    Reads format (.arr items) := by
  intro bound rest hbound _
  cases items with
  | nil =>
    obtain ⟨bound, rfl⟩ : ∃ n, bound = n + 1 := ⟨bound - 1, by simp [chars] at hbound; omega⟩
    rfl
  | cons item items =>
    simp only [chars, length_cons, length_append] at hbound
    obtain ⟨bound, rfl⟩ : ∃ n, bound = n + 1 := ⟨bound - 1, by omega⟩
    have hitems := @readItems_chars ν format items item h bound rest (by omega)
    obtain ⟨c, cs, hc, hspace, hbracket⟩ := @chars_eq_cons ν format item
    rw [chars, cons_append, append_assoc, readValue_bracket, hitems]
    rw [hc, cons_append, skipSpace_cons hspace]
    split
    · next heq => exact (hbracket (List.cons.inj heq).1).elim
    · rfl

theorem reads_obj {members : List (JsString × JsonTree ν)} (hnames : (members.map Prod.fst).Nodup)
    (h : ∀ m ∈ members, Reads format m.2) : Reads format (.obj members) := by
  intro bound rest hbound _
  cases members with
  | nil =>
    obtain ⟨bound, rfl⟩ : ∃ n, bound = n + 1 := ⟨bound - 1, by simp [chars] at hbound; omega⟩
    rfl
  | cons member members =>
    obtain ⟨name, value⟩ := member
    simp only [chars, length_cons, length_append] at hbound
    obtain ⟨bound, rfl⟩ : ∃ n, bound = n + 1 := ⟨bound - 1, by omega⟩
    have hmembers := @readMembers_chars ν format members name value h bound rest (by omega)
    rw [chars, cons_append, append_assoc, cons_append, append_assoc, readValue_brace, hmembers]
    rw [map_some, quote, cons_append, skipSpace_cons rfl]
    simp only [OrderedMap.entries_ofEntries hnames]
    rfl

variable {t : JsonTree ν}

theorem reads_of_isNormal (h : t.IsNormal format) : Reads format t := by
  induction h with
  | null =>
    intro bound rest hbound _
    obtain ⟨bound, rfl⟩ : ∃ n, bound = n + 1 := ⟨bound - 1, by simp [chars] at hbound; omega⟩
    rfl
  | bool b =>
    intro bound rest hbound _
    obtain ⟨bound, rfl⟩ : ∃ n, bound = n + 1 :=
      ⟨bound - 1, by cases b <;> simp [chars] at hbound <;> omega⟩
    cases b <;> rfl
  | @num x hx =>
    intro bound rest hbound hrest
    obtain ⟨c, cs, hc, hspace, -⟩ := @chars_eq_cons ν format (.num x)
    have hnumber : isNumberChar c = true :=
      (Numeral.isNumeral_chars (format.isNumeral_text x)).2 c (by
        rw [chars] at hc
        rw [hc]
        exact mem_cons_self)
    obtain ⟨bound, rfl⟩ : ∃ n, bound = n + 1 := ⟨bound - 1, by simp [hc] at hbound; omega⟩
    have hne {d : Char} (hd : isNumberChar d = false) : c ≠ d := by
      rintro rfl
      rw [hnumber] at hd
      cases hd
    have hread := readNumber_text format hx hrest
    rw [chars] at hc ⊢
    rw [hc, cons_append] at hread ⊢
    rw [readValue, skipSpace_cons hspace]
    simp only [hne (d := 'n') rfl, hne (d := 't') rfl, hne (d := 'f') rfl, hne (d := '"') rfl,
      hne (d := '[') rfl, hne (d := '{') rfl, if_false]
    exact hread
  | str s =>
    intro bound rest hbound _
    obtain ⟨bound, rfl⟩ : ∃ n, bound = n + 1 := ⟨bound - 1, by simp [chars, quote] at hbound; omega⟩
    have hread := readUnits_quote s rest
    have hvalue (text : List Char) : readValue format (bound + 1) ('"' :: text) =
        (readUnits text).map fun (units, after) => (.str units, after) := rfl
    rw [chars, quote, cons_append, hvalue, hread]
    rfl
  | arr _ ih => exact reads_arr ih
  | obj hnames _ ih => exact reads_obj hnames ih

/-- `JSON.parse` reads the text of a normal value back. -/
theorem parse_chars (h : t.IsNormal format) :
    parse format (chars format t) = some t := by
  have hread := reads_of_isNormal h (2 * (chars format t).length) [] le_rfl (by simp [Delimited])
  rw [append_nil] at hread
  rw [parse, hread]
  rfl

/-- Representatives of values without repeated names have equal texts only if they are equal. -/
theorem chars_canon_inj [DecidableEq ν] {t u : JsonTree ν} (ht : t.WellFormed)
    (hu : u.WellFormed) : chars format (canon format t) = chars format (canon format u) ↔
      canon format t = canon format u := by
  refine ⟨fun h => ?_, fun h => by rw [h]⟩
  have hparse := parse_chars (isNormal_canon format ht)
  rw [h, parse_chars (isNormal_canon format hu)] at hparse
  exact (Option.some.inj hparse).symm

end Read

end JsonTree
