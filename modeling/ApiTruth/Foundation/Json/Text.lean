import ApiTruth.Foundation.Json.Value
import Mathlib.Data.Fintype.Basic
import Mathlib.Tactic.FinCases

/-!
# Texts of JSON values

`Json.stringify` writes a value without white space and with the members of an object in their
order, and `Json.canonicalJson` writes the representative with sorted members.  A text determines
its value: the texts of values are a prefix code as long as a numeral is not followed by a
character that could continue it.  Hence two values have the same canonical text exactly when
their canonical representatives agree, which is what makes canonical texts usable as keys.

## Main definitions

* `Json.chars`, `Json.stringify`, `Json.canonicalJson`.

## Main results

* `Json.chars_append_inj` : the texts of values form a prefix code.
* `Json.stringify_injective`, `Json.canonicalJson_inj`.
-/

namespace Json

open List

/-! ### String literals -/

def hexDigit (n : ℕ) : Char := if n < 10 then Char.ofNat (48 + n) else Char.ofNat (87 + n)

def escapeControl (c : Char) : List Char :=
  if c = Char.ofNat 8 then ['\\', 'b']
  else if c = '\t' then ['\\', 't']
  else if c = '\n' then ['\\', 'n']
  else if c = Char.ofNat 12 then ['\\', 'f']
  else if c = '\r' then ['\\', 'r']
  else ['\\', 'u', '0', '0', hexDigit (c.toNat / 16), hexDigit (c.toNat % 16)]

/-- A character inside a string literal. -/
def escape (c : Char) : List Char :=
  if c = '"' then ['\\', '"']
  else if c = '\\' then ['\\', '\\']
  else if c.toNat < 32 then escapeControl c
  else [c]

def hexValue (c : Char) : ℕ := if c.toNat < 58 then c.toNat - 48 else c.toNat - 87

/-- The first character of the contents of a string literal and what follows it. -/
def unescape : List Char → Option (Char × List Char)
  | '\\' :: 'u' :: '0' :: '0' :: h :: l :: cs => some (Char.ofNat (16 * hexValue h + hexValue l), cs)
  | '\\' :: 'b' :: cs => some (Char.ofNat 8, cs)
  | '\\' :: 't' :: cs => some ('\t', cs)
  | '\\' :: 'n' :: cs => some ('\n', cs)
  | '\\' :: 'f' :: cs => some (Char.ofNat 12, cs)
  | '\\' :: 'r' :: cs => some ('\r', cs)
  | '\\' :: c :: cs => some (c, cs)
  | '"' :: _ => none
  | c :: cs => some (c, cs)
  | [] => none

theorem unescape_escapeControl (n : Fin 32) (cs : List Char) :
    unescape (escapeControl (Char.ofNat n) ++ cs) = some (Char.ofNat n, cs) := by
  fin_cases n <;> rfl

theorem unescape_plain {c : Char} (hquote : c ≠ '"') (hslash : c ≠ '\\') (cs : List Char) :
    unescape (c :: cs) = some (c, cs) := by
  unfold unescape
  split <;> simp_all

theorem unescape_escape (c : Char) (cs : List Char) :
    unescape (escape c ++ cs) = some (c, cs) := by
  unfold escape
  split_ifs with hquote hslash hcontrol
  · subst hquote
    rfl
  · subst hslash
    rfl
  · have h := unescape_escapeControl ⟨c.toNat, hcontrol⟩ cs
    simpa [Char.ofNat_toNat] using h
  · exact unescape_plain hquote hslash cs

/-- A string literal. -/
def quote (s : String) : List Char := '"' :: (s.toList.flatMap escape ++ ['"'])

theorem escapes_inj {cs ds u v : List Char}
    (h : cs.flatMap escape ++ '"' :: u = ds.flatMap escape ++ '"' :: v) : cs = ds ∧ u = v := by
  induction cs generalizing ds with
  | nil =>
    cases ds with
    | nil => simpa using h
    | cons d ds =>
      have hdecode := congrArg unescape h
      rw [flatMap_cons, append_assoc, unescape_escape] at hdecode
      cases hdecode
  | cons c cs ih =>
    have hdecode := congrArg unescape h
    rw [flatMap_cons, append_assoc, unescape_escape] at hdecode
    cases ds with
    | nil => cases hdecode
    | cons d ds =>
      rw [flatMap_cons, append_assoc, unescape_escape] at hdecode
      obtain ⟨rfl, hrest⟩ := Prod.mk.inj (Option.some.inj hdecode)
      obtain ⟨rfl, huv⟩ := ih hrest
      exact ⟨rfl, huv⟩

variable {u v : List Char} {i j : Json} {ms : List (String × Json)}

theorem quote_append_inj {s t : String} (h : quote s ++ u = quote t ++ v) :
    s = t ∧ u = v := by
  simp only [quote, cons_append, append_assoc, nil_append, List.cons.injEq, true_and] at h
  obtain ⟨hst, huv⟩ := escapes_inj h
  exact ⟨String.toList_injective hst, huv⟩

/-! ### Texts -/

mutual

/-- The text of a value. -/
def chars : Json → List Char
  | .null => ['n', 'u', 'l', 'l']
  | .bool true => ['t', 'r', 'u', 'e']
  | .bool false => ['f', 'a', 'l', 's', 'e']
  | .num n => n.numeral
  | .str s => quote s
  | .arr [] => ['[', ']']
  | .arr (x :: xs) => '[' :: (chars x ++ itemsTail xs)
  | .obj [] => ['{', '}']
  | .obj ((k, v) :: ms) => '{' :: (quote k ++ ':' :: (chars v ++ membersTail ms))

def itemsTail : List Json → List Char
  | [] => [']']
  | x :: xs => ',' :: (chars x ++ itemsTail xs)

def membersTail : List (String × Json) → List Char
  | [] => ['}']
  | (k, v) :: ms => ',' :: (quote k ++ ':' :: (chars v ++ membersTail ms))

end

/-- `JSON.stringify`. -/
def stringify (j : Json) : String := String.ofList (chars j)

/-- The text of the representative with sorted members. -/
def canonicalJson (j : Json) : String := stringify (canon j)

def Delimited (cs : List Char) : Prop := ∀ c ∈ cs.head?, isNumberChar c = false

theorem delimited_itemsTail (xs : List Json) (u : List Char) : Delimited (itemsTail xs ++ u) := by
  cases xs <;> · intro c hc; simp [itemsTail] at hc; subst hc; rfl

theorem delimited_membersTail (ms : List (String × Json)) (u : List Char) :
    Delimited (membersTail ms ++ u) := by
  cases ms <;> · intro c hc; simp [membersTail] at hc; subst hc; rfl

theorem numeral_append_inj {m n : JsonNumber} (hu : Delimited u)
    (hv : Delimited v) (h : m.numeral ++ u = n.numeral ++ v) : m = n ∧ u = v := by
  have key (n : JsonNumber) {u : List Char} (hu : Delimited u) :
      (n.numeral ++ u).takeWhile isNumberChar = n.numeral := by
    rw [takeWhile_append_of_pos (Numeral.isNumeral_chars n.isNumeral).2]
    cases u with
    | nil => simp
    | cons c cs => simp [hu c (by simp)]
  have hmn : m.numeral = n.numeral := by rw [← key m hu, ← key n hv, h]
  rw [hmn] at h
  exact ⟨by cases m; cases n; simpa using hmn, append_cancel_left h⟩

/-- The character a text starts with. -/
def lead : Json → Char
  | .null => 'n'
  | .bool true => 't'
  | .bool false => 'f'
  | .num n => n.numeral.headD '0'
  | .str _ => '"'
  | .arr _ => '['
  | .obj _ => '{'

theorem isNumberChar_lead (n : JsonNumber) : isNumberChar (lead (.num n)) = true := by
  obtain ⟨hne, hall⟩ := Numeral.isNumeral_chars n.isNumeral
  cases hn : n.numeral with
  | nil => exact absurd hn hne
  | cons c cs => simpa [lead, hn] using hall c (by simp [hn])

theorem chars_eq_cons (j : Json) : ∃ cs, chars j = lead j :: cs := by
  match j with
  | .null | .bool true | .bool false | .str _ | .arr [] | .arr (_ :: _) | .obj []
  | .obj ((_, _) :: _) => exact ⟨_, rfl⟩
  | .num n =>
    cases hn : n.numeral with
    | nil => exact absurd hn (Numeral.isNumeral_chars n.isNumeral).1
    | cons c cs => exact ⟨cs, by simp [chars, lead, hn]⟩

/-- What a text is, told by its first character. -/
inductive Kind
  | null | true | false | num | str | arr | obj

/-- The kind of a value. -/
def kind : Json → Kind
  | .null => .null
  | .bool true => .true
  | .bool false => .false
  | .num _ => .num
  | .str _ => .str
  | .arr _ => .arr
  | .obj _ => .obj

theorem kind_eq_of_lead_eq (h : lead i = lead j) : kind i = kind j := by
  have hnum {n : JsonNumber} {c : Char} (hn : lead (.num n) = c) (hc : isNumberChar c = false) :
      False := by
    rw [← hn, isNumberChar_lead] at hc
    cases hc
  cases i with
  | num m =>
    cases j with
    | num n => rfl
    | bool b => cases b <;> exact (hnum h rfl).elim
    | _ => exact (hnum h rfl).elim
  | bool a =>
    cases j with
    | num n => cases a <;> exact (hnum h.symm rfl).elim
    | bool b => cases a <;> cases b <;> first | rfl | simp [lead] at h
    | _ => cases a <;> simp [lead] at h
  | _ =>
    cases j with
    | num n => exact (hnum h.symm rfl).elim
    | bool b => cases b <;> simp [lead] at h
    | _ => first | rfl | simp [lead] at h

theorem kind_eq_of_append_eq (h : chars i ++ u = chars j ++ v) :
    kind i = kind j := by
  obtain ⟨cs, hi⟩ := chars_eq_cons i
  obtain ⟨ds, hj⟩ := chars_eq_cons j
  rw [hi, hj] at h
  exact kind_eq_of_lead_eq (List.cons.inj h).1

theorem chars_ne_cons {c : Char} (hc : isNumberChar c = false) (hlead : c ∉ ['n', 't', 'f', '"',
    '[', '{']) (j : Json) (u v : List Char) : chars j ++ u ≠ c :: v := by
  intro h
  obtain ⟨cs, hj⟩ := chars_eq_cons j
  rw [hj] at h
  have hcj : lead j = c := (List.cons.inj h).1
  match j with
  | .null | .bool true | .bool false | .str _ | .arr _ | .obj _ => simp [← hcj, lead] at hlead
  | .num n => simp [← hcj, isNumberChar_lead] at hc

/-- The texts that start with `j` determine `j` and what follows it. -/
def Decodable (j : Json) : Prop :=
  ∀ k u v, Delimited u → Delimited v → chars j ++ u = chars k ++ v → j = k ∧ u = v

theorem itemsTail_append_inj {xs : List Json} (ih : ∀ x ∈ xs, Decodable x) {ys : List Json}
    {u v : List Char} (h : itemsTail xs ++ u = itemsTail ys ++ v) : xs = ys ∧ u = v := by
  induction xs generalizing ys with
  | nil =>
    cases ys with
    | nil => simpa [itemsTail] using h
    | cons y ys => simp [itemsTail] at h
  | cons x xs ihs =>
    cases ys with
    | nil => simp [itemsTail] at h
    | cons y ys =>
      simp only [itemsTail, cons_append, append_assoc, List.cons.injEq, true_and] at h
      obtain ⟨rfl, hrest⟩ := ih x mem_cons_self y _ _ (delimited_itemsTail xs u)
        (delimited_itemsTail ys v) h
      obtain ⟨rfl, huv⟩ := ihs (fun z hz => ih z (mem_cons_of_mem _ hz)) hrest
      exact ⟨rfl, huv⟩

theorem membersTail_append_inj (ih : ∀ m ∈ ms, Decodable m.2)
    {ns : List (String × Json)} {u v : List Char}
    (h : membersTail ms ++ u = membersTail ns ++ v) : ms = ns ∧ u = v := by
  induction ms generalizing ns with
  | nil =>
    cases ns with
    | nil => simpa [membersTail] using h
    | cons n ns => simp [membersTail] at h
  | cons m ms ihs =>
    cases ns with
    | nil => simp [membersTail] at h
    | cons n ns =>
      obtain ⟨k, x⟩ := m
      obtain ⟨l, y⟩ := n
      simp only [membersTail, cons_append, append_assoc, List.cons.injEq, true_and] at h
      obtain ⟨rfl, hvalue⟩ := quote_append_inj h
      obtain ⟨rfl, hrest⟩ := ih (k, x) mem_cons_self y _ _ (delimited_membersTail ms u)
        (delimited_membersTail ns v) (List.cons.inj hvalue).2
      obtain ⟨rfl, huv⟩ := ihs (fun z hz => ih z (mem_cons_of_mem _ hz)) hrest
      exact ⟨rfl, huv⟩

theorem decodable_arr {xs : List Json} (ih : ∀ x ∈ xs, Decodable x) : Decodable (.arr xs) := by
  intro k u v hu hv h
  have hk := kind_eq_of_append_eq h
  match k with
  | .null | .bool true | .bool false | .num _ | .str _ | .obj _ => simp [kind] at hk
  | .arr ys =>
    match xs, ys with
    | [], [] => simpa [chars] using h
    | [], y :: ys =>
      simp only [chars, cons_append, append_assoc, List.cons.injEq, true_and] at h
      exact absurd h.symm (chars_ne_cons rfl (by decide) y _ _)
    | x :: xs, [] =>
      simp only [chars, cons_append, append_assoc, List.cons.injEq, true_and] at h
      exact absurd h (chars_ne_cons rfl (by decide) x _ _)
    | x :: xs, y :: ys =>
      -- both texts continue like the tails of `,`-separated lists
      have htail : itemsTail (x :: xs) ++ u = itemsTail (y :: ys) ++ v := by
        simpa [chars, itemsTail] using h
      obtain ⟨hxs, huv⟩ := itemsTail_append_inj ih htail
      exact ⟨by rw [hxs], huv⟩

theorem decodable_obj (ih : ∀ m ∈ ms, Decodable m.2) :
    Decodable (.obj ms) := by
  intro k u v hu hv h
  have hk := kind_eq_of_append_eq h
  match k with
  | .null | .bool true | .bool false | .num _ | .str _ | .arr _ => simp [kind] at hk
  | .obj ns =>
    match ms, ns with
    | [], [] => simpa [chars] using h
    | [], (l, y) :: ns => simp [chars, quote] at h
    | (k, x) :: ms, [] => simp [chars, quote] at h
    | (k, x) :: ms, (l, y) :: ns =>
      have htail : membersTail ((k, x) :: ms) ++ u = membersTail ((l, y) :: ns) ++ v := by
        simpa [chars, membersTail] using h
      obtain ⟨hms, huv⟩ := membersTail_append_inj ih htail
      exact ⟨by rw [hms], huv⟩

theorem decodable (j : Json) : Decodable j := by
  induction j using induction with
  | arr xs ih => exact decodable_arr ih
  | obj ms ih => exact decodable_obj ih
  | num m =>
    intro k u v hu hv h
    have hk := kind_eq_of_append_eq h
    match k with
    | .null | .bool true | .bool false | .str _ | .arr _ | .obj _ => simp [kind] at hk
    | .num n =>
      obtain ⟨rfl, huv⟩ := numeral_append_inj hu hv h
      exact ⟨rfl, huv⟩
  | str s =>
    intro k u v hu hv h
    have hk := kind_eq_of_append_eq h
    match k with
    | .null | .bool true | .bool false | .num _ | .arr _ | .obj _ => simp [kind] at hk
    | .str t =>
      obtain ⟨rfl, huv⟩ := quote_append_inj h
      exact ⟨rfl, huv⟩
  | null =>
    intro k u v hu hv h
    have hk := kind_eq_of_append_eq h
    match k with
    | .bool true | .bool false | .num _ | .str _ | .arr _ | .obj _ => simp [kind] at hk
    | .null => simpa [chars] using h
  | bool b =>
    intro k u v hu hv h
    have hk := kind_eq_of_append_eq h
    match b, k with
    | true, .null | true, .bool false | true, .num _ | true, .str _ | true, .arr _ | true, .obj _
    | false, .null | false, .bool true | false, .num _ | false, .str _ | false, .arr _
    | false, .obj _ => simp [kind] at hk
    | true, .bool true | false, .bool false => simpa [chars] using h

/-- The texts of values form a prefix code, up to the continuation of a numeral. -/
theorem chars_append_inj (hu : Delimited u) (hv : Delimited v)
    (h : chars i ++ u = chars j ++ v) : i = j ∧ u = v :=
  decodable i j u v hu hv h

theorem stringify_injective : Function.Injective stringify := by
  intro i j h
  have hchars : chars i = chars j := by
    simpa only [stringify, String.toList_ofList] using congrArg String.toList h
  have hnil : Delimited [] := by simp [Delimited]
  exact (chars_append_inj hnil hnil (congrArg (· ++ []) hchars)).1

/-- Canonical texts are equal exactly for values with the same canonical representative. -/
@[simp] theorem canonicalJson_inj : canonicalJson i = canonicalJson j ↔
    canon i = canon j :=
  stringify_injective.eq_iff

end Json
