import ApiTruth.Foundation.Json.Text

/-!
# Characters outside string literals

A text of strings, arrays and objects has nothing but brackets, colons and commas outside its string
literals.  Any other character stands inside a literal, and a quote behind it that is not escaped
ends the literal.

## Main definitions

* `Json.LexState`, `Json.unquoted` : the characters that a text has outside its literals.
* `Json.IsTextual` : values without numbers, Boolean values and null.

## Main results

* `Json.isStructural_of_mem_unquoted` : what stands outside the literals of a textual value.
* `Json.chars_ne_append` : a text does not continue like a text behind a separator.
-/

namespace Json

open List

/-! ### Lexing -/

inductive LexState
  | plain
  | quoted
  | escaped

namespace LexState

/-- The state behind a character. -/
def next : LexState → Char → LexState
  | plain, c => if c = '"' then quoted else plain
  | quoted, c => if c = '"' then plain else if c = '\\' then escaped else quoted
  | escaped, _ => quoted

end LexState

/-- The characters of a text outside its literals, without the quotes. -/
def unquoted : LexState → List Char → List Char
  | _, [] => []
  | .plain, c :: cs => if c = '"' then unquoted .quoted cs else c :: unquoted .plain cs
  | state, c :: cs => unquoted (state.next c) cs

theorem unquoted_append (state : LexState) (cs ds : List Char) :
    unquoted state (cs ++ ds) = unquoted state cs ++ unquoted (cs.foldl LexState.next state) ds := by
  induction cs generalizing state with
  | nil =>
    rfl
  | cons c cs ih =>
    cases state with
    | plain =>
      rw [cons_append, unquoted, unquoted, foldl_cons, LexState.next, ih, ih]
      split_ifs <;> rfl
    | quoted => exact ih _
    | escaped => exact ih _

theorem unquoted_escape (c : Char) (cs : List Char) :
    unquoted .quoted (escape c ++ cs) = unquoted .quoted cs := by
  have hplain {d : Char} {ds : List Char} (hquote : d ≠ '"') (hslash : d ≠ '\\') :
      unquoted .quoted (d :: ds) = unquoted .quoted ds := by
    rw [unquoted]
    simp only [LexState.next, hquote, hslash, ↓reduceIte]
    exact nofun
  unfold escape
  split_ifs with hquote hslash hcontrol
  · rfl
  · rfl
  · have hdigit (n : Fin 32) : hexDigit (n / 16) ≠ '"' ∧ hexDigit (n / 16) ≠ '\\' ∧
        hexDigit (n % 16) ≠ '"' ∧ hexDigit (n % 16) ≠ '\\' := by
      revert n
      decide
    obtain ⟨h1, h2, h3, h4⟩ := hdigit ⟨c.toNat, hcontrol⟩
    unfold escapeControl
    split_ifs
    · rfl
    · rfl
    · rfl
    · rfl
    · rfl
    · change unquoted .quoted (hexDigit (c.toNat / 16) :: hexDigit (c.toNat % 16) :: cs) = _
      rw [hplain h1 h2, hplain h3 h4]
  · exact hplain hquote hslash

theorem unquoted_quote (s : String) (cs : List Char) :
    unquoted .plain (quote s ++ cs) = unquoted .plain cs := by
  have hescapes (ds : List Char) : unquoted .quoted (ds.flatMap escape ++ '"' :: cs) =
      unquoted .plain cs := by
    induction ds with
    | nil => rfl
    | cons d ds ih => rw [flatMap_cons, append_assoc, unquoted_escape, ih]
  rw [quote, cons_append, append_assoc]
  exact hescapes _

/-! ### Textual values -/

def IsStructural (c : Char) : Prop := c ∈ ['{', '}', '[', ']', ':', ',']

instance (c : Char) : Decidable (IsStructural c) :=
  inferInstanceAs (Decidable (c ∈ ['{', '}', '[', ']', ':', ',']))

inductive IsTextual : Json → Prop
  | str (s : String) : IsTextual (.str s)
  | arr {items : List Json} (h : ∀ item ∈ items, IsTextual item) : IsTextual (.arr items)
  | obj {members : List (String × Json)} (h : ∀ member ∈ members, IsTextual member.2) :
      IsTextual (.obj members)

/-- What a text adds outside literals is structural. -/
def AddsStructure (cs : List Char) : Prop :=
  ∀ ds, ∀ c ∈ unquoted .plain (cs ++ ds), IsStructural c ∨ c ∈ unquoted .plain ds

theorem AddsStructure.append {cs ds : List Char} (hcs : AddsStructure cs)
    (hds : AddsStructure ds) : AddsStructure (cs ++ ds) := by
  intro es c hc
  rw [append_assoc] at hc
  exact (hcs _ c hc).elim .inl (hds es c)

theorem AddsStructure.cons {c : Char} {cs : List Char} (hc : IsStructural c)
    (hcs : AddsStructure cs) : AddsStructure (c :: cs) := by
  intro ds d hd
  have hquote : c ≠ '"' := by
    rintro rfl
    exact absurd hc (by decide)
  rw [cons_append, unquoted, if_neg hquote] at hd
  rcases List.mem_cons.mp hd with rfl | hd
  · exact .inl hc
  · exact hcs ds d hd

theorem addsStructure_nil : AddsStructure [] := fun _ _ hc => .inr hc

theorem addsStructure_quote (s : String) : AddsStructure (quote s) := by
  intro ds c hc
  rw [unquoted_quote] at hc
  exact .inr hc

theorem addsStructure_itemsTail {items : List Json}
    (h : ∀ item ∈ items, AddsStructure (chars item)) : AddsStructure (itemsTail items) := by
  induction items with
  | nil => exact addsStructure_nil.cons (by decide)
  | cons item items ih =>
    obtain ⟨hitem, hitems⟩ := List.forall_mem_cons.mp h
    exact (hitem.append (ih hitems)).cons (by decide)

theorem addsStructure_membersTail {members : List (String × Json)}
    (h : ∀ member ∈ members, AddsStructure (chars member.2)) :
    AddsStructure (membersTail members) := by
  induction members with
  | nil => exact addsStructure_nil.cons (by decide)
  | cons member members ih =>
    obtain ⟨hmember, hmembers⟩ := List.forall_mem_cons.mp h
    exact ((addsStructure_quote _).append ((hmember.append (ih hmembers)).cons (by decide))).cons
      (by decide)

theorem IsTextual.addsStructure {j : Json} (h : IsTextual j) : AddsStructure (chars j) := by
  induction h with
  | str s => exact addsStructure_quote s
  | arr h ih =>
    rename_i items
    cases items with
    | nil => exact (addsStructure_nil.cons (by decide)).cons (by decide)
    | cons item items =>
      obtain ⟨hitem, hitems⟩ := List.forall_mem_cons.mp ih
      exact (hitem.append (addsStructure_itemsTail hitems)).cons (by decide)
  | obj h ih =>
    rename_i members
    cases members with
    | nil => exact (addsStructure_nil.cons (by decide)).cons (by decide)
    | cons member members =>
      obtain ⟨hmember, hmembers⟩ := List.forall_mem_cons.mp ih
      exact ((addsStructure_quote _).append
        ((hmember.append (addsStructure_membersTail hmembers)).cons (by decide))).cons (by decide)

/-- Outside its literals a textual value has nothing but structure. -/
theorem isStructural_of_mem_unquoted {j : Json} (h : IsTextual j) {c : Char}
    (hc : c ∈ unquoted .plain (chars j)) : IsStructural c := by
  rw [← append_nil (chars j)] at hc
  exact (h.addsStructure [] c hc).resolve_right not_mem_nil

/-- A separator stands inside a literal, which a quote behind it would end. -/
theorem chars_ne_append {j : Json} (h : IsTextual j) {separator letter : Char}
    (hseparator : ¬IsStructural separator) (hquote : separator ≠ '"') (hslash : separator ≠ '\\')
    (hletter : ¬IsStructural letter) (hletterQuote : letter ≠ '"') (cs ds : List Char) :
    chars j ≠ cs ++ separator :: '{' :: '"' :: letter :: ds := by
  intro heq
  have hmem {c : Char} (hc : c ∈ unquoted (cs.foldl LexState.next .plain)
      (separator :: '{' :: '"' :: letter :: ds)) : IsStructural c := by
    refine isStructural_of_mem_unquoted h ?_
    rw [heq, unquoted_append]
    exact mem_append_right _ hc
  have hquoted : letter ∈ unquoted .quoted ('{' :: '"' :: letter :: ds) := by
    change letter ∈ unquoted .plain (letter :: ds)
    rw [unquoted, if_neg hletterQuote]
    exact mem_cons_self
  cases hstate : cs.foldl LexState.next .plain with
  | plain =>
    refine hseparator (hmem ?_)
    rw [hstate, unquoted, if_neg hquote]
    exact mem_cons_self
  | quoted =>
    refine hletter (hmem ?_)
    rw [hstate]
    change letter ∈ unquoted (LexState.next .quoted separator) ('{' :: '"' :: letter :: ds)
    rw [LexState.next, if_neg hquote, if_neg hslash]
    exact hquoted
  | escaped =>
    refine hletter (hmem ?_)
    rw [hstate]
    exact hquoted

end Json
