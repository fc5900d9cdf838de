import ApiTruth.Foundation.Js.JsonParse

/-!
# JSON documents

The text of a JSON document is a string of JavaScript, which may contain lone surrogates.  It is
read into a tree that keeps members with one name apart; `JSON.parse` lets the last of them count.

## Main definitions

* `JsonDocument.readString`, `JsonDocument.readNumber` : the tokens.
* `JsonDocument.readValue`, `JsonDocument.readItems`, `JsonDocument.readMembers` : the values, with
  a bound on the number of nested calls.
* `JsonDocument.document`, `JsonDocument.parse` : the tree of a document, and `JSON.parse`.
* `JsonDocument.nodeCount`, `JsonDocument.nesting`, `JsonDocument.HasDistinctNames` : the size and
  the depth of a tree, and that no object repeats a name.

* `JsonDocument.IsLiteral`, `JsonDocument.Reads` : the grammar of string literals and of values.

## Main results

* `JsonDocument.IsLiteral.readString`, `JsonDocument.exists_isLiteral_of_readString` : literals are
  read, and nothing else.
* `JsonDocument.Reads.isReadWithin` : a piece is read with a bound of about twice its length.
* `JsonDocument.document_eq_some_iff` : documents are what the grammar says.
-/

namespace JsonDocument

open List Option

variable {ν : Type}

/-! ### Tokens -/

/-- The character of a code unit; surrogates have none, and give the null character. -/
def charOf (unit : UInt16) : Char := Char.ofNat unit.toNat

def isSpaceUnit (unit : UInt16) : Bool := JsonTree.isJsonSpace (charOf unit)

def skipSpace (text : JsString) : JsString := text.dropWhile isSpaceUnit

/-- A string literal behind its opening quote, and what follows the literal. -/
def readString : JsString → Option (JsString × JsString)
  | [] => none
  | unit :: rest =>
    if charOf unit = '"' then some ([], rest)
    else if charOf unit = '\\' then
      match rest with
      | [] => none
      | letter :: rest =>
        if charOf letter = 'u' then
          match rest with
          | a :: b :: c :: d :: rest => do
            let unit ← JsonTree.hexUnit (charOf a) (charOf b) (charOf c) (charOf d)
            (readString rest).map (Prod.map (unit :: ·) id)
          | _ => none
        else do
          let unit ← JsonTree.shortEscape (charOf letter)
          (readString rest).map (Prod.map (unit :: ·) id)
    else if unit.toNat < 0x20 then none
    else (readString rest).map (Prod.map (unit :: ·) id)

def isNumberish (unit : UInt16) : Bool := JsonTree.isNumberish (charOf unit)

/-- The number at the start of a text, and what follows it. -/
def readNumber (format : NumberFormat ν) (text : JsString) : Option (JsonTree ν × JsString) :=
  let token := (text.takeWhile isNumberish).map charOf
  if JsonTree.isNumberToken token then
    some (.num (format.read token), text.dropWhile isNumberish)
  else none

/-- A word behind its first letter, and what follows the word. -/
def readWord (value : JsonTree ν) (word : List Char) (text : JsString) :
    Option (JsonTree ν × JsString) :=
  if (text.take word.length).map charOf = word then some (value, text.drop word.length) else none

/-! ### Values -/

section Values

variable (format : NumberFormat ν)

mutual

/-- The value at the start of a text, and what follows it. -/
def readValue : ℕ → JsString → Option (JsonTree ν × JsString)
  | 0, _ => none
  | bound + 1, text =>
    match skipSpace text with
    | [] => none
    | unit :: rest =>
      if charOf unit = 'n' then readWord .null ['u', 'l', 'l'] rest
      else if charOf unit = 't' then readWord (.bool true) ['r', 'u', 'e'] rest
      else if charOf unit = 'f' then readWord (.bool false) ['a', 'l', 's', 'e'] rest
      else if charOf unit = '"' then (readString rest).map (Prod.map .str id)
      else if charOf unit = '[' then
        if (skipSpace rest).head?.map charOf = some ']' then
          some (.arr [], (skipSpace rest).tail)
        else (readItems bound rest).map (Prod.map .arr id)
      else if charOf unit = '{' then
        if (skipSpace rest).head?.map charOf = some '}' then
          some (.obj [], (skipSpace rest).tail)
        else (readMembers bound rest).map (Prod.map .obj id)
      else readNumber format (unit :: rest)

def readItems : ℕ → JsString → Option (List (JsonTree ν) × JsString)
  | 0, _ => none
  | bound + 1, text => do
    let (item, after) ← readValue bound text
    match skipSpace after with
    | [] => none
    | unit :: rest =>
      if charOf unit = ',' then (readItems bound rest).map (Prod.map (item :: ·) id)
      else if charOf unit = ']' then some ([item], rest)
      else none

/-- The members of an object and what follows it. -/
def readMembers : ℕ → JsString → Option (List (JsString × JsonTree ν) × JsString)
  | 0, _ => none
  | bound + 1, text =>
    match skipSpace text with
    | [] => none
    | quote :: rest =>
      if charOf quote = '"' then do
        let (name, after) ← readString rest
        match skipSpace after with
        | [] => none
        | colon :: rest =>
          if charOf colon = ':' then do
            let (value, after) ← readValue bound rest
            match skipSpace after with
            | [] => none
            | unit :: rest =>
              if charOf unit = ',' then (readMembers bound rest).map (Prod.map ((name, value) :: ·) id)
              else if charOf unit = '}' then some ([(name, value)], rest)
              else none
          else none
      else none

end

def document (text : JsString) : Option (JsonTree ν) :=
  match readValue format (2 * text.length) text with
  | some (tree, rest) => if skipSpace rest = [] then some tree else none
  | none => none

end Values

mutual

/-- The value of a tree: of members with one name the last counts. -/
def value : JsonTree ν → JsonTree ν
  | .arr items => .arr (valueItems items)
  | .obj members => .obj (OrderedMap.ofEntries (valueMembers members)).entries
  | .null => .null
  | .bool b => .bool b
  | .num x => .num x
  | .str s => .str s

def valueItems : List (JsonTree ν) → List (JsonTree ν)
  | [] => []
  | item :: items => value item :: valueItems items

def valueMembers : List (JsString × JsonTree ν) → List (JsString × JsonTree ν)
  | [] => []
  | (name, member) :: members => (name, value member) :: valueMembers members

end

/-- `JSON.parse`. -/
def parse (format : NumberFormat ν) (text : JsString) : Option (JsonTree ν) :=
  (document format text).map value

/-! ### Size and depth -/

mutual

def nodeCount : JsonTree ν → ℕ
  | .arr items => nodeCountItems items + 1
  | .obj members => nodeCountMembers members + 1
  | .null | .bool _ | .num _ | .str _ => 1

def nodeCountItems : List (JsonTree ν) → ℕ
  | [] => 0
  | item :: items => nodeCount item + nodeCountItems items

def nodeCountMembers : List (JsString × JsonTree ν) → ℕ
  | [] => 0
  | (_, member) :: members => nodeCount member + nodeCountMembers members

end

mutual

/-- The number of arrays and objects around the deepest value of a tree. -/
def nesting : JsonTree ν → ℕ
  | .arr items => nestingItems items
  | .obj members => nestingMembers members
  | .null | .bool _ | .num _ | .str _ => 0

def nestingItems : List (JsonTree ν) → ℕ
  | [] => 0
  | item :: items => max (nesting item + 1) (nestingItems items)

def nestingMembers : List (JsString × JsonTree ν) → ℕ
  | [] => 0
  | (_, member) :: members => max (nesting member + 1) (nestingMembers members)

end

mutual

def memberCount : JsonTree ν → ℕ
  | .arr items => memberCountItems items
  | .obj members => memberCountMembers members
  | .null | .bool _ | .num _ | .str _ => 0

def memberCountItems : List (JsonTree ν) → ℕ
  | [] => 0
  | item :: items => memberCount item + memberCountItems items

def memberCountMembers : List (JsString × JsonTree ν) → ℕ
  | [] => 0
  | (_, member) :: members => memberCount member + 1 + memberCountMembers members

end

/-- No object in the tree has two members of one name. -/
inductive HasDistinctNames : JsonTree ν → Prop
  | null : HasDistinctNames .null
  | bool (b : Bool) : HasDistinctNames (.bool b)
  | num (x : ν) : HasDistinctNames (.num x)
  | str (s : JsString) : HasDistinctNames (.str s)
  | arr {items : List (JsonTree ν)} (h : ∀ item ∈ items, HasDistinctNames item) :
      HasDistinctNames (.arr items)
  | obj {members : List (JsString × JsonTree ν)} (hnames : (members.map Prod.fst).Nodup)
      (h : ∀ member ∈ members, HasDistinctNames member.2) : HasDistinctNames (.obj members)

theorem valueItems_eq_map (items : List (JsonTree ν)) : valueItems items = items.map value := by
  induction items with
  | nil => rfl
  | cons item items ih => rw [valueItems, ih, map_cons]

theorem valueMembers_eq_map (members : List (JsString × JsonTree ν)) :
    valueMembers members = members.map fun member => (member.1, value member.2) := by
  induction members with
  | nil => rfl
  | cons member members ih => rw [valueMembers, ih, map_cons]

variable {tree : JsonTree ν} {text rest : JsString}

theorem HasDistinctNames.value_eq (h : HasDistinctNames tree) :
    value tree = tree := by
  induction h with
  | null => rw [value]
  | bool => rw [value]
  | num => rw [value]
  | str => rw [value]
  | arr _ ih => rw [value, valueItems_eq_map, map_congr_left ih, List.map_id']
  | obj hnames _ ih =>
    rw [value, valueMembers_eq_map, map_congr_left fun member hmember => by rw [ih member hmember],
      List.map_id', OrderedMap.entries_ofEntries hnames]

/-! ### What is read of a text -/

theorem length_skipSpace_le (text : JsString) : (skipSpace text).length ≤ text.length :=
  length_dropWhile_le _ _

/-- The letters behind a backslash that stand for a code unit. -/
inductive IsEscape : JsString → UInt16 → Prop
  | short {letter unit : UInt16} (hletter : charOf letter ≠ 'u')
      (hunit : JsonTree.shortEscape (charOf letter) = some unit) : IsEscape [letter] unit
  | unicode {letter a b c d unit : UInt16} (hletter : charOf letter = 'u')
      (hunit : JsonTree.hexUnit (charOf a) (charOf b) (charOf c) (charOf d) = some unit) :
      IsEscape [letter, a, b, c, d] unit

/-- A literal behind its opening quote, with the string that it stands for. -/
inductive IsLiteral : JsString → JsString → Prop
  | quote {unit : UInt16} (hquote : charOf unit = '"') : IsLiteral [unit] []
  | escape {slash unit : UInt16} {letters literal string : JsString} (hslash : charOf slash = '\\')
      (hescape : IsEscape letters unit) (h : IsLiteral literal string) :
      IsLiteral (slash :: (letters ++ literal)) (unit :: string)
  | plain {unit : UInt16} {literal string : JsString} (hquote : charOf unit ≠ '"')
      (hslash : charOf unit ≠ '\\') (hcontrol : ¬unit.toNat < 0x20) (h : IsLiteral literal string) :
      IsLiteral (unit :: literal) (unit :: string)

variable {literal string : JsString}

/-- A literal is read whatever follows it. -/
theorem IsLiteral.readString (h : IsLiteral literal string)
    (rest : JsString) : readString (literal ++ rest) = some (string, rest) := by
  induction h with
  | quote hquote =>
    rw [singleton_append, readString.eq_def]
    exact if_pos hquote
  | escape hslash hescape _ ih =>
    rw [cons_append, append_assoc, readString.eq_def]
    simp only [hslash, Char.reduceEq, ↓reduceIte]
    cases hescape with
    | short hletter hunit =>
      simp only [singleton_append, hletter, ↓reduceIte, hunit, ih]
      rfl
    | unicode hletter hunit =>
      simp only [cons_append, nil_append, hletter, ↓reduceIte, hunit, ih]
      rfl
  | plain hquote hslash hcontrol _ ih =>
    rw [cons_append, readString.eq_def]
    simp only [hquote, hslash, hcontrol, ↓reduceIte, ih]
    rfl

/-- What has been read is a literal. -/
theorem exists_isLiteral_of_readString {text string rest : JsString}
    (h : readString text = some (string, rest)) :
    ∃ literal, IsLiteral literal string ∧ text = literal ++ rest := by
  induction hlength : text.length using Nat.strong_induction_on generalizing text string with
  | _ n ih =>
    have hmap {unit : UInt16} {after : JsString} (hlt : after.length < n)
        (hafter : (readString after).map (Prod.map (unit :: ·) id) = some (string, rest)) :
        ∃ literal string', IsLiteral literal string' ∧ after = literal ++ rest ∧
          string = unit :: string' := by
      obtain ⟨⟨string', rest'⟩, hread, hsome⟩ := map_eq_some_iff.mp hafter
      cases hsome
      obtain ⟨literal, hliteral, heq⟩ := ih _ hlt hread rfl
      exact ⟨literal, string', hliteral, heq, rfl⟩
    rw [readString.eq_def] at h
    split at h
    · cases h
    next unit tail =>
    rw [length_cons] at hlength
    split_ifs at h with hquote hslash hcontrol
    · cases h
      exact ⟨[unit], .quote hquote, rfl⟩
    · split at h
      · cases h
      next letter tail =>
      rw [length_cons] at hlength
      split_ifs at h with hu
      · split at h
        · next a b c d tail =>
          obtain ⟨read, hread, h⟩ := bind_eq_some_iff.mp h
          simp only [length_cons] at hlength
          obtain ⟨literal, string', hliteral, rfl, rfl⟩ := hmap (by omega) h
          exact ⟨_, .escape hslash (.unicode hu hread) hliteral, rfl⟩
        · cases h
      · obtain ⟨read, hread, h⟩ := bind_eq_some_iff.mp h
        obtain ⟨literal, string', hliteral, rfl, rfl⟩ := hmap (by omega) h
        exact ⟨_, .escape hslash (.short hu hread) hliteral, rfl⟩
    · obtain ⟨literal, string', hliteral, rfl, rfl⟩ := hmap (by omega) h
      exact ⟨_, .plain hquote hslash hcontrol hliteral, rfl⟩

theorem IsLiteral.ne_nil (h : IsLiteral literal string) :
    literal ≠ [] := by
  cases h <;> exact cons_ne_nil _ _

theorem length_readString_lt {text string rest : JsString}
    (h : readString text = some (string, rest)) : rest.length < text.length := by
  obtain ⟨literal, hliteral, rfl⟩ := exists_isLiteral_of_readString h
  have hpos := List.length_pos_iff.mpr hliteral.ne_nil
  rw [length_append]
  omega

theorem readWord_eq_some_iff {value tree : JsonTree ν} {word : List Char} :
    readWord value word text = some (tree, rest) ↔
      value = tree ∧ ∃ letters : JsString, letters.map charOf = word ∧ text = letters ++ rest := by
  unfold readWord
  constructor
  · intro h
    split_ifs at h with hword
    cases h
    exact ⟨rfl, _, hword, (take_append_drop _ _).symm⟩
  · rintro ⟨rfl, letters, rfl, rfl⟩
    rw [length_map, take_left, drop_left, if_pos rfl]

theorem length_readNumber_lt {format : NumberFormat ν}
    (h : readNumber format text = some (tree, rest)) : rest.length < text.length := by
  unfold readNumber at h
  simp only at h
  split_ifs at h with htoken
  obtain ⟨-, rfl⟩ := Prod.mk.inj (Option.some.inj h)
  cases text with
  | nil => simp [JsonTree.isNumberToken, JsonTree.isUnsignedToken] at htoken
  | cons unit text =>
    cases hunit : isNumberish unit with
    | true =>
      rw [dropWhile_cons_of_pos hunit, length_cons]
      exact Nat.lt_succ_of_le (length_dropWhile_le _ _)
    | false =>
      rw [takeWhile_cons_of_neg (by simp [hunit])] at htoken
      simp [JsonTree.isNumberToken, JsonTree.isUnsignedToken] at htoken

/-! ### The grammar of values -/

/-- A value, the items of an array or the members of an object. -/
inductive Piece (ν : Type)
  | value (tree : JsonTree ν)
  | items (items : List (JsonTree ν))
  | members (members : List (JsString × JsonTree ν))

def wordOf (letter : Char) : Option (JsonTree ν × List Char) :=
  if letter = 'n' then some (.null, ['u', 'l', 'l'])
  else if letter = 't' then some (.bool true, ['r', 'u', 'e'])
  else if letter = 'f' then some (.bool false, ['a', 'l', 's', 'e'])
  else none

/-- The first letters of values other than numbers. -/
def IsLead (letter : Char) : Prop :=
  letter = 'n' ∨ letter = 't' ∨ letter = 'f' ∨ letter = '"' ∨ letter = '[' ∨ letter = '{'

section Reads

variable (format : NumberFormat ν)

/-- A piece at the start of a text, and what follows it. -/
inductive Reads : Piece ν → JsString → JsString → Prop
  | word {text rest after : JsString} {unit : UInt16} {tree : JsonTree ν} {word : List Char}
      (hskip : skipSpace text = unit :: rest) (hunit : wordOf (charOf unit) = some (tree, word))
      (h : readWord tree word rest = some (tree, after)) : Reads (.value tree) text after
  | string {text rest after string : JsString} {unit : UInt16}
      (hskip : skipSpace text = unit :: rest) (hunit : charOf unit = '"')
      (h : readString rest = some (string, after)) : Reads (.value (.str string)) text after
  | number {text rest after : JsString} {unit : UInt16} {tree : JsonTree ν}
      (hskip : skipSpace text = unit :: rest) (hunit : ¬IsLead (charOf unit))
      (h : readNumber format (unit :: rest) = some (tree, after)) : Reads (.value tree) text after
  | emptyArray {text rest after : JsString} {unit close : UInt16}
      (hskip : skipSpace text = unit :: rest) (hunit : charOf unit = '[')
      (hclose : skipSpace rest = close :: after) (hbracket : charOf close = ']') :
      Reads (.value (.arr [])) text after
  | array {text rest after : JsString} {unit : UInt16} {items : List (JsonTree ν)}
      (hskip : skipSpace text = unit :: rest) (hunit : charOf unit = '[')
      (hopen : (skipSpace rest).head?.map charOf ≠ some ']')
      (h : Reads (.items items) rest after) : Reads (.value (.arr items)) text after
  | emptyObject {text rest after : JsString} {unit close : UInt16}
      (hskip : skipSpace text = unit :: rest) (hunit : charOf unit = '{')
      (hclose : skipSpace rest = close :: after) (hbrace : charOf close = '}') :
      Reads (.value (.obj [])) text after
  | object {text rest after : JsString} {unit : UInt16} {members : List (JsString × JsonTree ν)}
      (hskip : skipSpace text = unit :: rest) (hunit : charOf unit = '{')
      (hopen : (skipSpace rest).head?.map charOf ≠ some '}')
      (h : Reads (.members members) rest after) : Reads (.value (.obj members)) text after
  | lastItem {text after rest : JsString} {unit : UInt16} {item : JsonTree ν}
      (h : Reads (.value item) text after) (hskip : skipSpace after = unit :: rest)
      (hunit : charOf unit = ']') : Reads (.items [item]) text rest
  | nextItem {text after rest behind : JsString} {unit : UInt16} {item : JsonTree ν}
      {items : List (JsonTree ν)} (h : Reads (.value item) text after)
      (hskip : skipSpace after = unit :: rest) (hunit : charOf unit = ',')
      (hnext : Reads (.items items) rest behind) : Reads (.items (item :: items)) text behind
  | lastMember {text start named colon after rest name : JsString} {quote mark unit : UInt16}
      {member : JsonTree ν} (hstart : skipSpace text = quote :: start) (hquote : charOf quote = '"')
      (hname : readString start = some (name, named)) (hcolon : skipSpace named = mark :: colon)
      (hmark : charOf mark = ':') (h : Reads (.value member) colon after)
      (hskip : skipSpace after = unit :: rest) (hunit : charOf unit = '}') :
      Reads (.members [(name, member)]) text rest
  | nextMember {text start named colon after rest behind name : JsString}
      {quote mark unit : UInt16} {member : JsonTree ν} {members : List (JsString × JsonTree ν)}
      (hstart : skipSpace text = quote :: start) (hquote : charOf quote = '"')
      (hname : readString start = some (name, named)) (hcolon : skipSpace named = mark :: colon)
      (hmark : charOf mark = ':') (h : Reads (.value member) colon after)
      (hskip : skipSpace after = unit :: rest) (hunit : charOf unit = ',')
      (hnext : Reads (.members members) rest behind) :
      Reads (.members ((name, member) :: members)) text behind

variable {format}

theorem reads_of_read (bound : ℕ) :
    (∀ text tree rest, readValue format bound text = some (tree, rest) →
      Reads format (.value tree) text rest) ∧
    (∀ text items rest, readItems format bound text = some (items, rest) →
      Reads format (.items items) text rest) ∧
    ∀ text members rest, readMembers format bound text = some (members, rest) →
      Reads format (.members members) text rest := by
  induction bound with
  | zero => refine ⟨fun _ _ _ h => ?_, fun _ _ _ h => ?_, fun _ _ _ h => ?_⟩ <;> cases h
  | succ bound ih =>
    obtain ⟨ihValue, ihItems, ihMembers⟩ := ih
    refine ⟨fun text tree rest h => ?_, fun text items rest h => ?_, fun text members rest h => ?_⟩
    · rw [readValue] at h
      split at h
      · cases h
      next unit after hskip =>
      have hclose {c : Char} (hclose : (skipSpace after).head?.map charOf = some c) :
          ∃ close, skipSpace after = close :: (skipSpace after).tail ∧ charOf close = c := by
        obtain ⟨close, hhead, hunit⟩ := map_eq_some_iff.mp hclose
        exact ⟨close, (cons_head?_tail hhead).symm, hunit⟩
      split_ifs at h with hn ht hf hquote hbracket hempty hbrace hempty
      · obtain ⟨rfl, -⟩ := readWord_eq_some_iff.mp h
        exact .word hskip (by rw [hn]; rfl) h
      · obtain ⟨rfl, -⟩ := readWord_eq_some_iff.mp h
        exact .word hskip (by rw [ht]; rfl) h
      · obtain ⟨rfl, -⟩ := readWord_eq_some_iff.mp h
        exact .word hskip (by rw [hf]; rfl) h
      · obtain ⟨⟨string, rest⟩, hread, hsome⟩ := map_eq_some_iff.mp h
        cases hsome
        exact .string hskip hquote hread
      · cases h
        obtain ⟨close, heq, hunit⟩ := hclose hempty
        exact .emptyArray hskip hbracket heq hunit
      · obtain ⟨⟨items, rest⟩, hread, hsome⟩ := map_eq_some_iff.mp h
        cases hsome
        exact .array hskip hbracket hempty (ihItems _ _ _ hread)
      · cases h
        obtain ⟨close, heq, hunit⟩ := hclose hempty
        exact .emptyObject hskip hbrace heq hunit
      · obtain ⟨⟨members, rest⟩, hread, hsome⟩ := map_eq_some_iff.mp h
        cases hsome
        exact .object hskip hbrace hempty (ihMembers _ _ _ hread)
      · exact .number hskip (by simp [IsLead, *]) h
    · rw [readItems] at h
      obtain ⟨⟨item, after⟩, hitem, h⟩ := bind_eq_some_iff.mp h
      simp only at h
      split at h
      · cases h
      next unit behind hskip =>
      split_ifs at h with hcomma hbracket
      · obtain ⟨⟨items, rest⟩, hread, hsome⟩ := map_eq_some_iff.mp h
        cases hsome
        exact .nextItem (ihValue _ _ _ hitem) hskip hcomma (ihItems _ _ _ hread)
      · cases h
        exact .lastItem (ihValue _ _ _ hitem) hskip hbracket
    · rw [readMembers] at h
      split at h
      · cases h
      next quote start hstart =>
      split_ifs at h with hquote
      obtain ⟨⟨name, named⟩, hname, h⟩ := bind_eq_some_iff.mp h
      simp only at h
      split at h
      · cases h
      next mark colon hcolon =>
      split_ifs at h with hmark
      obtain ⟨⟨member, after⟩, hmember, h⟩ := bind_eq_some_iff.mp h
      split at h
      · cases h
      next unit behind hskip =>
      split_ifs at h with hcomma hbrace
      · obtain ⟨⟨members, rest⟩, hread, hsome⟩ := map_eq_some_iff.mp h
        cases hsome
        exact .nextMember hstart hquote hname hcolon hmark (ihValue _ _ _ hmember) hskip hcomma
          (ihMembers _ _ _ hread)
      · cases h
        exact .lastMember hstart hquote hname hcolon hmark (ihValue _ _ _ hmember) hskip hbrace

variable {piece : Piece ν} {text : JsString}

theorem Reads.of_skipSpace {start rest : JsString}
    (h : Reads format piece start rest) (htext : skipSpace text = skipSpace start) :
    Reads format piece text rest := by
  induction h generalizing text with
  | word hskip hunit h => exact .word (htext.trans hskip) hunit h
  | string hskip hunit h => exact .string (htext.trans hskip) hunit h
  | number hskip hunit h => exact .number (htext.trans hskip) hunit h
  | emptyArray hskip hunit hclose hbracket =>
    exact .emptyArray (htext.trans hskip) hunit hclose hbracket
  | array hskip hunit hopen h => exact .array (htext.trans hskip) hunit hopen h
  | emptyObject hskip hunit hclose hbrace =>
    exact .emptyObject (htext.trans hskip) hunit hclose hbrace
  | object hskip hunit hopen h => exact .object (htext.trans hskip) hunit hopen h
  | lastItem _ hskip hunit ih => exact .lastItem (ih htext) hskip hunit
  | nextItem _ hskip hunit hnext ih => exact .nextItem (ih htext) hskip hunit hnext
  | lastMember hstart hquote hname hcolon hmark h hskip hunit =>
    exact .lastMember (htext.trans hstart) hquote hname hcolon hmark h hskip hunit
  | nextMember hstart hquote hname hcolon hmark h hskip hunit hnext =>
    exact .nextMember (htext.trans hstart) hquote hname hcolon hmark h hskip hunit hnext

/-- What follows a piece is shorter, and the piece is read with a bound of about twice its
length. -/
def IsReadWithin (format : NumberFormat ν) (piece : Piece ν) (text rest : JsString) : Prop :=
  rest.length < text.length ∧ ∀ bound, match piece with
    | .value tree => 2 * (text.length - rest.length) ≤ bound + 1 →
      readValue format bound text = some (tree, rest)
    | .items items => 2 * (text.length - rest.length) ≤ bound →
      readItems format bound text = some (items, rest)
    | .members members => 2 * (text.length - rest.length) ≤ bound →
      readMembers format bound text = some (members, rest)

theorem length_lt_of_skipSpace {unit : UInt16}
    (hskip : skipSpace text = unit :: rest) : rest.length < text.length := by
  have hle := length_skipSpace_le text
  rw [hskip, length_cons] at hle
  exact hle

theorem length_member_lt {quote mark : UInt16} {start named colon name : JsString}
    (hstart : skipSpace text = quote :: start) (hname : readString start = some (name, named))
    (hcolon : skipSpace named = mark :: colon) : colon.length + 2 < text.length := by
  have hquote := length_lt_of_skipSpace hstart
  have hread := length_readString_lt hname
  have hmark := length_lt_of_skipSpace hcolon
  omega

theorem isReadWithin_value {text after : JsString} (hlength : after.length < text.length)
    (h : ∀ bound, 2 * (text.length - after.length) ≤ bound + 2 →
      readValue format (bound + 1) text = some (tree, after)) :
    IsReadWithin format (.value tree) text after := by
  refine ⟨hlength, fun bound => ?_⟩
  intro hbound
  obtain ⟨bound, rfl⟩ : ∃ n, bound = n + 1 := ⟨bound - 1, by omega⟩
  exact h bound hbound

/-- A piece is read with a bound of about twice its length. -/
theorem Reads.isReadWithin
    (h : Reads format piece text rest) : IsReadWithin format piece text rest := by
  induction h with
  | word hskip hunit h =>
    have hrest := length_lt_of_skipSpace hskip
    obtain ⟨-, letters, -, rfl⟩ := readWord_eq_some_iff.mp h
    rw [length_append] at hrest
    refine isReadWithin_value (by omega) fun bound _ => ?_
    rw [readValue, hskip]
    unfold wordOf at hunit
    split_ifs at hunit with hn ht hf <;>
      (obtain ⟨rfl, rfl⟩ := Prod.mk.inj (Option.some.inj hunit)) <;> simp [*]
  | string hskip hunit h =>
    have hrest := length_lt_of_skipSpace hskip
    have hread := length_readString_lt h
    refine isReadWithin_value (by omega) fun bound _ => ?_
    rw [readValue, hskip]
    simp [hunit, h]
  | number hskip hunit h =>
    have hread := length_readNumber_lt h
    have hle := hskip ▸ length_skipSpace_le _
    refine isReadWithin_value (by omega) fun bound _ => ?_
    rw [readValue, hskip]
    simp only [IsLead, not_or] at hunit
    simp [hunit, h]
  | emptyArray hskip hunit hclose hbracket =>
    have hrest := length_lt_of_skipSpace hskip
    have hafter := length_lt_of_skipSpace hclose
    refine isReadWithin_value (by omega) fun bound _ => ?_
    rw [readValue, hskip]
    simp [hunit, hclose, hbracket]
  | array hskip hunit hopen h ih =>
    have hrest := length_lt_of_skipSpace hskip
    refine isReadWithin_value (by have := ih.1; omega) fun bound hbound => ?_
    rw [readValue, hskip]
    simp [hunit, hopen, ih.2 bound (by omega)]
  | emptyObject hskip hunit hclose hbrace =>
    have hrest := length_lt_of_skipSpace hskip
    have hafter := length_lt_of_skipSpace hclose
    refine isReadWithin_value (by omega) fun bound _ => ?_
    rw [readValue, hskip]
    simp [hunit, hclose, hbrace]
  | object hskip hunit hopen h ih =>
    have hrest := length_lt_of_skipSpace hskip
    refine isReadWithin_value (by have := ih.1; omega) fun bound hbound => ?_
    rw [readValue, hskip]
    simp [hunit, hopen, ih.2 bound (by omega)]
  | lastItem h hskip hunit ih =>
    have hrest := length_lt_of_skipSpace hskip
    have hvalue := ih.1
    refine ⟨by omega, fun bound => ?_⟩
    intro hbound
    obtain ⟨bound, rfl⟩ : ∃ n, bound = n + 1 := ⟨bound - 1, by omega⟩
    rw [readItems, ih.2 bound (by omega)]
    simp [hskip, hunit]
  | nextItem h hskip hunit hnext ih ihNext =>
    have hrest := length_lt_of_skipSpace hskip
    have hvalue := ih.1
    have hitems := ihNext.1
    refine ⟨by omega, fun bound => ?_⟩
    intro hbound
    obtain ⟨bound, rfl⟩ : ∃ n, bound = n + 1 := ⟨bound - 1, by omega⟩
    rw [readItems, ih.2 bound (by omega)]
    simp [hskip, hunit, ihNext.2 bound (by omega)]
  | lastMember hstart hquote hname hcolon hmark h hskip hunit ih =>
    have hmember := length_member_lt hstart hname hcolon
    have hrest := length_lt_of_skipSpace hskip
    have hvalue := ih.1
    refine ⟨by omega, fun bound => ?_⟩
    intro hbound
    obtain ⟨bound, rfl⟩ : ∃ n, bound = n + 1 := ⟨bound - 1, by omega⟩
    rw [readMembers, hstart]
    simp [hquote, hname, hcolon, hmark, ih.2 bound (by omega), hskip, hunit]
  | nextMember hstart hquote hname hcolon hmark h hskip hunit hnext ih ihNext =>
    have hmember := length_member_lt hstart hname hcolon
    have hrest := length_lt_of_skipSpace hskip
    have hvalue := ih.1
    have hmembers := ihNext.1
    refine ⟨by omega, fun bound => ?_⟩
    intro hbound
    obtain ⟨bound, rfl⟩ : ∃ n, bound = n + 1 := ⟨bound - 1, by omega⟩
    rw [readMembers, hstart]
    simp [hquote, hname, hcolon, hmark, ih.2 bound (by omega), hskip, hunit,
      ihNext.2 bound (by omega)]

/-- A document is a value and white space behind it. -/
theorem document_eq_some_iff :
    document format text = some tree ↔
      ∃ rest, Reads format (.value tree) text rest ∧ skipSpace rest = [] := by
  unfold document
  constructor
  · intro h
    split at h
    · next found rest hread =>
      split_ifs at h with hrest
      cases h
      exact ⟨rest, (reads_of_read _).1 _ _ _ hread, hrest⟩
    · cases h
  · rintro ⟨rest, hreads, hrest⟩
    have hread : readValue format (2 * text.length) text = some (tree, rest) :=
      hreads.isReadWithin.2 _ (by omega)
    rw [hread]
    exact if_pos hrest

end Reads

end JsonDocument
