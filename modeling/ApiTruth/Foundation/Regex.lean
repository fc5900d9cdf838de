import Mathlib.Data.List.Basic

/-!
# Regular expressions

The regular expressions that texts are searched with: classes of characters, word boundaries,
concatenation, alternatives and repetition.  A match starts at a cursor, that is at the rest of a
text together with the character before it, and an expression maps the cursor to those where a
match can end.

## Main definitions

* `Regex`, `Regex.Cursor`, `Regex.ends`.
* `Regex.test` : some part of a text matches.
* `Regex.isFull` : the whole text matches.
-/

inductive Regex
  | empty
  | one (accepts : Char → Bool)
  | boundary
  | seq (first second : Regex)
  | or (left right : Regex)
  | many (body : Regex)

namespace Regex

/-! ### Matching -/

/-- A place in a text: the character before it and what follows. -/
structure Cursor where
  before : Option Char
  rest : List Char

def isWordChar (c : Char) : Bool := c.isAlphanum || c == '_'

/-- The places that repeated steps reach, when each of at most `n` steps consumes something. -/
def repeated (step : Cursor → List Cursor) : ℕ → Cursor → List Cursor
  | 0, cursor => [cursor]
  | n + 1, cursor =>
    cursor :: ((step cursor).filter fun next => next.rest.length < cursor.rest.length).flatMap
      (repeated step n)

/-- Where a match that starts at a cursor can end. -/
def ends : Regex → Cursor → List Cursor
  | empty, cursor => [cursor]
  | one accepts, cursor =>
    match cursor.rest with
    | c :: rest => if accepts c then [⟨some c, rest⟩] else []
    | [] => []
  | boundary, cursor =>
    if cursor.before.any isWordChar != cursor.rest.head?.any isWordChar then [cursor] else []
  | seq first second, cursor => (first.ends cursor).flatMap second.ends
  | or left right, cursor => left.ends cursor ++ right.ends cursor
  | many body, cursor => repeated body.ends cursor.rest.length cursor

/-- The places of a text, from a character before it. -/
def cursors : Option Char → List Char → List Cursor
  | before, [] => [⟨before, []⟩]
  | before, c :: rest => ⟨before, c :: rest⟩ :: cursors (some c) rest

/-- Some part of the text matches. -/
def test (r : Regex) (text : String) : Bool :=
  (cursors none text.toList).any fun cursor => !(r.ends cursor).isEmpty

def isFull (r : Regex) (text : String) : Bool :=
  (r.ends ⟨none, text.toList⟩).any fun cursor => cursor.rest.isEmpty

/-! ### Derived expressions -/

def among (chars : String) : Regex := one fun c => chars.toList.contains c

def oneOf : List Regex → Regex
  | [] => one fun _ => false
  | [r] => r
  | r :: rs => or r (oneOf rs)

def inOrder : List Regex → Regex
  | [] => empty
  | [r] => r
  | r :: rs => seq r (inOrder rs)

/-- The text itself. -/
def exactly (text : String) : Regex := inOrder (text.toList.map fun d => one (· == d))

def anyCase (text : String) : Regex :=
  inOrder (text.toList.map fun d => one fun c => c.toLower == d.toLower)

/-- `r{n}`. -/
def times (n : ℕ) (r : Regex) : Regex := inOrder (List.replicate n r)

/-- `r{n,}`. -/
def atLeast (n : ℕ) (r : Regex) : Regex := seq (times n r) (many r)

/-- `r?`. -/
def optional (r : Regex) : Regex := or r empty

end Regex
