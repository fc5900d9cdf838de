import Mathlib.Data.List.TakeWhile
import Mathlib.Tactic

/-!
# Words

The words of a sequence are its longest nonempty runs of elements with a property.

## Main definitions

* `Words.words` : the words of a sequence, in order.
-/

namespace ApiTruth.Words

variable {α : Type*} (p : α → Bool)

/-- Put a run in front of the words, unless it is empty. -/
def close (run : List α) (found : List (List α)) : List (List α) :=
  if run = [] then found else run :: found

/-- The run that a sequence begins with, and the words after it. -/
def scan : List α → List α × List (List α)
  | [] => ([], [])
  | x :: xs =>
    if p x then (x :: (scan xs).1, (scan xs).2) else ([], close (scan xs).1 (scan xs).2)

/-- The words of a sequence. -/
def words (xs : List α) : List (List α) := close (scan p xs).1 (scan p xs).2

end ApiTruth.Words
