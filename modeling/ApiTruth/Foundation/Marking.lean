import Mathlib.Data.List.Basic
import Mathlib.Order.Lattice

/-!
# Marks that spread along edges

A mark is a node with a value.  A round visits the edges in order and copies the marks of the
source of an edge to its target; rounds follow one another until a round adds no mark.

## Main definitions

* `Marking.round`, `Marking.saturate` : one round, and all rounds.
* `Marking.valuesAt` : the values with which a node is marked.
-/

namespace Marking

variable {α β : Type*}

/-- The marks that can be added: the target of an edge with a value of a mark. -/
def candidates (edges : List (α × α)) (marks : List (α × β)) : List (α × β) :=
  edges.flatMap fun edge => marks.map fun mark => (edge.2, mark.2)

variable [DecidableEq α]

def valuesAt (marks : List (α × β)) (node : α) : List β :=
  (marks.filter (·.1 = node)).map Prod.snd

@[simp] theorem mem_valuesAt {marks : List (α × β)} {node : α} {value : β} :
    value ∈ valuesAt marks node ↔ (node, value) ∈ marks := by
  simp [valuesAt]

variable [DecidableEq β]

/-- Copy the marks of the source of an edge to its target. -/
def spreadEdge (marks : List (α × β)) (edge : α × α) : List (α × β) :=
  marks ++ ((valuesAt marks edge.1).map (edge.2, ·)).filter (· ∉ marks)

/-- Visit the edges in order. -/
def round (edges : List (α × α)) (marks : List (α × β)) : List (α × β) :=
  edges.foldl spreadEdge marks

/-- Repeat rounds until a round adds no mark, up to a number of rounds. -/
def saturateWithin (edges : List (α × α)) : ℕ → List (α × β) → List (α × β)
  | 0, marks => marks
  | fuel + 1, marks =>
    if (round edges marks).length = marks.length then marks
    else saturateWithin edges fuel (round edges marks)

/-- Repeat rounds until a round adds no mark. -/
def saturate (edges : List (α × α)) (marks : List (α × β)) : List (α × β) :=
  saturateWithin edges ((candidates edges marks).length + 1) marks

end Marking
