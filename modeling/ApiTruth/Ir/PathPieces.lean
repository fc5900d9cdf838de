import ApiTruth.Ir.Identity

/-!
# The pieces of an application path

An application path consists of literal characters and of placeholders in the syntax of Spring,
`{name}` and `{name:constraint}`, or of Express, `:name` and `:name(constraint)`.  Without the names
of its placeholders a path is a list of shape pieces, whose text is the normalized shape.  A
constraint may contain braces, so two lists can have one text: the constraint of one of them then
runs over the end of a constraint of the other.

## Main definitions

* `PathPiece`, `readPath` : the pieces of a path.
* `ShapePiece`, `pathShape` : pieces without names and syntax.
* `RunsOver` : a constraint contains the end of another one and what follows it.

## Main results

* `normalizeApplicationPathShape_eq` : the normalized shape is the text of the shape.
* `shapeText_eq_iff` : the shapes with one text.
-/

namespace ApiTruth.Ir

open List Option Function

/-! ### Pieces -/

inductive PathPiece
  | literal (c : Char)
  | brace (name : List Char) (constraint : Option (List Char))
  | colon (name : List Char) (constraint : Option (List Char))
deriving DecidableEq

inductive ShapePiece
  | literal (c : Char)
  | placeholder (constraint : Option (List Char))
deriving DecidableEq

namespace PathPiece

/-- The text that is read as a piece. -/
def spelling : PathPiece → List Char
  | literal c => [c]
  | brace name none => '{' :: name ++ ['}']
  | brace name (some constraint) => '{' :: name ++ ':' :: constraint ++ ['}']
  | colon name none => ':' :: name
  | colon name (some constraint) => ':' :: name ++ '(' :: constraint ++ [')']

/-- The piece without its name and its syntax. -/
def shape : PathPiece → ShapePiece
  | literal c => .literal c
  | brace _ constraint | colon _ constraint => .placeholder constraint

def name : PathPiece → Option (List Char)
  | literal _ => none
  | brace name _ | colon name _ => some name

end PathPiece

namespace ShapePiece

/-- The text of a piece in a normalized shape. -/
def text : ShapePiece → List Char
  | literal c => [c]
  | placeholder none => ['{', '}']
  | placeholder (some constraint) => '{' :: ':' :: constraint ++ ['}']

end ShapePiece

def shapeText (shape : List ShapePiece) : List Char := shape.flatMap ShapePiece.text

section Read

variable (host : Host)

/-- The placeholder with the body of a brace expression. -/
def bracePiece (body : List Char) : Option PathPiece :=
  match body.span (· != ':') with
  | (name, []) => if isPathName name then some (.brace name none) else none
  | (name, _ :: constraint) =>
    if isPathName name then
      (validatePathConstraint host constraint).map fun constraint => .brace name (some constraint)
    else none

/-- The pieces of a path; nothing where the path is malformed. -/
def readPath (path : List Char) : Option (List PathPiece) :=
  match path with
  | [] => some []
  | '{' :: cs =>
    match _h : delimitedPathExpression '{' '}' cs 1 false false with
    | none => none
    | some (body, rest) => do
      let piece ← bracePiece host body
      let pieces ← readPath rest
      return piece :: pieces
  | '}' :: _ => none
  | ':' :: cs =>
    match _h : matchPathName cs with
    | none => (readPath cs).map (.literal ':' :: ·)
    | some (name, '(' :: rest) =>
      match _h' : delimitedPathExpression '(' ')' rest 1 false false with
      | none => none
      | some (body, rest') => do
        let constraint ← validatePathConstraint host body
        let pieces ← readPath rest'
        return .colon name (some constraint) :: pieces
    | some (name, rest) => (readPath rest).map (.colon name none :: ·)
  | c :: cs => (readPath cs).map (.literal c :: ·)
termination_by path.length
decreasing_by
  · exact (length_delimitedPathExpression ‹_›).trans (Nat.lt_succ_self _)
  · exact Nat.lt_succ_self _
  · have hname := length_matchPathName _h
    have hconstraint := length_delimitedPathExpression _h'
    simp only [List.length_cons] at *
    omega
  · exact (length_matchPathName ‹_›).trans (Nat.lt_succ_self _)
  · exact Nat.lt_succ_self _

def shapeOf (path : String) : Option (List ShapePiece) :=
  (readPath host path.toList).map (·.map PathPiece.shape)

end Read

/-! ### Pieces spell the path -/

section Read

variable {host : Host}

theorem spelling_bracePiece {body : List Char} {piece : PathPiece}
    (h : bracePiece host body = some piece) : piece.spelling = '{' :: body ++ ['}'] := by
  have hspan : (body.span (· != ':')).1 ++ (body.span (· != ':')).2 = body := by
    rw [span_eq_takeWhile_dropWhile, takeWhile_append_dropWhile]
  have hhead : ∀ c ∈ (body.span (· != ':')).2.head?, c = ':' := by
    intro c hc
    have hnot := head?_dropWhile_not (· != ':') body
    rw [span_eq_takeWhile_dropWhile] at hc
    rw [mem_def.mp hc] at hnot
    simpa using hnot
  unfold bracePiece at h
  split at h
  next name heq =>
    split_ifs at h
    cases h
    rw [heq] at hspan
    rw [PathPiece.spelling, ← hspan, append_nil]
  next name colon constraint heq =>
    split_ifs at h
    obtain ⟨result, hresult, rfl⟩ := map_eq_some_iff.mp h
    obtain rfl := eq_of_validatePathConstraint hresult
    rw [heq] at hspan hhead
    obtain rfl := hhead colon rfl
    rw [PathPiece.spelling, ← hspan, cons_append, cons_append]

/-! ### The text of the shape -/

theorem constrainedPlaceholder_eq (constraint : List Char) :
    constrainedPlaceholder host constraint = (validatePathConstraint host constraint).map
      fun constraint => (ShapePiece.placeholder (some constraint)).text := rfl

theorem bracePlaceholder_eq (body : List Char) :
    bracePlaceholder host body = (bracePiece host body).map fun piece => piece.shape.text := by
  unfold bracePlaceholder bracePiece
  generalize body.span (· != ':') = parts
  obtain ⟨name, _ | ⟨colon, constraint⟩⟩ := parts
  · dsimp only
    split_ifs <;> rfl
  · dsimp only
    split_ifs
    · rw [constrainedPlaceholder_eq, Option.map_map]
      rfl
    · rfl

/-- The normalized shape is the text of the shape. -/
theorem normalizeApplicationPathShape_eq (path : List Char) :
    normalizeApplicationPathShape host path =
      (readPath host path).map fun pieces => shapeText (pieces.map PathPiece.shape) := by
  fun_induction readPath host path with
  | case1 =>
    rw [normalizeApplicationPathShape]
    rfl
  | case2 =>
    rw [normalizeApplicationPathShape]
    split <;> simp_all
  | case3 cs body rest hsome ih =>
    rw [normalizeApplicationPathShape]
    split
    · simp_all
    next hsome' =>
    cases hsome.symm.trans hsome'
    rw [ih, bracePlaceholder_eq]
    cases bracePiece host body <;> cases readPath host rest <;> rfl
  | case4 =>
    rw [normalizeApplicationPathShape]
    rfl
  | case5 cs hnone ih =>
    rw [normalizeApplicationPathShape]
    split <;> simp_all [PathPiece.shape, shapeText, ShapePiece.text, comp_def]
  | case6 =>
    rw [normalizeApplicationPathShape]
    split <;> simp_all
    split <;> simp_all
  | case7 cs name rest hname body rest' hsome ih =>
    rw [normalizeApplicationPathShape]
    split
    · simp_all
    · next hname' =>
      cases hname.symm.trans hname'
      split
      · simp_all
      next hsome' =>
      cases hsome.symm.trans hsome'
      rw [ih, constrainedPlaceholder_eq]
      cases validatePathConstraint host body <;> cases readPath host rest' <;> rfl
    · simp_all
  | case8 cs name rest hrest hname ih =>
    rw [normalizeApplicationPathShape]
    split
    · simp_all
    · next hname' =>
      cases hname.symm.trans hname'
      exact (hrest _ rfl).elim
    · next hname' =>
      cases hname.symm.trans hname'
      simp [ih, PathPiece.shape, shapeText, ShapePiece.text, comp_def]
  | case9 c cs hopen hclose hcolon ih =>
    rw [normalizeApplicationPathShape]
    · simp_all [PathPiece.shape, shapeText, ShapePiece.text, comp_def]
    all_goals assumption

theorem ne_brace_of_readPath {path : List Char} {pieces : List PathPiece}
    (h : readPath host path = some pieces) {c : Char}
    (hc : ShapePiece.literal c ∈ pieces.map PathPiece.shape) : c ≠ '{' := by
  fun_induction readPath host path generalizing pieces with
  | case1 =>
    cases h
    cases hc
  | case2 | case4 | case6 => cases h
  | case3 cs body rest _ ih =>
    obtain ⟨piece, hpiece, h⟩ := bind_eq_some_iff.mp h
    obtain ⟨pieces, hpieces, h⟩ := bind_eq_some_iff.mp h
    cases h
    refine ih hpieces ((List.mem_cons.mp hc).resolve_left fun heq => ?_)
    have hspelling := spelling_bracePiece hpiece
    cases piece with
    | literal c => simp [PathPiece.spelling] at hspelling
    | brace | colon => cases heq
  | case5 cs _ ih =>
    obtain ⟨pieces, hpieces, rfl⟩ := map_eq_some_iff.mp h
    rcases List.mem_cons.mp hc with heq | hc
    · cases heq
      decide
    · exact ih hpieces hc
  | case7 cs name rest _ body rest' _ ih =>
    obtain ⟨constraint, -, h⟩ := bind_eq_some_iff.mp h
    obtain ⟨pieces, hpieces, h⟩ := bind_eq_some_iff.mp h
    cases h
    exact ih hpieces ((List.mem_cons.mp hc).resolve_left nofun)
  | case8 cs name rest _ _ ih =>
    obtain ⟨pieces, hpieces, rfl⟩ := map_eq_some_iff.mp h
    exact ih hpieces ((List.mem_cons.mp hc).resolve_left nofun)
  | case9 c' cs hopen _ _ ih =>
    obtain ⟨pieces, hpieces, rfl⟩ := map_eq_some_iff.mp h
    rcases List.mem_cons.mp hc with heq | hc
    · cases heq
      exact hopen
    · exact ih hpieces hc

end Read

/-! ### Shapes with one text -/

/-- A constraint of the first shape starts with a constraint that the second shape has in its
place, contains the brace behind it, and goes on with what follows in the second shape. -/
def RunsOver (shape other : List ShapePiece) : Prop :=
  ∃ common constraint more rest rest',
    shape = common ++ .placeholder (some (constraint ++ '}' :: more)) :: rest ∧
    other = common ++ .placeholder (some constraint) :: rest' ∧
    more ++ '}' :: shapeText rest = shapeText rest'

theorem RunsOver.cons {shape other : List ShapePiece} (h : RunsOver shape other)
    (piece : ShapePiece) : RunsOver (piece :: shape) (piece :: other) := by
  obtain ⟨common, constraint, more, rest, rest', rfl, rfl, htext⟩ := h
  exact ⟨piece :: common, constraint, more, rest, rest', rfl, rfl, htext⟩

variable {shape other : List ShapePiece}

theorem RunsOver.shapeText_eq (h : RunsOver shape other) :
    shapeText shape = shapeText other := by
  obtain ⟨common, constraint, more, rest, rest', rfl, rfl, htext⟩ := h
  simp only [shapeText, flatMap_append, flatMap_cons, ShapePiece.text] at htext ⊢
  rw [← htext]
  simp

theorem RunsOver.ne (h : RunsOver shape other) :
    shape ≠ other := by
  obtain ⟨common, constraint, more, rest, rest', rfl, rfl, -⟩ := h
  simp

/-- Two shapes have one text when they are equal or one of them runs over. -/
theorem shapeText_eq_iff
    (hshape : ∀ c, .literal c ∈ shape → c ≠ '{') (hother : ∀ c, .literal c ∈ other → c ≠ '{') :
    shapeText shape = shapeText other ↔
      shape = other ∨ RunsOver shape other ∨ RunsOver other shape := by
  constructor
  · intro h
    induction shape generalizing other with
    | nil =>
      cases other with
      | nil => exact .inl rfl
      | cons piece other =>
        rcases piece with c | _ | constraint <;> simp [shapeText, ShapePiece.text] at h
    | cons piece shape ih =>
      cases other with
      | nil => rcases piece with c | _ | constraint <;> simp [shapeText, ShapePiece.text] at h
      | cons piece' other =>
        have hrest (h : shapeText shape = shapeText other) : piece :: shape = piece :: other ∨
            RunsOver (piece :: shape) (piece :: other) ∨
            RunsOver (piece :: other) (piece :: shape) := by
          rcases ih (fun c hc => hshape c (mem_cons_of_mem _ hc))
            (fun c hc => hother c (mem_cons_of_mem _ hc)) h with rfl | hruns | hruns
          · exact .inl rfl
          · exact .inr (.inl (hruns.cons piece))
          · exact .inr (.inr (hruns.cons piece))
        have hc (c : Char) (heq : piece = .literal c) : c ≠ '{' :=
          hshape c (heq ▸ mem_cons_self)
        have hc' (c : Char) (heq : piece' = .literal c) : c ≠ '{' :=
          hother c (heq ▸ mem_cons_self)
        rcases piece with c | _ | constraint <;> rcases piece' with c' | _ | constraint' <;>
          simp only [shapeText, flatMap_cons, ShapePiece.text, cons_append,
            nil_append, append_assoc, List.cons.injEq, true_and] at h
        · obtain ⟨rfl, h⟩ := h
          exact hrest h
        · exact absurd h.1 (hc c rfl)
        · exact absurd h.1 (hc c rfl)
        · exact absurd h.1.symm (hc' c' rfl)
        · exact hrest h
        · exact absurd h.1 (by decide)
        · exact absurd h.1.symm (hc' c' rfl)
        · exact absurd h.1 (by decide)
        · rcases List.append_eq_append_iff.mp h with ⟨as, hlong, hrests⟩ | ⟨as, hlong, hrests⟩
          · cases as with
            | nil =>
              rw [append_nil] at hlong
              subst hlong
              exact hrest (List.cons.inj hrests).2
            | cons brace more =>
              obtain ⟨rfl, hmore⟩ := List.cons.inj hrests
              subst hlong
              exact .inr (.inr ⟨[], constraint, more, other, shape, rfl, rfl, hmore.symm⟩)
          · cases as with
            | nil =>
              rw [append_nil] at hlong
              subst hlong
              exact hrest (List.cons.inj hrests).2.symm
            | cons brace more =>
              obtain ⟨rfl, hmore⟩ := List.cons.inj hrests
              subst hlong
              exact .inr (.inl ⟨[], constraint', more, shape, other, rfl, rfl, hmore.symm⟩)
  · rintro (rfl | hruns | hruns)
    · rfl
    · exact hruns.shapeText_eq
    · exact hruns.shapeText_eq.symm

end ApiTruth.Ir
