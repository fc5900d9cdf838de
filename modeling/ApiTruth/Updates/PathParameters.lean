import ApiTruth.Ir.Identity

/-!
# Names of path parameters

The identity of an endpoint is derived from its path by a scanner that knows constraints with
character classes, escapes and nested groups.  The comparison of snapshots finds the names of the
parameters of a path by a second scanner, which knows names and braces only and goes on scanning
inside constraints.

## Main definitions

* `PathToken`, `pathTokens` : what the first scanner recognises.
* `pathParameterNames` : the second scanner, for a number of rounds.
* `ReturnsNames` : the second scanner ends with these names.
* `PathToken.scannedText`, `scannedNames` : what it scans of a constraint, and the names there.

## Main results

* `normalizeApplicationPathShape_eq` : the tokens give the shape of a path.
* `returnsNames_iff` : when the second scanner finds the names of the placeholders.
-/

namespace ApiTruth.Updates

open ApiTruth.Ir List Option Function

/-! ### Tokens -/

/-- A part of a path: a character that stands for itself, or a placeholder in one of its two
spellings, with or without a constraint. -/
inductive PathToken
  | literal (c : Char)
  | brace (name : List Char) (constraint : Option (List Char))
  | colon (name : List Char) (constraint : Option (List Char))
deriving DecidableEq, Repr

namespace PathToken

def shape : PathToken → List Char
  | .literal c => [c]
  | .brace _ none => ['{', '}']
  | .brace _ (some constraint) => ['{', ':'] ++ constraint ++ ['}']
  | .colon _ none => ['{', '}']
  | .colon _ (some constraint) => ['{', ':'] ++ constraint ++ ['}']

/-- The name of a placeholder. -/
def name? : PathToken → Option (List Char)
  | .literal _ => none
  | .brace name _ => some name
  | .colon name _ => some name

end PathToken

section Tokens

variable (host : Host)

def braceToken (body : List Char) : Option PathToken :=
  match body.span (· != ':') with
  | (name, []) => if isPathName name then some (.brace name none) else none
  | (name, _ :: constraint) =>
    if isPathName name then
      (validatePathConstraint host constraint).map fun body => .brace name (some body)
    else none

/-- The tokens that `normalizeApplicationPathShape` recognises. -/
def pathTokens (path : List Char) : Option (List PathToken) :=
  match path with
  | [] => some []
  | '{' :: cs =>
    match _h : delimitedPathExpression '{' '}' cs 1 false false with
    | none => none
    | some (body, rest) => do
      let token ← braceToken host body
      let tokens ← pathTokens rest
      return token :: tokens
  | '}' :: _ => none
  | ':' :: cs =>
    match _h : matchPathName cs with
    | none => (pathTokens cs).map (.literal ':' :: ·)
    | some (name, '(' :: rest) =>
      match _h' : delimitedPathExpression '(' ')' rest 1 false false with
      | none => none
      | some (body, rest') => do
        let constraint ← validatePathConstraint host body
        let tokens ← pathTokens rest'
        return .colon name (some constraint) :: tokens
    | some (name, rest) => (pathTokens rest).map (.colon name none :: ·)
  | c :: cs => (pathTokens cs).map (.literal c :: ·)
termination_by path.length
decreasing_by
  · exact (length_delimitedPathExpression ‹_›).trans (Nat.lt_succ_self _)
  · exact Nat.lt_succ_self _
  · have hname := length_matchPathName _h
    have hconstraint := length_delimitedPathExpression _h'
    simp only [List.length_cons] at *
    omega
  · exact (length_matchPathName ‹_›).trans (Nat.lt_succ_self _)
  · exact Nat.lt_succ_self _

theorem bracePlaceholder_eq (body : List Char) :
    bracePlaceholder host body = (braceToken host body).map PathToken.shape := by
  unfold bracePlaceholder braceToken
  obtain ⟨name, rest⟩ := body.span (· != ':')
  cases rest with
  | nil =>
    simp only
    split_ifs <;> rfl
  | cons _ constraint =>
    simp only
    split_ifs
    · rw [constrainedPlaceholder, Option.map_map]
      rfl
    · rfl

/-- The tokens give the shape of a path. -/
theorem normalizeApplicationPathShape_eq (path : List Char) :
    normalizeApplicationPathShape host path =
      (pathTokens host path).map fun tokens => tokens.flatMap PathToken.shape := by
  fun_induction pathTokens host path with
  | case1 => rw [normalizeApplicationPathShape]; rfl
  | case2 cs hnone =>
    rw [normalizeApplicationPathShape]
    split <;> simp_all
  | case3 cs body rest hsome ih =>
    rw [normalizeApplicationPathShape]
    split
    · simp_all
    · next body' rest' hsome' =>
      cases hsome.symm.trans hsome'
      rw [ih, bracePlaceholder_eq]
      cases braceToken host body with
      | none => rfl
      | some token => cases pathTokens host rest <;> rfl
  | case4 cs =>
    rw [normalizeApplicationPathShape]
    rfl
  | case5 cs hnone ih =>
    rw [normalizeApplicationPathShape]
    split <;> simp_all [PathToken.shape, comp_def]
  | case6 cs name rest hname hnone =>
    rw [normalizeApplicationPathShape]
    split <;> simp_all
    split <;> simp_all
  | case7 cs name rest hname body after hsome ih =>
    rw [normalizeApplicationPathShape]
    split
    · simp_all
    · next hname' =>
      cases hname.symm.trans hname'
      split
      · simp_all
      · next hsome' =>
        cases hsome.symm.trans hsome'
        rw [ih, constrainedPlaceholder]
        cases validatePathConstraint host body with
        | none => rfl
        | some constraint => cases pathTokens host after <;> rfl
    · next hnot _ => simp_all
  | case8 cs name rest hnot hname ih =>
    rw [normalizeApplicationPathShape]
    split
    · simp_all
    · next hname' =>
      cases hname.symm.trans hname'
      exact (hnot _ rfl).elim
    · next hname' =>
      cases hname.symm.trans hname'
      simp [ih, PathToken.shape, comp_def]
  | case9 c cs hopen hclose hcolon ih =>
    rw [normalizeApplicationPathShape]
    · simp_all [PathToken.shape, comp_def]
    all_goals assumption

end Tokens

/-! ### The second scanner -/

section Scanner

variable (path : List Char)

/-- The loop of `pathParameterNames` with the rest of the path behind the index, for a number of
rounds. -/
def pathParameterLoop : ℕ → List Char → List (List Char) → Option (List (List Char))
  | 0, _, _ => none
  | _ + 1, [], names => some names
  | rounds + 1, c :: cs, names =>
    if c = '{' then
      match cs.span (· != '}') with
      | (body, _ :: after) =>
        pathParameterLoop rounds after (names ++ [body.takeWhile (· != ':')])
      -- `indexOf` gives -1: the slice ends before the last character, and the index becomes 0
      | (_, []) => pathParameterLoop rounds path (names ++ [cs.dropLast.takeWhile (· != ':')])
    else if c = ':' then
      match matchPathName cs with
      | some (name, rest) => pathParameterLoop rounds rest (names ++ [name])
      | none => pathParameterLoop rounds cs names
    else pathParameterLoop rounds cs names

/-- The loop adds these names for the rest of the path and ends. -/
def ScansTo (rest : List Char) (found : List (List Char)) : Prop :=
  ∃ bound, ∀ rounds, bound ≤ rounds → ∀ names,
    pathParameterLoop path rounds rest names = some (names ++ found)

variable {path} {rest : List Char} {found : List (List Char)}

theorem scansTo_nil : ScansTo path [] [] := by
  refine ⟨1, fun rounds hle names => ?_⟩
  obtain ⟨rounds, rfl⟩ : ∃ more, rounds = more + 1 := ⟨rounds - 1, by omega⟩
  rw [pathParameterLoop, append_nil]

theorem scansTo_of_round {cs after : List Char} (added : List (List Char))
    (hround : ∀ rounds names, pathParameterLoop path (rounds + 1) cs names =
      pathParameterLoop path rounds after (names ++ added))
    (h : ScansTo path after found) : ScansTo path cs (added ++ found) := by
  obtain ⟨bound, hbound⟩ := h
  refine ⟨bound + 1, fun rounds hle names => ?_⟩
  obtain ⟨rounds, rfl⟩ : ∃ more, rounds = more + 1 := ⟨rounds - 1, by omega⟩
  rw [hround, hbound rounds (by omega), append_assoc]

theorem scansTo_cons {c : Char} (hopen : c ≠ '{') (hcolon : c ≠ ':')
    (h : ScansTo path rest found) : ScansTo path (c :: rest) found := by
  refine scansTo_of_round [] (fun rounds names => ?_) h
  rw [pathParameterLoop, if_neg hopen, if_neg hcolon, append_nil]

theorem scansTo_colon (hname : matchPathName rest = none) (h : ScansTo path rest found) :
    ScansTo path (':' :: rest) found := by
  refine scansTo_of_round [] (fun rounds names => ?_) h
  rw [pathParameterLoop, if_neg (by decide), if_pos rfl, hname, append_nil]

theorem scansTo_name {cs name : List Char} (hname : matchPathName cs = some (name, rest))
    (h : ScansTo path rest found) : ScansTo path (':' :: cs) (name :: found) := by
  refine scansTo_of_round [name] (fun rounds names => ?_) h
  rw [pathParameterLoop, if_neg (by decide), if_pos rfl, hname]

theorem scansTo_brace {cs body : List Char} {c : Char}
    (hbody : cs.span (· != '}') = (body, c :: rest)) (h : ScansTo path rest found) :
    ScansTo path ('{' :: cs) (body.takeWhile (· != ':') :: found) := by
  refine scansTo_of_round [body.takeWhile (· != ':')] (fun rounds names => ?_) h
  rw [pathParameterLoop, if_pos rfl, hbody]

end Scanner

/-- `pathParameterNames`, for a number of rounds. -/
def pathParameterNames (rounds : ℕ) (path : String) : Option (List String) :=
  (pathParameterLoop path.toList rounds path.toList []).map fun names =>
    canonicalStrings (names.map String.ofList)

/-- `pathParameterNames` ends with the set of these names. -/
def ReturnsNames (path : String) (names : List (List Char)) : Prop :=
  ∃ bound, ∀ rounds, bound ≤ rounds →
    pathParameterNames rounds path = some (canonicalStrings (names.map String.ofList))

theorem returnsNames_iff_of_scansTo {path : String} {found names : List (List Char)}
    (h : ScansTo path.toList path.toList found) :
    ReturnsNames path names ↔ ∀ name, name ∈ found ↔ name ∈ names := by
  have hfound : ReturnsNames path names ↔
      canonicalStrings (found.map String.ofList) = canonicalStrings (names.map String.ofList) := by
    obtain ⟨bound, hbound⟩ := h
    constructor
    · rintro ⟨bound', hbound'⟩
      have heq := hbound' (max bound bound') (le_max_right _ _)
      rw [pathParameterNames, hbound _ (le_max_left _ _)] at heq
      exact Option.some.inj heq
    · intro heq
      refine ⟨bound, fun rounds hle => ?_⟩
      rw [pathParameterNames, hbound rounds hle, map_some, nil_append, heq]
  rw [hfound, canonicalStrings_eq_iff]
  have hmem (names : List (List Char)) (name : List Char) :
      String.ofList name ∈ names.map String.ofList ↔ name ∈ names :=
    List.mem_map_of_injective fun _ _ h => by simpa using congrArg String.toList h
  constructor
  · intro heq name
    rw [← hmem, heq, hmem]
  · intro heq text
    rw [← String.ofList_toList (s := text), hmem, hmem, heq]

/-! ### Constraints -/

/-- The names that the scanner finds in a text, as long as every brace is closed in the text. -/
def scannedNames : List Char → Option (List (List Char))
  | [] => some []
  | c :: cs =>
    if c = '{' then
      match _h : cs.span (· != '}') with
      | (body, _ :: after) => (scannedNames after).map (body.takeWhile (· != ':') :: ·)
      | (_, []) => none
    else if c = ':' then
      match _h : matchPathName cs with
      | some (name, rest) => (scannedNames rest).map (name :: ·)
      | none => scannedNames cs
    else scannedNames cs
termination_by text => text.length
decreasing_by
  · have hlength := congrArg (fun p : List Char × List Char => p.2.length) _h
    have hle := List.length_dropWhile_le (· != '}') cs
    simp only [List.span_eq_takeWhile_dropWhile, List.length_cons] at *
    omega
  · exact (length_matchPathName _h).trans (Nat.lt_succ_self _)
  · exact Nat.lt_succ_self _
  · exact Nat.lt_succ_self _

/-- The part of a placeholder that is scanned after its name: all of a constraint in parentheses,
and what follows the first closing brace in a constraint in braces. -/
def PathToken.scannedText : PathToken → List Char
  | .literal _ => []
  | .brace _ none => []
  | .brace _ (some constraint) =>
    match constraint.span (· != '}') with
    | (_, []) => []
    | (_, _ :: tail) => tail ++ ['}']
  | .colon _ none => []
  | .colon _ (some constraint) => '(' :: constraint ++ [')']

/-! ### Parts of a text -/

/-- A text whose last character neither continues a name nor starts one. -/
def EndsName (text : List Char) : Prop :=
  ∀ c ∈ text.getLast?, isPathNameChar c = false ∧ c ≠ ':'

variable {text : List Char} {name : List Char}

theorem EndsName.of_append (front : List Char) (h : EndsName (front ++ text)) :
    EndsName text := by
  cases text with
  | nil => exact fun c hc => by cases hc
  | cons c text =>
    intro d hd
    refine h d ?_
    rw [getLast?_append_of_ne_nil _ (cons_ne_nil c text)]
    exact hd

theorem EndsName.of_cons {c : Char} (h : EndsName (c :: text)) :
    EndsName text := EndsName.of_append [c] h

theorem endsName_concat {c : Char} (hc : isPathNameChar c = false ∧ c ≠ ':') (text : List Char) :
    EndsName (text ++ [c]) := by
  intro d hd
  rw [getLast?_concat, mem_some_iff] at hd
  exact hd ▸ hc

theorem eq_of_matchPathName {text name rest : List Char}
    (h : matchPathName text = some (name, rest)) : text = name ++ rest ∧ isPathName name = true := by
  cases text with
  | nil => cases h
  | cons c text =>
    rw [matchPathName] at h
    split_ifs at h with hstart
    cases h
    refine ⟨by rw [cons_append, takeWhile_append_dropWhile], ?_⟩
    rw [isPathName, hstart, Bool.true_and, List.all_eq_true]
    exact fun d hd => mem_takeWhile_imp hd

theorem matchPathName_append_of_endsName (h : EndsName text) (hne : text ≠ [])
    (rest : List Char) : matchPathName (text ++ rest) =
      (matchPathName text).map fun found => (found.1, found.2 ++ rest) := by
  cases text with
  | nil => exact absurd rfl hne
  | cons c text =>
    rw [cons_append, matchPathName, matchPathName]
    split_ifs with hstart
    · have hdrop : text.dropWhile isPathNameChar ≠ [] := by
        intro hnil
        have hall := List.dropWhile_eq_nil_iff.mp hnil
        obtain ⟨d, hd⟩ : ∃ d, (c :: text).getLast? = some d :=
          ⟨_, getLast?_eq_some_getLast (cons_ne_nil c text)⟩
        have hchar : isPathNameChar d = true := by
          rcases List.mem_cons.mp (mem_of_getLast? hd) with rfl | hmem
          · exact isPathNameChar_of_start hstart
          · exact hall d hmem
        rw [(h d hd).1] at hchar
        cases hchar
      have htake : ¬ (text.takeWhile isPathNameChar).length = text.length := by
        intro hlength
        have happend := congrArg List.length
          (takeWhile_append_dropWhile (p := isPathNameChar) (l := text))
        rw [length_append, hlength] at happend
        exact hdrop (List.length_eq_zero_iff.mp (by omega))
      rw [takeWhile_append, if_neg htake, dropWhile_append, if_neg (by simpa using hdrop)]
      rfl
    · rfl

theorem span_append_of_cons {text body after : List Char} {c : Char}
    (h : text.span (· != '}') = (body, c :: after)) (rest : List Char) :
    (text ++ rest).span (· != '}') = (body, c :: (after ++ rest)) := by
  rw [span_eq_takeWhile_dropWhile, Prod.mk.injEq] at h ⊢
  have htake : ¬ (text.takeWhile (· != '}')).length = text.length := by
    intro hlength
    have happend := congrArg List.length (takeWhile_append_dropWhile (p := (· != '}')) (l := text))
    rw [length_append, hlength, h.2, length_cons] at happend
    omega
  rw [takeWhile_append, if_neg htake, dropWhile_append, h.2, h.1]
  exact ⟨rfl, rfl⟩

theorem scansTo_append {path text rest : List Char} {names found : List (List Char)}
    (hnames : scannedNames text = some names) (hends : EndsName text)
    (h : ScansTo path rest found) : ScansTo path (text ++ rest) (names ++ found) := by
  fun_induction scannedNames text generalizing names with
  | case1 =>
    cases hnames
    exact h
  | case2 cs body c after hspan ih =>
    obtain ⟨others, hothers, rfl⟩ := Option.map_eq_some_iff.mp hnames
    have hcs : cs = body ++ c :: after := by
      have happend := takeWhile_append_dropWhile (p := (· != '}')) (l := cs)
      rw [span_eq_takeWhile_dropWhile, Prod.mk.injEq] at hspan
      rw [← happend, hspan.1, hspan.2]
    refine scansTo_brace (span_append_of_cons hspan rest) (ih hothers ?_)
    exact (hcs ▸ hends.of_cons : EndsName (body ++ c :: after)).of_append.of_cons
  | case3 cs body hspan => cases hnames
  | case4 cs name after hname _ ih =>
    obtain ⟨others, hothers, rfl⟩ := Option.map_eq_some_iff.mp hnames
    have hcs := (eq_of_matchPathName hname).1
    have hne : cs ≠ [] := by
      rintro rfl
      cases hname
    have happend := matchPathName_append_of_endsName hends.of_cons hne rest
    rw [hname] at happend
    refine scansTo_name happend (ih hothers ?_)
    exact (hcs ▸ hends.of_cons : EndsName (name ++ after)).of_append
  | case5 cs hname _ ih =>
    have hne : cs ≠ [] := by
      rintro rfl
      exact (hends ':' rfl).2 rfl
    have happend := matchPathName_append_of_endsName hends.of_cons hne rest
    rw [hname] at happend
    exact scansTo_colon happend (ih hnames hends.of_cons)
  | case6 c cs hopen hcolon ih =>
    exact scansTo_cons hopen hcolon (ih hnames hends.of_cons)

theorem isPathName_bne (h : isPathName name = true) {c d : Char}
    (hc : c ∈ name) (hd : isPathNameChar d = false) : (c != d) = true := by
  rw [bne_iff_ne]
  rintro rfl
  rw [isPathNameChar_of_mem h hc] at hd
  cases hd

theorem takeWhile_append_of_isPathName (h : isPathName name = true) {d : Char}
    (hd : isPathNameChar d = false) (rest : List Char) :
    (name ++ d :: rest).takeWhile (· != d) = name ∧ (name ++ d :: rest).dropWhile (· != d) =
      d :: rest := by
  have hall : ∀ c ∈ name, (c != d) = true := fun c hc => isPathName_bne h hc hd
  constructor
  · rw [takeWhile_append_of_pos hall, takeWhile_cons_of_neg (by simp), append_nil]
  · rw [dropWhile_append_of_pos hall, dropWhile_cons_of_neg (by simp)]

/-! ### The names of the placeholders -/

def placeholderNames (tokens : List PathToken) : List (List Char) := tokens.filterMap PathToken.name?

/-- What the scanner finds in a token: the name, and the names in its constraint. -/
def PathToken.foundNames (token : PathToken) : List (List Char) :=
  token.name?.toList ++ (scannedNames token.scannedText).getD []

/-- Every brace that is scanned in a constraint is closed in it. -/
def ClosesBraces (tokens : List PathToken) : Prop :=
  ∀ token ∈ tokens, (scannedNames token.scannedText).isSome = true

/-- The scanner reads the name of a placeholder in braces and stops at the first closing brace. -/
theorem scansTo_braceToken {host : Host} {path body rest : List Char} {token : PathToken}
    {found : List (List Char)} (htoken : braceToken host body = some token)
    (hcloses : (scannedNames token.scannedText).isSome = true) (h : ScansTo path rest found) :
    ScansTo path ('{' :: (body ++ '}' :: rest)) (token.foundNames ++ found) := by
  unfold braceToken at htoken
  split at htoken
  · next name hspan =>
    split_ifs at htoken with hname
    cases htoken
    rw [span_eq_takeWhile_dropWhile, Prod.mk.injEq] at hspan
    have hbody : body = name := by
      rw [← takeWhile_append_dropWhile (p := (· != ':')) (l := body), hspan.1, hspan.2, append_nil]
    subst hbody
    have hclosed := takeWhile_append_of_isPathName hname (d := '}') (by decide) rest
    rw [PathToken.foundNames, PathToken.scannedText, scannedNames]
    have hscans := scansTo_brace (c := '}')
      (by rw [span_eq_takeWhile_dropWhile, hclosed.1, hclosed.2]) h
    rw [hspan.1] at hscans
    exact hscans
  · next name c constraint hspan =>
    split_ifs at htoken with hname
    obtain ⟨constraint', hconstraint, rfl⟩ := Option.map_eq_some_iff.mp htoken
    obtain rfl := eq_of_validatePathConstraint hconstraint
    rw [span_eq_takeWhile_dropWhile, Prod.mk.injEq] at hspan
    have hbody : body = name ++ c :: constraint' := by
      rw [← takeWhile_append_dropWhile (p := (· != ':')) (l := body), hspan.1, hspan.2]
    obtain rfl : c = ':' := by
      have hc := head?_dropWhile_not (· != ':') body
      rw [hspan.2] at hc
      simpa using hc
    subst hbody
    have hfront : ∀ d ∈ name ++ [':'], (d != '}') = true := by
      intro d hd
      rcases List.mem_append.mp hd with hd | hd
      · exact isPathName_bne hname hd (by decide)
      · rw [List.mem_singleton.mp hd]
        decide
    have hclosed (text : List Char) : (name ++ ':' :: text).span (· != '}') =
        (name ++ ':' :: text.takeWhile (· != '}'), text.dropWhile (· != '}')) := by
      rw [span_eq_takeWhile_dropWhile, append_cons, takeWhile_append_of_pos hfront,
        dropWhile_append_of_pos hfront, append_assoc]
      rfl
    have hread (text : List Char) : (name ++ ':' :: text).takeWhile (· != ':') = name :=
      (takeWhile_append_of_isPathName hname (by decide) text).1
    cases htail : constraint'.dropWhile (· != '}') with
    | nil =>
      -- the first closing brace is that of the placeholder
      have hall := List.dropWhile_eq_nil_iff.mp htail
      have hbrace : (name ++ ':' :: constraint' ++ '}' :: rest).span (· != '}') =
          (name ++ ':' :: constraint', '}' :: rest) := by
        rw [append_assoc, cons_append, hclosed, takeWhile_append_of_pos hall,
          dropWhile_append_of_pos hall]
        simp
      have hscans := scansTo_brace hbrace h
      rw [hread] at hscans
      simpa [PathToken.foundNames, PathToken.name?, PathToken.scannedText,
        span_eq_takeWhile_dropWhile, htail, scannedNames] using hscans
    | cons d tail =>
      have hbrace : (name ++ ':' :: constraint' ++ '}' :: rest).span (· != '}') =
          (name ++ ':' :: constraint'.takeWhile (· != '}'), d :: (tail ++ '}' :: rest)) :=
        span_append_of_cons (by rw [hclosed, htail]) _
      have htext : PathToken.scannedText (.brace name (some constraint')) = tail ++ ['}'] := by
        rw [PathToken.scannedText, span_eq_takeWhile_dropWhile, htail]
      obtain ⟨names, hnames⟩ := Option.isSome_iff_exists.mp hcloses
      rw [htext] at hnames
      have htailScans := scansTo_append hnames (endsName_concat (by decide) tail) h
      rw [append_assoc, singleton_append] at htailScans
      have hscans := scansTo_brace hbrace htailScans
      rw [hread] at hscans
      simpa [PathToken.foundNames, PathToken.name?, htext, hnames] using hscans

theorem scansTo_tokens {host : Host} {path rest : List Char} {tokens : List PathToken}
    (htokens : pathTokens host rest = some tokens) (hcloses : ClosesBraces tokens) :
    ScansTo path rest (tokens.flatMap PathToken.foundNames) := by
  fun_induction pathTokens host rest generalizing tokens with
  | case1 =>
    cases htokens
    exact scansTo_nil
  | case2 => cases htokens
  | case3 cs body rest hsome ih =>
    obtain ⟨token, htoken, others, hothers, rfl⟩ : ∃ token, braceToken host body = some token ∧
        ∃ others, pathTokens host rest = some others ∧ tokens = token :: others := by
      obtain ⟨token, htoken, htokens⟩ := Option.bind_eq_some_iff.mp htokens
      obtain ⟨others, hothers, htokens⟩ := Option.bind_eq_some_iff.mp htokens
      exact ⟨token, htoken, others, hothers, (Option.some.inj htokens).symm⟩
    rw [eq_of_delimitedPathExpression hsome, flatMap_cons]
    exact scansTo_braceToken htoken (hcloses token mem_cons_self)
      (ih hothers fun other hother => hcloses other (mem_cons_of_mem _ hother))
  | case4 => cases htokens
  | case5 cs hname ih =>
    obtain ⟨others, hothers, rfl⟩ := Option.map_eq_some_iff.mp htokens
    rw [flatMap_cons, PathToken.foundNames, PathToken.scannedText, scannedNames]
    exact scansTo_colon hname
      (ih hothers fun other hother => hcloses other (mem_cons_of_mem _ hother))
  | case6 => cases htokens
  | case7 cs name rest hname body after hsome ih =>
    obtain ⟨constraint, hconstraint, htokens⟩ := Option.bind_eq_some_iff.mp htokens
    obtain ⟨others, hothers, htokens⟩ := Option.bind_eq_some_iff.mp htokens
    cases htokens
    obtain rfl := eq_of_validatePathConstraint hconstraint
    obtain ⟨names, hnames⟩ := Option.isSome_iff_exists.mp (hcloses _ mem_cons_self)
    have hrest := ih hothers fun other hother => hcloses other (mem_cons_of_mem _ hother)
    rw [flatMap_cons, PathToken.foundNames, hnames]
    refine scansTo_name hname ?_
    rw [eq_of_delimitedPathExpression hsome]
    have hscans := scansTo_append hnames (endsName_concat (by decide) ('(' :: constraint)) hrest
    simpa [PathToken.scannedText] using hscans
  | case8 cs name rest hnot hname ih =>
    obtain ⟨others, hothers, rfl⟩ := Option.map_eq_some_iff.mp htokens
    have hrest := ih hothers fun other hother => hcloses other (mem_cons_of_mem _ hother)
    rw [flatMap_cons, PathToken.foundNames, PathToken.scannedText, scannedNames]
    exact scansTo_name hname hrest
  | case9 c cs hopen hclose hcolon ih =>
    obtain ⟨others, hothers, rfl⟩ := Option.map_eq_some_iff.mp htokens
    rw [flatMap_cons, PathToken.foundNames, PathToken.scannedText, scannedNames]
    exact scansTo_cons hopen hcolon
      (ih hothers fun other hother => hcloses other (mem_cons_of_mem _ hother))

theorem mem_flatMap_foundNames {tokens : List PathToken} :
    name ∈ tokens.flatMap PathToken.foundNames ↔ name ∈ placeholderNames tokens ∨
      ∃ token ∈ tokens, name ∈ (scannedNames token.scannedText).getD [] := by
  simp only [mem_flatMap, PathToken.foundNames, placeholderNames, mem_filterMap,
    mem_append, mem_toList]
  constructor
  · rintro ⟨token, htoken, hname | hname⟩
    · exact Or.inl ⟨token, htoken, hname⟩
    · exact Or.inr ⟨token, htoken, hname⟩
  · rintro (⟨token, htoken, hname⟩ | ⟨token, htoken, hname⟩)
    · exact ⟨token, htoken, Or.inl hname⟩
    · exact ⟨token, htoken, Or.inr hname⟩

/-! ### Termination -/

theorem scansTo_of_scannedNames {path text : List Char} {names : List (List Char)}
    (h : scannedNames text = some names) : ScansTo path text names := by
  fun_induction scannedNames text generalizing names with
  | case1 =>
    cases h
    exact scansTo_nil
  | case2 cs body c after hspan ih =>
    obtain ⟨others, hothers, rfl⟩ := Option.map_eq_some_iff.mp h
    exact scansTo_brace hspan (ih hothers)
  | case3 cs body hspan => cases h
  | case4 cs name after hname _ ih =>
    obtain ⟨others, hothers, rfl⟩ := Option.map_eq_some_iff.mp h
    exact scansTo_name hname (ih hothers)
  | case5 cs hname _ ih => exact scansTo_colon hname (ih h)
  | case6 c cs hopen hcolon ih => exact scansTo_cons hopen hcolon (ih h)

/-- A brace that is not closed sends the scanner back to the start of the path, where it meets the
same brace again. -/
theorem pathParameterLoop_eq_none {path rest : List Char} (hpath : scannedNames path = none)
    (hrest : scannedNames rest = none) (rounds : ℕ) (names : List (List Char)) :
    pathParameterLoop path rounds rest names = none := by
  induction rounds generalizing rest names with
  | zero => rfl
  | succ rounds ih =>
    cases rest with
    | nil => simp [scannedNames] at hrest
    | cons c cs =>
      rw [scannedNames] at hrest
      rw [pathParameterLoop]
      split_ifs at hrest ⊢ with hopen hcolon
      · split at hrest
        · next body d after hspan =>
          rw [hspan]
          exact ih (Option.map_eq_none_iff.mp hrest) _
        · next body hspan =>
          rw [hspan]
          exact ih hpath _
      · split at hrest
        · next name after hname =>
          rw [hname]
          exact ih (Option.map_eq_none_iff.mp hrest) _
        · next hname =>
          rw [hname]
          exact ih hrest _
      · exact ih hrest _

theorem exists_returnsNames_iff (path : String) :
    (∃ names, ReturnsNames path names) ↔ (scannedNames path.toList).isSome = true := by
  constructor
  · rintro ⟨names, bound, hbound⟩
    by_contra hnone
    rw [Bool.not_eq_true, isSome_eq_false_iff, isNone_iff_eq_none] at hnone
    have heq := hbound bound le_rfl
    rw [pathParameterNames, pathParameterLoop_eq_none hnone hnone] at heq
    cases heq
  · intro hsome
    obtain ⟨names, hnames⟩ := Option.isSome_iff_exists.mp hsome
    exact ⟨names, (returnsNames_iff_of_scansTo (scansTo_of_scannedNames hnames)).mpr
      fun _ => Iff.rfl⟩

/-! ### Exactness -/

/-- Every name that is scanned in a constraint is the name of a placeholder. -/
def ScansPlaceholders (tokens : List PathToken) : Prop :=
  ∀ token ∈ tokens, ∀ name ∈ (scannedNames token.scannedText).getD [],
    name ∈ placeholderNames tokens

/-- The second scanner ends exactly when every brace that it reads is closed in the path.  If the
braces that it reads in constraints are closed there, then it ends, and it finds the names of the
placeholders exactly when every name that it reads in a constraint is one of them. -/
theorem returnsNames_iff {host : Host} {path : String} {shape : List Char}
    (h : normalizeApplicationPathShape host path.toList = some shape) :
    ∃ tokens, pathTokens host path.toList = some tokens ∧
      tokens.flatMap PathToken.shape = shape ∧
      ((∃ names, ReturnsNames path names) ↔ (scannedNames path.toList).isSome = true) ∧
      (ClosesBraces tokens → (∃ names, ReturnsNames path names) ∧
        (ReturnsNames path (placeholderNames tokens) ↔ ScansPlaceholders tokens)) := by
  rw [normalizeApplicationPathShape_eq] at h
  obtain ⟨tokens, htokens, hshape⟩ := Option.map_eq_some_iff.mp h
  refine ⟨tokens, htokens, hshape, exists_returnsNames_iff path, fun hcloses => ?_⟩
  have hscans := @scansTo_tokens host path.toList path.toList tokens htokens hcloses
  refine ⟨⟨_, (returnsNames_iff_of_scansTo hscans).mpr fun _ => Iff.rfl⟩, ?_⟩
  rw [returnsNames_iff_of_scansTo hscans]
  simp only [mem_flatMap_foundNames]
  constructor
  · intro hiff token htoken name hname
    exact (hiff name).mp (Or.inr ⟨token, htoken, hname⟩)
  · intro hplaceholders name
    refine or_iff_left_of_imp ?_
    rintro ⟨token, htoken, hname⟩
    exact hplaceholders token htoken name hname

/-- A constraint in parentheses that names nothing. -/
theorem returnsNames_iff_widgets :
    ∃ tokens, pathTokens Host.ascii "/widgets/\x7bkind\x7d/:id([a-z]+)".toList = some tokens ∧
      tokens.flatMap PathToken.shape = "/widgets/\x7b\x7d/\x7b:[a-z]+\x7d".toList ∧
      ((∃ names, ReturnsNames "/widgets/\x7bkind\x7d/:id([a-z]+)" names) ↔
        (scannedNames "/widgets/\x7bkind\x7d/:id([a-z]+)".toList).isSome = true) ∧
      (ClosesBraces tokens → (∃ names, ReturnsNames "/widgets/\x7bkind\x7d/:id([a-z]+)" names) ∧
        (ReturnsNames "/widgets/\x7bkind\x7d/:id([a-z]+)" (placeholderNames tokens) ↔
          ScansPlaceholders tokens)) :=
  returnsNames_iff (by decide +kernel)

/-- A repetition in a constraint is taken for a name, and a brace in a character class sends the
scanner back to the start. -/
theorem not_returnsNames_constraint :
    (∃ tokens, pathTokens Host.ascii "/users/:id(\\d\x7b4\x7d)".toList = some tokens ∧
      ¬ ReturnsNames "/users/:id(\\d\x7b4\x7d)" (placeholderNames tokens)) ∧
    (∃ tokens, pathTokens Host.ascii "/x/:id([\x7b])".toList = some tokens) ∧
    ∀ rounds, pathParameterNames rounds "/x/:id([\x7b])" = none := by
  refine ⟨⟨"/users/".toList.map .literal ++ [.colon "id".toList (some "\\d\x7b4\x7d".toList)],
    by decide +kernel, fun h => ?_⟩,
    ⟨"/x/".toList.map .literal ++ [.colon "id".toList (some "[\x7b]".toList)], by decide +kernel⟩,
    fun rounds => ?_⟩
  · have hscans : ScansTo "/users/:id(\\d\x7b4\x7d)".toList "/users/:id(\\d\x7b4\x7d)".toList
        ["id".toList, "4".toList] := scansTo_of_scannedNames (by decide +kernel)
    have hfour := ((returnsNames_iff_of_scansTo hscans).mp h "4".toList).mp (by decide)
    revert hfour
    decide
  · have hnone : scannedNames "/x/:id([\x7b])".toList = none := by decide +kernel
    rw [pathParameterNames, pathParameterLoop_eq_none hnone hnone]
    rfl

end ApiTruth.Updates
