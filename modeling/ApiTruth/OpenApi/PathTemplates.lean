import ApiTruth.Foundation.Traverse
import ApiTruth.Ir.PathPieces
import ApiTruth.OpenApi.Projection

/-!
# Path templates

A path template of a document names its parameters in braces.  Read as a template, the rendered
path of an endpoint names the parameters that the compiler lists for it, and with the names erased
it is the shape under which the endpoint was grouped, which is also the shape in its identity.

## Main definitions

* `eraseNames`, `templateNames` : a template without its names, and its names.
* `Projectable` : the paths that a template renders.

## Main results

* `eraseNames_openApiPath`, `templateNames_openApiPath`.
* `normalizedShape_of_accepted` : the shape of a group is that of the identity.
-/

namespace ApiTruth.OpenApi

open ApiTruth.Ir List Option

/-! ### Templates -/

/-- A template with the text inside braces erased; the flag tells whether the text stands inside
braces. -/
def eraseNames : List Char → Bool → List Char
  | [], _ => []
  | c :: cs, inside =>
    if c = '{' then '{' :: eraseNames cs true
    else if c = '}' then '}' :: eraseNames cs false
    else if inside then eraseNames cs true
    else c :: eraseNames cs false

/-- The texts inside braces; inside braces the text read so far is given. -/
def templateNames : List Char → Option (List Char) → List (List Char)
  | [], _ => []
  | c :: cs, none => if c = '{' then templateNames cs (some []) else templateNames cs none
  | c :: cs, some name =>
    if c = '}' then name :: templateNames cs none else templateNames cs (some (name ++ [c]))

/-- A path key with the names of its placeholders erased. -/
def erasedKey (key : String) : List Char := eraseNames key.toList false

/-- The names of the placeholders of a path key. -/
def keyNames (key : String) : List String := (templateNames key.toList none).map String.ofList

example : erasedKey "/a/{id}/b" = "/a/{}/b".toList := rfl

example : keyNames "/a/{id}/b/{x}" = ["id", "x"] := rfl

/-! ### Segments -/

def isProjectable (segment : List Char) : Bool :=
  (segmentParameter segment).isSome || isLiteralSegment segment

def Projectable (path : String) : Prop :=
  path = "/" ∨ path.toList.head? = some '/' ∧ ∀ segment ∈ pathSegments path, isProjectable segment

theorem isPathName_of_segmentParameter {segment name : List Char}
    (h : segmentParameter segment = some name) : isPathName name = true := by
  unfold segmentParameter at h
  split at h
  · split_ifs at h with hname
    exact Option.some.inj h ▸ hname
  · split_ifs at h with hname
    exact Option.some.inj h ▸ (Bool.and_eq_true_iff.mp hname).1
  · cases h

theorem eq_of_segmentParameter {segment name : List Char}
    (h : segmentParameter segment = some name) :
    segment = ':' :: name ∨ segment = '{' :: (name ++ ['}']) := by
  unfold segmentParameter at h
  split at h
  · split_ifs at h
    exact .inl (by rw [Option.some.inj h])
  · rename_i cs
    split_ifs at h with hname
    have hlast : cs.getLast? = some '}' := by simpa using (Bool.and_eq_true_iff.mp hname).2
    refine .inr ?_
    rw [← Option.some.inj h]
    exact congrArg _ (dropLast_append_getLast? '}' (by simpa using hlast)).symm
  · cases h

theorem isPathNameChar_ne {c d : Char} (h : isPathNameChar c = true)
    (hd : isPathNameChar d = false) : c ≠ d := fun heq => by simp [← heq, h] at hd

theorem isLiteralChar_ne {c d : Char} (h : isLiteralChar c = true)
    (hd : isLiteralChar d = false) : c ≠ d := fun heq => by simp [← heq, h] at hd

theorem toList_joinSegments {segments : List (List Char)} (h : segments ≠ []) :
    (joinSegments segments).toList = segments.flatMap ('/' :: ·) := by
  rw [joinSegments, String.toList_ofList]
  induction segments with
  | nil => exact absurd rfl h
  | cons segment segments ih =>
    cases segments with
    | nil => simp
    | cons next segments =>
      have hrest := ih (by simp)
      rw [intercalate_cons_cons, flatMap_cons, ← hrest]
      simp

theorem joinSegments_pathSegments {path : String} (h : path.toList.head? = some '/') :
    joinSegments (pathSegments path) = path := by
  rw [joinSegments, pathSegments, intercalate_splitOn]
  cases hpath : path.toList with
  | nil => simp [hpath] at h
  | cons c cs =>
    rw [hpath] at h
    cases h
    rw [drop_one, tail_cons, ← hpath, String.ofList_toList]

theorem pathSegments_ne_nil (path : String) : pathSegments path ≠ [] := splitOn_ne_nil _ _

def shapeSegment (segment : List Char) : List Char :=
  if (segmentParameter segment).isSome then ['{', '}'] else segment

theorem projectedSegment_eq_some_iff {segment shape : List Char} :
    projectedSegment segment = some shape ↔
      isProjectable segment = true ∧ shape = shapeSegment segment := by
  unfold projectedSegment isProjectable shapeSegment
  by_cases hparameter : (segmentParameter segment).isSome = true
  · simp [hparameter, eq_comm]
  · by_cases hliteral : isLiteralSegment segment = true <;> simp [hparameter, hliteral, eq_comm]

/-- The shape of a path that a template renders. -/
def pathShape (path : String) : String :=
  if path = "/" then path else joinSegments ((pathSegments path).map shapeSegment)

theorem projectedShape_eq_some_iff {path shape : String} :
    projectedShape path = some shape ↔ Projectable path ∧ shape = pathShape path := by
  unfold projectedShape Projectable pathShape
  by_cases hroot : path = "/"
  · rw [if_pos hroot, if_pos hroot, some_inj, eq_comm (a := path)]
    exact ⟨fun h => ⟨.inl hroot, h⟩, fun h => h.2⟩
  · rw [if_neg hroot, if_neg hroot, or_iff_right hroot]
    by_cases hslash : path.toList.head? = some '/'
    · rw [if_neg (not_not_intro hslash), and_iff_right hslash, map_eq_some_iff]
      constructor
      · rintro ⟨segments, hsegments, rfl⟩
        obtain ⟨hall, rfl⟩ :=
          (mapM_eq_some_map_iff fun _ _ => projectedSegment_eq_some_iff).mp hsegments
        exact ⟨hall, rfl⟩
      · rintro ⟨hall, rfl⟩
        exact ⟨_, (mapM_eq_some_map_iff fun _ _ => projectedSegment_eq_some_iff).mpr ⟨hall, rfl⟩,
          rfl⟩
    · rw [if_pos hslash]
      simp [hslash]

/-! ### A rendered path read as a template -/

variable {cs : List Char} {segment : List Char}

theorem eraseNames_append (h : ∀ c ∈ cs, c ≠ '{' ∧ c ≠ '}') (rest : List Char)
    (inside : Bool) : eraseNames (cs ++ rest) inside =
      (if inside then [] else cs) ++ eraseNames rest inside := by
  induction cs with
  | nil => simp
  | cons c cs ih =>
    obtain ⟨hopen, hclose⟩ := h c mem_cons_self
    have hrest := ih fun d hd => h d (mem_cons_of_mem _ hd)
    rw [cons_append, eraseNames, if_neg hopen, if_neg hclose]
    cases inside with
    | false => simpa using hrest
    | true => simpa using hrest

theorem templateNames_append_none (h : '{' ∉ cs) (rest : List Char) :
    templateNames (cs ++ rest) none = templateNames rest none := by
  induction cs with
  | nil => rfl
  | cons c cs ih =>
    simp only [mem_cons, not_or] at h
    rw [cons_append, templateNames, if_neg (Ne.symm h.1), ih h.2]

theorem templateNames_append_some (h : '}' ∉ cs) (rest name : List Char) :
    templateNames (cs ++ rest) (some name) = templateNames rest (some (name ++ cs)) := by
  induction cs generalizing name with
  | nil => rw [nil_append, append_nil]
  | cons c cs ih =>
    simp only [mem_cons, not_or] at h
    rw [cons_append, templateNames, if_neg (Ne.symm h.1), ih h.2, append_assoc, singleton_append]

theorem ne_braces_of_isPathName {name : List Char} (h : isPathName name = true) :
    ∀ c ∈ name, c ≠ '{' ∧ c ≠ '}' := fun _ hc =>
  ⟨isPathNameChar_ne (isPathNameChar_of_mem h hc) rfl,
    isPathNameChar_ne (isPathNameChar_of_mem h hc) rfl⟩

theorem ne_braces_of_isLiteralSegment (h : isLiteralSegment segment = true) :
    ∀ c ∈ segment, c ≠ '{' ∧ c ≠ '}' := by
  simp only [isLiteralSegment, Bool.and_eq_true, List.all_eq_true] at h
  exact fun c hc => ⟨isLiteralChar_ne (h.2 c hc) rfl, isLiteralChar_ne (h.2 c hc) rfl⟩

variable (h : isProjectable segment = true)

include h in
theorem isLiteralSegment_of_isProjectable (hnone : segmentParameter segment = none) :
    isLiteralSegment segment = true := by
  simpa [isProjectable, hnone] using h

include h in
theorem eraseNames_renderedSegment (rest : List Char) :
    eraseNames (renderedSegment segment ++ rest) false =
      shapeSegment segment ++ eraseNames rest false := by
  rw [renderedSegment, shapeSegment]
  cases hname : segmentParameter segment with
  | none =>
    have hliteral := isLiteralSegment_of_isProjectable h hname
    simpa using eraseNames_append (ne_braces_of_isLiteralSegment hliteral) rest false
  | some name =>
    have hchars := ne_braces_of_isPathName (isPathName_of_segmentParameter hname)
    have hinside := eraseNames_append hchars ('}' :: rest) true
    simp only [cons_append, append_assoc, nil_append, isSome_some, if_true] at hinside ⊢
    rw [eraseNames, if_pos rfl, hinside, eraseNames, if_neg (by decide), if_pos rfl]

include h in
theorem templateNames_renderedSegment (rest : List Char) :
    templateNames (renderedSegment segment ++ rest) none =
      (segmentParameter segment).toList ++ templateNames rest none := by
  rw [renderedSegment]
  cases hname : segmentParameter segment with
  | none =>
    have hliteral := isLiteralSegment_of_isProjectable h hname
    simpa using templateNames_append_none
      (fun hmem => (ne_braces_of_isLiteralSegment hliteral _ hmem).1 rfl) rest
  | some name =>
    have hchars := ne_braces_of_isPathName (isPathName_of_segmentParameter hname)
    have hinside := templateNames_append_some (fun hmem => (hchars _ hmem).2 rfl) ('}' :: rest) []
    simp only [cons_append, append_assoc, nil_append, toList_some] at hinside ⊢
    rw [templateNames, if_pos rfl, hinside, templateNames, if_pos rfl]

variable {path : String}

theorem toList_openApiPath (hroot : path ≠ "/") : (openApiPath path).path.toList =
    (pathSegments path).flatMap fun segment => '/' :: renderedSegment segment := by
  rw [openApiPath]
  simp only [if_neg hroot]
  rw [toList_joinSegments (by simpa using pathSegments_ne_nil path), flatMap_map]

/-- The path key of a document has the shape of the group. -/
theorem eraseNames_openApiPath (h : Projectable path) :
    erasedKey (openApiPath path).path = (pathShape path).toList := by
  rcases h with rfl | ⟨-, h⟩
  · rfl
  · by_cases hroot : path = "/"
    · subst hroot
      rfl
    · rw [erasedKey, toList_openApiPath hroot, pathShape, if_neg hroot,
        toList_joinSegments (by simpa using pathSegments_ne_nil path), flatMap_map]
      generalize pathSegments path = segments at h
      induction segments with
      | nil => rfl
      | cons segment segments ih =>
        rw [forall_mem_cons] at h
        rw [flatMap_cons, flatMap_cons, cons_append, eraseNames, if_neg (by decide), if_neg (by
          decide), if_neg Bool.false_ne_true, eraseNames_renderedSegment h.1, ih h.2, cons_append]

/-- The placeholders of a path key are the parameters that the compiler lists. -/
theorem templateNames_openApiPath (h : Projectable path) :
    keyNames (openApiPath path).path = (openApiPath path).names := by
  rcases h with rfl | ⟨-, h⟩
  · rfl
  · by_cases hroot : path = "/"
    · subst hroot
      rfl
    · rw [keyNames, toList_openApiPath hroot, openApiPath]
      congr 1
      generalize pathSegments path = segments at h
      induction segments with
      | nil => rfl
      | cons segment segments ih =>
        rw [forall_mem_cons] at h
        rw [flatMap_cons, cons_append, templateNames, if_neg (by decide),
          templateNames_renderedSegment h.1, ih h.2, filterMap_cons]
        cases segmentParameter segment <;> rfl

/-! ### The shape in the identity of an endpoint -/

section Identity

variable (host : Host)

theorem readPath_cons {c : Char} (hopen : c ≠ '{') (hclose : c ≠ '}')
    (hcolon : c ≠ ':') (rest : List Char) :
    readPath host (c :: rest) = (readPath host rest).map (.literal c :: ·) := by
  rw [readPath.eq_def]
  split <;> simp_all

theorem readPath_append (h : ∀ c ∈ cs, c ≠ '{' ∧ c ≠ '}' ∧ c ≠ ':') (rest : List Char) :
    readPath host (cs ++ rest) = (readPath host rest).map (cs.map .literal ++ ·) := by
  induction cs with
  | nil => simp
  | cons c cs ih =>
    obtain ⟨hopen, hclose, hcolon⟩ := h c mem_cons_self
    rw [cons_append, readPath_cons host hopen hclose hcolon,
      ih fun d hd => h d (mem_cons_of_mem _ hd), Option.map_map]
    rfl

theorem matchPathName_append {name rest : List Char} (hname : isPathName name = true)
    (hrest : ∀ c ∈ rest.head?, c = '/') : matchPathName (name ++ rest) = some (name, rest) := by
  cases name with
  | nil => simp [isPathName] at hname
  | cons c name =>
    simp only [isPathName, Bool.and_eq_true, List.all_eq_true] at hname
    have hstop : rest.takeWhile isPathNameChar = [] ∧ rest.dropWhile isPathNameChar = rest := by
      cases rest with
      | nil => exact ⟨rfl, rfl⟩
      | cons d rest =>
        obtain rfl := hrest d rfl
        exact ⟨rfl, rfl⟩
    rw [cons_append, matchPathName, if_pos hname.1, takeWhile_append_of_pos hname.2,
      dropWhile_append_of_pos hname.2, hstop.1, hstop.2, append_nil]

/-- The body of a brace expression without special characters ends at the first brace. -/
theorem delimitedPathExpression_append {name rest : List Char} (h : isPathName name = true) :
    delimitedPathExpression '{' '}' (name ++ '}' :: rest) 1 false false = some (name, rest) := by
  have hchars : ∀ c ∈ name, isPathNameChar c = true := fun c hc => isPathNameChar_of_mem h hc
  clear h
  induction name with
  | nil => simp [delimitedPathExpression]
  | cons c name ih =>
    have hc := hchars c mem_cons_self
    have hne (d : Char) (hd : isPathNameChar d = false) : c ≠ d := isPathNameChar_ne hc hd
    rw [cons_append, delimitedPathExpression]
    simp [hne '\\' rfl, hne '[' rfl, hne ']' rfl, hne '{' rfl, hne '}' rfl,
      ih fun d hd => hchars d (mem_cons_of_mem _ hd)]

theorem bracePiece_of_isPathName {name : List Char} (h : isPathName name = true) :
    bracePiece host name = some (.brace name none) := by
  have hspan : name.span (· != ':') = (name, []) := by
    have hall : ∀ c ∈ name, (c != ':') = true := fun c hc => by
      simpa using isPathNameChar_ne (isPathNameChar_of_mem h hc) rfl
    rw [span_eq_takeWhile_dropWhile, List.takeWhile_eq_self_iff.mpr hall,
      List.dropWhile_eq_nil_iff.mpr hall]
  rw [bracePiece, hspan]
  simp [h]

def segmentPieces (segment : List Char) : List PathPiece :=
  match segmentParameter segment with
  | none => segment.map .literal
  | some name => [if segment.head? = some ':' then .colon name none else .brace name none]

theorem readPath_segment {segment rest : List Char} (h : isProjectable segment = true)
    (hrest : ∀ c ∈ rest.head?, c = '/') :
    readPath host (segment ++ rest) = (readPath host rest).map (segmentPieces segment ++ ·) := by
  rw [segmentPieces]
  cases hparameter : segmentParameter segment with
  | none =>
    have hliteral := isLiteralSegment_of_isProjectable h hparameter
    simp only [isLiteralSegment, Bool.and_eq_true, List.all_eq_true] at hliteral
    exact readPath_append host (fun c hc => ⟨isLiteralChar_ne (hliteral.2 c hc) rfl,
      isLiteralChar_ne (hliteral.2 c hc) rfl, isLiteralChar_ne (hliteral.2 c hc) rfl⟩) rest
  | some name =>
    have hname := isPathName_of_segmentParameter hparameter
    rcases eq_of_segmentParameter hparameter with rfl | rfl
    · have hmatch := matchPathName_append hname hrest
      rw [cons_append, readPath]
      split
      · simp_all
      · rename_i hsome
        rw [hmatch] at hsome
        cases hsome
        simp at hrest
      · rename_i hsome
        rw [hmatch] at hsome
        cases hsome
        rfl
    · have hdelimited := @delimitedPathExpression_append _ rest hname
      rw [cons_append, append_assoc, singleton_append, readPath]
      split
      · simp_all
      · rename_i hsome
        rw [hdelimited] at hsome
        cases hsome
        rw [bracePiece_of_isPathName host hname]
        cases readPath host rest <;> rfl

theorem readPath_of_projectable (h : Projectable path) : readPath host path.toList =
    some ((pathSegments path).flatMap fun segment => .literal '/' :: segmentPieces segment) := by
  rcases h with rfl | ⟨hslash, h⟩
  · rw [show "/".toList = ['/'] from rfl, readPath_cons host (by decide) (by decide) (by decide),
      readPath]
    rfl
  · conv_lhs => rw [← joinSegments_pathSegments hslash,
      toList_joinSegments (pathSegments_ne_nil path)]
    generalize pathSegments path = segments at h
    induction segments with
    | nil => simp [readPath]
    | cons segment segments ih =>
      rw [forall_mem_cons] at h
      have hrest : ∀ c ∈ (segments.flatMap ('/' :: ·)).head?, c = '/' := by
        cases segments <;> simp
      rw [flatMap_cons, flatMap_cons, cons_append, readPath_cons host (by decide) (by decide) (by
        decide), readPath_segment host h.1 hrest, ih h.2]
      rfl

theorem shapeText_segmentPieces (segment : List Char) :
    shapeText ((segmentPieces segment).map PathPiece.shape) = shapeSegment segment := by
  rw [segmentPieces, shapeSegment]
  cases segmentParameter segment with
  | none => simp [shapeText, PathPiece.shape, ShapePiece.text, Function.comp_def, flatMap_map]
  | some name =>
    rw [if_pos (by rfl)]
    split_ifs <;> rfl

theorem normalizeApplicationPathShape_of_projectable (h : Projectable path) :
    normalizeApplicationPathShape host path.toList = some (pathShape path).toList := by
  rw [normalizeApplicationPathShape_eq, readPath_of_projectable host h, map_some, pathShape]
  split_ifs with hroot
  · subst hroot
    rfl
  · rw [toList_joinSegments (by simpa using pathSegments_ne_nil path), flatMap_map]
    generalize pathSegments path = segments
    induction segments with
    | nil => rfl
    | cons segment segments ih =>
      have hrest := Option.some.inj ih
      rw [flatMap_cons, flatMap_cons, ← hrest, ← shapeText_segmentPieces]
      simp [shapeText, PathPiece.shape, ShapePiece.text]

theorem names_openApiPath (path : String) : (openApiPath path).names =
    (((pathSegments path).flatMap fun segment => .literal '/' :: segmentPieces segment).filterMap
      PathPiece.name).map String.ofList := by
  have hname (segment : List Char) : (segmentPieces segment).filterMap PathPiece.name =
      (segmentParameter segment).toList := by
    rw [segmentPieces]
    cases segmentParameter segment with
    | none => simp [PathPiece.name]
    | some name =>
      split_ifs <;> rfl
  refine congrArg (List.map String.ofList) ?_
  generalize pathSegments path = segments
  induction segments with
  | nil => rfl
  | cons segment segments ih =>
    rw [flatMap_cons, filterMap_append, ← ih, filterMap_cons, filterMap_cons, PathPiece.name, hname]
    cases segmentParameter segment <;> rfl

variable {host} {snapshot : ContractSnapshot}

/-- The shape of a group is that of the identity. -/
theorem normalizedShape_of_accepted (h : snapshot.Accepted host) {endpoint : Endpoint}
    (hendpoint : endpoint ∈ snapshot.endpoints) (hpath : Projectable endpoint.applicationPath) :
    endpoint.identity.normalizedPathShape = pathShape endpoint.applicationPath := by
  obtain ⟨expected, hderive, hshape⟩ := h.derived hendpoint
  unfold deriveEndpointIdentity at hderive
  split_ifs at hderive
  rw [normalizeApplicationPathShape_of_projectable host hpath, map_some] at hderive
  rw [← hshape, ← Option.some.inj hderive]
  exact String.ofList_toList

end Identity

end ApiTruth.OpenApi
