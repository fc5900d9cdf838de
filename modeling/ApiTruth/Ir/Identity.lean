import ApiTruth.Ir.Host
import ApiTruth.Ir.Snapshot
import Mathlib.Data.List.Dedup

/-!
# Route identities

The identity of an endpoint is derived from its method, its application path and its selectors.
The shape of a path forgets the names of path parameters and keeps their constraints.  Selectors
are canonicalized: header names are lowered, repeated selectors are merged, and the list is sorted
by `localeCompare`; each selector keeps the order of its members, in which the route key
serializes it.

## Main definitions

* `normalizeApplicationPathShape` : the shape of an application path.
* `canonicalSelectors`, `stableSelectors`.
* `deriveEndpointIdentity` : the identity derived from an endpoint.
-/

namespace ApiTruth.Ir

open Json List

/-- `IDENTITY_VERSION`. -/
def identityVersion : String := "1.0.0"

/-! ### Path shapes -/

/-- `[A-Za-z_]`. -/
def isPathNameStart (c : Char) : Bool := c.isAlpha || c == '_'

/-- `[A-Za-z0-9_]`. -/
def isPathNameChar (c : Char) : Bool := c.isAlphanum || c == '_'

/-- `/^[A-Za-z_][A-Za-z0-9_]*$/`. -/
def isPathName : List Char → Bool
  | [] => false
  | c :: cs => isPathNameStart c && cs.all isPathNameChar

theorem isPathNameChar_of_start {c : Char} (h : isPathNameStart c = true) :
    isPathNameChar c = true := by
  simp only [isPathNameStart, Bool.or_eq_true] at h
  simp only [isPathNameChar, Bool.or_eq_true, Char.isAlphanum]
  tauto

theorem isPathNameChar_of_mem {name : List Char} (h : isPathName name = true) {c : Char}
    (hc : c ∈ name) : isPathNameChar c = true := by
  cases name with
  | nil => cases hc
  | cons d name =>
    rw [isPathName, Bool.and_eq_true, List.all_eq_true] at h
    rcases List.mem_cons.mp hc with rfl | hc
    · exact isPathNameChar_of_start h.1
    · exact h.2 c hc

/-- `/^[A-Za-z_][A-Za-z0-9_]*/` at the start of a text: the match and what follows it. -/
def matchPathName : List Char → Option (List Char × List Char)
  | [] => none
  | c :: cs =>
    if isPathNameStart c
    then some (c :: cs.takeWhile isPathNameChar, cs.dropWhile isPathNameChar)
    else none

/-- `delimitedPathExpression` behind the opening delimiter: the body up to the matching closing
delimiter and what follows it.  Delimiters after a backslash or inside a character class do not
count, and braces do not nest. -/
def delimitedPathExpression (opening closing : Char) :
    List Char → ℕ → Bool → Bool → Option (List Char × List Char)
  | [], _, _, _ => none
  | c :: cs, depth, inCharacterClass, escaped =>
    let next := fun depth inCharacterClass escaped =>
      (delimitedPathExpression opening closing cs depth inCharacterClass escaped).map
        fun (body, rest) => (c :: body, rest)
    if escaped then next depth inCharacterClass false
    else if c = '\\' then next depth inCharacterClass true
    else if c = '[' && !inCharacterClass then next depth true false
    else if c = ']' && inCharacterClass then next depth false false
    else if inCharacterClass then next depth inCharacterClass false
    else if c = opening then
      if opening = '{' then none else next (depth + 1) inCharacterClass false
    else if c = closing then
      if depth = 1 then some ([], cs) else next (depth - 1) inCharacterClass false
    else next depth inCharacterClass false

variable {inCharacterClass escaped : Bool} {cs body rest : List Char} {opening closing : Char}

section

variable {depth : ℕ}
  (h : delimitedPathExpression opening closing cs depth inCharacterClass escaped = some (body, rest))
include h

theorem eq_of_delimitedPathExpression : cs = body ++ closing :: rest := by
  induction cs generalizing depth inCharacterClass escaped body with
  | nil => simp [delimitedPathExpression] at h
  | cons c cs ih =>
    have hnext {d : ℕ} {cls esc : Bool} (h : ((delimitedPathExpression opening closing cs d cls
        esc).map fun p : List Char × List Char => (c :: p.1, p.2)) = some (body, rest)) :
        c :: cs = body ++ closing :: rest := by
      obtain ⟨⟨b, r⟩, hcs, heq⟩ := Option.map_eq_some_iff.mp h
      cases heq
      rw [ih hcs, cons_append]
    simp only [delimitedPathExpression] at h
    split_ifs at h
    all_goals first
      | exact hnext h
      | (obtain ⟨rfl, rfl⟩ := Prod.mk.inj (Option.some.inj h); simp_all)

theorem length_delimitedPathExpression : rest.length < cs.length := by
  rw [eq_of_delimitedPathExpression h, length_append, length_cons]
  omega

end

theorem length_matchPathName {cs name rest : List Char}
    (h : matchPathName cs = some (name, rest)) : rest.length < cs.length := by
  cases cs with
  | nil => simp [matchPathName] at h
  | cons c cs =>
    simp only [matchPathName] at h
    split_ifs at h
    obtain ⟨-, rfl⟩ := Prod.mk.inj (Option.some.inj h)
    exact Nat.lt_succ_of_le (length_dropWhile_le _ _)

section PathShape

variable (host : Host)

/-- `validatePathConstraint` : the constraint is not empty and compiles. -/
def validatePathConstraint (constraint : List Char) : Option (List Char) :=
  if constraint.isEmpty then none
  else if host.regExpCompiles ("^(?:" ++ String.ofList constraint ++ ")$") then some constraint
  else none

theorem eq_of_validatePathConstraint {host : Host} {body constraint : List Char}
    (h : validatePathConstraint host body = some constraint) : constraint = body := by
  unfold validatePathConstraint at h
  split_ifs at h
  exact (Option.some.inj h).symm

def constrainedPlaceholder (constraint : List Char) : Option (List Char) :=
  (validatePathConstraint host constraint).map fun body => ['{', ':'] ++ body ++ ['}']

/-- The placeholder for the body of a brace expression. -/
def bracePlaceholder (body : List Char) : Option (List Char) :=
  match body.span (· != ':') with
  | (name, []) => if isPathName name then some ['{', '}'] else none
  | (name, _ :: constraint) =>
    if isPathName name then constrainedPlaceholder host constraint else none

/-- `normalizeApplicationPathShape`; nothing where the source throws. -/
def normalizeApplicationPathShape (path : List Char) : Option (List Char) :=
  match path with
  | [] => some []
  | '{' :: cs =>
    match _h : delimitedPathExpression '{' '}' cs 1 false false with
    | none => none
    | some (body, rest) => do
      let placeholder ← bracePlaceholder host body
      let normalized ← normalizeApplicationPathShape rest
      return placeholder ++ normalized
  | '}' :: _ => none
  | ':' :: cs =>
    match _h : matchPathName cs with
    | none => (normalizeApplicationPathShape cs).map (':' :: ·)
    | some (_, '(' :: rest) =>
      match _h' : delimitedPathExpression '(' ')' rest 1 false false with
      | none => none
      | some (body, rest') => do
        let placeholder ← constrainedPlaceholder host body
        let normalized ← normalizeApplicationPathShape rest'
        return placeholder ++ normalized
    | some (_, rest) => (normalizeApplicationPathShape rest).map (['{', '}'] ++ ·)
  | c :: cs => (normalizeApplicationPathShape cs).map (c :: ·)
termination_by path.length
decreasing_by
  · exact (length_delimitedPathExpression ‹_›).trans (Nat.lt_succ_self _)
  · exact Nat.lt_succ_self _
  · have hname := length_matchPathName _h
    have hconstraint := length_delimitedPathExpression _h'
    simp only [List.length_cons] at *
    omega
  · exact (length_matchPathName ‹_›).trans (Nat.lt_succ_self _)
  · exact Nat.lt_succ_self _

end PathShape

/-! ### Selectors -/

/-- The UTF-16 code units of a string. -/
def utf16 (s : String) : List ℕ :=
  s.toList.flatMap fun c =>
    if c.toNat < 65536 then [c.toNat]
    else [55296 + (c.toNat - 65536) / 1024, 56320 + (c.toNat - 65536) % 1024]

theorem units_append_inj {c d : Char} {us vs : List ℕ} (h : (if c.toNat < 65536 then [c.toNat]
      else [55296 + (c.toNat - 65536) / 1024, 56320 + (c.toNat - 65536) % 1024]) ++ us =
    (if d.toNat < 65536 then [d.toNat]
      else [55296 + (d.toNat - 65536) / 1024, 56320 + (d.toNat - 65536) % 1024]) ++ vs) :
    c = d ∧ us = vs := by
  -- surrogates are no characters, so the first unit tells how many there are
  have hc : c.toNat < 55296 ∨ 57343 < c.toNat ∧ c.toNat < 1114112 := c.valid
  have hd : d.toNat < 55296 ∨ 57343 < d.toNat ∧ d.toNat < 1114112 := d.valid
  have hnat : c.toNat = d.toNat ∧ us = vs := by
    split_ifs at h <;> simp only [cons_append, nil_append, List.cons.injEq] at h
    · exact h
    · omega
    · omega
    · exact ⟨by omega, h.2.2⟩
  exact ⟨Char.ext (UInt32.toNat_inj.mp hnat.1), hnat.2⟩

theorem utf16_injective : Function.Injective utf16 := by
  intro s t h
  refine String.toList_inj.mp ?_
  unfold utf16 at h
  generalize s.toList = cs at h ⊢
  generalize t.toList = ds at h ⊢
  induction cs generalizing ds with
  | nil =>
    cases ds with
    | nil => rfl
    | cons d ds =>
      rw [flatMap_nil, flatMap_cons] at h
      split_ifs at h <;> simp at h
  | cons c cs ih =>
    cases ds with
    | nil =>
      rw [flatMap_nil, flatMap_cons] at h
      split_ifs at h <;> simp at h
    | cons d ds =>
      obtain ⟨rfl, htail⟩ := units_append_inj h
      rw [ih ds htail]

section Selectors

variable (host : Host)

/-- The key under which selectors are merged and sorted. -/
def selectorKey (selector : HeaderSelector) : String :=
  selector.member "name" ++ "\u0000" ++ selector.member "operator" ++ "\u0000" ++
    selector.member "value"

/-- `{ ...selector, name }` : the members keep their order. -/
def HeaderSelector.withName (selector : HeaderSelector) (name : String) : HeaderSelector :=
  ⟨selector.members.map fun (key, value) => (key, if key = "name" then name else value)⟩

def canonicalSelectorList (selectors : List HeaderSelector) (caseInsensitiveName : Bool) :
    List HeaderSelector :=
  let canonical := selectors.map fun selector =>
    selector.withName (if caseInsensitiveName then host.toLowerCase (selector.member "name")
      else selector.member "name")
  ((OrderedMap.ofEntries (canonical.map fun selector => (selectorKey selector, selector))).entries
    |>.insertionSort (host.localeLe ·.1 ·.1)).map Prod.snd

/-- `canonicalStringSet`; the default order of `sort` is that of UTF-16 code units. -/
def canonicalStringSet (values : List String) : List String :=
  ((values.map host.toLowerCase).dedup).insertionSort (utf16 · ≤ utf16 ·)

def canonicalSelectors (selectors : RouteSelectors) : RouteSelectors where
  headers := selectors.headers.map (canonicalSelectorList host · true)
  consumes := selectors.consumes.map (canonicalStringSet host)
  produces := selectors.produces.map (canonicalStringSet host)
  query := selectors.query.map (canonicalSelectorList host · false)

end Selectors

def stringArray (values : List String) : Json := .arr (values.map .str)

/-- `stableSelectors` : the text of the selectors in a fixed order of the four lists. -/
def stableSelectors (selectors : RouteSelectors) : String :=
  stringify (.obj [
    ("headers", .arr ((selectors.headers.getD []).map HeaderSelector.toJson)),
    ("consumes", stringArray (selectors.consumes.getD [])),
    ("produces", stringArray (selectors.produces.getD [])),
    ("query", .arr ((selectors.query.getD []).map HeaderSelector.toJson))])

def RouteSelectors.toJson (selectors : RouteSelectors) : Json :=
  .obj (
    (selectors.headers.map fun list => ("headers", .arr (list.map HeaderSelector.toJson))).toList ++
    (selectors.consumes.map fun list => ("consumes", stringArray list)).toList ++
    (selectors.produces.map fun list => ("produces", stringArray list)).toList ++
    (selectors.query.map fun list => ("query", .arr (list.map HeaderSelector.toJson))).toList)

/-! ### Identities -/

/-- `EndpointIdentityInputSchema`. -/
structure EndpointIdentityInput where
  identityVersion : String
  serviceId : String
  method : String
  applicationPath : String
  selectors : Option RouteSelectors

namespace RouteSelectors

/-- The shape of `RouteSelectorsSchema`. -/
def hasShape (selectors : RouteSelectors) : Bool :=
  (selectors.headers.getD []).all HeaderSelector.hasShape &&
  (selectors.consumes.getD []).all (· != "") &&
  (selectors.produces.getD []).all (· != "") &&
  (selectors.query.getD []).all HeaderSelector.hasShape

end RouteSelectors

/-- The shape of `EndpointIdentityInputSchema`. -/
def EndpointIdentityInput.hasShape (input : EndpointIdentityInput) : Bool :=
  input.identityVersion == Ir.identityVersion &&
  input.serviceId != "" &&
  (!input.method.isEmpty && input.method.toList.all Char.isAlpha) &&
  input.applicationPath.toList.head? == some '/' &&
  (input.selectors.map RouteSelectors.hasShape).getD true

/-- `deriveEndpointIdentity`; nothing where the source throws. -/
def deriveEndpointIdentity (host : Host) (input : EndpointIdentityInput) :
    Option EndpointIdentity :=
  if input.hasShape then
    let method := input.method.toUpper
    (normalizeApplicationPathShape host input.applicationPath.toList).map fun shape =>
      let normalizedPathShape := String.ofList shape
      let selectors := canonicalSelectors host (input.selectors.getD {})
      { identityVersion := input.identityVersion
        routeKey := input.identityVersion ++ "|" ++ input.serviceId ++ "|" ++ method ++ "|" ++
          normalizedPathShape ++ "|" ++ stableSelectors selectors
        serviceId := input.serviceId
        method := method
        normalizedPathShape := normalizedPathShape
        selectors := selectors }
  else none

end ApiTruth.Ir
