import ApiTruth.Analyzers.OpenApi3.Extraction
import ApiTruth.Foundation.Overrides

/-!
# The effective parameters of an operation

The parameters of a path apply to its operations unless an operation declares a parameter of the
same location and name.  The table of the parameters is built item by item, and an item that repeats
a key of its list removes the entry; what is left are the effective declarations.

## Main definitions

* `keyOf`, `joined` : the location and the name of a parameter, and how the table writes them.
* `declaredParameters` : the parameters that the items of a list resolve to.
* `keptParameters` : the parameters of a key that are left in the table.

## Main results

* `lookup_mergeParameters` : the table holds the effective declaration of every written key.
* `mergeParameters_exact` : what is kept, converted and reported of two lists.
-/

namespace ApiTruth.Analyzers.OpenApi3

open Json ApiTruth.Ir Extract Overrides List Option OrderedMap

variable {document : Json}

/-! ### Keys -/

def textMember (j : Json) (key : String) : Option String :=
  match j.members.lookup key with
  | some (.str s) => some s
  | _ => none

section Keys

variable (host : Host)

/-- The location and the name of a parameter, names of headers in lower case. -/
def keyOf (parameter : Json) : Option (String × String) :=
  match (textMember parameter "name").filter (· != ""), textMember parameter "in" with
  | some name, some location =>
    some (location, if location = "header" then host.toLowerCase name else name)
  | _, _ => none

/-- A key as the table writes it. -/
def joined (key : String × String) : String := key.1 ++ "\x00" ++ key.2

variable (profile : Profile)

/-- The parameter that an item of a list resolves to. -/
def resolvedParameter (raw : Located document) : Option (Located document) :=
  (localObject profile "parameters" raw { diagnostics := [] }).1

def declaredParameter (raw : Located document) :
    Option ((String × String) × Located document) :=
  (resolvedParameter profile raw).bind fun parameter =>
    (keyOf host parameter.value).map (·, parameter)

def parameterItems (owner : Located document) : List (Located document) :=
  match (owner.member? "parameters").filter fun list => isArray list.value with
  | none => []
  | some list => list.items

/-- The parameters that the items of a list resolve to, by their keys. -/
def declaredPlaces (owner : Located document) : List ((String × String) × Located document) :=
  (parameterItems owner).filterMap (declaredParameter host profile)

/-- The parameters that the items of a list resolve to, as objects. -/
def declaredParameters (owner : Located document) : List ((String × String) × Json) :=
  (declaredPlaces host profile owner).map (Prod.map id Located.value)

/-- The parameters of a key that are left in a table. -/
def keptParameters (table : ParameterTable document) (key : String × String) : List Json :=
  ((table.entries.map Prod.snd).filter fun place => keyOf host place.value = some key).map
    Located.value

end Keys

/-! ### What a step keeps -/

def Retains {α : Type} (x : Extract document α) : Prop :=
  ∀ s, s.diagnostics ⊆ (x s).2.diagnostics

theorem subset_record (diagnostics : List Diagnostic) (d : Diagnostic) :
    diagnostics ⊆ record diagnostics d := by
  unfold record
  split
  · exact List.Subset.refl _
  · exact subset_append_left _ _

theorem exists_mem_record (diagnostics : List Diagnostic) (d : Diagnostic) :
    ∃ other ∈ record diagnostics d, other.key = d.key := by
  unfold record
  split
  · rename_i hany
    obtain ⟨other, hother, hkey⟩ := List.any_eq_true.mp hany
    exact ⟨other, hother, beq_iff_eq.mp hkey⟩
  · exact ⟨d, by simp, rfl⟩

namespace Retains

variable {α β : Type} {x : Extract document α} {f : α → Extract document β}

theorem pure (a : α) : Retains (Pure.pure a : Extract document α) := fun _ => List.Subset.refl _

theorem bind (hx : Retains x) (hf : ∀ a, Retains (f a)) : Retains (x >>= f) := fun s =>
  List.Subset.trans (hx s) (hf (x s).1 (x s).2)

theorem ite {p : Prop} [Decidable p] {y : Extract document α} (hx : Retains x) (hy : Retains y) :
    Retains (if p then x else y) := by
  split
  · exact hx
  · exact hy

theorem after (e : Event document) :
    Retains (modify fun s => s.after e : Extract document Unit) := fun s => by
  cases e with
  | read place => exact List.Subset.refl _
  | found d => exact subset_record _ _

theorem noteAbout (endpointId : Option String) (code at_ : String) :
    Retains (Extract.noteAbout endpointId code at_ : Extract document Unit) := after _

theorem foldlM {ι : Type} {g : α → ι → Extract document α} (h : ∀ a i, Retains (g a i))
    (xs : List ι) (a : α) : Retains (xs.foldlM g a) := by
  induction xs generalizing a with
  | nil => exact pure _
  | cons i xs ih => exact bind (h a i) fun _ => ih _

end Retains

/-- A step that keeps what was reported and whose value does not depend on the state. -/
structure Plain {α : Type} (x : Extract document α) : Prop where
  retains : Retains x
  steady : ∀ s t, (x s).1 = (x t).1

namespace Plain

variable {α β : Type} {x y : Extract document α} {f : α → Extract document β}

theorem pure (a : α) : Plain (Pure.pure a : Extract document α) := ⟨.pure a, fun _ _ => rfl⟩

theorem unit {x : Extract document Unit} (h : Retains x) : Plain x := ⟨h, fun _ _ => rfl⟩

theorem bind (hx : Plain x) (hf : ∀ a, Plain (f a)) : Plain (x >>= f) where
  retains := .bind hx.retains fun a => (hf a).retains
  steady s t := by
    show (f (x s).1 (x s).2).1 = (f (x t).1 (x t).2).1
    rw [hx.steady s t]
    exact (hf _).steady _ _

theorem ite {p : Prop} [Decidable p] (hx : Plain x) (hy : Plain y) :
    Plain (if p then x else y) := by
  split
  · exact hx
  · exact hy

end Plain

theorem plain_localObject (profile : Profile) (category : String) (place : Located document) :
    Plain (localObject profile category place) := by
  have hnote (code at_ : String) :
      Plain (do note code at_; Pure.pure none : Extract document (Option (Located document))) :=
    .bind (.unit (.noteAbout none _ _)) fun _ => .pure _
  have hresolve (remaining : ℕ) (followed : List String) (place? : Option (Located document))
      (at_ : String) : Plain (resolveLocal profile category remaining followed place? at_) := by
    induction remaining generalizing followed place? at_ with
    | zero =>
      unfold resolveLocal
      split
      · exact hnote _ _
      · refine .bind (.unit (.after _)) fun _ => ?_
        split
        · exact .pure _
        · exact hnote _ _
        · rename_i h
          cases h
    | succ remaining ih =>
      unfold resolveLocal
      split
      · exact hnote _ _
      · refine .bind (.unit (.after _)) fun _ => ?_
        split
        · exact .pure _
        · exact hnote _ _
        · rename_i h
          cases h
          dsimp only
          split
          · refine .bind (.unit (.noteAbout none _ _)) fun _ => .ite (.pure _) ?_
            split
            · exact hnote _ _
            · exact ih _ _ _
          · refine .ite (.pure _) ?_
            split
            · exact hnote _ _
            · exact ih _ _ _
  exact hresolve _ _ _ _

/-! ### The table -/

section Table

variable (host : Host) (profile : Profile) (endpointId : String)

/-- Note a parameter with its key in the table. -/
def ParameterTable.add (table : ParameterTable document) (key : String)
    (parameter : Located document) : ParameterTable document :=
  if table.seen.contains key then
    { table with
      collided := key :: table.collided
      entries := table.entries.filter (·.1 != key) }
  else if table.collided.contains key then { table with seen := key :: table.seen }
  else
    { table with
      seen := key :: table.seen
      entries := OrderedMap.setEntries key parameter table.entries }

variable {key : String × String} {before noted : List (String × Located document)}

theorem exists_of_keyOf {parameter : Json} (h : keyOf host parameter = some key) : ∃ name location,
      (textMember parameter "name").filter (· != "") = some name ∧
        textMember parameter "in" = some location ∧ joined key = parameterKey host location name := by
  unfold keyOf at h
  split at h
  · rename_i name location hname hlocation
    obtain rfl := Option.some.inj h
    exact ⟨name, location, hname, hlocation, rfl⟩
  · cases h

variable {host profile endpointId} {table : ParameterTable document} {raw : Located document}

theorem addParameter_of_declared {parameter : Located document}
    (h : declaredParameter host profile raw = some (key, parameter)) (s : Extraction document) :
    (addParameter host profile endpointId table raw s).1 = table.add (joined key) parameter ∧
      (joined key ∈ table.seen →
        ∃ d ∈ (addParameter host profile endpointId table raw s).2.diagnostics,
          d.key = ("duplicate_parameter", pointer raw, some endpointId)) := by
  obtain ⟨found, hresolved, hfound⟩ := Option.bind_eq_some_iff.mp h
  obtain ⟨foundKey, hkey, heq⟩ := Option.map_eq_some_iff.mp hfound
  obtain ⟨rfl, rfl⟩ := Prod.mk.inj heq
  obtain ⟨name, location, hname, hlocation, hjoined⟩ := exists_of_keyOf host hkey
  rw [resolvedParameter, (plain_localObject profile "parameters" raw).steady _ s] at hresolved
  rcases hrun : localObject profile "parameters" raw s with ⟨value, s'⟩
  obtain rfl : value = some found := by rw [← hresolved, hrun]
  have hname' : (textField found "name").filter (· != "") = some name := hname
  have hlocation' : textField found "in" = some location := hlocation
  rw [hjoined]
  simp only [addParameter, bind, StateT.bind, hrun, hname', hlocation', ParameterTable.add,
    contains_iff_mem]
  by_cases hseen : parameterKey host location name ∈ table.seen
  · rw [if_pos hseen, if_pos hseen]
    exact ⟨rfl, fun _ => exists_mem_record _ _⟩
  · rw [if_neg hseen, if_neg hseen]
    refine ⟨?_, fun h => absurd h hseen⟩
    split <;> rfl

theorem addParameter_of_not_declared (h : declaredParameter host profile raw = none)
    (s : Extraction document) :
    (addParameter host profile endpointId table raw s).1 = table := by
  rw [declaredParameter, resolvedParameter,
    (plain_localObject profile "parameters" raw).steady _ s] at h
  rcases hrun : localObject profile "parameters" raw s with ⟨_ | parameter, s'⟩
  · simp only [addParameter, bind, StateT.bind, hrun]
    rfl
  · rw [hrun, bind_some, map_eq_none_iff] at h
    simp only [addParameter, bind, StateT.bind, hrun]
    cases hname : (textField parameter "name").filter (· != "") with
    | none => rfl
    | some name =>
      cases hlocation : textField parameter "in" with
      | none => rfl
      | some location =>
        rw [keyOf, show (textMember parameter.value "name").filter (· != "") = some name from hname,
          show textMember parameter.value "in" = some location from hlocation] at h
        cases h

variable (host profile endpointId)

theorem retains_addParameter (table : ParameterTable document) (raw : Located document) :
    Retains (addParameter host profile endpointId table raw) := by
  refine .bind (plain_localObject profile _ _).retains fun _ => ?_
  split
  · split
    · dsimp only
      refine .ite (.bind (.noteAbout _ _ _) fun _ => .pure _) (.ite (.pure _) (.pure _))
    · exact .bind (.noteAbout _ _ _) fun _ => .pure _
  · exact .pure _

/-- The parameters of items, with their keys as the table writes them. -/
def writtenParameters (items : List (Located document)) : List (String × Located document) :=
  (items.filterMap (declaredParameter host profile)).map (Prod.map joined id)

/-- What a table holds after parameters were noted, over the entries that were there before. -/
structure Tabulates (before noted : List (String × Located document))
    (table : ParameterTable document) : Prop where
  seen : ∀ key, key ∈ table.seen ↔ key ∈ noted.map Prod.fst
  collided : ∀ key ∈ table.collided, key ∈ table.seen
  names : (table.entries.map Prod.fst).Nodup
  lookup : ∀ key, table.entries.lookup key = override (before.lookup key) (declared key noted)

theorem Tabulates.add
    (h : Tabulates before noted table) (key : String) (parameter : Located document) :
    Tabulates before (noted ++ [(key, parameter)]) (table.add key parameter) := by
  have hdeclared (k : String) : declared k (noted ++ [(key, parameter)]) =
      declared k noted ++ if key = k then [parameter] else [] := by
    rw [declared_append, declared_singleton]
  have hother {k : String} (hk : key ≠ k) :
      override (before.lookup k) (declared k (noted ++ [(key, parameter)])) =
        table.entries.lookup k := by
    rw [hdeclared, if_neg hk, append_nil, h.lookup]
  have hsame : override (before.lookup key) (declared key (noted ++ [(key, parameter)])) =
      if declared key noted = [] then some parameter else none := by
    rw [hdeclared, if_pos rfl, override_concat]
  have hseen : key ∈ table.seen ↔ declared key noted ≠ [] := by
    rw [h.seen, ne_eq, declared_eq_nil_iff, not_not]
  have hmem (k : String) : k ∈ (noted ++ [(key, parameter)]).map Prod.fst ↔
      k ∈ table.seen ∨ k = key := by
    rw [h.seen, map_append, mem_append, map_singleton, mem_singleton]
  have hfilter (k : String) : (table.entries.filter (·.1 != key)).lookup k = _ :=
    lookup_filter (· != key) table.entries k
  unfold ParameterTable.add
  by_cases hnew : key ∈ table.seen
  · rw [if_pos (List.contains_iff_mem.mpr hnew)]
    refine ⟨fun k => ?_, fun k hk => ?_, ?_, fun k => ?_⟩
    · rw [hmem, or_iff_left_of_imp fun hk => hk ▸ hnew]
    · rcases List.mem_cons.mp hk with rfl | hk
      · exact hnew
      · exact h.collided k hk
    · exact h.names.sublist ((filter_sublist).map _)
    · by_cases hk : key = k
      · subst hk
        rw [hsame, if_neg (hseen.mp hnew), hfilter]
        simp
      · rw [hother hk, hfilter]
        simp [Ne.symm hk]
  · have hcollided : key ∉ table.collided := fun hk => hnew (h.collided key hk)
    rw [if_neg fun hk => hnew (List.contains_iff_mem.mp hk),
      if_neg fun hk => hcollided (List.contains_iff_mem.mp hk)]
    refine ⟨fun k => ?_, fun k hk => mem_cons_of_mem _ (h.collided k hk), ?_, fun k => ?_⟩
    · rw [hmem, mem_cons, or_comm]
    · exact nodup_setEntries _ _ h.names
    · rw [lookup_setEntries]
      by_cases hk : key = k
      · subst hk
        rw [hsame, if_pos (not_not.mp fun hne => hnew (hseen.mpr hne)), if_pos rfl]
      · rw [hother hk, if_neg (Ne.symm hk)]

theorem tabulates_foldlM {table : ParameterTable document} (h : Tabulates before noted table)
    (items : List (Located document)) (s : Extraction document) :
    Tabulates before (noted ++ writtenParameters host profile items)
      (items.foldlM (addParameter host profile endpointId) table s).1 := by
  induction items generalizing noted table s with
  | nil =>
    show Tabulates before (noted ++ []) table
    rwa [append_nil]
  | cons raw items ih =>
    show Tabulates _ _ (items.foldlM (addParameter host profile endpointId)
      (addParameter host profile endpointId table raw s).1 _).1
    cases hdeclared : declaredParameter host profile raw with
    | none =>
      rw [addParameter_of_not_declared hdeclared, writtenParameters, filterMap_cons_none hdeclared]
      exact ih h _
    | some d =>
      rw [(addParameter_of_declared hdeclared s).1, writtenParameters,
        filterMap_cons_some hdeclared, map_cons, append_cons]
      exact ih (h.add _ _) _

def Repeats (items : List (Located document)) (raw : Located document) : Prop :=
  ∃ earlier later, items = earlier ++ raw :: later ∧ ∃ d, declaredParameter host profile raw = some d ∧
    d.1 ∈ (earlier.filterMap (declaredParameter host profile)).map Prod.fst

def ReportsDuplicate (diagnostics : List Diagnostic) (raw : Located document) : Prop :=
  ∃ d ∈ diagnostics, d.key = ("duplicate_parameter", pointer raw, some endpointId)

theorem reportsDuplicate_foldlM {before : List (String × Located document)}
    {table : ParameterTable document} (h : Tabulates before [] table)
    {items : List (Located document)} {raw : Located document} (hraw : Repeats host profile items raw)
    (s : Extraction document) : ReportsDuplicate endpointId
      (items.foldlM (addParameter host profile endpointId) table s).2.diagnostics raw := by
  obtain ⟨earlier, later, rfl, d, hd, hmem⟩ := hraw
  rw [foldlM_append]
  have htable := tabulates_foldlM host profile endpointId h earlier s
  have hseen : joined d.1 ∈ (earlier.foldlM (addParameter host profile endpointId) table s).1.seen := by
    rw [htable.seen, nil_append, writtenParameters, List.map_map]
    obtain ⟨d', hd', heq⟩ := List.mem_map.mp hmem
    exact List.mem_map.mpr ⟨d', hd', congrArg joined heq⟩
  have hreports : ReportsDuplicate endpointId (addParameter host profile endpointId _ raw
      (earlier.foldlM (addParameter host profile endpointId) table s).2).2.diagnostics raw :=
    (addParameter_of_declared hd _).2 hseen
  obtain ⟨reported, hreported, hkey⟩ := hreports
  exact ⟨reported, Retains.foldlM (retains_addParameter host profile endpointId) later _ _ hreported,
    hkey⟩

end Table

section Merge

variable (host : Host) (profile : Profile) (endpointId : String)

def mergeParameters (pathItem operation : Located document) :
    Extract document (ParameterTable document) := do
  let table ← addParameters host profile endpointId {} pathItem
  addParameters host profile endpointId table operation

variable (table : ParameterTable document)

theorem addParameters_spec (hnames : (table.entries.map Prod.fst).Nodup)
    (owner : Located document) (s : Extraction document) :
    ((addParameters host profile endpointId table owner s).1.entries.map Prod.fst).Nodup ∧
      (∀ key, (addParameters host profile endpointId table owner s).1.entries.lookup key =
        override (table.entries.lookup key)
          (declared key (writtenParameters host profile (parameterItems owner)))) ∧
      ∀ raw, Repeats host profile (parameterItems owner) raw →
        ReportsDuplicate endpointId
          (addParameters host profile endpointId table owner s).2.diagnostics raw := by
  unfold addParameters parameterItems
  cases owner.member? "parameters" with
  | none =>
    refine ⟨hnames, fun key => rfl, fun raw hraw => ?_⟩
    obtain ⟨earlier, later, hitems, -⟩ := hraw
    exact absurd hitems (by simp)
  | some list =>
    cases hlist : isArray list.value with
    | false =>
      simp only [filter_some, hlist]
      refine ⟨hnames, fun key => rfl, fun raw hraw => ?_⟩
      obtain ⟨earlier, later, hitems, -⟩ := hraw
      exact absurd hitems (by simp)
    | true =>
      have hstart : Tabulates table.entries [] { table with seen := [], collided := [] } :=
        ⟨fun key => by simp, by simp, hnames, fun key => rfl⟩
      have hend := tabulates_foldlM host profile endpointId hstart list.items s
      simp only [filter_some, hlist, if_true]
      exact ⟨hend.names, hend.lookup, fun raw hraw =>
        reportsDuplicate_foldlM host profile endpointId hstart hraw s⟩

theorem retains_addParameters (owner : Located document) :
    Retains (addParameters host profile endpointId table owner) := by
  unfold addParameters
  split
  · exact .pure _
  · exact .ite (.foldlM (retains_addParameter host profile endpointId) _ _)
      (.bind (.noteAbout _ _ _) fun _ => .pure _)

/-- The table holds the effective declaration of every written key. -/
theorem lookup_mergeParameters (pathItem operation : Located document) (s : Extraction document) :
    ((mergeParameters host profile endpointId pathItem operation s).1.entries.map
        Prod.fst).Nodup ∧
      ∀ key, (mergeParameters host profile endpointId pathItem operation s).1.entries.lookup key =
        effective (writtenParameters host profile (parameterItems pathItem))
          (writtenParameters host profile (parameterItems operation)) key := by
  obtain ⟨hnames, hpath, -⟩ := addParameters_spec host profile endpointId {} nodup_nil pathItem s
  obtain ⟨hnames', hoperation, -⟩ := addParameters_spec host profile endpointId _ hnames operation
    (addParameters host profile endpointId {} pathItem s).2
  refine ⟨hnames', fun key => (hoperation key).trans ?_⟩
  rw [hpath key, effective]
  congr 1
  unfold override
  split
  · rename_i hnil
    rw [hnil]
    rfl
  · rfl

variable {host profile}

theorem keyOf_of_declared {raw : Located document} {d : (String × String) × Located document}
    (h : declaredParameter host profile raw = some d) : keyOf host d.2.value = some d.1 := by
  obtain ⟨found, -, hfound⟩ := Option.bind_eq_some_iff.mp h
  obtain ⟨key, hkey, rfl⟩ := Option.map_eq_some_iff.mp hfound
  exact hkey

theorem filter_of_lookup {α : Type} {entries : List (String × α)}
    (hnames : (entries.map Prod.fst).Nodup) {p : α → Bool} {name : String}
    (hp : ∀ e ∈ entries, p e.2 = true → e.1 = name) :
    (entries.map Prod.snd).filter p = ((entries.lookup name).filter p).toList := by
  induction entries with
  | nil => rfl
  | cons e entries ih =>
    rw [map_cons, nodup_cons] at hnames
    have hrest := ih hnames.2 fun e' he' => hp e' (mem_cons_of_mem _ he')
    rw [map_cons, filter_cons, hrest, lookup_cons_ite]
    by_cases he : name = e.1
    · have hnone : entries.lookup name = none := by
        refine List.lookup_eq_none_iff.mpr fun e' he' => ?_
        rw [he, bne_iff_ne]
        exact fun heq => hnames.1 (heq ▸ List.mem_map_of_mem he')
      rw [if_pos he, hnone]
      cases hpe : p e.2 <;> simp [hpe, filter_some]
    · have hpe : p e.2 = false := by
        rw [Bool.eq_false_iff]
        exact fun hpe => he (hp e mem_cons_self hpe).symm
      rw [if_neg he, if_neg (by simp [hpe])]

/-- No two of the keys are written in the same way. -/
def StayApart (keys : List (String × String)) : Prop :=
  ∀ a ∈ keys, ∀ b ∈ keys, joined a = joined b → a = b

theorem keptParameters_mergeParameters {pathItem operation : Located document}
    (hapart : StayApart ((declaredParameters host profile pathItem ++
      declaredParameters host profile operation).map Prod.fst))
    (s : Extraction document) (key : String × String) :
    keptParameters host (mergeParameters host profile endpointId pathItem operation s).1 key =
      (effective (declaredParameters host profile pathItem)
        (declaredParameters host profile operation) key).toList := by
  obtain ⟨hnames, hlookup⟩ := lookup_mergeParameters host profile endpointId pathItem operation s
  have hkeys : (declaredParameters host profile pathItem ++
      declaredParameters host profile operation).map Prod.fst =
        (declaredPlaces host profile pathItem ++ declaredPlaces host profile operation).map
          Prod.fst := by
    rw [declaredParameters, declaredParameters, ← map_append, List.map_map]
    rfl
  rw [hkeys] at hapart
  have hdeclared {d : (String × String) × Located document}
      (h : d ∈ declaredPlaces host profile pathItem ++ declaredPlaces host profile operation) :
      keyOf host d.2.value = some d.1 := by
    rcases List.mem_append.mp h with h | h <;>
      exact keyOf_of_declared (List.mem_filterMap.mp h).choose_spec.2
  -- an entry stands for a declaration with the key that is written as its name
  have hentry {e : String × Located document}
      (he : e ∈ (mergeParameters host profile endpointId pathItem operation s).1.entries) :
      ∃ k, keyOf host e.2.value = some k ∧ joined k = e.1 ∧
        (k, e.2) ∈ declaredPlaces host profile pathItem ++ declaredPlaces host profile operation := by
    have heffective := hlookup e.1
    rw [(lookup_eq_some_iff hnames).mpr he] at heffective
    have hmem := mem_of_effective heffective.symm
    rw [writtenParameters, writtenParameters, ← map_append, List.mem_map] at hmem
    obtain ⟨d, hd, heq⟩ := hmem
    obtain ⟨hname, hplace⟩ := Prod.mk.inj heq
    exact ⟨d.1, hplace ▸ hdeclared hd, hname, hplace ▸ hd⟩
  have hvalues : effective (declaredParameters host profile pathItem)
      (declaredParameters host profile operation) key =
        (effective (declaredPlaces host profile pathItem) (declaredPlaces host profile operation)
          key).map Located.value :=
    effective_map id Located.value fun d _ h => h
  have hkept : keptParameters host
      (mergeParameters host profile endpointId pathItem operation s).1 key =
        ((((mergeParameters host profile endpointId pathItem operation s).1.entries.lookup
          (joined key)).filter fun place => keyOf host place.value = some key).toList).map
            Located.value := by
    rw [← filter_of_lookup hnames fun e he hkey => ?_]
    · rfl
    · obtain ⟨k, hk, hname, -⟩ := hentry he
      rw [hk] at hkey
      rw [← hname, Option.some.inj (of_decide_eq_true hkey)]
  have hwritten (hmem : key ∈ (declaredPlaces host profile pathItem ++
      declaredPlaces host profile operation).map Prod.fst) :
      (mergeParameters host profile endpointId pathItem operation s).1.entries.lookup (joined key) =
        effective (declaredPlaces host profile pathItem) (declaredPlaces host profile operation)
          key := by
    refine (hlookup _).trans ((effective_map joined id fun d hd heq => ?_).trans (congrFun Option.map_id _))
    exact hapart _ (List.mem_map_of_mem hd) _ hmem heq
  rw [hkept, hvalues, ← toList_map]
  congr 2
  refine Option.ext fun place => ?_
  rw [filter_eq_some_iff, decide_eq_true_eq]
  constructor
  · rintro ⟨hplace, hkey⟩
    obtain ⟨k, hk, -, hmem⟩ := hentry ((lookup_eq_some_iff hnames).mp hplace)
    cases hk.symm.trans hkey
    rw [← hwritten (List.mem_map_of_mem hmem)]
    exact hplace
  · intro hplace
    have hmem := mem_of_effective hplace
    exact ⟨(hwritten (List.mem_map_of_mem hmem)).trans hplace, hdeclared hmem⟩

end Merge

/-! ### The parameters of an endpoint -/

section Endpoints

variable {host : Host} {profile : Profile} (endpointId : String)

/-- An extracted parameter has the location and the name that an object declares. -/
def IsExtractedFrom (declared : Json) (parameter : Parameter host profile document) : Prop :=
  parameterIn ((textMember declared "in").getD "") = some parameter.location ∧
    parameter.name = (textMember declared "name").getD ""

variable {names : List String}

theorem isExtractedFrom_of_extractParameter {place : Located document}
    {s : Extraction document} {parameter : Parameter host profile document}
    (h : (extractParameter host profile endpointId names place s).1 = some parameter) :
    IsExtractedFrom place.value parameter := by
  rcases hnote : noteUnknown allowedParameter place s with ⟨u, s'⟩
  cases hlocation : parameterIn ((textField place "in").getD "") with
  | none =>
    simp only [extractParameter, bind, StateT.bind, hnote, hlocation] at h
    cases h
  | some location =>
    simp only [extractParameter, bind, StateT.bind, hnote, hlocation] at h
    split at h
    · cases h
    · rcases hpresence : parameterPresence endpointId names place location
        ((textField place "name").getD "") s' with ⟨presence, s''⟩
      rcases hvalue : parameterValue host profile endpointId place location s'' with ⟨_ | value, _⟩
      · simp only [hpresence, hvalue, StateT.bind, bind] at h
        cases h
      · simp only [hpresence, hvalue, StateT.bind, bind] at h
        cases h
        exact ⟨hlocation, rfl⟩

/-- The conversion of a kept parameter at some point of the extraction, which may refuse it. -/
def IsConverted (host : Host) (profile : Profile) (names : List String)
    (entry : String × Located document) (outcome : Option (Parameter host profile document)) : Prop :=
  (∃ s, (extractParameter host profile endpointId names entry.2 s).1 = outcome) ∧
    ∀ parameter ∈ outcome, IsExtractedFrom entry.2.value parameter

theorem exists_outcomes (entries : List (String × Located document)) (s : Extraction document) :
    ∃ outcomes, List.Forall₂ (IsConverted endpointId host profile names) entries outcomes ∧
      ((entries.filterMapM fun entry =>
        extractParameter host profile endpointId names entry.2 : Extract document _) s).1 =
          outcomes.reduceOption := by
  induction entries generalizing s with
  | nil => exact ⟨[], .nil, rfl⟩
  | cons entry entries ih =>
    rcases hentry : extractParameter host profile endpointId names entry.2 s with
      ⟨_ | parameter, s'⟩
    · obtain ⟨outcomes, houtcomes, hvalue⟩ := ih s'
      refine ⟨none :: outcomes, .cons ⟨⟨s, by rw [hentry]⟩, by simp⟩ houtcomes, ?_⟩
      rw [filterMapM_cons]
      simp only [bind, StateT.bind, hentry]
      exact hvalue
    · obtain ⟨outcomes, houtcomes, hvalue⟩ := ih s'
      refine ⟨some parameter :: outcomes, .cons ⟨⟨s, by rw [hentry]⟩, fun p hp => ?_⟩ houtcomes, ?_⟩
      · cases hp
        exact isExtractedFrom_of_extractParameter endpointId (by rw [hentry])
      · rw [filterMapM_cons]
        simp only [bind, StateT.bind, hentry]
        exact congrArg (parameter :: ·) hvalue

/-- **Effective parameters.**  Of every key the operation's only declaration is kept, or else that of
the path; what the endpoint has is converted from what is kept.  Duplicates are reported, and the
order of the lists does not matter. -/
theorem extractParameters_exact (path : String) {pathItem operation : Located document}
    (hapart : StayApart ((declaredParameters host profile pathItem ++
      declaredParameters host profile operation).map Prod.fst))
    (s : Extraction document) :
    let table := mergeParameters host profile endpointId pathItem operation s
    (∀ key, keptParameters host table.1 key = (effective (declaredParameters host profile pathItem)
        (declaredParameters host profile operation) key).toList) ∧
      (∃ outcomes, List.Forall₂ (IsConverted endpointId host profile (placeholders path))
          table.1.entries outcomes ∧
        (extractParameters host profile endpointId path pathItem operation s).1 =
          outcomes.reduceOption) ∧
      (∀ owner ∈ [pathItem, operation], ∀ raw, Repeats host profile (parameterItems owner) raw →
        ReportsDuplicate endpointId table.2.diagnostics raw) ∧
      ∀ {document' : Json} (pathItem' operation' : Located document') (s' : Extraction document'),
        (declaredParameters host profile pathItem').Perm (declaredParameters host profile pathItem) →
        (declaredParameters host profile operation').Perm
          (declaredParameters host profile operation) →
        ∀ key, keptParameters host
          (mergeParameters host profile endpointId pathItem' operation' s').1 key =
            keptParameters host table.1 key := by
  have hkept := keptParameters_mergeParameters endpointId hapart s
  refine ⟨hkept, ?_, fun owner howner raw hraw => ?_, fun pathItem' operation' s' hpath hop key => ?_⟩
  · exact exists_outcomes endpointId _ _
  · have hspec := addParameters_spec host profile endpointId {} nodup_nil pathItem s
    simp only [mem_cons, not_mem_nil, or_false] at howner
    rcases howner with rfl | rfl
    · obtain ⟨d, hd, hkey⟩ := hspec.2.2 raw hraw
      exact ⟨d, retains_addParameters host profile endpointId _ operation _ hd, hkey⟩
    · exact (addParameters_spec host profile endpointId _ hspec.1 owner _).2.2 raw hraw
  · have hperm := (hpath.append hop).map Prod.fst
    have hapart' : StayApart ((declaredParameters host profile pathItem' ++
        declaredParameters host profile operation').map Prod.fst) := fun a ha b hb =>
      hapart a (hperm.mem_iff.mp ha) b (hperm.mem_iff.mp hb)
    rw [keptParameters_mergeParameters endpointId hapart', hkept, effective_perm hpath hop]

def parameterObject (location name type : String) : Json :=
  .obj [("in", .str location), ("name", .str name), ("schema", .obj [("type", .str type)])]

/-- A path item with an operation and the parameters of both. -/
def parametersDocument (inherited own : List Json) : Json :=
  .obj [("parameters", .arr inherited), ("get", .obj [("parameters", .arr own)])]

def operationPlace (inherited own : List Json) : Located (parametersDocument inherited own) :=
  ⟨[.name "get"], .obj [("parameters", .arr own)], rfl⟩

theorem extractParameters_exact_overridden :
    let own := [parameterObject "query" "limit" "integer"]
    let document := parametersDocument [parameterObject "query" "limit" "string"] own
    keptParameters .ascii (mergeParameters .ascii .v30 "endpoint-orders" (.root document)
      (operationPlace _ own) { diagnostics := [] }).1 ("query", "limit") = own := by
  have hapart : StayApart ((declaredParameters .ascii .v30 (.root (parametersDocument
      [parameterObject "query" "limit" "string"] [parameterObject "query" "limit" "integer"])) ++
      declaredParameters .ascii .v30 (operationPlace [parameterObject "query" "limit" "string"]
        [parameterObject "query" "limit" "integer"])).map Prod.fst) := by
    unfold StayApart
    decide +kernel
  refine ((extractParameters_exact "endpoint-orders" "/orders" hapart _).1 _).trans ?_
  decide +kernel

/-- The only declaration of a reserved header is left out of the endpoint. -/
theorem not_extractParameters_effective :
    ¬ ∀ (host : Host) (profile : Profile) (endpointId path : String) (document : Json)
      (pathItem operation : Located document) (s : Extraction document) (key : String × String)
      (declaration : Json), effective (declaredParameters host profile pathItem)
        (declaredParameters host profile operation) key = some declaration →
      ∃ parameter ∈ (extractParameters host profile endpointId path pathItem operation s).1,
        IsExtractedFrom declaration parameter := by
  intro h
  obtain ⟨parameter, hmem, -⟩ := h .ascii .v30 "endpoint-orders" "/orders" _
    (.root (parametersDocument [] [parameterObject "header" "Accept" "string"]))
    (operationPlace [] [parameterObject "header" "Accept" "string"]) { diagnostics := [] }
    ("header", "accept") (parameterObject "header" "Accept" "string") (by decide +kernel)
  have hnone : (extractParameters .ascii .v30 "endpoint-orders" "/orders"
      (.root (parametersDocument [] [parameterObject "header" "Accept" "string"]))
      (operationPlace [] [parameterObject "header" "Accept" "string"])
      { diagnostics := [] }).1.length = 0 := by decide +kernel
  rw [List.length_eq_zero_iff.mp hnone] at hmem
  cases hmem

end Endpoints

end ApiTruth.Analyzers.OpenApi3
