import ApiTruth.Foundation.Checked
import ApiTruth.Foundation.Js.JsonParse
import ApiTruth.Foundation.Js.Objects
import Mathlib.Data.Finset.Card

/-!
# The canonical JSON serializers

The packages of updates, of the catalog and of orchestration each write values as canonical JSON
texts before they hash or compare them.  They sort the names of objects by code points, take
properties from their descriptors, and refuse cycles, numbers that are not finite and objects that
are not plain.  They differ in how they read arrays: the catalog reads the elements and does not
mind other properties.

## Main definitions

* `serializeCanonical` : the recursion, with the reading of arrays as a parameter.
* `updatesCanonicalJson`, `catalogCanonicalJson`, `canonicalOrchestrationJson` : the serializers.

## Main results

* `serializeCanonical_of_denotes` : the text of a value that stands for a JSON value.
* `exists_denotes_of_serializeCanonical` : a value whose arrays are read by descriptors stands for a
  JSON value if it has a text.
* `canonicalSerializers_faithful` : the three serializers agree on JSON values, whose texts are read
  back and tell them apart.
-/

namespace ApiTruth

open Checked JsonTree List Option JsString

variable {ν : Type} {n : ℕ}

/-! ### The recursion -/

/-- `Object.keys`: the names of the enumerable properties. -/
def objectKeys (properties : OrderedMap PropertyKey (JsDescriptor ν n)) : List JsString :=
  properties.entries.filterMap fun
    | (.string name, descriptor) => if descriptor.enumerable then some name else none
    | (.symbol _, _) => none

/-- `keys.sort(compareCodePoints)`. -/
def sortKeys (keys : List JsString) : List JsString :=
  keys.insertionSort fun a b => JsString.compareCodePoints a b ≤ 0

/-- `join(",")`. -/
def joinComma : List (List Char) → List Char
  | [] => []
  | [text] => text
  | text :: texts => text ++ ',' :: joinComma texts

/-- The elements of an array from their descriptors; the array has no other own properties than
those of its indices and its length. -/
def descriptorItems (elements : List (Option (JsDescriptor ν n))) (extra : ℕ) :
    Option (List (JsValue ν n)) :=
  -- the own keys are the indices that are no holes, the extra ones and `length`
  if (elements.filter Option.isSome).length + extra + 1 ≠ elements.length + 1 then none
  else elements.mapM fun element => element.bind JsDescriptor.value?

/-- The elements of an array as reading them returns them. -/
def indexedItems (elements : List (Option (JsDescriptor ν n))) (_extra : ℕ) :
    Option (List (JsValue ν n)) :=
  elements.mapM fun element => element.bind JsDescriptor.get?

section Serialize

variable (format : NumberFormat ν)
  (items : List (Option (JsDescriptor ν n)) → ℕ → Option (List (JsValue ν n))) (heap : JsHeap ν n)

/-- `serializeCanonical`, with the addresses of the objects around the value. -/
def serializeCanonical (ancestors : Finset (Fin n)) : JsValue ν n → Option (List Char)
  | .null => some ['n', 'u', 'l', 'l']
  | .bool b => some (if b then ['t', 'r', 'u', 'e'] else ['f', 'a', 'l', 's', 'e'])
  | .string s => some (quote s)
  | .number x => some (format.text x)
  | .nonFinite => none
  | .other => none
  | .object address =>
    if _ : address ∈ ancestors then none
    else match heap address with
      | .array elements extra => do
        let values ← items elements extra
        let members ← values.mapM (serializeCanonical (insert address ancestors))
        return '[' :: (joinComma members ++ [']'])
      | .plain prototype properties =>
        if prototype = .other then none
        else if properties.entries.length ≠ (objectKeys properties).length then none
        else do
          let entries ← (sortKeys (objectKeys properties)).mapM fun key => do
            let descriptor ← properties.get? (.string key)
            let value ← descriptor.value?
            let text ← serializeCanonical (insert address ancestors) value
            return quote key ++ ':' :: text
          return '{' :: (joinComma entries ++ ['}'])
termination_by ancestorsᶜ.card
decreasing_by
  all_goals
    refine Finset.card_lt_card ⟨Finset.compl_subset_compl.mpr (Finset.subset_insert _ _), ?_⟩
    intro hsub
    exact absurd (hsub (Finset.mem_compl.mpr ‹_›)) (by simp)

end Serialize

inductive CanonicalJsonError
  | invalidUpdateInput
  | invalidCatalogInput
  | invalidOrchestrationInput
deriving DecidableEq, Repr

section Serializers

variable (format : NumberFormat ν) (heap : JsHeap ν n) (value : JsValue ν n)

/-- `canonicalJson` of the updates. -/
def updatesCanonicalJson : Except CanonicalJsonError (List Char) :=
  orRaise (serializeCanonical format descriptorItems heap ∅ value) .invalidUpdateInput

/-- `canonicalJson` of the catalog. -/
def catalogCanonicalJson : Except CanonicalJsonError (List Char) :=
  orRaise (serializeCanonical format indexedItems heap ∅ value) .invalidCatalogInput

def canonicalOrchestrationJson : Except CanonicalJsonError (List Char) :=
  orRaise (serializeCanonical format descriptorItems heap ∅ value) .invalidOrchestrationInput

end Serializers

/-! ### Texts of JSON values -/

theorem joinComma_cons_cons (text next : List Char) (texts : List (List Char)) :
    joinComma (text :: next :: texts) = text ++ ',' :: joinComma (next :: texts) := rfl

theorem chars_arr (format : NumberFormat ν) (items : List (JsonTree ν)) :
    chars format (.arr items) = '[' :: (joinComma (items.map (chars format)) ++ [']']) := by
  have htail (item : JsonTree ν) (items : List (JsonTree ν)) :
      chars format item ++ itemsTail format items =
        joinComma ((item :: items).map (chars format)) ++ [']'] := by
    induction items generalizing item with
    | nil => rfl
    | cons next items ih =>
      rw [itemsTail, ih, map_cons, map_cons, map_cons, joinComma_cons_cons,
        append_assoc, cons_append]
  cases items with
  | nil => rfl
  | cons item items => rw [chars, htail]

def memberChars (format : NumberFormat ν) (member : JsString × JsonTree ν) : List Char :=
  quote member.1 ++ ':' :: chars format member.2

theorem chars_obj (format : NumberFormat ν) (members : List (JsString × JsonTree ν)) :
    chars format (.obj members) =
      '{' :: (joinComma (members.map (memberChars format)) ++ ['}']) := by
  have htail (member : JsString × JsonTree ν) (members : List (JsString × JsonTree ν)) :
      memberChars format member ++ membersTail format members =
        joinComma ((member :: members).map (memberChars format)) ++ ['}'] := by
    induction members generalizing member with
    | nil => rfl
    | cons next members ih =>
      have hnext : membersTail format (next :: members) =
          ',' :: (memberChars format next ++ membersTail format members) := by
        rw [membersTail, memberChars, append_assoc, cons_append]
      rw [hnext, ih, map_cons, map_cons, map_cons, joinComma_cons_cons, append_assoc, cons_append]
  cases members with
  | nil => rfl
  | cons member members =>
    rw [← htail, chars, memberChars, append_assoc, cons_append]

/-! ### The text of a value that stands for a JSON value -/

theorem sortKeys_eq (keys : List JsString) : sortKeys keys = collation.sort keys := by
  have hle : (fun a b => compareCodePoints a b ≤ 0) =
      fun a b => collation.le a b = true :=
    funext₂ fun _ _ => propext compareCodePoints_nonpos_iff
  unfold sortKeys Collation.sort Collation.sortBy
  congr! 1

/-- The reading of arrays returns the values of an array that stands for a JSON value. -/
def ReadsElements (items : List (Option (JsDescriptor ν n)) → ℕ → Option (List (JsValue ν n))) :
    Prop :=
  ∀ fields : List (JsValue ν n × Bool),
    items (fields.map fun field => some (.data field.1 field.2)) 0 = some (fields.map Prod.fst)

theorem readsElements_descriptorItems : ReadsElements (descriptorItems (ν := ν) (n := n)) := by
  intro fields
  have hfilter : (fields.map fun field =>
      (some (.data field.1 field.2) : Option (JsDescriptor ν n))).filter Option.isSome =
        fields.map fun field => some (.data field.1 field.2) :=
    List.filter_eq_self.mpr (List.forall_mem_map.mpr fun _ _ => rfl)
  rw [descriptorItems, hfilter, if_neg (not_not.mpr rfl)]
  exact mapM_map_eq_some fun _ _ => rfl

theorem readsElements_indexedItems : ReadsElements (indexedItems (ν := ν) (n := n)) :=
  fun _ => mapM_map_eq_some fun _ _ => rfl

/-- The JSON value is smaller than those of the objects around it. -/
def IsInside (heap : JsHeap ν n) (ancestors : Finset (Fin n)) (t : JsonTree ν) : Prop :=
  ∀ address ∈ ancestors, ∀ u, heap.Denotes (.object address) u → sizeOf t < sizeOf u

theorem isInside_empty (heap : JsHeap ν n) (t : JsonTree ν) : IsInside heap ∅ t :=
  fun _ haddress => absurd haddress (Finset.notMem_empty _)

section Inside

variable {heap : JsHeap ν n} {ancestors : Finset (Fin n)} {address : Fin n} {t : JsonTree ν}

theorem IsInside.notMem (h : IsInside heap ancestors t)
    (hdenotes : heap.Denotes (.object address) t) : address ∉ ancestors :=
  fun haddress => lt_irrefl _ (h address haddress t hdenotes)

theorem IsInside.insert (h : IsInside heap ancestors t)
    (hdenotes : heap.Denotes (.object address) t) {u : JsonTree ν} (hlt : sizeOf u < sizeOf t) :
    IsInside heap (insert address ancestors) u := by
  intro address' haddress' w hw
  rcases Finset.mem_insert.mp haddress' with rfl | haddress'
  · rw [hw.unique hdenotes]
    exact hlt
  · exact hlt.trans (h address' haddress' w hw)

end Inside

theorem sizeOf_item_lt {items : List (JsonTree ν)} {item : JsonTree ν} (h : item ∈ items) :
    sizeOf item < sizeOf (JsonTree.arr items) := by
  have hlt := sizeOf_lt_of_mem h
  rw [JsonTree.arr.sizeOf_spec]
  omega

theorem sizeOf_member_lt {members : List (JsString × JsonTree ν)} {member : JsString × JsonTree ν}
    (h : member ∈ members) : sizeOf member.2 < sizeOf (JsonTree.obj members) := by
  have hlt := sizeOf_lt_of_mem h
  have hmember : sizeOf member.2 < sizeOf member := by
    obtain ⟨name, value⟩ := member
    change sizeOf value < sizeOf (name, value)
    rw [Prod.mk.sizeOf_spec]
    omega
  rw [JsonTree.obj.sizeOf_spec]
  omega

section Serialize

variable [DecidableEq ν] {format : NumberFormat ν}
  {items : List (Option (JsDescriptor ν n)) → ℕ → Option (List (JsValue ν n))} {heap : JsHeap ν n}

/-- A value that stands for a JSON value is written as the representative of the latter. -/
theorem serializeCanonical_of_denotes (hitems : ReadsElements items) {v : JsValue ν n}
    {t : JsonTree ν} (h : heap.Denotes v t) {ancestors : Finset (Fin n)}
    (hinside : IsInside heap ancestors t) :
    serializeCanonical format items heap ancestors v = some (chars format (canon format t)) := by
  induction h generalizing ancestors with
  | null => rw [serializeCanonical]; rfl
  | bool b => cases b <;> (rw [serializeCanonical]; rfl)
  | number x => rw [serializeCanonical, canon, chars, NumberFormat.text_unsigned]
  | string s => rw [serializeCanonical]; rfl
  | @array address fields haddress h ih =>
    have hdenotes := JsHeap.Denotes.array haddress h
    have hread : items (fields.map fun item => some (.data item.1.1 item.1.2)) 0 =
        some (fields.map fun item => item.1.1) := by
      have hread := hitems (fields.map Prod.fst)
      rw [List.map_map, List.map_map] at hread
      exact hread
    have hmembers : (fields.map fun item => item.1.1).mapM
        (serializeCanonical format items heap (insert address ancestors)) =
          some (fields.map fun item => chars format (canon format item.2)) :=
      mapM_map_eq_some fun item hitem =>
        ih item hitem (hinside.insert hdenotes (sizeOf_item_lt (List.mem_map_of_mem hitem)))
    rw [serializeCanonical, dif_neg (hinside.notMem hdenotes), haddress]
    simp only [hread, hmembers, bind_eq_bind, bind_some, canon_arr, chars_arr, List.map_map]
    rfl
  | @object address prototype properties members haddress hprototype hproperties h ih =>
    have hdenotes := JsHeap.Denotes.object haddress hprototype hproperties h
    have hkeys : objectKeys properties = members.map Prod.fst := by
      rw [objectKeys, hproperties, filterMap_map, ← filterMap_eq_map]
      rfl
    have hentries : ((sortMembers members).map Prod.fst).mapM (fun key => do
        let descriptor ← properties.get? (.string key)
        let value ← descriptor.value?
        let text ← serializeCanonical format items heap (insert address ancestors) value
        return quote key ++ ':' :: text) =
          some ((sortMembers members).map fun m =>
            memberChars format (m.1, canon format m.2.2)) := by
      refine mapM_map_eq_some fun m hm => ?_
      have hm := (sortMembers_perm members).mem_iff.mp hm
      have hget : properties.get? (.string m.1) = some (.data m.2.1 true) := by
        rw [OrderedMap.get?_eq_some_iff, hproperties]
        exact List.mem_map_of_mem hm
      have htext := ih m hm (hinside.insert hdenotes
        (sizeOf_member_lt (List.mem_map_of_mem (f := fun m => (m.1, m.2.2)) hm)))
      simp only [hget, JsDescriptor.value?, htext, bind_eq_bind, bind_some]
      rfl
    have hcanon : sortMembers ((members.map fun m => (m.1, m.2.2)).map
        fun m => (m.1, canon format m.2)) =
          (sortMembers members).map fun m => (m.1, canon format m.2.2) := by
      rw [List.map_map]
      exact sortMembers_map (fun m => canon format m.2) members
    rw [serializeCanonical, dif_neg (hinside.notMem hdenotes), haddress, canon_obj, hcanon,
      chars_obj, List.map_map]
    simp only [bind_eq_bind] at hentries
    simp only [if_neg hprototype, hkeys, hproperties, length_map, ne_eq, not_true_eq_false,
      if_false, sortKeys_eq, ← map_fst_sortMembers, hentries, bind_eq_bind, bind_some]
    rfl

end Serialize

/-! ### Values with a text -/

/-- An array that is read by descriptors has data properties only, one for every index. -/
theorem of_descriptorItems {elements : List (Option (JsDescriptor ν n))} {extra : ℕ}
    {values : List (JsValue ν n)} (h : descriptorItems elements extra = some values) :
    extra = 0 ∧ ∀ element ∈ elements, ∃ value ∈ values, ∃ enumerable,
      element = some (.data value enumerable) := by
  unfold descriptorItems at h
  split_ifs at h with hlength
  have hread (element) (helement : element ∈ elements) : ∃ value ∈ values, ∃ enumerable,
      element = some (.data value enumerable) := by
    obtain ⟨value, hvalue, heq⟩ := (mapM_eq_some_iff.mp h).exists_right helement
    obtain ⟨descriptor, rfl, hdata⟩ := Option.bind_eq_some_iff.mp heq
    cases descriptor with
    | data value' enumerable =>
      exact ⟨value, hvalue, enumerable, by rw [Option.some.inj hdata]⟩
    | accessor get enumerable => cases hdata
  have hfilter : elements.filter Option.isSome = elements := by
    refine List.filter_eq_self.mpr fun element helement => ?_
    obtain ⟨value, -, enumerable, rfl⟩ := hread element helement
    rfl
  rw [hfilter] at hlength
  exact ⟨by omega, hread⟩

theorem of_length_objectKeys {properties : OrderedMap PropertyKey (JsDescriptor ν n)}
    (h : properties.entries.length = (objectKeys properties).length) :
    ∀ entry ∈ properties.entries, ∃ name ∈ objectKeys properties,
      entry.1 = .string name ∧ entry.2.enumerable = true := by
  intro entry hentry
  obtain ⟨name, hname⟩ := Option.isSome_iff_exists.mp
    (List.filterMap_length_eq_length.mp h.symm entry hentry)
  refine ⟨name, List.mem_filterMap.mpr ⟨entry, hentry, hname⟩, ?_⟩
  obtain ⟨key, descriptor⟩ := entry
  cases key with
  | string name' =>
    obtain ⟨henumerable, heq⟩ := Option.ite_none_right_eq_some.mp hname
    exact ⟨by rw [Option.some.inj heq], henumerable⟩
  | symbol id => cases hname

/-- A value whose arrays are read by descriptors stands for a JSON value if it has a text. -/
theorem exists_denotes_of_serializeCanonical {format : NumberFormat ν} {heap : JsHeap ν n}
    {ancestors : Finset (Fin n)} {v : JsValue ν n} {text : List Char}
    (h : serializeCanonical format descriptorItems heap ancestors v = some text) :
    ∃ t, heap.Denotes v t := by
  induction hcard : ancestorsᶜ.card using Nat.strong_induction_on generalizing ancestors v text with
  | _ card ih =>
  cases v with
  | other => rw [serializeCanonical] at h; cases h
  | null => exact ⟨_, .null⟩
  | bool b => exact ⟨_, .bool b⟩
  | number x => exact ⟨_, .number x⟩
  | nonFinite => rw [serializeCanonical] at h; cases h
  | string s => exact ⟨_, .string s⟩
  | object address =>
    rw [serializeCanonical] at h
    split_ifs at h with haddress
    have hinner {v : JsValue ν n} {text : List Char} (htext : serializeCanonical format
        descriptorItems heap (insert address ancestors) v = some text) : ∃ t, heap.Denotes v t := by
      refine ih _ ?_ htext rfl
      rw [← hcard]
      exact Finset.card_lt_card ⟨Finset.compl_subset_compl.mpr (Finset.subset_insert _ _),
        fun hsub => absurd (hsub (Finset.mem_compl.mpr haddress)) (by simp)⟩
    split at h
    · rename_i elements extra hobject
      obtain ⟨values, hvalues, h⟩ := Option.bind_eq_some_iff.mp h
      obtain ⟨texts, htexts, -⟩ := Option.bind_eq_some_iff.mp h
      obtain ⟨rfl, hdata⟩ := of_descriptorItems hvalues
      have hitems : ∀ element ∈ elements, ∃ item : (JsValue ν n × Bool) × JsonTree ν,
          element = some (.data item.1.1 item.1.2) ∧ heap.Denotes item.1.1 item.2 := by
        intro element helement
        obtain ⟨value, hvalue, enumerable, rfl⟩ := hdata element helement
        obtain ⟨text, -, htext⟩ := (mapM_eq_some_iff.mp htexts).exists_right hvalue
        obtain ⟨t, ht⟩ := hinner htext
        exact ⟨((value, enumerable), t), rfl, ht⟩
      obtain ⟨items, rfl, hdenotes⟩ := exists_map_of_forall_mem hitems
      exact ⟨_, .array hobject hdenotes⟩
    · rename_i prototype properties hobject
      split_ifs at h with hprototype hlength
      obtain ⟨texts, htexts, -⟩ := Option.bind_eq_some_iff.mp h
      have hmembers : ∀ entry ∈ properties.entries, ∃ m : JsString × JsValue ν n × JsonTree ν,
          entry = (.string m.1, .data m.2.1 true) ∧ heap.Denotes m.2.1 m.2.2 := by
        rintro ⟨key, descriptor⟩ hentry
        obtain ⟨name, hname, rfl, henumerable⟩ :=
          of_length_objectKeys (not_not.mp hlength) _ hentry
        have hsorted : name ∈ sortKeys (objectKeys properties) := by
          rw [sortKeys_eq, Collation.mem_sort]
          exact hname
        obtain ⟨text, -, htext⟩ := (mapM_eq_some_iff.mp htexts).exists_right hsorted
        obtain ⟨descriptor', hget, htext⟩ := Option.bind_eq_some_iff.mp htext
        obtain ⟨value, hvalue, htext⟩ := Option.bind_eq_some_iff.mp htext
        obtain ⟨inner, hinner', -⟩ := Option.bind_eq_some_iff.mp htext
        rw [(properties.get?_eq_some_iff).mpr hentry] at hget
        cases hget
        obtain ⟨t, ht⟩ := hinner hinner'
        cases descriptor with
        | data value' enumerable =>
          obtain rfl := Option.some.inj hvalue
          obtain rfl : enumerable = true := henumerable
          exact ⟨(name, value', t), rfl, ht⟩
        | accessor get enumerable => cases hvalue
      obtain ⟨members, heq, hdenotes⟩ := exists_map_of_forall_mem hmembers
      exact ⟨_, .object hobject hprototype heq hdenotes⟩

/-! ### The three serializers -/

inductive CanonicalPackage
  | updates
  | catalog
  | orchestration
deriving DecidableEq, Repr

def CanonicalPackage.canonicalJson (package : CanonicalPackage) (format : NumberFormat ν)
    (heap : JsHeap ν n) (value : JsValue ν n) : Except CanonicalJsonError (List Char) :=
  match package with
  | .updates => updatesCanonicalJson format heap value
  | .catalog => catalogCanonicalJson format heap value
  | .orchestration => canonicalOrchestrationJson format heap value

section Faithful

variable [DecidableEq ν] (format : NumberFormat ν) (heap : JsHeap ν n) (v : JsValue ν n)

/-- Every serializer writes a value that stands for a JSON value as its representative. -/
theorem canonicalJson_of_denotes {t : JsonTree ν} (h : heap.Denotes v t)
    (package : CanonicalPackage) :
    package.canonicalJson format heap v = .ok (chars format (canon format t)) := by
  cases package with
  | updates =>
    exact orRaise_eq_ok.mpr (serializeCanonical_of_denotes readsElements_descriptorItems h
      (isInside_empty heap t))
  | catalog =>
    exact orRaise_eq_ok.mpr (serializeCanonical_of_denotes readsElements_indexedItems h
      (isInside_empty heap t))
  | orchestration =>
    exact orRaise_eq_ok.mpr (serializeCanonical_of_denotes readsElements_descriptorItems h
      (isInside_empty heap t))

theorem accepted_iff_exists_denotes :
    (∀ package : CanonicalPackage, (package.canonicalJson format heap v).isOk = true) ↔
      ∃ t, heap.Denotes v t := by
  constructor
  · intro h
    obtain ⟨text, htext⟩ := isOk_iff.mp (h .updates)
    exact exists_denotes_of_serializeCanonical (orRaise_eq_ok.mp htext)
  · rintro ⟨t, ht⟩ package
    exact isOk_iff.mpr ⟨_, canonicalJson_of_denotes format heap v ht package⟩

/-- The values that all serializers accept are those that stand for a JSON value.  On such values
the serializers agree, parsing the text gives the JSON value back, and two values have the same text,
whichever serializers wrote it, exactly when they stand for the same JSON value. -/
theorem canonicalSerializers_faithful :
    ((∀ package : CanonicalPackage, (package.canonicalJson format heap v).isOk = true) ↔
      ∃ t, heap.Denotes v t) ∧
    ∀ t, heap.Denotes v t →
      (∃ text, (∀ package : CanonicalPackage, package.canonicalJson format heap v = .ok text) ∧
        ∃ parsed, parse format text = some parsed ∧ SameValue format t parsed) ∧
      ∀ (m : ℕ) (heap' : JsHeap ν m) (w : JsValue ν m) (u : JsonTree ν), heap'.Denotes w u →
        ∀ package package' : CanonicalPackage,
          package.canonicalJson format heap v = package'.canonicalJson format heap' w ↔
            SameValue format t u := by
  refine ⟨accepted_iff_exists_denotes format heap v, fun t ht => ⟨⟨_, canonicalJson_of_denotes
    format heap v ht, canon format t, parse_chars (isNormal_canon format ht.wellFormed),
    sameValue_of_canon_eq (canon_canon t).symm⟩, fun m heap' w u hu package package' => ?_⟩⟩
  rw [canonicalJson_of_denotes format heap v ht package,
    canonicalJson_of_denotes format heap' w hu package', Except.ok.injEq,
    chars_canon_inj ht.wellFormed hu.wellFormed, canon_eq_iff ht.wellFormed]

end Faithful

/-- An array that contains one object twice, whose only property is a negative zero. -/
def sampleHeap : JsHeap (Option JsonNumber) 2
  | 0 => .array [some (.data (.object 1) true), some (.data (.object 1) true)] 0
  | 1 => .plain .null (.ofEntries [(.string [0x61], .data (.number none) true)])

theorem canonicalSerializers_faithful_sampleHeap :
    ∃ text, ∀ package : CanonicalPackage,
      package.canonicalJson .numerals sampleHeap (.object 0) = .ok text := by
  have hobject : sampleHeap.Denotes (.object 1) (.obj [([0x61], .num none)]) :=
    @JsHeap.Denotes.object _ _ _ 1 .null _ [([0x61], .number none, .num none)] rfl (by decide) rfl
      (List.forall_mem_singleton.mpr (.number none))
  have harray : sampleHeap.Denotes (.object 0)
      (.arr [.obj [([0x61], .num none)], .obj [([0x61], .num none)]]) :=
    @JsHeap.Denotes.array _ _ _ 0 [((.object 1, true), .obj [([0x61], .num none)]),
      ((.object 1, true), .obj [([0x61], .num none)])] rfl (by
        intro item hitem
        obtain rfl : item = ((.object 1, true), .obj [([0x61], .num none)]) := by
          simpa using hitem
        exact hobject)
  obtain ⟨⟨text, htext, -⟩, -⟩ :=
    (canonicalSerializers_faithful NumberFormat.numerals sampleHeap (.object 0)).2 _ harray
  exact ⟨text, htext⟩

end ApiTruth
