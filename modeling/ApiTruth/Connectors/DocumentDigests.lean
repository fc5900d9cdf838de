import ApiTruth.Catalog.CanonicalSerializers
import Mathlib.Algebra.GroupWithZero.Nat

/-!
# The digests of a captured document

The runtime capture clones the document that a service has loaded, property by property in the order
of their names, and hashes the text of the clone.  The verifier hashes `canonicalJsonStringify` of
the document that it has parsed itself, which sorts the entries of the parsed text of the value.
Neither text is sorted where names are array indices, since the members of every object are
enumerated with these first; but both are the text of one arrangement of the value.

## Main definitions

* `clone`, `safe` : the digest of the capture.
* `canonicalJsonStringify` : the text of the verifier.

## Main results

* `canonicalDigests_agree` : the digests agree and tell JSON values apart, and the canonical text is
  canonical.
-/

namespace ApiTruth.Connectors

open JsonTree List Option JsString

variable {ν : Type} {n : ℕ}

/-- `JSON.stringify`, which enumerates the members of every object. -/
def stringify (format : NumberFormat ν) (value : JsonTree ν) : List Char :=
  chars format (rearrange [JsString.propertyOrder] id value)

/-! ### The verifier -/

/-- `normalize` : every object is made of its sorted entries. -/
def normalize (item : JsonTree ν) : JsonTree ν :=
  rearrange [JsString.propertyOrder, JsString.units.le] id item

def canonicalJsonStringify (format : NumberFormat ν) (value : JsonTree ν) : Option (List Char) :=
  (parse format (stringify format value)).map fun parsed => stringify format (normalize parsed)

/-! ### The capture -/

/-- `++nodes > 20_000`. -/
def countNode : StateT ℕ Option Unit := fun nodes =>
  if nodes + 1 > 20000 then none else some ((), nodes + 1)

/-- The names of the own properties, none of which is a symbol. -/
def ownNames (properties : OrderedMap PropertyKey (JsDescriptor ν n)) : Option (List JsString) :=
  properties.entries.mapM fun
    | (.string name, _) => some name
    | (.symbol _, _) => none

/-- The clone of a value with the objects in `seen` around it, where `inner` clones the values inside
it.  A proxy is not told apart from a function. -/
def cloneItem (heap : JsHeap ν n)
    (inner : Finset (Fin n) → JsValue ν n → StateT ℕ Option (JsonTree ν)) (seen : Finset (Fin n)) :
    JsValue ν n → StateT ℕ Option (JsonTree ν)
  | .null => pure .null
  | .string s => pure (.str s)
  | .bool b => pure (.bool b)
  | .number x => pure (.num x)
  | .nonFinite | .other => failure
  | .object address =>
    if address ∈ seen then failure
    else match heap address with
      | .array elements extra =>
        if elements.length > 20000 then failure
        else do
          let values ← descriptorItems elements extra
          let result ← values.mapM (inner (insert address seen))
          pure (.arr result)
      | .plain prototype properties =>
        if prototype = .other then failure
        else do
          let names ← ownNames properties
          let result ← (JsString.units.sort names).mapM fun key =>
            if key = JsString.ofString "$ref" then failure
            else do
              let descriptor ← properties.get? (.string key)
              let value ← descriptor.value?
              let cloned ← inner (insert address seen) value
              pure (key, cloned)
          pure (.obj result)

/-- `clone`, with the number of levels down to the depth 32 and the count of `nodes` as the state. -/
def clone (heap : JsHeap ν n) : ℕ → Finset (Fin n) → JsValue ν n → StateT ℕ Option (JsonTree ν)
  | 0, _, _ => failure
  | levels + 1, seen, item => do
    countNode
    cloneItem heap (clone heap levels) seen item

/-- `safe`, with the hash of a text as a parameter. -/
def safe {δ : Type} (format : NumberFormat ν) (sha : List Char → δ) (heap : JsHeap ν n)
    (value : JsValue ν n) : Option δ := do
  let (cloned, _) ← (clone heap 33 ∅ value).run 0
  let canonical := stringify format cloned
  if (canonical.map Char.utf8Size).sum > 1000000 then none else some (sha canonical)

/-! ### The clone of a JSON value -/

/-- The results of a fallible map with a state, where the result of every item is known. -/
theorem eq_of_mapM_run {α β γ : Type} {f : α → StateT ℕ Option β} {g : γ → α} {k : γ → β}
    {xs : List γ} {ys : List β} {s s' : ℕ}
    (hf : ∀ x ∈ xs, ∀ s y s', f (g x) s = some (y, s') → y = k x)
    (h : (xs.map g).mapM f s = some (ys, s')) : ys = xs.map k := by
  induction xs generalizing ys s with
  | nil =>
    cases h
    rfl
  | cons x xs ih =>
    rw [forall_mem_cons] at hf
    rw [map_cons, mapM_cons] at h
    obtain ⟨⟨y, s₁⟩, hy, h⟩ := bind_eq_some_iff.mp h
    obtain ⟨⟨ys', s₂⟩, hys, h⟩ := bind_eq_some_iff.mp h
    cases h
    rw [map_cons, ← hf.1 _ _ _ hy, ← ih hf.2 hys]

section Run

variable {α β : Type} {s : ℕ}

theorem of_ite_failure {x : StateT ℕ Option α} {c : Prop} [Decidable c] {result : α × ℕ}
    (h : (if c then failure else x) s = some result) : ¬c ∧ x s = some result := by
  split_ifs at h with hc
  · cases h
  · exact ⟨hc, h⟩

theorem of_bind_option {x : Option α} {f : α → StateT ℕ Option β} {result : β × ℕ}
    (h : (liftM x >>= f : StateT ℕ Option β) s = some result) :
    ∃ a, x = some a ∧ f a s = some result := by
  cases x with
  | none => cases h
  | some a => exact ⟨a, rfl, h⟩

end Run

theorem of_clone {heap : JsHeap ν n} {v : JsValue ν n} {levels nodes : ℕ} {seen : Finset (Fin n)}
    {result : JsonTree ν × ℕ} (h : clone heap levels seen v nodes = some result) :
    ∃ levels' nodes', cloneItem heap (clone heap levels') seen v nodes' = some result := by
  cases levels with
  | zero => cases h
  | succ levels =>
    obtain ⟨⟨⟨⟩, nodes'⟩, -, h⟩ := bind_eq_some_iff.mp h
    exact ⟨levels, nodes', h⟩

theorem eq_of_clone {heap : JsHeap ν n} {v : JsValue ν n} {t cloned : JsonTree ν}
    (hdenotes : heap.Denotes v t) {levels nodes nodes' : ℕ} {seen : Finset (Fin n)}
    (h : clone heap levels seen v nodes = some (cloned, nodes')) :
    cloned = rearrange [units.le] id t := by
  induction hdenotes generalizing levels nodes nodes' seen cloned with
  | null | bool | number | string =>
    obtain ⟨_, _, h⟩ := of_clone h
    cases h
    rfl
  | @array address fields haddress _ ih =>
    obtain ⟨levels, nodes, h⟩ := of_clone h
    have hread := readsElements_descriptorItems (fields.map Prod.fst)
    rw [List.map_map, List.map_map] at hread
    rw [cloneItem, haddress] at h
    obtain ⟨values, hvalues, h⟩ := of_bind_option (of_ite_failure (of_ite_failure h).2).2
    obtain ⟨⟨result, _⟩, hresult, h⟩ := bind_eq_some_iff.mp h
    cases h
    cases hread.symm.trans hvalues
    rw [rearrange_arr, List.map_map]
    exact congrArg JsonTree.arr (eq_of_mapM_run (fun item hitem _ _ _ => ih item hitem) hresult)
  | @object address prototype properties members haddress hprototype hproperties _ ih =>
    obtain ⟨levels, nodes, h⟩ := of_clone h
    rw [cloneItem, haddress] at h
    obtain ⟨names, hnames, h⟩ := of_bind_option (of_ite_failure (of_ite_failure h).2).2
    obtain ⟨⟨result, _⟩, hresult, h⟩ := bind_eq_some_iff.mp h
    cases h
    have hown : ownNames properties = some (members.map Prod.fst) := by
      rw [ownNames, hproperties]
      exact mapM_map_eq_some fun _ _ => rfl
    cases hown.symm.trans hnames
    rw [← Collation.map_sortBy] at hresult
    have hperm := units.sortBy_perm Prod.fst members
    rw [rearrange_obj, arrange_map, List.map_map]
    refine congrArg JsonTree.obj (eq_of_mapM_run (fun m hm s member s' hmember => ?_) hresult)
    have hm := hperm.mem_iff.mp hm
    have hget : properties.get? (.string m.1) = some (.data m.2.1 true) := by
      rw [OrderedMap.get?_eq_some_iff, hproperties]
      exact List.mem_map_of_mem hm
    obtain ⟨descriptor, hdescriptor, hmember⟩ := of_bind_option (of_ite_failure hmember).2
    cases hget.symm.trans hdescriptor
    obtain ⟨value, hvalue, hmember⟩ := of_bind_option hmember
    cases hvalue
    obtain ⟨⟨cloned, _⟩, hcloned, hmember⟩ := bind_eq_some_iff.mp hmember
    cases hmember
    exact Prod.ext rfl (ih m hm hcloned)

/-! ### The two texts -/

section Texts

variable [DecidableEq ν] {format : NumberFormat ν} {t u : JsonTree ν}

theorem chars_rearrange (orders : List (JsString → JsString → Bool)) (t : JsonTree ν) :
    chars format (rearrange orders id t) = chars format (rearrange orders format.unsigned t) := by
  induction t using JsonTree.induction with
  | null | bool | str => rfl
  | num x => exact (format.text_unsigned x).symm
  | arr items ih =>
    rw [rearrange_arr, rearrange_arr, chars_arr, chars_arr, List.map_map, List.map_map]
    exact congrArg _ (congrArg (joinComma · ++ [']']) (map_congr_left ih))
  | obj members ih =>
    rw [rearrange_obj, rearrange_obj, chars_obj, chars_obj, List.map_map, List.map_map]
    refine congrArg _ (congrArg (joinComma · ++ ['}']) (map_congr_left fun m hm => ?_))
    exact congrArg (quote m.1 ++ ':' :: ·) (ih m ((arrange_perm _ _).mem_iff.mp hm))

/-- The arrangement of a value whose text both hash. -/
def canonicalTree (format : NumberFormat ν) (t : JsonTree ν) : JsonTree ν :=
  rearrange [JsString.units.le, JsString.propertyOrder] format.unsigned t

theorem parse_canonicalTree (h : t.WellFormed) :
    parse format (chars format (canonicalTree format t)) = some (canonicalTree format t) :=
  parse_chars (isNormal_rearrange h)

theorem canonicalJsonStringify_eq (h : t.WellFormed) :
    canonicalJsonStringify format t = some (chars format (canonicalTree format t)) := by
  have hparse : parse format (chars format (rearrange [propertyOrder] format.unsigned t)) =
      some _ := parse_chars (isNormal_rearrange h)
  rw [canonicalJsonStringify, stringify, chars_rearrange, hparse, map_some, stringify,
    normalize, rearrange_rearrange, rearrange_rearrange]
  exact congrArg (fun tree => some (chars format tree))
    (rearrange_append [propertyOrder, propertyOrder] units _ h)

theorem rearrange_unsigned_append (first orders : List (JsString → JsString → Bool))
    (c : Collation JsString) (h : t.WellFormed) :
    rearrange (c.le :: orders) format.unsigned (rearrange first format.unsigned t) =
      rearrange (c.le :: orders) format.unsigned t := by
  have hunsigned : format.unsigned ∘ format.unsigned = format.unsigned :=
    funext format.unsigned_unsigned
  rw [rearrange_rearrange, hunsigned, rearrange_append _ _ _ h]

theorem canonicalTree_eq_iff (ht : t.WellFormed) (hu : u.WellFormed) :
    canonicalTree format t = canonicalTree format u ↔ SameValue format t u := by
  have hcanon {t : JsonTree ν} (ht : t.WellFormed) : canon format (canonicalTree format t) =
      canon format t := by
    rw [canon_eq_rearrange, canon_eq_rearrange]
    exact rearrange_unsigned_append _ _ _ ht
  have hcanonical {t : JsonTree ν} (ht : t.WellFormed) : canonicalTree format (canon format t) =
      canonicalTree format t := by
    rw [canon_eq_rearrange]
    exact rearrange_unsigned_append _ _ _ ht
  rw [← canon_eq_iff ht]
  constructor
  · intro h
    rw [← hcanon ht, h, hcanon hu]
  · intro h
    rw [← hcanonical ht, h, hcanonical hu]

variable {δ : Type} {sha : List Char → δ} {heap : JsHeap ν n} {v : JsValue ν n} {digest : δ}

theorem eq_of_safe (hdenotes : heap.Denotes v t) (h : safe format sha heap v = some digest) :
    digest = sha (chars format (canonicalTree format t)) := by
  obtain ⟨⟨cloned, nodes⟩, hclone, h⟩ := bind_eq_some_iff.mp h
  obtain ⟨-, h⟩ := ite_none_left_eq_some.mp h
  rw [← Option.some.inj h, eq_of_clone hdenotes hclone, stringify, rearrange_rearrange]
  exact congrArg sha (chars_rearrange _ t)

end Texts

/-- **The digests of a captured document.**  The digest of the capture is that of the verifier for
every JSON value that the capture accepts, and tells JSON values apart.  A canonical text is that of
the value that is read from it. -/
theorem canonicalDigests_agree [DecidableEq ν] {δ : Type} (format : NumberFormat ν)
    (sha : List Char → δ) :
    (∀ (n : ℕ) (heap : JsHeap ν n) (v : JsValue ν n) (t : JsonTree ν) (digest : δ),
      heap.Denotes v t → safe format sha heap v = some digest →
        (canonicalJsonStringify format t).map sha = some digest) ∧
    (Function.Injective sha → ∀ (n m : ℕ) (heap : JsHeap ν n) (heap' : JsHeap ν m)
      (v : JsValue ν n) (w : JsValue ν m) (t u : JsonTree ν) (digest digest' : δ),
      heap.Denotes v t → heap'.Denotes w u → safe format sha heap v = some digest →
        safe format sha heap' w = some digest' → (digest = digest' ↔ SameValue format t u)) ∧
    ∀ t : JsonTree ν, t.WellFormed → ∃ text parsed, canonicalJsonStringify format t = some text ∧
      parse format text = some parsed ∧ canonicalJsonStringify format parsed = some text := by
  refine ⟨fun n heap v t digest ht hdigest => ?_,
    fun hsha n m heap heap' v w t u digest digest' ht hu hdigest hdigest' => ?_, fun t ht => ?_⟩
  · rw [canonicalJsonStringify_eq ht.wellFormed, eq_of_safe ht hdigest, map_some]
  · have htexts : digest = digest' ↔ canonicalTree format t = canonicalTree format u := by
      rw [eq_of_safe ht hdigest, eq_of_safe hu hdigest', hsha.eq_iff]
      refine ⟨fun h => ?_, fun h => by rw [h]⟩
      have hparse : parse format (chars format _) = some _ := parse_canonicalTree ht.wellFormed
      rw [h, parse_canonicalTree hu.wellFormed] at hparse
      exact (Option.some.inj hparse).symm
    rw [htexts, canonicalTree_eq_iff ht.wellFormed hu.wellFormed]
  · refine ⟨_, _, canonicalJsonStringify_eq ht, parse_canonicalTree ht, ?_⟩
    have hnormal : (canonicalTree format t).IsNormal format := isNormal_rearrange ht
    have hagain : canonicalTree format (canonicalTree format t) = canonicalTree format t :=
      rearrange_unsigned_append _ _ _ ht
    rw [canonicalJsonStringify_eq hnormal.wellFormed, hagain]

/-- An object whose names are an array index and a letter that is added before it. -/
def indexedHeap : JsHeap (Option JsonNumber) 1 := fun _ =>
  .plain .object (.ofEntries [(.string [0x61], .data .null true),
    (.string [0x31, 0x30], .data (.number none) true), (.string [0x39], .data .null true)])

theorem canonicalDigests_agree_indexedHeap : (canonicalJsonStringify .numerals (.obj [([0x61], .null),
    ([0x31, 0x30], .num none), ([0x39], .null)])).map String.ofList =
      some "\x7b\"9\":null,\"10\":0,\"a\":null\x7d" :=
  (canonicalDigests_agree .numerals String.ofList).1 1 indexedHeap (.object 0) _ _
    (@JsHeap.Denotes.object _ _ _ 0 .object _ [([0x61], .null, .null),
      ([0x31, 0x30], .number none, .num none), ([0x39], .null, .null)] rfl (by decide) rfl
      (by
        simp only [forall_mem_cons, not_mem_nil, IsEmpty.forall_iff, implies_true, and_true]
        exact ⟨.null, .number none, .null⟩)) (by decide +kernel)

end ApiTruth.Connectors
