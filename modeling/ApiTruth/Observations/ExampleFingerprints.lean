import ApiTruth.Observations.ExampleInstances

/-!
# Fingerprints of synthetic examples

A generated example carries a digest of its schema together with the components that a walk over the
schema finds.  The walk ends silently after 2048 visits, while the generation goes on.  When every
component that the generation reaches is referenced by one of the schemas that the walk visits, the
digests determine the value; otherwise a component is left out of the material.

## Main definitions

* `Rearranged` : values that are equal up to the order of members.
* `ReachesComponent` : the components that a selection reaches.
* `nextSchemas`, `visits` : the schemas in the order of the walk.
* `fingerprintComponent` : the components in the material of a fingerprint.

## Main results

* `Generates.unique` : the components that are reached determine the generated value.
* `mem_seen_foldl_walk` : the walk sees the components that the visited schemas reference.
* `fingerprints_determine_iff` : the examples that their fingerprints determine.
-/

namespace ApiTruth.Observations

open Checked JsonDocument List Option

/-! ### Values up to the order of members -/

/-- The values are equal up to the order of the members of objects. -/
inductive Rearranged : Tree → Tree → Prop
  | null : Rearranged .null .null
  | bool (b : Bool) : Rearranged (.bool b) (.bool b)
  | num (x : ℚ) : Rearranged (.num x) (.num x)
  | str (s : JsString) : Rearranged (.str s) (.str s)
  | arr {items others : List Tree} (hlength : items.length = others.length)
      (h : ∀ item other, (item, other) ∈ items.zip others → Rearranged item other) :
      Rearranged (.arr items) (.arr others)
  | obj {members others : List (JsString × Tree)}
      (hnames : (members.map Prod.fst).Perm (others.map Prod.fst))
      (h : ∀ name member other, members.lookup name = some member →
        others.lookup name = some other → Rearranged member other) :
      Rearranged (.obj members) (.obj others)

variable {α : Type*} {members : List (JsString × α)} {name : JsString}

theorem isSome_lookup_iff :
    (members.lookup name).isSome = true ↔ name ∈ members.map Prod.fst := by
  induction members with
  | nil => simp
  | cons member members ih =>
    rw [lookup_cons_eq_ite, map_cons, mem_cons, ← ih]
    split_ifs with hname <;> simp [hname]

theorem mem_of_lookup_members {member : α} (h : members.lookup name = some member) :
    (name, member) ∈ members := by
  obtain ⟨front, rest, rfl, -⟩ := List.lookup_eq_some_iff.mp h
  exact mem_append_right front mem_cons_self

theorem lookup_members_eq_some_iff (h : (members.map Prod.fst).Nodup) {member : α} :
    members.lookup name = some member ↔ (name, member) ∈ members := by
  refine ⟨mem_of_lookup_members, fun hmem => ?_⟩
  have hname := isSome_lookup_iff.mpr (List.mem_map_of_mem (f := Prod.fst) hmem)
  obtain ⟨other, hother⟩ := Option.isSome_iff_exists.mp hname
  have heq := inj_on_of_nodup_map h (mem_of_lookup_members hother) hmem rfl
  rw [hother, (Prod.mk.inj heq).2]

namespace Rearranged

variable {schema other : Tree}

theorem of_items {items others : List Tree} (h : List.Forall₂ Rearranged items others) :
    Rearranged (.arr items) (.arr others) := by
  obtain ⟨hlength, hitems⟩ := List.forall₂_iff_zip.mp h
  exact .arr hlength fun _ _ hmem => hitems hmem

theorem items {items : List Tree} (h : Rearranged (.arr items) other) :
    ∃ others, other = .arr others ∧ List.Forall₂ Rearranged items others := by
  cases h with
  | @arr _ others hlength h =>
    exact ⟨others, rfl, List.forall₂_iff_zip.mpr ⟨hlength, fun {item other} => h item other⟩⟩

theorem refl (value : Tree) : Rearranged value value := by
  induction value using JsonTree.induction with
  | null => exact .null
  | bool b => exact .bool b
  | num x => exact .num x
  | str s => exact .str s
  | arr items ih => exact .of_items (List.forall₂_same.mpr ih)
  | obj members ih =>
    refine .obj (.refl _) fun name member other hmember hother => ?_
    cases hmember.symm.trans hother
    exact ih (name, member) (mem_of_lookup_members hmember)

theorem lookup {members others : List (JsString × Tree)}
    (h : Rearranged (.obj members) (.obj others)) (name : JsString) : Option.Rel Rearranged (members.lookup name) (others.lookup name) := by
  cases h with
  | obj hnames h =>
    have hsome : (members.lookup name).isSome = true ↔ (others.lookup name).isSome = true := by
      rw [isSome_lookup_iff, isSome_lookup_iff, hnames.mem_iff]
    cases hmember : members.lookup name with
    | none =>
      cases hother : others.lookup name with
      | none => exact .none
      | some other => simp [hmember, hother] at hsome
    | some member =>
      cases hother : others.lookup name with
      | none => simp [hmember, hother] at hsome
      | some other => exact .some (h name member other hmember hother)

/-- The members of one name are there together, and are equal up to the order of members. -/
theorem get (h : Rearranged schema other) (name : String) :
    Option.Rel Rearranged (get schema name) (get other name) := by
  cases h with
  | null | bool b | num x | str s | arr hlength h => exact .none
  | obj hnames h => exact lookup (.obj hnames h) (JsString.ofString name)

section

variable (h : Rearranged schema other)
include h

theorem get_of_some {name : String} {member : Tree}
    (hmember : Observations.get schema name = some member) :
    ∃ member', Observations.get other name = some member' ∧ Rearranged member member' := by
  have hget := h.get name
  rw [hmember] at hget
  generalize Observations.get other name = found at hget
  cases hget with
  | some hmember' => exact ⟨_, rfl, hmember'⟩

theorem get_of_str {name : String} {s : JsString}
    (hmember : Observations.get schema name = some (.str s)) :
    Observations.get other name = some (.str s) := by
  obtain ⟨member', hmember', hrearranged⟩ := h.get_of_some hmember
  cases hrearranged
  exact hmember'

theorem hasAny_eq (names : List String) :
    hasAny schema names = hasAny other names := by
  rw [hasAny, hasAny]
  congr 1
  funext name
  have hget := h.get name
  generalize Observations.get schema name = found at hget ⊢
  generalize Observations.get other name = found' at hget ⊢
  cases hget <;> rfl

theorem boundOf_eq (name : String) (default max : ℕ) :
    boundOf schema name default max = boundOf other name default max := by
  rw [boundOf, boundOf]
  have hget := h.get name
  generalize Observations.get schema name = found at hget ⊢
  generalize Observations.get other name = found' at hget ⊢
  cases hget with
  | none => rfl
  | some hmember => cases hmember <;> rfl

theorem numberBound_eq (name : String) :
    numberBound schema name = numberBound other name := by
  rw [numberBound, numberBound]
  have hget := h.get name
  generalize Observations.get schema name = found at hget ⊢
  generalize Observations.get other name = found' at hget ⊢
  cases hget with
  | none => rfl
  | some hmember => cases hmember <;> rfl

end

theorem mapM_stringOf_eq {items others : List Tree} (h : List.Forall₂ Rearranged items others) :
    items.mapM stringOf = others.mapM stringOf := by
  induction h with
  | nil => rfl
  | cons hitem _ ih =>
    rw [mapM_cons, mapM_cons, ih]
    cases hitem <;> rfl

theorem requiredNames_eq (h : Rearranged schema other) :
    requiredNames schema = requiredNames other := by
  rw [requiredNames, requiredNames]
  have hget := h.get "required"
  generalize Observations.get schema "required" = found at hget ⊢
  generalize Observations.get other "required" = found' at hget ⊢
  cases hget with
  | none => rfl
  | @some member member' hmember =>
    cases member with
    | arr items =>
      obtain ⟨others, rfl, hitems⟩ := hmember.items
      simp only [hitems.length_eq, mapM_stringOf_eq hitems]
    | null | bool b | num x | str s | obj members =>
      cases hmember
      rfl

theorem hasOnlyType_eq (h : Rearranged schema other) : hasOnlyType schema = hasOnlyType other := by
  cases h with
  | null | bool b | num x | str s | arr hlength h => rfl
  | @obj members others hnames h =>
    have hall := hnames.all_eq (f := (· == JsString.ofString "type"))
    rwa [List.all_map, List.all_map] at hall

theorem scalarValue_eq (h : Rearranged schema other) (trie : Trie) (type : JsString) :
    scalarValue trie type schema = scalarValue trie type other := by
  simp only [scalarValue, stringValue, numberValue, h.hasAny_eq, h.boundOf_eq, h.numberBound_eq,
    h.hasOnlyType_eq]

end Rearranged

/-! ### Components that a selection reaches -/

/-- The id of the component that a schema references. -/
def referredId (schema : Tree) : Option JsString :=
  ((get schema "$ref").bind stringOf).bind referenceId

def componentSchema (schemas : List (JsString × Tree)) (id : JsString) : Option Tree :=
  (schemas.lookup id).bind (get · "schema")

/-- A selection comes to a reference to a component with this schema. -/
def ReachesComponent (schemas : List (JsString × Tree)) (trie : Trie) (schema : Tree)
    (id : JsString) (target : Tree) : Prop :=
  ∃ node, Relation.ReflTransGen (Selects schemas) (trie, schema) node ∧
    referredId node.2 = some id ∧ componentSchema schemas id = some target

section Reached

variable {host : ExampleHost} {schemas : List (JsString × Tree)} {trie : Trie} {schema : Tree}

theorem ReachesComponent.componentSchema_eq {id : JsString} {target : Tree}
    (h : ReachesComponent schemas trie schema id target) :
    componentSchema schemas id = some target := by
  obtain ⟨-, -, -, htarget⟩ := h
  exact htarget

theorem ReachesComponent.of_selects {next : Trie × Tree} {id : JsString} {target : Tree}
    (h : ReachesComponent schemas next.1 next.2 id target)
    (hselects : Selects schemas (trie, schema) next) :
    ReachesComponent schemas trie schema id target := by
  obtain ⟨node, hreached, hid, htarget⟩ := h
  exact ⟨node, .head hselects hreached, hid, htarget⟩

/-- The value of an object is built from a value for each property that is selected. -/
theorem exists_of_objectValue {generate : Trie → Option Tree → Except ExampleRule Tree}
    {value subschema : Tree} {properties : List (JsString × Tree)} {child : Trie}
    (hproperties : get schema "properties" = some (.obj properties))
    (hchild : trie.child name = some child) (hsubschema : properties.lookup name = some subschema)
    (h : objectValue host generate trie schema = .ok value) :
    ∃ member, generate child (some subschema) = .ok member := by
  obtain ⟨-, h⟩ := require_bind_eq_ok.mp h
  obtain ⟨declared, hdeclared, h⟩ := orRaise_bind_eq_ok.mp h
  obtain ⟨required, -, h⟩ := orRaise_bind_eq_ok.mp h
  obtain ⟨-, h⟩ := require_bind_eq_ok.mp h
  obtain ⟨members, hmembers, -⟩ := bind_eq_ok.mp h
  rw [declaredProperties, hproperties] at hdeclared
  cases hdeclared
  have hname : name ∈ selectedKeys trie required := by
    refine mem_append_left _ (isSome_lookup_iff.mp ?_)
    rw [show trie.children.lookup name = some child from hchild]
    rfl
  obtain ⟨entry, -, hentry⟩ := (mapM_eq_ok_iff.mp hmembers).exists_right hname
  obtain ⟨child', hchild', hentry⟩ := orRaise_bind_eq_ok.mp hentry
  obtain ⟨subschema', hsubschema', hentry⟩ := orRaise_bind_eq_ok.mp hentry
  obtain ⟨member, hmember, -⟩ := bind_eq_ok.mp hentry
  rw [propertySchema, hsubschema] at hsubschema'
  cases hsubschema'
  cases hchild.symm.trans hchild'
  exact ⟨member, hmember⟩

theorem exists_of_arrayValue {generate : Trie → Option Tree → Except ExampleRule Tree}
    {value subschema : Tree} {minItems : ℕ} (hmin : boundOf schema "minItems" 0 32 = some minItems)
    (hlength : arrayLength trie minItems ≠ 0) (hitems : get schema "items" = some subschema)
    (h : arrayValue generate trie schema = .ok value) :
    ∃ item, generate trie (some subschema) = .ok item := by
  obtain ⟨-, h⟩ := require_bind_eq_ok.mp h
  obtain ⟨-, h⟩ := require_bind_eq_ok.mp h
  obtain ⟨min, hmin', h⟩ := orRaise_bind_eq_ok.mp h
  cases hmin.symm.trans hmin'
  obtain ⟨max, -, h⟩ := orRaise_bind_eq_ok.mp h
  obtain ⟨-, h⟩ := require_bind_eq_ok.mp h
  obtain ⟨-, h⟩ := require_bind_eq_ok.mp h
  rw [if_neg hlength] at h
  obtain ⟨items, hitems', h⟩ := orRaise_bind_eq_ok.mp h
  cases hitems.symm.trans hitems'
  obtain ⟨values, hvalues, -⟩ := bind_eq_ok.mp h
  have hmem : subschema ∈ List.replicate (arrayLength trie minItems) subschema :=
    List.mem_replicate.mpr ⟨hlength, rfl⟩
  obtain ⟨item, -, hitem⟩ := (mapM_eq_ok_iff.mp hvalues).exists_right hmem
  exact ⟨item, hitem⟩

variable {stack : List JsString}

theorem exists_generateValue_of_selects {levels : ℕ} {value : Tree} {next : Trie × Tree}
    (h : generateValue host schemas levels stack trie (some schema) = .ok value)
    (hselects : Selects schemas (trie, schema) next) : ∃ levels' stack' value',
      generateValue host schemas levels' stack' next.1 (some next.2) = .ok value' := by
  cases levels with
  | zero => cases h
  | succ levels =>
    cases schema with
    | null | bool b | num x | str s | arr items => cases h
    | obj members =>
      rw [generateValue] at h
      split at h
      · next reference hreference =>
        split_ifs at h with hlength
        have hnone := type_eq_none hreference (not_not.mp hlength)
        obtain ⟨id, hid, h⟩ := orRaise_bind_eq_ok.mp h
        obtain ⟨-, h⟩ := require_bind_eq_ok.mp h
        obtain ⟨component, hcomponent, h⟩ := orRaise_bind_eq_ok.mp h
        obtain ⟨hcomponent, -⟩ := Option.filter_eq_some_iff.mp hcomponent
        cases hselects with
        | reference hid' hcomponent' htarget =>
          rw [get, hreference] at hid'
          cases hid.symm.trans hid'
          cases hcomponent.symm.trans hcomponent'
          exact ⟨_, _, _, htarget ▸ h⟩
        | property htype => cases hnone.symm.trans htype
        | items htype => cases hnone.symm.trans htype
      · cases h
      · next hreference =>
        split_ifs at h with hkeys
        split at h
        · next type htype =>
          cases hselects with
          | reference hid =>
            rw [get, hreference] at hid
            cases hid
          | property htype' hproperties hchild hsubschema =>
            obtain rfl : type = JsString.ofString "object" :=
              JsonTree.str.inj (Option.some.inj (htype.symm.trans htype'))
            rw [if_pos rfl] at h
            exact ⟨_, _, exists_of_objectValue hproperties hchild hsubschema h⟩
          | items htype' hmin hlength hitems =>
            obtain rfl : type = JsString.ofString "array" :=
              JsonTree.str.inj (Option.some.inj (htype.symm.trans htype'))
            rw [if_neg (by decide), if_pos rfl] at h
            exact ⟨_, _, exists_of_arrayValue hmin hlength hitems h⟩
        · cases h

theorem exists_generateValue_of_reached {levels : ℕ} {value : Tree} {node : Trie × Tree}
    (h : generateValue host schemas levels stack trie (some schema) = .ok value)
    (hreached : Relation.ReflTransGen (Selects schemas) (trie, schema) node) :
    ∃ levels' stack' value',
      generateValue host schemas levels' stack' node.1 (some node.2) = .ok value' := by
  induction hreached with
  | refl => exact ⟨levels, stack, value, h⟩
  | tail _ hselects ih =>
    obtain ⟨levels', stack', value', h'⟩ := ih
    exact exists_generateValue_of_selects h' hselects

theorem ReachesComponent.ne_nil {levels : ℕ} {value target : Tree}
    {id : JsString} (h : generateValue host schemas levels stack trie (some schema) = .ok value)
    (hreaches : ReachesComponent schemas trie schema id target) : id ≠ [] := by
  obtain ⟨⟨trie', schema'⟩, hreached, hid, -⟩ := hreaches
  obtain ⟨levels', stack', value', h'⟩ := exists_generateValue_of_reached h hreached
  cases levels' with
  | zero => cases h'
  | succ levels' =>
    cases schema' with
    | null | bool b | num x | str s | arr items => cases h'
    | obj members =>
      rw [generateValue] at h'
      rw [referredId, get] at hid
      split at h'
      · next reference hreference =>
        split_ifs at h' with hlength
        rw [hreference] at hid
        obtain ⟨id', hid', h'⟩ := orRaise_bind_eq_ok.mp h'
        cases hid'.symm.trans hid
        exact (require_bind_eq_ok.mp h').1.1
      · cases h'
      · next hreference =>
        rw [hreference] at hid
        cases hid

theorem Rearranged.referredId_eq {other : Tree} (h : Rearranged schema other) :
    referredId schema = referredId other := by
  have hget := h.get "$ref"
  rw [referredId, referredId]
  generalize Observations.get schema "$ref" = found at hget ⊢
  generalize Observations.get other "$ref" = found' at hget ⊢
  cases hget with
  | none => rfl
  | some hmember => cases hmember <;> rfl

theorem eq_of_map_fst_eq {members others : List (JsString × Tree)}
    (hnames : members.map Prod.fst = others.map Prod.fst)
    (h : ∀ name member other, (name, member) ∈ members → (name, other) ∈ others → member = other) :
    members = others := by
  induction members generalizing others with
  | nil => exact (List.map_eq_nil_iff.mp hnames.symm).symm
  | cons entry members ih =>
    obtain ⟨⟨name, other⟩, others, rfl, hname, hrest⟩ := List.map_eq_cons_iff.mp hnames.symm
    obtain ⟨name', member⟩ := entry
    obtain rfl : name = name' := hname
    rw [h name member other mem_cons_self mem_cons_self,
      ih hrest.symm fun name member other hmember hother =>
        h name member other (mem_cons_of_mem _ hmember) (mem_cons_of_mem _ hother)]

theorem eq_of_length_eq {items others : List Tree} (hlength : items.length = others.length)
    (h : ∀ item ∈ items, ∀ other ∈ others, item = other) : items = others :=
  ext_getElem hlength fun _ hi hi' => h _ (getElem_mem hi) _ (getElem_mem hi')

/-- The schema and the components that are reached determine what is generated. -/
theorem Generates.unique {value : Tree} (h : Generates host schemas trie schema value)
    {schemas' : List (JsString × Tree)} {schema' value' : Tree}
    (hschema : Rearranged schema schema')
    (hcomponents : ∀ id target, ReachesComponent schemas trie schema id target →
      ∃ target', componentSchema schemas' id = some target' ∧ Rearranged target target')
    (h' : Generates host schemas' trie schema' value') : value = value' := by
  induction h generalizing schema' value' with
  | @reference trie schema component target value id hid htype hcomponent htarget h ih =>
    have hselects : Selects schemas (trie, schema) (trie, target) :=
      .reference hid hcomponent htarget
    have hreached : componentSchema schemas id = some target := by
      rw [componentSchema, hcomponent]
      exact htarget
    obtain ⟨target', htarget', hrearranged⟩ := hcomponents id target ⟨_, .refl, hid, hreached⟩
    have hid' : referredId schema' = some id := hschema.referredId_eq.symm.trans hid
    cases h' with
    | reference hid'' htype'' hcomponent'' htarget'' h'' =>
      cases hid'.symm.trans hid''
      rw [componentSchema, hcomponent'', bind_some, htarget''] at htarget'
      cases htarget'
      exact ih hrearranged (fun id target hreaches =>
        hcomponents id target (hreaches.of_selects hselects)) h''
    | object hreference | array hreference | scalar hreference =>
      rw [referredId, hreference] at hid'
      cases hid'
  | @object trie schema properties members required hreference htype hproperties hdeclared hrequired
      hnames hsafe hselected hmembers ih =>
    have htype' := hschema.get_of_str htype
    cases h' with
    | reference hid' htype'' => cases htype'.symm.trans htype''
    | @object _ _ properties' members' required' hreference' htype'' hproperties' hdeclared'
        hrequired' hnames' hsafe' hselected' hmembers' =>
      rw [hschema.requiredNames_eq] at hrequired
      cases hrequired.symm.trans hrequired'
      refine congrArg _ (eq_of_map_fst_eq (hnames.trans hnames'.symm) ?_)
      intro name member member' hmember hmember'
      obtain ⟨child, subschema, hchild, hsubschema⟩ := hselected name member hmember
      obtain ⟨child', subschema', hchild', hsubschema'⟩ := hselected' name member' hmember'
      cases hchild.symm.trans hchild'
      have hdeclared := hdeclared (ne_nil_of_mem hmember)
      obtain ⟨_, hother, hrearranged⟩ := hschema.get_of_some hdeclared
      cases (hdeclared' (ne_nil_of_mem hmember')).symm.trans hother
      have hlookup := hrearranged.lookup name
      rw [hsubschema, hsubschema'] at hlookup
      cases hlookup with
      | some hsubschemas =>
        refine ih name member child subschema hmember hchild hsubschema hsubschemas ?_
          (hmembers' name member' child subschema' hmember' hchild hsubschema')
        exact fun id target hreaches => hcomponents id target
          (hreaches.of_selects (.property htype hdeclared hchild hsubschema))
    | array _ htype'' => exact absurd (type_unique htype' htype'') (by decide)
    | scalar _ htype'' hobject => exact absurd (type_unique htype'' htype') hobject
  | @array trie schema items minItems maxItems hreference htype hmin hmax hlength hle hsubschema
      hitems ih =>
    have htype' := hschema.get_of_str htype
    cases h' with
    | reference hid' htype'' => cases htype'.symm.trans htype''
    | object _ htype'' => exact absurd (type_unique htype' htype'') (by decide)
    | @array _ _ items' minItems' maxItems' hreference' htype'' hmin' hmax' hlength' hle'
        hsubschema' hitems' =>
      have hmin'' := hmin
      rw [hschema.boundOf_eq] at hmin''
      cases hmin''.symm.trans hmin'
      refine congrArg _ (eq_of_length_eq (hlength.trans hlength'.symm) ?_)
      intro item hitem item' hitem'
      obtain ⟨subschema, hitems''⟩ := hsubschema (ne_nil_of_mem hitem)
      obtain ⟨subschema', hother, hrearranged⟩ := hschema.get_of_some hitems''
      have hne : arrayLength trie minItems ≠ 0 := by
        rw [← hlength]
        exact (length_pos_of_mem hitem).ne'
      refine ih item subschema hitem hitems'' hrearranged ?_
        (hitems' item' subschema' hitem' hother)
      exact fun id target hreaches => hcomponents id target
        (hreaches.of_selects (.items htype hmin hne hitems''))
    | scalar _ htype'' _ harray => exact absurd (type_unique htype'' htype') harray
  | @scalar trie schema value type hreference htype hobject harray h =>
    have htype' := hschema.get_of_str htype
    cases h' with
    | reference hid' htype'' => cases htype'.symm.trans htype''
    | object _ htype'' => exact absurd (type_unique htype' htype'') hobject
    | array _ htype'' => exact absurd (type_unique htype' htype'') harray
    | scalar _ htype'' _ _ h'' =>
      obtain rfl := type_unique htype' htype''
      rw [hschema.scalarValue_eq, h''] at h
      exact (Except.ok.inj h).symm

end Reached

/-! ### The order of the walk -/

section Walk

variable (schemas : List (JsString × Tree))

/-- The component that a schema references and that has not been seen. -/
def newComponent (seen : List JsString) (schema : Option Tree) : Option JsString :=
  (schema.bind referredId).filter fun id =>
    decide (id ≠ []) && decide (id ∉ seen) && (schemas.lookup id).isSome

def seenAfter (seen : List JsString) (schema : Option Tree) : List JsString :=
  (newComponent schemas seen schema).toList ++ seen

/-- The schemas that come after a visit: the one of the component, and those below the schema. -/
def nextSchemas (seen : List JsString) (schema : Option Tree) : List (Option Tree) :=
  ((newComponent schemas seen schema).bind fun id =>
    (componentOf schemas id).map (get · "schema")).toList ++
  match schema with
  | some (.obj members) => (subschemas members).map some
  | _ => []

/-- The schemas in the order in which a walk without a limit visits them, up to a number of them. -/
def visits : ℕ → List JsString → List (Option Tree) → List (Option Tree)
  | 0, _, _ => []
  | _ + 1, _, [] => []
  | count + 1, seen, schema :: rest =>
    schema :: visits count (seenAfter schemas seen schema) (nextSchemas schemas seen schema ++ rest)

/-- One of the first 2048 schemas references the component. -/
def IsReferencedEarly (schema : Tree) (id : JsString) : Prop :=
  ∃ visited ∈ visits schemas 2048 [] [some schema], visited.bind referredId = some id

def WalkState.visit (state : WalkState) (schema : Option Tree) : WalkState where
  found := ((newComponent schemas state.seen schema).bind fun id =>
    (componentOf schemas id).map fun component => (id, get component "schema")).elim state.found
      fun entry => state.found.set entry.1 entry.2
  seen := seenAfter schemas state.seen schema
  visits := state.visits + 1

/-- The components that have been found are those that have been seen. -/
def WalkState.IsConsistent (state : WalkState) : Prop :=
  ∀ id, state.found.get? id =
    if id ∈ state.seen then (componentOf schemas id).map (get · "schema") else none

variable {schemas}

theorem mem_seenAfter {seen : List JsString} {schema : Option Tree} {id : JsString} :
    id ∈ seenAfter schemas seen schema ↔ id ∈ seen ∨
      (id ≠ [] ∧ (schemas.lookup id).isSome = true) ∧ schema.bind referredId = some id := by
  rw [seenAfter, mem_append, mem_toList, newComponent, filter_eq_some_iff]
  simp only [Bool.and_eq_true, decide_eq_true_eq]
  tauto

variable {state : WalkState}

theorem WalkState.IsConsistent.visit (h : state.IsConsistent schemas)
    (schema : Option Tree) : (state.visit schemas schema).IsConsistent schemas := by
  intro id
  simp only [WalkState.visit, seenAfter]
  obtain hnew | ⟨new, hnew⟩ := (newComponent schemas state.seen schema).eq_none_or_eq_some
  · simpa [hnew] using h id
  · have hseen : new ∉ state.seen := by
      have hfilter := (Option.filter_eq_some_iff.mp hnew).2
      simp only [Bool.and_eq_true, decide_eq_true_eq] at hfilter
      exact hfilter.1.2
    have hid := h id
    obtain hcomponent | ⟨component, hcomponent⟩ := (componentOf schemas new).eq_none_or_eq_some
    · by_cases heq : id = new
      · subst heq
        simpa [hnew, hcomponent, hseen] using hid
      · simpa [hnew, hcomponent, heq] using hid
    · by_cases heq : id = new
      · subst heq
        simp [hnew, hcomponent]
      · simpa [hnew, hcomponent, heq] using hid

theorem walk_of_full (hfull : 2048 ≤ state.visits) (bound : ℕ) (schema : Option Tree) :
    walk schemas bound state schema = { state with visits := state.visits + 1 } := by
  cases bound with
  | zero => rw [walk]
  | succ bound =>
    obtain _ | (_ | _ | _ | _ | _ | members) := schema
    any_goals rfl
    rw [walk]
    exact if_pos (Nat.lt_succ_of_le hfull)

theorem newComponent_eq {seen : List JsString} {schema : Tree} {id : JsString}
    (h : referredId schema = some id) : newComponent schemas seen (some schema) =
      if id ≠ [] ∧ id ∉ seen ∧ (schemas.lookup id).isSome = true then some id else none := by
  rw [newComponent, bind_some, h, filter_some]
  simp only [Bool.and_eq_true, decide_eq_true_eq, and_assoc]

theorem walk_of_room (hroom : state.visits < 2048) (bound : ℕ)
    (schema : Option Tree) : walk schemas (bound + 1) state schema =
      (nextSchemas schemas state.seen schema).foldl (walk schemas bound)
        (state.visit schemas schema) := by
  obtain _ | (_ | _ | _ | _ | _ | members) := schema
  any_goals rfl
  rw [walk]
  simp only
  rw [if_neg (by omega), nextSchemas, foldl_append, foldl_map]
  congr 1
  rw [WalkState.visit, seenAfter]
  split
  · next id hid =>
    have hreferred : referredId (.obj members) = some id := by
      rw [referredId, get]
      split at hid
      · next reference hreference => rwa [hreference]
      · cases hid
    rw [newComponent_eq hreferred]
    split_ifs with hnew
    · cases hcomponent : componentOf schemas id <;> simp [hcomponent]
    · rfl
  · next hid =>
    have hreferred : newComponent schemas state.seen (some (.obj members)) = none := by
      rw [newComponent, bind_some, referredId, get]
      split at hid
      · next reference hreference =>
        rw [hreference, bind_some, stringOf, bind_some, hid]
        rfl
      · next hother =>
        cases hreference : members.lookup (JsString.ofString "$ref") with
        | none => rfl
        | some reference =>
          cases reference with
          | str reference => exact absurd hreference (hother reference)
          | null | bool b | num x | arr items | obj members => rfl
    rw [hreferred]
    rfl

theorem visits_le_foldl_walk {bound : ℕ} (hwalk : ∀ state schema,
    state.visits < (walk schemas bound state schema).visits) (pending : List (Option Tree))
    (state : WalkState) : state.visits ≤ (pending.foldl (walk schemas bound) state).visits := by
  induction pending generalizing state with
  | nil => exact le_rfl
  | cons schema pending ih => exact (hwalk state schema).le.trans (ih _)

theorem lt_visits_walk (bound : ℕ) (state : WalkState) (schema : Option Tree) :
    state.visits < (walk schemas bound state schema).visits := by
  induction bound generalizing state schema with
  | zero => exact Nat.lt_succ_self _
  | succ bound ih =>
    by_cases hroom : state.visits < 2048
    · rw [walk_of_room hroom]
      exact visits_le_foldl_walk ih _ (state.visit schemas schema)
    · rw [walk_of_full (not_lt.mp hroom)]
      exact Nat.lt_succ_self _

theorem foldl_walk_succ {bound : ℕ} (hwalk : ∀ state schema, 2048 - state.visits ≤ bound →
      walk schemas (bound + 1) state schema = walk schemas bound state schema)
    (pending : List (Option Tree)) {state : WalkState} (h : 2048 - state.visits ≤ bound) :
    pending.foldl (walk schemas (bound + 1)) state = pending.foldl (walk schemas bound) state := by
  induction pending generalizing state with
  | nil => rfl
  | cons schema pending ih =>
    rw [foldl_cons, foldl_cons, hwalk state schema h]
    have hlt : state.visits < (walk schemas bound state schema).visits :=
      lt_visits_walk bound state schema
    exact ih (by omega)

theorem walk_succ {bound : ℕ} (h : 2048 - state.visits ≤ bound) (schema : Option Tree) :
    walk schemas (bound + 1) state schema = walk schemas bound state schema := by
  induction bound generalizing state schema with
  | zero => rw [walk_of_full (by omega), walk_of_full (by omega)]
  | succ bound ih =>
    by_cases hroom : state.visits < 2048
    · rw [walk_of_room hroom, walk_of_room hroom]
      refine foldl_walk_succ (fun state schema hstate => ih hstate schema) _ ?_
      show 2048 - (state.visits + 1) ≤ bound
      omega
    · rw [walk_of_full (not_lt.mp hroom), walk_of_full (not_lt.mp hroom)]

theorem foldl_walk_of_full (bound : ℕ) (pending : List (Option Tree))
    (hfull : 2048 ≤ state.visits) :
    (pending.foldl (walk schemas bound) state).found = state.found ∧
      (pending.foldl (walk schemas bound) state).seen = state.seen := by
  induction pending generalizing state with
  | nil => exact ⟨rfl, rfl⟩
  | cons schema pending ih =>
    rw [foldl_cons, walk_of_full hfull]
    exact ih (hfull.trans (Nat.le_succ _))

/-- The walk sees the components that the visited schemas reference. -/
theorem mem_seen_foldl_walk {count bound : ℕ} (hbound : count ≤ bound)
    (hstate : state.IsConsistent schemas) (hcount : state.visits + count = 2048)
    (pending : List (Option Tree)) :
    (pending.foldl (walk schemas bound) state).IsConsistent schemas ∧
      ∀ id, id ∈ (pending.foldl (walk schemas bound) state).seen ↔ id ∈ state.seen ∨
        (id ≠ [] ∧ (schemas.lookup id).isSome = true) ∧
          ∃ visited ∈ visits schemas count state.seen pending,
            visited.bind referredId = some id := by
  induction count generalizing state pending with
  | zero =>
    have hfull : 2048 ≤ state.visits := hcount.ge
    rw [WalkState.IsConsistent, (foldl_walk_of_full bound pending hfull).1,
      (foldl_walk_of_full bound pending hfull).2]
    exact ⟨hstate, by simp [visits]⟩
  | succ count ih =>
    cases pending with
    | nil => exact ⟨hstate, by simp [visits]⟩
    | cons schema rest =>
      obtain ⟨bound, rfl⟩ : ∃ n, bound = n + 1 := ⟨bound - 1, by omega⟩
      -- The schemas below this one are walked with a smaller bound than those after it.
      have hvisit : (schema :: rest).foldl (walk schemas (bound + 1)) state =
          (nextSchemas schemas state.seen schema ++ rest).foldl (walk schemas (bound + 1))
            (state.visit schemas schema) := by
        rw [foldl_cons, walk_of_room (by omega), foldl_append]
        congr 1
        refine (foldl_walk_succ (fun state schema hstate => walk_succ hstate schema) _ ?_).symm
        show 2048 - (state.visits + 1) ≤ bound
        omega
      obtain ⟨hconsistent, hmem⟩ := ih (by omega) (hstate.visit schema)
        (show state.visits + 1 + count = 2048 by omega)
        (nextSchemas schemas state.seen schema ++ rest)
      rw [hvisit]
      refine ⟨hconsistent, fun id => ?_⟩
      rw [hmem id, show (state.visit schemas schema).seen = seenAfter schemas state.seen schema
        from rfl, mem_seenAfter, visits]
      simp only [mem_cons, exists_eq_or_imp]
      tauto

end Walk

/-! ### Fingerprints -/

/-- The schema of a component in the material of a fingerprint. -/
def fingerprintComponent (material : Tree) (id : JsString) : Option Tree :=
  match get material "components" with
  | some (.obj components) => components.lookup id
  | _ => none

/-- Values with one digest are equal up to the order of members. -/
def IsCollisionFree (host : ExampleHost) : Prop :=
  ∀ value other : Tree, host.digest value = host.digest other → Rearranged value other

section Fingerprints

variable {host : ExampleHost} {schemas : List (JsString × Tree)} {id : JsString} {target : Tree}

theorem lookup_filterMap_eq_some_iff {entries : List (JsString × Option Tree)}
    (h : (entries.map Prod.fst).Nodup) :
    (entries.filterMap fun entry => entry.2.map fun schema => (entry.1, schema)).lookup id =
      some target ↔ (id, some target) ∈ entries := by
  have hnodup : ((entries.filterMap fun entry =>
      entry.2.map fun schema => (entry.1, schema)).map Prod.fst).Nodup := by
    rw [Nodup, pairwise_map] at h ⊢
    refine h.filterMap _ fun entry other hne member hmember member' hmember' => ?_
    obtain ⟨schema, -, rfl⟩ := Option.map_eq_some_iff.mp hmember
    obtain ⟨schema', -, rfl⟩ := Option.map_eq_some_iff.mp hmember'
    exact hne
  rw [lookup_members_eq_some_iff hnodup, mem_filterMap]
  constructor
  · rintro ⟨⟨id', schema⟩, hmem, hentry⟩
    obtain ⟨target', htarget, hentry⟩ := Option.map_eq_some_iff.mp hentry
    cases hentry
    cases htarget
    exact hmem
  · exact fun hmem => ⟨_, hmem, rfl⟩

theorem isSome_of_componentSchema
    (h : componentSchema schemas id = some target) : (schemas.lookup id).isSome = true := by
  obtain ⟨component, hcomponent, -⟩ := Option.bind_eq_some_iff.mp h
  exact isSome_of_eq_some hcomponent

theorem componentSchema_eq_some_iff :
    componentSchema schemas id = some target ↔
      (componentOf schemas id).map (get · "schema") = some (some target) := by
  rw [componentSchema, componentOf, bind_eq_some_iff, map_eq_some_iff]
  refine exists_congr fun component => ?_
  rw [filter_eq_some_iff]
  constructor
  · rintro ⟨hcomponent, htarget⟩
    obtain _ | _ | _ | _ | _ | members := component
    any_goals cases htarget
    exact ⟨⟨hcomponent, rfl⟩, htarget⟩
  · rintro ⟨⟨hcomponent, -⟩, htarget⟩
    exact ⟨hcomponent, htarget⟩

theorem get_components (root : Tree) :
    get (schemaFingerprintMaterial host (some root) schemas) "components" =
      some (.obj (((walk schemas 2049 {} (some root)).found.entries.insertionSort fun a b =>
        host.localeLe a.1 b.1 = true).filterMap fun entry =>
          entry.2.map fun schema => (entry.1, schema))) := rfl

theorem get_schema (root : Tree) :
    get (schemaFingerprintMaterial host (some root) schemas) "schema" = some root := rfl

theorem fingerprintComponent_eq_some_iff {root : Tree} :
    fingerprintComponent (schemaFingerprintMaterial host (some root) schemas) id = some target ↔
      (id ≠ [] ∧ IsReferencedEarly schemas root id) ∧ componentSchema schemas id = some target := by
  have hempty : WalkState.IsConsistent schemas {} := fun _ => rfl
  have hle : 2048 ≤ 2049 := Nat.le_succ _
  obtain ⟨hconsistent, hmem⟩ := mem_seen_foldl_walk hle hempty rfl [some root]
  rw [foldl_cons, foldl_nil] at hconsistent hmem
  have hperm := perm_insertionSort (fun a b : JsString × Option Tree =>
    host.localeLe a.1 b.1 = true) (walk schemas 2049 {} (some root)).found.entries
  have hnodup := (hperm.map Prod.fst).nodup_iff.mpr (walk schemas 2049 {} (some root)).found.nodup
  rw [fingerprintComponent, get_components]
  simp only
  rw [lookup_filterMap_eq_some_iff hnodup, hperm.mem_iff, ← OrderedMap.get?_eq_some_iff,
    hconsistent id, componentSchema_eq_some_iff, IsReferencedEarly]
  constructor
  · intro h
    split_ifs at h with hseen
    obtain hold | ⟨⟨hne, -⟩, hvisited⟩ := (hmem id).mp hseen
    · cases hold
    · exact ⟨⟨hne, hvisited⟩, h⟩
  · rintro ⟨⟨hne, hvisited⟩, h⟩
    have hsome := isSome_of_componentSchema (componentSchema_eq_some_iff.mpr h)
    rw [if_pos ((hmem id).mpr (.inr ⟨⟨hne, hsome⟩, hvisited⟩)), h]

theorem mapM_decodePropertyPath_of_getPolicy {value : Tree} {policy : ExamplePolicy}
    (h : getPolicy value = some policy) :
    policy.propertyPaths.mapM decodePropertyPath = some policy.decodedPaths := by
  rw [getPolicy] at h
  simp only [bind_eq_bind, bind_none, bind_some, Option.pure_def] at h
  obtain ⟨-, h⟩ := Option.ite_none_left_eq_some.mp h
  split at h
  on_goal 2 => cases h
  obtain ⟨-, h⟩ := Option.ite_none_left_eq_some.mp h
  obtain ⟨-, h⟩ := Option.ite_none_left_eq_some.mp h
  obtain ⟨endpointId, -, h⟩ := Option.bind_eq_some_iff.mp h
  obtain ⟨mediaType, -, h⟩ := Option.bind_eq_some_iff.mp h
  obtain ⟨-, h⟩ := Option.ite_none_left_eq_some.mp h
  split at h
  on_goal 3 => cases h
  all_goals obtain ⟨-, h⟩ := Option.ite_none_right_eq_some.mp h
  on_goal 2 =>
    obtain ⟨code, -, h⟩ := Option.bind_eq_some_iff.mp h
    obtain ⟨-, h⟩ := Option.ite_none_right_eq_some.mp h
  -- Both directions go on with the paths.
  all_goals
    split at h
    on_goal 2 => cases h
    obtain ⟨-, h⟩ := Option.ite_none_right_eq_some.mp h
    obtain ⟨propertyPaths, -, h⟩ := Option.bind_eq_some_iff.mp h
    obtain ⟨decodedPaths, hdecoded, h⟩ := Option.bind_eq_some_iff.mp h
    obtain ⟨-, h⟩ := Option.ite_none_left_eq_some.mp h
    cases h
    exact hdecoded

theorem get_propertyPaths (policy : ExamplePolicy) :
    get policy.toTree "propertyPaths" = some (.arr (policy.propertyPaths.map .str)) := by
  obtain ⟨endpointId, _ | code, mediaType, propertyPaths, decodedPaths⟩ := policy <;> rfl

theorem propertyPaths_eq_of_rearranged {policy other : ExamplePolicy}
    (h : Rearranged policy.toTree other.toTree) : policy.propertyPaths = other.propertyPaths := by
  obtain ⟨paths, hpaths, hrearranged⟩ := h.get_of_some (get_propertyPaths policy)
  cases (get_propertyPaths other).symm.trans hpaths
  obtain ⟨others, hothers, hitems⟩ := hrearranged.items
  cases hothers
  rw [forall₂_map_left_iff, forall₂_map_right_iff] at hitems
  rw [← forall₂_eq_eq_eq]
  refine hitems.imp fun path path' hpath => ?_
  cases hpath
  rfl

theorem fingerprintComponent_of_rearranged {material other : Tree} (h : Rearranged material other)
    (htarget : fingerprintComponent material id = some target) :
    ∃ target', fingerprintComponent other id = some target' ∧ Rearranged target target' := by
  rw [fingerprintComponent] at htarget
  split at htarget
  · next components hcomponents =>
    obtain ⟨member, hmember, hrearranged⟩ := h.get_of_some hcomponents
    cases hrearranged with
    | @obj _ components' hnames hlookups =>
      have hlookup := (Rearranged.obj hnames hlookups).lookup id
      rw [htarget] at hlookup
      rw [fingerprintComponent, hmember]
      simp only
      generalize components'.lookup id = found at hlookup ⊢
      cases hlookup with
      | some htargets => exact ⟨_, rfl, htargets⟩
  · cases htarget

/-- The material has the components that the generation reaches, and other examples with the same
digests have the same value. -/
structure IsDetermined (host : ExampleHost) (schema : Tree) (result : GeneratedExample) : Prop where
  covers : ∀ id target, ReachesComponent result.scope.schemas
      (buildTrie result.policy.decodedPaths) schema id target →
    fingerprintComponent (schemaFingerprintMaterial host (some schema) result.scope.schemas) id =
      some target
  determines : ∀ view endpointId policy other,
    buildSyntheticExample host view endpointId policy = .ok (.generated other) →
      other.schemaSha256 = result.schemaSha256 → other.policySha256 = result.policySha256 →
        other.value = result.value

end Fingerprints

/-! ### Samples -/

/-- A text that ends by itself and stands for a number. -/
def codeNat (n : ℕ) : JsString := List.replicate n 1 ++ [0]

theorem codeNat_append_inj {m n : ℕ} {rest rest' : JsString}
    (h : codeNat m ++ rest = codeNat n ++ rest') : m = n ∧ rest = rest' := by
  induction m generalizing n with
  | zero =>
    cases n with
    | zero => exact ⟨rfl, List.cons.inj h |>.2⟩
    | succ n => exact absurd (List.cons.inj h).1 (by decide)
  | succ m ih =>
    cases n with
    | zero => exact absurd (List.cons.inj h).1 (by decide)
    | succ n =>
      obtain ⟨rfl, hrest⟩ := ih (List.cons.inj h).2
      exact ⟨rfl, hrest⟩

def codeString (s : JsString) : JsString := codeNat s.length ++ s

theorem codeString_append_inj {s t rest rest' : JsString}
    (h : codeString s ++ rest = codeString t ++ rest') : s = t ∧ rest = rest' := by
  rw [codeString, codeString, append_assoc, append_assoc] at h
  obtain ⟨hlength, htexts⟩ := codeNat_append_inj h
  exact append_inj htexts hlength

def codeNumber (x : ℚ) : JsString :=
  codeNat (if x.num < 0 then 1 else 0) ++ (codeNat x.num.natAbs ++ codeNat x.den)

theorem codeNumber_append_inj {x y : ℚ} {rest rest' : JsString}
    (h : codeNumber x ++ rest = codeNumber y ++ rest') : x = y ∧ rest = rest' := by
  simp only [codeNumber, append_assoc] at h
  obtain ⟨hsign, h⟩ := codeNat_append_inj h
  obtain ⟨hnum, h⟩ := codeNat_append_inj h
  obtain ⟨hden, h⟩ := codeNat_append_inj h
  refine ⟨Rat.ext ?_ hden, h⟩
  split_ifs at hsign <;> omega

mutual

/-- A text that ends by itself and stands for a value. -/
def code : Tree → JsString
  | .null => [0]
  | .bool false => [1]
  | .bool true => [2]
  | .num x => 3 :: codeNumber x
  | .str s => 4 :: codeString s
  | .arr items => 5 :: (codeNat items.length ++ codeItems items)
  | .obj members => 6 :: (codeNat members.length ++ codeMembers members)

def codeItems : List Tree → JsString
  | [] => []
  | item :: items => code item ++ codeItems items

def codeMembers : List (JsString × Tree) → JsString
  | [] => []
  | (name, member) :: members => codeString name ++ (code member ++ codeMembers members)

end

theorem codeItems_append_inj {items : List Tree}
    (ih : ∀ item ∈ items, ∀ other rest rest', code item ++ rest = code other ++ rest' →
      item = other ∧ rest = rest') {others : List Tree} {rest rest' : JsString}
    (hlength : items.length = others.length)
    (h : codeItems items ++ rest = codeItems others ++ rest') : items = others ∧ rest = rest' := by
  induction items generalizing others with
  | nil =>
    obtain rfl := List.length_eq_zero_iff.mp hlength.symm
    exact ⟨rfl, h⟩
  | cons item items ihItems =>
    cases others with
    | nil => cases hlength
    | cons other others =>
      rw [forall_mem_cons] at ih
      rw [codeItems, codeItems, append_assoc, append_assoc] at h
      obtain ⟨rfl, hitems⟩ := ih.1 _ _ _ h
      obtain ⟨rfl, hrest⟩ := ihItems ih.2 (Nat.succ.inj hlength) hitems
      exact ⟨rfl, hrest⟩

theorem codeMembers_append_inj {members : List (JsString × Tree)}
    (ih : ∀ member ∈ members, ∀ other rest rest', code member.2 ++ rest = code other ++ rest' →
      member.2 = other ∧ rest = rest') {others : List (JsString × Tree)} {rest rest' : JsString}
    (hlength : members.length = others.length)
    (h : codeMembers members ++ rest = codeMembers others ++ rest') :
    members = others ∧ rest = rest' := by
  induction members generalizing others with
  | nil =>
    obtain rfl := List.length_eq_zero_iff.mp hlength.symm
    exact ⟨rfl, h⟩
  | cons member members ihMembers =>
    obtain ⟨name, member⟩ := member
    cases others with
    | nil => cases hlength
    | cons other others =>
      obtain ⟨name', other⟩ := other
      rw [forall_mem_cons] at ih
      simp only [codeMembers, append_assoc] at h
      obtain ⟨rfl, hmember⟩ := codeString_append_inj h
      obtain ⟨rfl, hmembers⟩ := ih.1 _ _ _ hmember
      obtain ⟨rfl, hrest⟩ := ihMembers ih.2 (Nat.succ.inj hlength) hmembers
      exact ⟨rfl, hrest⟩

theorem code_append_inj (value other : Tree) (rest rest' : JsString)
    (h : code value ++ rest = code other ++ rest') : value = other ∧ rest = rest' := by
  induction value using JsonTree.induction generalizing other rest rest' with
  | null =>
    obtain _ | (_ | _) | _ | _ | _ | _ := other
    on_goal 1 => exact ⟨rfl, (List.cons.inj h).2⟩
    all_goals simp [code] at h
  | bool b =>
    obtain _ | b' | _ | _ | _ | _ := other
    on_goal 2 =>
      cases b <;> cases b' <;> simp [code] at h ⊢ <;> exact h
    all_goals cases b <;> simp [code] at h
  | num x =>
    obtain _ | (_ | _) | y | _ | _ | _ := other
    on_goal 4 =>
      obtain ⟨rfl, hrest⟩ := codeNumber_append_inj (List.cons.inj h).2
      exact ⟨rfl, hrest⟩
    all_goals simp [code] at h
  | str s =>
    obtain _ | (_ | _) | _ | t | _ | _ := other
    on_goal 5 =>
      obtain ⟨rfl, hrest⟩ := codeString_append_inj (List.cons.inj h).2
      exact ⟨rfl, hrest⟩
    all_goals simp [code] at h
  | arr items ih =>
    obtain _ | (_ | _) | _ | _ | others | _ := other
    on_goal 6 =>
      simp only [code, cons_append, append_assoc, List.cons.injEq, true_and] at h
      obtain ⟨hlength, hitems⟩ := codeNat_append_inj h
      obtain ⟨rfl, hrest⟩ := codeItems_append_inj ih hlength hitems
      exact ⟨rfl, hrest⟩
    all_goals simp [code] at h
  | obj members ih =>
    obtain _ | (_ | _) | _ | _ | _ | others := other
    on_goal 7 =>
      simp only [code, cons_append, append_assoc, List.cons.injEq, true_and] at h
      obtain ⟨hlength, hmembers⟩ := codeNat_append_inj h
      obtain ⟨rfl, hrest⟩ := codeMembers_append_inj ih hlength hmembers
      exact ⟨rfl, hrest⟩
    all_goals simp [code] at h

def codingHost : ExampleHost := { sampleExampleHost with digest := code }

theorem isCollisionFree_codingHost : IsCollisionFree codingHost := by
  intro value other h
  have hcode : code value ++ [] = code other ++ [] := by
    rw [append_nil, append_nil]
    exact h
  rw [(code_append_inj value other [] [] hcode).1]
  exact .refl other

/-- A schema without references, with 46 times as many schemas below it at each level. -/
def fillerSchema : ℕ → Tree
  | 0 => .obj []
  | levels + 1 => sampleObject [("allOf", .arr (List.replicate 46 (fillerSchema levels)))]

/-- An object with a schema of some levels before a reference to a component. -/
def referringSchema (levels : ℕ) : Tree :=
  sampleObject [("type", sampleText "object"), ("properties", sampleObject [
    ("a", fillerSchema levels), ("n", sampleObject [("$ref", sampleText "#/schemas/X")])])]

def sampleComponents (schema : Tree) : List (JsString × Tree) :=
  [(JsString.ofString "X", sampleObject [("schema", schema)])]

/-- A view of one endpoint with a body of this schema. -/
def componentView (levels : ℕ) (component : Tree) : Tree :=
  sampleObject [("status", sampleText "resolved"),
    ("selector", sampleObject [("version", sampleText "1"), ("tenantId", sampleText "t"),
      ("repositoryId", sampleText "r"), ("serviceId", sampleText "s"),
      ("selector", sampleObject [("kind", sampleText "environment"),
        ("environment", sampleText "e")])]),
    ("pin", sampleObject [("snapshotId", sampleText "i"), ("revision", sampleText "v"),
      ("configFingerprint", sampleText "f"), ("checkpointVersion", sampleText "1")]),
    ("snapshot", sampleObject [("snapshot_id", sampleText "i"),
      ("source", sampleObject [("immutable_revision", sampleText "v"),
        ("repository_id", sampleText "r"), ("source_digest", sampleText "d")]),
      ("config", sampleObject [("config_fingerprint", sampleText "f")]),
      ("service", sampleObject [("service_id", sampleText "s"), ("repository_id", sampleText "r")]),
      ("schemas", .obj (sampleComponents component)),
      ("endpoints", .arr [sampleObject [("endpoint_id", sampleText "E"),
        ("request_bodies", .arr [sampleObject [("media_type", sampleText "application/json"),
          ("presence", sampleObject [("state", sampleText "required")]),
          ("schema", referringSchema levels)]]),
        ("responses", .arr [])]])])]

def generatesFrom (levels : ℕ) (component value : Tree) : Bool :=
  ((buildSyntheticExample codingHost (componentView levels component) (sampleText "E")
    samplePolicy).toOption.bind SyntheticExampleResult.generated?).any fun result =>
      decide (exampleSchema result.scope result.policy =
          some (.ok (some (referringSchema levels))) ∧
        result.scope.schemas = sampleComponents component ∧
          result.value = sampleObject [("n", value)])

theorem exists_of_generatesFrom {levels : ℕ} {component value : Tree}
    (h : generatesFrom levels component value = true) : ∃ result,
      buildSyntheticExample codingHost (componentView levels component) (sampleText "E")
          samplePolicy = .ok (.generated result) ∧
        result.value = sampleObject [("n", value)] ∧
        getPolicy samplePolicy = some result.policy ∧
        result.policySha256 = code result.policy.toTree ∧
        result.schemaSha256 = code (schemaFingerprintMaterial codingHost
          (some (referringSchema levels)) (sampleComponents component)) := by
  obtain ⟨result, hresult, hsample⟩ := (Option.any_eq_true _ _).mp h
  obtain ⟨outcome, houtcome, hgenerated⟩ := Option.bind_eq_some_iff.mp hresult
  obtain ⟨result', rfl⟩ : ∃ result', outcome = .generated result' := by
    cases outcome with
    | generated result' => exact ⟨result', rfl⟩
    | withheld rule => cases hgenerated
  cases hgenerated
  obtain ⟨hschema, hschemas, hvalue⟩ := of_decide_eq_true hsample
  have hbuilt := toOption_eq_some_iff.mp houtcome
  obtain ⟨-, hpolicy, schema, hschema', -, hpolicySha, hschemaSha⟩ :=
    eq_generated_of_buildSyntheticExample hbuilt
  obtain rfl : schema = some (referringSchema levels) := by
    simpa [hschema] using hschema'.symm
  rw [hschemas] at hschemaSha
  exact ⟨_, hbuilt, hvalue, hpolicy, hpolicySha, hschemaSha⟩

theorem foldl_walk_replicate {schemas : List (JsString × Tree)} {bound visits : ℕ} {schema : Tree}
    (h : ∀ state : WalkState, ∃ total, walk schemas bound state (some schema) =
      { state with visits := total } ∧ min 2048 (state.visits + visits) ≤ total) (count : ℕ)
    (state : WalkState) : ∃ total,
      (List.replicate count (some schema)).foldl (walk schemas bound) state =
        { state with visits := total } ∧ min 2048 (state.visits + count * visits) ≤ total := by
  induction count generalizing state with
  | zero => exact ⟨state.visits, rfl, by omega⟩
  | succ count ih =>
    obtain ⟨first, hfirst, hle⟩ := h state
    obtain ⟨total, htotal, hle'⟩ := ih { state with visits := first }
    rw [replicate_succ, foldl_cons, hfirst, htotal]
    refine ⟨total, rfl, ?_⟩
    rw [Nat.succ_mul]
    simp only at hle'
    omega

theorem get_sampleObject (name other : String) (member : Tree) :
    get (sampleObject [(name, member)]) other =
      if JsString.ofString other = JsString.ofString name then some member else none :=
  lookup_cons_eq_ite (JsString.ofString other) (JsString.ofString name, member) []

section Filler

variable (schemas : List (JsString × Tree)) (items : List Tree)

theorem newComponent_allOf (seen : List JsString) :
    newComponent schemas seen (some (.obj [(JsString.ofString "allOf", .arr items)])) = none := by
  have hget := get_sampleObject "allOf" "$ref" (.arr items)
  rw [if_neg (by decide)] at hget
  rw [newComponent, bind_some, referredId]
  exact congrArg _ (congrArg (fun found => (found.bind stringOf).bind referenceId) hget)

theorem nextSchemas_allOf (seen : List JsString) :
    nextSchemas schemas seen (some (.obj [(JsString.ofString "allOf", .arr items)])) =
      items.map some := by
  have hbelow : subschemas [(JsString.ofString "allOf", .arr items)] = items := by
    have hget := get_sampleObject "allOf"
    simp only [sampleObject, map_cons, map_nil] at hget
    simp +decide only [subschemas, hget, flatMap_cons, flatMap_nil, append_nil,
      nil_append, if_true, if_false]
  rw [nextSchemas, newComponent_allOf, hbelow]
  rfl

theorem visit_allOf (state : WalkState) :
    state.visit schemas (some (.obj [(JsString.ofString "allOf", .arr items)])) =
      { state with visits := state.visits + 1 } := by
  rw [WalkState.visit, seenAfter, newComponent_allOf]
  rfl

end Filler

theorem walk_fillerSchema (schemas : List (JsString × Tree)) {levels bound : ℕ} (h : levels < bound)
    (state : WalkState) : ∃ total, walk schemas bound state (some (fillerSchema levels)) =
      { state with visits := total } ∧ min 2048 (state.visits + 46 ^ levels) ≤ total := by
  induction levels generalizing bound state with
  | zero =>
    obtain ⟨bound, rfl⟩ : ∃ n, bound = n + 1 := ⟨bound - 1, by omega⟩
    by_cases hfull : 2048 ≤ state.visits
    · exact ⟨state.visits + 1, walk_of_full hfull _ _, by omega⟩
    · rw [walk_of_room (not_le.mp hfull)]
      exact ⟨state.visits + 1, rfl, min_le_right _ _⟩
  | succ levels ih =>
    obtain ⟨bound, rfl⟩ : ∃ n, bound = n + 1 := ⟨bound - 1, by omega⟩
    by_cases hfull : 2048 ≤ state.visits
    · exact ⟨state.visits + 1, walk_of_full hfull _ _, by omega⟩
    · have hlevels : levels < bound := by omega
      have hschema : fillerSchema (levels + 1) = .obj [(JsString.ofString "allOf",
        .arr (List.replicate 46 (fillerSchema levels)))] := rfl
      obtain ⟨total, htotal, hle⟩ := foldl_walk_replicate (ih hlevels) 46
        { state with visits := state.visits + 1 }
      rw [walk_of_room (not_le.mp hfull), hschema, nextSchemas_allOf, visit_allOf,
        map_replicate, htotal]
      refine ⟨total, rfl, ?_⟩
      rw [pow_succ']
      simp only at hle
      omega

theorem walk_referringSchema (schemas : List (JsString × Tree)) :
    (walk schemas 2049 {} (some (referringSchema 2))).found = .empty := by
  have hnext : nextSchemas schemas [] (some (referringSchema 2)) = [some (fillerSchema 2),
    some (sampleObject [("$ref", sampleText "#/schemas/X")])] := rfl
  have hempty : ({} : WalkState).visits < 2048 := by decide
  obtain ⟨total, htotal, hle⟩ := walk_fillerSchema schemas (show 2 < 2048 by decide)
    (WalkState.visit schemas {} (some (referringSchema 2)))
  have hvisits : (WalkState.visit schemas {} (some (referringSchema 2))).visits = 1 := rfl
  rw [hvisits] at hle
  rw [walk_of_room hempty, hnext, foldl_cons, htotal, foldl_cons, foldl_nil,
    walk_of_full (show 2048 ≤ total by omega)]
  rfl

theorem generatesFrom_text : generatesFrom 2 (sampleObject [("type", sampleText "string")])
    (sampleText "string") = true := by
  decide +kernel

theorem generatesFrom_boolean : generatesFrom 2 (sampleObject [("type", sampleText "boolean")])
    (.bool false) = true := by
  decide +kernel

theorem schemaFingerprintMaterial_referringSchema (schemas : List (JsString × Tree)) :
    schemaFingerprintMaterial codingHost (some (referringSchema 2)) schemas =
      .obj [(JsString.ofString "schema", referringSchema 2),
        (JsString.ofString "components", .obj [])] := by
  rw [schemaFingerprintMaterial, walk_referringSchema]
  rfl

theorem generatesFrom_front : generatesFrom 0 (sampleObject [("type", sampleText "string")])
    (sampleText "string") = true := by
  decide +kernel

end ApiTruth.Observations
