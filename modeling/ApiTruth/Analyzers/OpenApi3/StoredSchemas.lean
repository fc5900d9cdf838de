import ApiTruth.Analyzers.OpenApi3.Extraction
import ApiTruth.Analyzers.OpenApi3.Weakening
import Mathlib.Data.Set.Function

/-!
# The schemas that an extraction stores

The extraction of a document of version 3.0 stores the conversion of every component.  What it
stores for an endpoint or a component accepts what the schema of the document accepts, wherever
nothing is left out below a negation or an exclusive choice.

## Main definitions

* `Result.stored` : the schemas that are stored in components and endpoints.

## Main results

* `storesComponents_of_extraction` : every component of the document is stored.
* `stored_weakens` : stored schemas accept what the schemas of the document accept.
-/

namespace ApiTruth.Analyzers.OpenApi3

open Json ApiTruth.Ir List Option

variable {host : Host} {profile : Profile} {document : Json}

/-! ### Stored schemas -/

/-- The schemas of an extracted endpoint. -/
def Endpoint.stored (endpoint : Endpoint host profile document) :
    List (Stored host profile document) :=
  endpoint.parameters.map Parameter.schema ++
    endpoint.requestBodies.map (fun body => body.schema) ++
    endpoint.responses.flatMap fun response =>
      response.content.map Media.schema ++ response.headers.map ResponseHeader.schema

/-- The schemas that are stored in components and endpoints. -/
def Result.stored (result : Result host profile document) : List (Stored host profile document) :=
  result.schemas.entries.map Prod.snd ++ result.endpoints.flatMap Endpoint.stored

/-! ### Components -/

/-- The id of a stored component, with the conversion of the component. -/
def componentEntry (host : Host) (entry : String × Located document) :
    String × Stored host .v30 document :=
  (schemaId host entry.1, .convert host .v30 entry.2)

theorem foldlM_extractComponent_fst (entries : List (String × Located document))
    (schemas : OrderedMap String (Stored host .v30 document)) (s : Extraction document) :
    ((entries.foldlM (extractComponent host .v30) schemas :
        Extract document (OrderedMap String (Stored host .v30 document))) s).1 =
      (entries.map (componentEntry host)).foldl (fun m entry => m.set entry.1 entry.2) schemas := by
  induction entries generalizing schemas s with
  | nil => rfl
  | cons entry entries ih =>
    exact ih _ _

theorem extractComponents_fst (s : Extraction document) :
    (extractComponents host .v30 s).1 =
      OrderedMap.ofEntries (((componentMap document "schemas").elim [] (sortedEntries host)).map
        (componentEntry host)) := by
  unfold extractComponents
  cases componentMap document "schemas" with
  | none => rfl
  | some map => exact foldlM_extractComponent_fst _ _ _

/-- The ids of the components of the document are distinct. -/
def DistinctIds (host : Host) (document : Json) : Prop :=
  Set.InjOn (schemaId host) {name | (component? document "schemas" name).isSome = true}

/-- Every component of the document is stored under its id. -/
theorem storesComponents_of_extraction (hdocument : WellFormed document)
    (hids : DistinctIds host document) (s : Extraction document) :
    StoresComponents (extractComponents host .v30 s).1 := by
  intro name target htarget
  refine ⟨.convert host .v30 target, ?_, rfl⟩
  rw [extractComponents_fst, OrderedMap.get?_ofEntries]
  cases hmap : componentMap document "schemas" with
  | none =>
    rw [component?, hmap] at htarget
    cases htarget
  | some map =>
    have hcomponent (key : String) : component? document "schemas" key = map.member? key := by
      rw [component?, hmap, bind_some]
    have hperm : (sortedEntries host map).Perm map.members := perm_insertionSort _ _
    have hnames : ((sortedEntries host map).map Prod.fst).Nodup :=
      (hperm.map Prod.fst).nodup_iff.mpr (map.nodup_members hdocument)
    have hmem {entry : String × Located document} (h : entry ∈ sortedEntries host map) :
        (component? document "schemas" entry.1).isSome = true := by
      rw [hcomponent, Located.mem_members_iff.mp (hperm.mem_iff.mp h)]
      rfl
    have hkeys : (((sortedEntries host map).map (componentEntry host)).map Prod.fst).Nodup := by
      rw [List.map_map, nodup_map_iff_inj_on (Nodup.of_map _ hnames)]
      intro a ha b hb heq
      exact inj_on_of_nodup_map hnames ha hb (hids (hmem ha) (hmem hb) heq)
    rw [elim_some, OrderedMap.lookup_eq_some_iff (by
      rw [map_reverse]
      exact List.nodup_reverse.mpr hkeys), mem_reverse, List.mem_map]
    rw [hcomponent] at htarget
    exact ⟨(name, target), hperm.mem_iff.mpr (Located.mem_members_iff.mpr htarget), rfl⟩

theorem extractBody_schemas (serviceId : String) (s : Extraction document) :
    (extractBody host profile serviceId s).1.1 =
      (extractComponents host profile (noteDocument profile s).2).1 := by
  unfold extractBody
  cases (Located.root document).member? "paths" <;> rfl

theorem exists_schemas_eq {serviceId : String} {stored : Stored host .v30 document}
    (h : stored ∈ (extractOpenApi3Document host serviceId document).stored) : ∃ s,
      (extractOpenApi3Document host serviceId document).schemas =
        (extractComponents host .v30 s).1 := by
  unfold extractOpenApi3Document extractOpenApiDocument at h ⊢
  split at h
  · split at h
    · cases h
    · rename_i hdocument _ diagnostics _
      rw [if_pos hdocument]
      exact ⟨_, extractBody_schemas serviceId { diagnostics }⟩
  · cases h

/-- **Stored schemas weaken.**  Wherever nothing is left out below a negation or an exclusive choice,
a stored schema accepts what the schema of the document accepts. -/
theorem stored_weakens (host : Host) (serviceId : String) {document : Json}
    (hdocument : WellFormed document) (hids : DistinctIds host document)
    {stored : Stored host .v30 document}
    (hstored : stored ∈ (extractOpenApi3Document host serviceId document).stored)
    {place : Located document} (horigin : stored.origin = some place)
    (hguarded : Guarded .positive schemaLevels place) (vocabulary : DocumentVocabulary) (x : Json)
    (h : DocumentAccepts vocabulary document place.value x) :
    (storedSpace (extractOpenApi3Document host serviceId document).schemas).Accepts
      vocabulary.toVocabulary stored.schema x := by
  obtain ⟨s, hschemas⟩ := exists_schemas_eq hstored
  have hstores : StoresComponents (extractOpenApi3Document host serviceId document).schemas :=
    hschemas ▸ storesComponents_of_extraction hdocument hids s
  have hschema : stored.schema = (schema host .v30 schemaLevels place).value := by
    rw [stored.schema_eq, horigin]
    rfl
  obtain ⟨depth, haccepts⟩ := h
  refine ⟨depth, fun bottom => ?_⟩
  rw [hschema]
  exact (allows_schema hdocument hstores depth hguarded x).1 (by simp) (haccepts _)

/-! ### A negated keyword -/

/-- A document whose only component is the schema. -/
def componentDocument (schema : Json) : Json :=
  .obj [("openapi", .str "3.0.3"),
    ("info", .obj [("title", .str "Orders"), ("version", .str "1")]), ("paths", .obj []),
    ("components", .obj [("schemas", .obj [("Order", schema)])])]

def componentPlace (schema : Json) : Located (componentDocument schema) :=
  ⟨[.name "components", .name "schemas", .name "Order"], schema, rfl⟩

def minProperties : Json := .obj [("minProperties", .num ⟨['1'], rfl⟩)]

/-- The meaning of `minProperties`, which the conversion does not support. -/
def countingVocabulary : DocumentVocabulary where
  ref _ _ := true
  text _ _ _ := true
  number _ _ _ := true
  other key _ instance_ := key != "minProperties" || !(membersOf instance_).isEmpty
  malformed _ _ := true

theorem distinctIds_componentDocument (schema : Json) :
    DistinctIds .ascii (componentDocument schema) := by
  let map : Located (componentDocument schema) :=
    ⟨[.name "components", .name "schemas"], .obj [("Order", schema)], rfl⟩
  have hname (name : String)
      (h : (component? (componentDocument schema) "schemas" name).isSome = true) :
      name = "Order" := by
    obtain ⟨target, htarget⟩ := isSome_iff_exists.mp h
    have hmember : map.member? name = some target := htarget
    have hmem := mem_of_lookup (lookup_of_member? hmember)
    exact (Prod.mk.inj (List.mem_singleton.mp hmem)).1
  intro a ha b hb _
  rw [hname a ha, hname b hb]

theorem guarded_of_leaf {place : Located document} {levels : ℕ}
    (href : referenceOf place.value = none)
    (hleaf : ∀ key ∈ schemaKeywords, place.value.members.lookup key = none) :
    Guarded .positive levels place := by
  have hmember {key : String} (hkey : key ∈ schemaKeywords) {child : Located document}
      (h : place.member? key = some child) : False := by
    rw [member?_eq_none_of_lookup (hleaf key hkey)] at h
    cases h
  refine .of_no_step fun next hstep => ?_
  cases hstep with
  | child _ hchild =>
    cases hchild with
    | property hlist _ _ => exact hmember (by decide) hlist
    | single hkey hchild _ =>
      refine hmember ?_ hchild
      simp only [mem_cons, not_mem_nil, or_false] at hkey
      rcases hkey with rfl | rfl | rfl <;> decide
    | several hkey hlist _ _ =>
      refine hmember ?_ hlist
      simp only [mem_cons, not_mem_nil, or_false] at hkey
      rcases hkey with rfl | rfl | rfl <;> decide
  | ref htarget =>
    rw [referencedPlace, href] at htarget
    cases htarget

theorem stored_weakens_minProperties :
    (storedSpace (extractOpenApi3Document .ascii "orders"
        (componentDocument minProperties)).schemas).Accepts countingVocabulary.toVocabulary
      (.obj []) (.obj [("a", .null)]) :=
  @stored_weakens .ascii "orders" (componentDocument minProperties)
    (isWellFormed_iff.mp (by decide)) (distinctIds_componentDocument minProperties)
    (.convert .ascii .v30 (componentPlace minProperties)) (.head _) _ rfl
    (guarded_of_leaf rfl (by decide)) countingVocabulary (.obj [("a", .null)])
    ⟨0, fun bottom => rfl⟩

/-- The empty object has too few members for the negated keyword; without the keyword the negation
accepts nothing. -/
theorem not_stored_weakens :
    ¬ ∀ (host : Host) (serviceId : String) (document : Json), WellFormed document →
      DistinctIds host document →
      ∀ stored ∈ (extractOpenApi3Document host serviceId document).stored, ∀ place,
        stored.origin = some place → ∀ vocabulary x,
          DocumentAccepts vocabulary document place.value x →
            (storedSpace (extractOpenApi3Document host serviceId document).schemas).Accepts
              vocabulary.toVocabulary stored.schema x := by
  intro h
  have haccepts := h .ascii "orders" (componentDocument (.obj [("not", minProperties)]))
    (isWellFormed_iff.mp (by decide)) (distinctIds_componentDocument _)
    (.convert .ascii .v30 (componentPlace (.obj [("not", minProperties)]))) (.head _) _ rfl
    countingVocabulary (.obj []) ⟨0, fun bottom => rfl⟩
  exact haccepts.not_rejects ⟨0, fun bottom => rfl⟩

end ApiTruth.Analyzers.OpenApi3
