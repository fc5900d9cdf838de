import ApiTruth.OpenApi.Closure
import ApiTruth.OpenApi.ExportMeaning

/-!
# Draft schemas weaken, strict schemas mean the same

A draft document accepts what the snapshot accepts wherever no constraint is dropped below a
negation or an exclusive choice.  A strict document is silent, so that no constraint is dropped at
all, in no schema and in no component behind a reference; its schemas accept exactly what the
schemas of the snapshot accept.

## Main definitions

* `Site.ExportsAll` : every keyword of the schema is exported.

## Main results

* `draft_weakens`, `not_draft_weakens`.
* `strict_preserves`.
-/

namespace ApiTruth.OpenApi

open Json ApiTruth.Ir Reported List

variable {host : Host} {snapshot : ContractSnapshot}

variable {site : Site} {place : Place} {key : DocumentKey}

theorem Located.wellFormed (hdistinct : DistinctMembers snapshot)
    (h : Located snapshot place key site) :
    WellFormed site.schema := by
  obtain ⟨endpoint, hendpoint, hs⟩ | ⟨name, component, hcomponent, hs⟩ := h.endpoint_or_component
  · exact hdistinct.1 endpoint hendpoint _ hs
  · exact hs ▸ hdistinct.2 _ (mem_of_lookup hcomponent)

theorem Located.references
    (h : Located snapshot place key site) {node : List (String × Json)} {ref : String}
    (hnode : SchemaPosition site.schema node) (href : refOf node = some ref) :
    ref ∈ references snapshot := by
  obtain ⟨endpoint, hendpoint, hs⟩ | ⟨name, component, hcomponent, hs⟩ := h.endpoint_or_component
  · exact mem_references_of_endpoint hendpoint hs hnode href
  · exact mem_references_of_component hcomponent (hs ▸ hnode) href

variable {document : Document} {schema : List (String × Json)} {endpointIds : List String}

theorem Located.covered (hsnapshot : snapshot.Accepted host) (hdistinct : DistinctMembers snapshot)
    (h : Located snapshot place key site) (hclosed : site.Closed document) :
    site.Covered snapshot document where
  isSchema := h.isApiSchema hsnapshot
  wellFormed := h.wellFormed hdistinct
  refs _ _ hnode href := h.references hnode href
  closed := hclosed

/-! ### Draft documents -/

/-- **Draft schemas weaken.**  A schema of a document, in either mode, is the export of a schema of
the snapshot; where no constraint is dropped below a negation or an exclusive choice, it accepts
what that schema accepts and rejects no more. -/
theorem draft_weakens {mode : CompileMode} {result : CompileResult} {document : Document}
    (hdistinct : DistinctMembers snapshot)
    (h : compileOpenApiSnapshot host snapshot mode = some result)
    (hdocument : result.document = some document) {key : DocumentKey} {schema : Json}
    (hschema : document.HasSchema key schema) : ∃ place site, Located snapshot place key site ∧
      schema = (site.export snapshot).value ∧ (site.Guarded snapshot .positive →
        ∀ vocabulary x,
          ((snapshotSpace snapshot).Accepts vocabulary site.schema x →
            (documentSpace document).Accepts vocabulary schema x) ∧
          ((documentSpace document).Rejects vocabulary schema x →
            (snapshotSpace snapshot).Rejects vocabulary site.schema x)) := by
  obtain ⟨hsnapshot, rfl⟩ := document_of_compileOpenApiSnapshot h hdocument
  obtain ⟨place, site, hlocated, ⟨rfl, -⟩, hclosed⟩ := sourced_of_hasSchema hsnapshot hschema
  refine ⟨place, site, hlocated, rfl, fun hguarded vocabulary x => ?_⟩
  have hallows (bottom : String → Json → Bool) (depth : ℕ) :=
    allows_export hsnapshot hdistinct vocabulary bottom depth
      (hlocated.covered hsnapshot hdistinct hclosed) hguarded x
  constructor
  · rintro ⟨depth, haccepts⟩
    exact ⟨depth, fun bottom => (hallows bottom depth).1 (by simp) (haccepts bottom)⟩
  · rintro ⟨depth, hrejects⟩
    refine ⟨depth, fun bottom => ?_⟩
    have hfalse := hrejects bottom
    rw [← Bool.not_eq_true] at hfalse ⊢
    exact fun htrue => hfalse ((hallows bottom depth).1 (by simp) htrue)

theorem located_sampleExport {schema : Json} {path method status mediaType : String}
    (h : Located (sampleExport schema) place (.content path method status mediaType) site) :
    site.schema = schema := by
  generalize hkey : DocumentKey.content path method status mediaType = key at h
  cases h with
  | parameter _ _ | requestBody _ _ | header _ _ _ _ | component _ => cases hkey
  | content hendpoint hresponse hstatus hitem =>
    obtain rfl := List.mem_singleton.mp (mem_of_getElem? hendpoint)
    obtain rfl := List.mem_singleton.mp (mem_of_getElem? hresponse)
    obtain rfl := List.mem_singleton.mp (mem_of_getElem? hitem)
    rfl

theorem distinctMembers_sampleExport {schema : Json} (h : WellFormed schema) :
    DistinctMembers (sampleExport schema) := by
  constructor
  · intro endpoint hendpoint s hs
    obtain rfl := List.mem_singleton.mp hendpoint
    rwa [List.mem_singleton.mp hs]
  · intro entry hentry
    cases hentry

/-- The draft of a response of one text. -/
theorem draft_weakens_enum : (sampleExport (.obj [("enum", .arr [.str "x"])])).Accepted .ascii ∧
    ∀ vocabulary, (documentSpace
      (compileDocument .ascii (sampleExport (.obj [("enum", .arr [.str "x"])]))).value).Accepts
        vocabulary (.obj []) (.str "x") := by
  have haccepted : (sampleExport (.obj [("enum", .arr [.str "x"])])).Accepted .ascii := by
    decide +kernel
  have hoperation : (compileDocument .ascii
      (sampleExport (.obj [("enum", .arr [.str "x"])]))).value.operation? "/a" "get" =
        some ⟨[], none, [("200", ⟨some [("application/json", .obj [])], none⟩)], []⟩ := by
    delta compileDocument compileGroups compileGroup compileSelected compileVariants
      compileEndpoints compileEndpoint reachableSchemas
    simp only [AdjacencyList.queueClosure_eq_queueWithin]
    decide +kernel
  obtain ⟨place, site, hlocated, -, hweakens⟩ := @draft_weakens .ascii _ .draft _ _
    (distinctMembers_sampleExport (isWellFormed_iff.mp (by decide)))
    (compileOpenApiSnapshot_eq_some_iff.mpr ⟨haccepted, rfl⟩) rfl
    (.content "/a" "get" "200" "application/json") (.obj [])
    ⟨_, hoperation, _, mem_singleton_self _, mem_singleton_self _⟩
  have hsite := located_sampleExport hlocated
  refine ⟨haccepted, fun vocabulary => ?_⟩
  refine (hweakens (.of_no_step fun next hstep => ?_) vocabulary (.str "x")).1
    ⟨0, fun bottom => ?_⟩
  · cases hstep with
    | child hschema hchild =>
      cases hsite ▸ hschema
      cases hchild with
      | property hmem => cases hmem
      | single hkey hlookup =>
        revert hkey hlookup
        simp only [mem_cons, not_mem_nil, or_false]
        rintro (rfl | rfl) hlookup <;> cases hlookup
      | several hkey hitem =>
        revert hkey hitem
        simp only [mem_cons, not_mem_nil, or_false]
        rintro (rfl | rfl | rfl | rfl) hitem <;> cases hitem
    | ref hschema href _ =>
      cases hsite ▸ hschema
      cases href
  · rw [hsite]
    rfl

/-- The snapshot of one endpoint that returns anything but one text. -/
def negatedEnum : ContractSnapshot :=
  sampleExport (.obj [("not", .obj [("enum", .arr [.str "x"])])])

/-- The draft of that snapshot does not weaken: its response accepts nothing. -/
theorem not_draft_weakens : ∃ result document schema,
    compileOpenApiSnapshot .ascii negatedEnum .draft = some result ∧
    result.document = some document ∧ DistinctMembers negatedEnum ∧
    document.HasSchema (.content "/a" "get" "200" "application/json") schema ∧
    ∀ place site,
      Located negatedEnum place (.content "/a" "get" "200" "application/json") site →
      ∀ vocabulary, (snapshotSpace negatedEnum).Accepts vocabulary site.schema .null ∧
        ¬ (documentSpace document).Accepts vocabulary schema .null := by
  have haccepted : negatedEnum.Accepted .ascii := by decide +kernel
  have hoperation : (compileDocument .ascii negatedEnum).value.operation? "/a" "get" =
      some ⟨[], none, [("200", ⟨some [("application/json",
        .obj [("not", .obj [])])], none⟩)], []⟩ := by
    delta compileDocument compileGroups compileGroup compileSelected compileVariants
      compileEndpoints compileEndpoint reachableSchemas
    simp only [AdjacencyList.queueClosure_eq_queueWithin]
    decide +kernel
  refine ⟨_, _, .obj [("not", .obj [])],
    compileOpenApiSnapshot_eq_some_iff.mpr ⟨haccepted, rfl⟩, rfl,
    distinctMembers_sampleExport (isWellFormed_iff.mp (by decide)),
    ⟨_, hoperation, _, mem_singleton_self _, mem_singleton_self _⟩,
    fun place site hlocated vocabulary => ⟨⟨0, fun bottom => ?_⟩, fun haccepts => ?_⟩⟩
  · rw [located_sampleExport hlocated]
    rfl
  · exact haccepts.not_rejects ⟨0, fun bottom => rfl⟩

/-! ### Strict documents -/

theorem silent_child (hsilent : (site.export snapshot).diagnostics = [])
    (hschema : site.schema = .obj schema) {tokens : List String}
    {c : Json} (hc : ChildAt schema tokens c) :
    ((site.child tokens c).export snapshot).diagnostics = [] := by
  rw [Site.export, hschema, diagnostics_exportSchema_obj, flatMap_eq_nil_iff] at hsilent
  cases hc with
  | @property name _ hmem =>
    unfold propertySchemas at hmem
    split at hmem
    · rename_i ps hlookup
      have hps := hsilent ("properties", .obj ps) (mem_of_lookup hlookup)
      rw [(exportKeyword_properties_site snapshot site schema ps).2, flatMap_eq_nil_iff] at hps
      exact hps (name, c) hmem
    · simp at hmem
  | @single key _ hkey hlookup =>
    have hs := hsilent (key, c) (mem_of_lookup hlookup)
    rwa [(exportKeyword_single_site snapshot site schema hkey c).2] at hs
  | @several key i _ hkey hitem =>
    unfold schemasUnder at hitem
    split at hitem
    · rename_i ss hlookup
      have hss := hsilent (key, .arr ss) (mem_of_lookup hlookup)
      rw [(exportKeyword_several_site snapshot site schema hkey ss).2, flatMap_eq_nil_iff] at hss
      exact hss (c, i) (List.mem_zipIdx_iff_getElem?.mpr hitem)
    · simp at hitem

theorem notMem_constraintKeys {key : String} (hkey : key ∈ keptKeywords) :
    constraintKeys.contains key = false := by
  revert hkey
  revert key
  decide

theorem keepsKeyword_of_silent {path factPath key : String} {value : Json}
    (hsilent : (exportKeyword snapshot endpointIds schema path factPath key value).diagnostics = []) :
    keepsKeyword snapshot endpointIds schema factPath key value = true := by
  by_cases hkey : key ∈ keptKeywords
  · unfold keepsKeyword
    split
    · simp [keptKeywords] at hkey
    · rw [notMem_constraintKeys hkey, Bool.not_false, Bool.or_true]
  · rw [exportKeyword_leaf _ _ _ _ _ (isAssertion_or_of_notMem hkey value)] at hsilent
    unfold exportLeaf at hsilent
    split at hsilent
    · simp [keptKeywords] at hkey
    · simpa [exportRequired, keepsKeyword] using hsilent
    · unfold keepsKeyword
      split
      · simp_all
      · split_ifs at hsilent with hformat hconstraint
        · simp [hformat]
        · simp at hsilent
        · simp_all

theorem keeps_of_silent (hsilent : (site.export snapshot).diagnostics = []) :
    site.Keeps snapshot := by
  intro schema hschema m hm
  rw [Site.export, hschema, diagnostics_exportSchema_obj, flatMap_eq_nil_iff] at hsilent
  exact keepsKeyword_of_silent (hsilent m hm)

theorem map_acceptedNames {factPath : String} {names : List Json}
    (hstrings : ∀ name ∈ names, ∃ text, name = .str text)
    (h : (acceptedNames snapshot endpointIds factPath names).length = names.length) :
    (acceptedNames snapshot endpointIds factPath names).map Json.str = names := by
  have htexts : (names.filterMap stringOf).map Json.str = names := by
    clear h
    induction names with
    | nil => rfl
    | cons name names ih =>
      rw [forall_mem_cons] at hstrings
      obtain ⟨⟨text, rfl⟩, hrest⟩ := hstrings
      have htext : stringOf (.str text) = some text := rfl
      rw [filterMap_cons_some htext, map_cons, ih hrest]
  have hlength : (names.filterMap stringOf).length = names.length := by
    rw [← length_map, htexts]
  rw [acceptedNames] at h ⊢
  have hall := List.length_filter_eq_length_iff.mp (h.trans hlength.symm)
  rw [List.filter_eq_self.mpr hall, htexts]

/-- Every keyword of the schema is exported: one with schemas below it with their exports, `required`
with the same names in order, and every other one as it is. -/
def Site.ExportsAll (snapshot : ContractSnapshot) (site : Site) : Prop :=
  ∀ schema, site.schema = .obj schema → ∃ exported,
    (site.export snapshot).value = .obj exported ∧
      ∀ m ∈ schema, m ≠ ("required", .arr []) → ∃ value, (m.1, value) ∈ exported ∧
        (m.1 ∈ keptKeywords ∨ value = m.2 ∨ ∃ names names',
          m.1 = "required" ∧ m.2 = .arr names ∧ value = .arr names' ∧ names'.Perm names)

theorem Site.Keeps.exportsAll (hschema : isApiSchema site.schema = true)
    (h : site.Keeps snapshot) : site.ExportsAll snapshot := by
  intro schema heq
  refine ⟨exportedMembers snapshot site.endpointIds schema site.path site.factPath, ?_,
    fun m hm hne => ?_⟩
  · rw [Site.export, heq, value_exportSchema_obj]
  · have hkeywords : areKeywords schema = true := by rwa [heq, isApiSchema] at hschema
    obtain ⟨key, value⟩ := m
    by_cases hkey : key ∈ keptKeywords
    · obtain ⟨exported, hexported⟩ := Option.isSome_iff_exists.mp
        (@isSome_exportKeyword snapshot site.endpointIds schema site.path site.factPath _ _
          (keptShape_of_mem hkeywords hm hkey))
      exact ⟨exported, mem_exportedMembers.mpr ⟨value, hm, hexported⟩, .inl hkey⟩
    · rcases @exportKeyword_of_keepsKeyword _ _ _ site.path _ _ hkey _ (h schema heq _ hm) with
        hvalue | ⟨names, hrequired, hnames, hlength, hvalue⟩
      · exact ⟨value, mem_exportedMembers.mpr ⟨value, hm, hvalue⟩, .inr (.inl rfl)⟩
      · obtain rfl : value = .arr names := hnames
        have hstrings := exists_text_of_required hkeywords hm hrequired
        rw [if_neg] at hvalue
        · refine ⟨_, mem_exportedMembers.mpr ⟨_, hm, hvalue⟩,
            .inr (.inr ⟨names, _, hrequired, rfl, rfl, ?_⟩)⟩
          have hperm := (sorted_perm id (acceptedNames snapshot site.endpointIds site.factPath
            names)).map Json.str
          rwa [map_acceptedNames hstrings hlength] at hperm
        · rw [List.isEmpty_iff]
          rintro rfl
          exact hne (by rw [show key = "required" from hrequired])

section Silence

variable (hsnapshot : snapshot.Accepted host) (hdistinct : DistinctMembers snapshot)
  (hsilent : (compileDocument host snapshot).diagnostics = [])
include hsnapshot hdistinct hsilent

omit hdistinct in
theorem silent_component {name : String} {component : SchemaComponent}
    (hcomponent : snapshot.schemas.lookup name = some component)
    (hlookup : ((compileDocument host snapshot).value.schemas.lookup name).isSome = true) :
    ((componentSite snapshot name component).export snapshot).diagnostics = [] := by
  obtain ⟨schema, hschema⟩ := Option.isSome_iff_exists.mp hlookup
  obtain ⟨place, site, hlocated, ⟨-, hyields⟩, -⟩ := sourced_component hsnapshot hschema
  cases hlocated with
  | component hother =>
    rw [hcomponent] at hother
    cases hother
    exact hyields hsilent

theorem silent_of_reaches {p q : Polarity} {site other : Site}
    (hcovered : site.Covered snapshot (compileDocument host snapshot).value)
    (hsite : (site.export snapshot).diagnostics = []) (hreaches : site.Reaches snapshot p q other) :
    other.Covered snapshot (compileDocument host snapshot).value ∧
      (other.export snapshot).diagnostics = [] := by
  unfold Site.Reaches at hreaches
  generalize hend : (q, other) = last at hreaches
  induction hreaches generalizing q other with
  | refl =>
    obtain ⟨-, rfl⟩ := Prod.mk.inj hend
    exact ⟨hcovered, hsite⟩
  | tail _ hstep ih =>
    subst hend
    cases hstep with
    | child hschema hchild =>
      obtain ⟨hcovered', hsite'⟩ := ih rfl
      exact ⟨hcovered'.child hschema hchild, silent_child hsite' hschema hchild⟩
    | ref hschema href hcomponent =>
      obtain ⟨hcovered', -⟩ := ih rfl
      have hsome := hcovered'.closed _ _ (hschema ▸ .root _) href
      exact ⟨.of_component hsnapshot hdistinct hcomponent hsome,
        silent_component hsnapshot hsilent hcomponent hsome⟩

end Silence

theorem silent_of_strict {result : CompileResult}
    (h : compileOpenApiSnapshot host snapshot .strict = some result)
    (hdocument : result.document = some document) :
    (compileDocument host snapshot).diagnostics = [] := by
  obtain ⟨-, rfl⟩ := compileOpenApiSnapshot_eq_some_iff.mp h
  simp only [compileSnapshot] at hdocument
  split_ifs at hdocument with hok
  exact List.isEmpty_iff.mp hok

/-- **Strict schemas mean the same.**  Every schema of a strict document is the export of a schema
of the snapshot, with the same meaning; in that schema, in the schemas below it and in the components
behind its references every keyword is exported. -/
theorem strict_preserves {result : CompileResult} {document : Document}
    (hdistinct : DistinctMembers snapshot)
    (h : compileOpenApiSnapshot host snapshot .strict = some result)
    (hdocument : result.document = some document) {key : DocumentKey} {schema : Json}
    (hschema : document.HasSchema key schema) : ∃ place site, Located snapshot place key site ∧
      schema = (site.export snapshot).value ∧
      (∀ vocabulary x,
        ((documentSpace document).Accepts vocabulary schema x ↔
          (snapshotSpace snapshot).Accepts vocabulary site.schema x) ∧
        ((documentSpace document).Rejects vocabulary schema x ↔
          (snapshotSpace snapshot).Rejects vocabulary site.schema x)) ∧
      ∀ p q other, site.Reaches snapshot p q other → other.ExportsAll snapshot := by
  have hsilent := silent_of_strict h hdocument
  obtain ⟨hsnapshot, rfl⟩ := document_of_compileOpenApiSnapshot h hdocument
  obtain ⟨place, site, hlocated, ⟨rfl, hyields⟩, hclosed⟩ := sourced_of_hasSchema hsnapshot hschema
  have hcovered := hlocated.covered hsnapshot hdistinct hclosed
  have hkeeps {p q : Polarity} {other : Site} (hreaches : site.Reaches snapshot p q other) :
      other.Keeps snapshot ∧ isApiSchema other.schema = true := by
    obtain ⟨hother, hsite⟩ :=
      silent_of_reaches hsnapshot hdistinct hsilent hcovered (hyields hsilent) hreaches
    exact ⟨keeps_of_silent hsite, hother.isSchema⟩
  refine ⟨place, site, hlocated, rfl, fun vocabulary x => ?_, fun p q other hreaches =>
    (hkeeps hreaches).1.exportsAll (hkeeps hreaches).2⟩
  have hsame (bottom : String → Json → Bool) (depth : ℕ) :
      (snapshotSpace snapshot).acceptsWithin vocabulary bottom depth site.schema x =
        (documentSpace (compileDocument host snapshot).value).acceptsWithin vocabulary bottom depth
          (site.export snapshot).value x :=
    Polarity.allows_mixed_iff.mp (allows_export hsnapshot hdistinct vocabulary bottom depth hcovered
      (fun _ _ hreaches _ => (hkeeps hreaches).1) x)
  simp only [SchemaSpace.Accepts, SchemaSpace.Rejects, hsame, and_self]

/-- The recursive component of a strict document means what it means in its snapshot. -/
theorem strict_preserves_recursiveComponent : ∃ document schema,
    document.HasSchema (.component "Node") schema ∧ ∃ place site,
      Located recursiveComponent place (.component "Node") site ∧ ∀ vocabulary x,
        ((documentSpace document).Accepts vocabulary schema x ↔
          (snapshotSpace recursiveComponent).Accepts vocabulary site.schema x) := by
  have haccepted : recursiveComponent.Accepted .ascii := by decide +kernel
  have hsilent : (compileDocument .ascii recursiveComponent).diagnostics = [] := by
    delta compileDocument compileGroups compileGroup compileSelected compileVariants
      compileEndpoints compileEndpoint reachableSchemas
    simp only [AdjacencyList.queueClosure_eq_queueWithin]
    decide +kernel
  have hused : "Node" ∈ usedSchemas (compileGroups .ascii recursiveComponent).value := by
    delta compileGroups compileGroup compileSelected compileVariants compileEndpoints
      compileEndpoint reachableSchemas
    simp only [AdjacencyList.queueClosure_eq_queueWithin]
    decide +kernel
  have hdistinct : DistinctMembers recursiveComponent := by
    constructor
    · intro endpoint hendpoint s hs
      obtain rfl := List.mem_singleton.mp hendpoint
      rw [List.mem_singleton.mp hs]
      exact isWellFormed_iff.mp (by decide)
    · intro entry hentry
      obtain rfl := List.mem_singleton.mp hentry
      exact isWellFormed_iff.mp (by decide)
  have hdocument : (compileSnapshot .ascii recursiveComponent .strict).document =
      some (compileDocument .ascii recursiveComponent).value := by
    simp [compileSnapshot, hsilent]
  have hschema := @lookup_schemas_compileDocument .ascii recursiveComponent "Node"
  rw [if_pos hused] at hschema
  obtain ⟨place, site, hlocated, -, hmeaning, -⟩ := @strict_preserves _ _ _ _ hdistinct
    (compileOpenApiSnapshot_eq_some_iff.mpr ⟨haccepted, rfl⟩) hdocument (.component "Node") _
    hschema
  exact ⟨_, _, hschema, place, site, hlocated, fun vocabulary x => (hmeaning vocabulary x).1⟩

end ApiTruth.OpenApi
