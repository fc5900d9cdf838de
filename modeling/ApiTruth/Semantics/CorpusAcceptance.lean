import ApiTruth.Semantics.CorpusService
import ApiTruth.Semantics.Isolation

/-!
# What the corpus service accepts of the kernel

The corpus service checks every result of the kernel with limits of its own.  Shapes, coverage,
provenance and cited evidence agree; the limits on texts do not.  A result is accepted exactly when
the name of the model and the texts of the answer stay within the narrower limits.

## Main definitions

* `TextsFit`, `DiscoveryFits` : the narrower limits, on the answer and the model of a discovery.

## Main results

* `copyJson_toJson` : a result is within the bounds of a copy.
* `groupResult_toJson_iff` : the exact condition.
-/

namespace ApiTruth.Semantics

open Checked Ir List Option OrderedMap

/-! ### Reading back -/

variable {names : List String}

theorem fields_self {members : List (String × Json)} (hnames : members.map Prod.fst = names)
    (h : names.Nodup) :
    fields names (.obj members) = some (.obj members) := by
  subst hnames
  have hmap : ((members.map Prod.fst).mapM fun name =>
      (members.lookup name).map fun v => (name, v)) = some members := by
    rw [mapM_eq_some_iff, forall₂_map_left_iff, forall₂_same]
    intro m hm
    rw [(lookup_eq_some_iff h).mpr hm]
    rfl
  simp only [fields]
  rw [if_pos ⟨by simp, fun m hm => List.mem_map_of_mem hm⟩, hmap]
  rfl

theorem texts?_stringArray (xs : List String) : texts? (stringArray xs) = some xs := by
  simp only [stringArray, texts?]
  rw [mapM_eq_some_iff, forall₂_map_left_iff, forall₂_same]
  exact fun x _ => rfl

theorem eq_stringArray_of_texts? {value : Json} {xs : List String} (h : texts? value = some xs) :
    value = stringArray xs := by
  unfold texts? at h
  split at h
  · next items =>
    rw [mapM_eq_some_iff] at h
    refine congrArg Json.arr ?_
    refine (List.map_id items).symm.trans (h.imp fun item text htext => ?_).map_eq
    split at htext
    · cases htext
      rfl
    · cases htext
  · cases h

theorem coverageAnalyzed_contextCoverage {requested analyzed : List String}
    (hrequested : requested.Nodup) (hanalyzed : analyzed.Nodup)
    (hsub : ∀ id ∈ analyzed, id ∈ requested) :
    coverageAnalyzed (some (contextCoverage requested analyzed).toJson) requested =
      some analyzed := by
  have hpartition := (contextCoverage_partition hrequested hanalyzed hsub).length_eq
  rw [length_append] at hpartition
  have hfields : fields ["status", "requestedEndpointIds", "analyzedEndpointIds",
      "omittedEndpointIds"] (contextCoverage requested analyzed).toJson =
      some (contextCoverage requested analyzed).toJson := fields_self rfl (by decide)
  unfold coverageAnalyzed
  refine Option.bind_eq_some_iff.mpr ⟨_, hfields, Option.bind_eq_some_iff.mpr ⟨analyzed,
    texts?_stringArray analyzed, Option.bind_eq_some_iff.mpr ⟨_, texts?_stringArray _, ?_⟩⟩⟩
  have hstatus : hasText (contextCoverage requested analyzed).toJson "status"
      (if (contextCoverage requested analyzed).omittedEndpointIds.isEmpty then "complete"
        else "partial") = true := beq_self_eq_true _
  have hequal : equal ((contextCoverage requested analyzed).toJson.member "requestedEndpointIds")
      (stringArray requested) = true := beq_self_eq_true _
  rw [if_pos]
  simp only [Bool.and_eq_true, decide_eq_true_eq, List.all_eq_true, beq_iff_eq, hstatus, and_true,
    hequal, true_and]
  refine ⟨⟨⟨⟨⟨hanalyzed, hrequested.filter _⟩, fun id hid => ?_⟩, fun id hid => ?_⟩, hpartition⟩,
    fun id hid => ?_⟩
  · exact List.contains_iff_mem.mpr (hsub id hid)
  · exact List.contains_iff_mem.mpr (mem_of_mem_filter hid)
  · simp only [contextCoverage, bne_iff_ne, ne_eq]
    by_cases hmem : id ∈ analyzed <;> simp [hmem, hid]

/-! ### Sizes -/

variable {text : String} {selector : Query.QuerySelector} {pin : Query.QueryPin}

theorem size_identifier (h : isIdentifier text = true) :
    (Json.str text).size.Le ⟨1, 128, 0, 5000, 0⟩ := by
  simp only [isIdentifier, Bool.and_eq_true, decide_eq_true_eq, List.all_eq_true] at h
  have hbytes : byteLength text = text.length := Json.byteLength_of_ascii fun c hc => by
    have hchar := h.2 c hc
    rcases Bool.or_eq_true_iff.mp hchar with halnum | hsymbol
    · have hrange := toNat_of_isAlphanum halnum
      omega
    · rw [contains_iff_mem] at hsymbol
      have hall : ("._:-".toList.all fun d => decide (d.toNat < 128)) = true := by decide
      exact of_decide_eq_true (List.all_eq_true.mp hall c hsymbol)
  constructor <;> simp only [Json.size] <;> omega

theorem size_text {max : ℕ} (h : isText text max = true) :
    (Json.str text).size.Le ⟨1, 3 * max, 0, 5000, 0⟩ := by
  simp only [isText, Bool.and_eq_true, decide_eq_true_eq] at h
  have hbytes := byteLength_le text
  constructor <;> simp only [Json.size] <;> omega

theorem size_version (h : Query.isVersion text = true) :
    (Json.str text).size.Le ⟨1, 19, 0, 5000, 0⟩ := by
  simp only [Query.isVersion, Bool.and_eq_true, decide_eq_true_eq] at h
  have hbytes : byteLength text = text.length := Json.byteLength_of_ascii fun c hc => by
    have hdigit := Decimal.isDigit_of_isCanonical h.1.1.1 c hc
    simp only [Char.isDigit, Bool.and_eq_true, decide_eq_true_eq] at hdigit
    exact lt_of_le_of_lt (UInt32.le_iff_toNat_le.mp hdigit.2) (by decide)
  constructor <;> simp only [Json.size] <;> omega

theorem size_endpointIds {ids : List String} (hids : ∀ id ∈ ids, isIdentifier id = true)
    (hlength : ids.length ≤ 16) : (stringArray ids).size.Le ⟨17, 2102, 1, 5000, 0⟩ :=
  Json.size_arr_le (s := ⟨1, 128, 0, 5000, 0⟩) (n := 16)
    (List.forall_mem_map.mpr fun id hid => size_identifier (hids id hid))
    (by simpa using hlength) (by decide)

theorem size_coverage {requested analyzed : List String}
    (hrequested : ∀ id ∈ requested, isIdentifier id = true) (hlength : requested.length ≤ 16)
    (hanalyzed : ∀ id ∈ analyzed, isIdentifier id = true) (hlength' : analyzed.length ≤ 16) :
    (contextCoverage requested analyzed).toJson.size.Le ⟨69, 8536, 2, 5000, 0⟩ := by
  have homitted : (stringArray (requested.filter fun id => !analyzed.contains id)).size.Le
      ⟨17, 2102, 1, 5000, 0⟩ :=
    size_endpointIds (fun id hid => hrequested id (mem_of_mem_filter hid))
      ((length_filter_le _ _).trans hlength)
  have hstatus : (Json.str (if (contextCoverage requested analyzed).isComplete then "complete"
      else "partial")).size.Le ⟨17, 2102, 1, 5000, 0⟩ := by
    split_ifs <;> constructor <;> decide
  refine Json.size_obj_le (s := ⟨17, 2102, 1, 5000, 0⟩) (n := 4) ?_ ?_ le_rfl (by decide)
  · simp only [forall_mem_cons]
    decide
  · simp only [forall_mem_cons]
    exact ⟨hstatus, size_endpointIds hrequested hlength, size_endpointIds hanalyzed hlength',
      homitted, by simp⟩

theorem size_optionalMember {α : Type*} {name : String} {encode : α → Json} {value : Option α}
    {s : Json.Size} (h : ∀ a, value = some a → (encode a).size.Le s) :
    ∀ m ∈ optionalMember name encode value, m.2.size.Le s := by
  cases value with
  | none => simp [optionalMember]
  | some a => simpa [optionalMember] using h a rfl

theorem name_optionalMember {α : Type*} {name : String} {encode : α → Json} {value : Option α}
    {m : String × Json} (h : m ∈ optionalMember name encode value) : m.1 = name := by
  cases value with
  | none => simp [optionalMember] at h
  | some a =>
    simp only [optionalMember, map_some, toList_some, mem_singleton] at h
    rw [h]

theorem length_optionalMember_le {α : Type*} (name : String) (encode : α → Json)
    (value : Option α) : (optionalMember name encode value).length ≤ 1 := by
  cases value <;> simp [optionalMember]

/-- Texts of the selector and the pin take at most this much. -/
def memberSize : Json.Size := ⟨1, 1536, 0, 5000, 0⟩

theorem size_memberSize_of_version {value : Option String} (h : value.any Query.isVersion = true) :
    ∀ text, value = some text → (Json.str text).size.Le memberSize := by
  rintro text rfl
  exact (size_version h).trans (by constructor <;> decide)

theorem size_selector
    (h : selectorMatches pin selector = true) (hrevision : isIdentifier pin.revision = true) :
    selector.toJson.size.Le ⟨7, 9408, 1, 5000, 0⟩ := by
  cases selector with
  | environment name version | branch name version =>
    simp only [selectorMatches, Bool.and_eq_true, beq_iff_eq] at h
    obtain ⟨⟨⟨⟨-, hname⟩, hversion⟩, -⟩, rfl⟩ := h
    refine Json.size_obj_le (s := memberSize) (n := 6) ?_ ?_ ?_ (by decide)
    · simp only [forall_mem_append, forall_mem_cons]
      refine ⟨by decide, fun m hm => ?_⟩
      rw [name_optionalMember hm]
      decide
    · simp only [forall_mem_append, forall_mem_cons]
      exact ⟨⟨by constructor <;> decide, size_text hname, by simp⟩,
        size_optionalMember (size_memberSize_of_version hversion)⟩
    · rw [length_append]
      exact (Nat.add_le_add_left (length_optionalMember_le _ _ _) _).trans (by simp)
  | revision value =>
    simp only [selectorMatches, Bool.and_eq_true, beq_iff_eq] at h
    obtain ⟨-, rfl⟩ := h
    refine Json.size_obj_le (s := memberSize) (n := 6) (by simp only [forall_mem_cons]; decide)
      ?_ (by simp) (by decide)
    simp only [forall_mem_cons]
    exact ⟨by constructor <;> decide,
      (size_identifier hrevision).trans (by constructor <;> decide), by simp⟩

theorem versions_of_selectorMatches (h : selectorMatches pin selector = true) :
    (pin.pointerVersion = none ∨ pin.pointerVersion.any Query.isVersion = true) ∧
      (pin.checkpointVersion = none ∨ pin.checkpointVersion.any Query.isVersion = true) := by
  cases selector <;>
    simp only [selectorMatches, Bool.and_eq_true, isNone_iff_eq_none] at h <;> tauto

theorem size_memberSize_of_pin {value : Option String}
    (h : value = none ∨ value.any Query.isVersion = true) :
    ∀ text, value = some text → (Json.str text).size.Le memberSize := by
  rcases h with rfl | h
  · simp
  · exact size_memberSize_of_version h

theorem size_pin (h : selectorMatches pin selector = true) (hselected : pin.selectedRevision = none)
    (hids : isIdentifier pin.snapshotId = true ∧ isIdentifier pin.revision = true ∧
      isIdentifier pin.configFingerprint = true) :
    pin.toJson.size.Le ⟨7, 9408, 1, 5000, 0⟩ := by
  obtain ⟨hpointer, hcheckpoint⟩ := versions_of_selectorMatches h
  have hid {text : String} (h : isIdentifier text = true) : (Json.str text).size.Le memberSize :=
    (size_identifier h).trans (by constructor <;> decide)
  unfold Query.QueryPin.toJson
  rw [hselected]
  refine Json.size_obj_le (s := memberSize) (n := 6) ?_ ?_ ?_ (by decide)
  · simp only [forall_mem_append, forall_mem_cons]
    refine ⟨⟨⟨by decide, fun m hm => ?_⟩, fun m hm => ?_⟩, by simp [optionalMember]⟩ <;>
    · rw [name_optionalMember hm]
      decide
  · simp only [forall_mem_append, forall_mem_cons]
    exact ⟨⟨⟨⟨hid hids.1, hid hids.2.1, hid hids.2.2, by simp⟩,
      size_optionalMember (size_memberSize_of_pin hpointer)⟩,
      size_optionalMember (size_memberSize_of_pin hcheckpoint)⟩, by simp [optionalMember]⟩
  · have hlength := length_optionalMember_le "pointerVersion" Json.str pin.pointerVersion
    have hlength' := length_optionalMember_le "checkpointVersion" Json.str pin.checkpointVersion
    simp only [length_append, length_cons, length_nil, optionalMember, map_none, toList_none] at *
    omega

theorem size_provenance {host : Host} {input : SemanticAnalysisInput} {model : String}
    (hvalid : IsValidInput host input model) (provider : SemanticProviderId)
    (promptVersion : SemanticPromptVersion) :
    (SemanticProvenance.toJson ⟨provider, model, promptVersion, input.selection.selector,
      input.pin⟩).size.Le ⟨36, 47200, 2, 5000, 0⟩ := by
  obtain ⟨hmodel, -, hselection, -⟩ := hvalid
  simp only [validateSelection, Bool.and_eq_true, isNone_iff_eq_none] at hselection
  obtain ⟨⟨⟨⟨⟨⟨⟨⟨⟨⟨⟨-, hselected⟩, hsnapshot⟩, hrevision⟩, hconfig⟩, -⟩, -⟩, -⟩, -⟩, -⟩, -⟩,
    hmatches⟩ := hselection
  refine Json.size_obj_le (s := ⟨7, 9408, 1, 5000, 0⟩) (n := 5) ?_ ?_ le_rfl (by decide)
  · simp only [forall_mem_cons]
    decide
  · simp only [forall_mem_cons]
    refine ⟨by cases provider <;> constructor <;> decide,
      (size_text hmodel).trans (by constructor <;> decide),
      by cases promptVersion <;> constructor <;> decide,
      size_selector hmatches hrevision, size_pin hmatches hselected ⟨hsnapshot, hrevision, hconfig⟩,
      by simp⟩

theorem size_le_items {j x : Json} (h : x ∈ j.items) : x.size.Le j.size := by
  cases j with
  | arr xs => exact Json.size_le_arr h
  | _ => simp [Json.items] at h

theorem size_suggestion {request : SemanticProviderRequest} {raw item : Json}
    {suggestion : SemanticSuggestion} (hraw : raw.size.bytes ≤ 16384)
    (hitem : item ∈ (raw.member "suggestions").items) (h : IsSuggestion request suggestion)
    (hreads : ReadsSuggestion item suggestion) :
    suggestion.toJson.size.Le ⟨13, 18800, 2, 5000, 0⟩ := by
  have hevidence := eq_stringArray_of_texts? hreads.evidenceIds
  have hbytes : (stringArray suggestion.evidenceIds).size.bytes ≤ 16384 := by
    rw [← hevidence]
    exact (((Json.size_member_le "evidenceIds" item).trans (size_le_items hitem)).trans
      (Json.size_member_le "suggestions" raw)).bytes.trans hraw
  have hsize : (stringArray suggestion.evidenceIds).size.Le ⟨9, 131102, 1, 5000, 0⟩ := by
    refine Json.size_arr_le (s := ⟨1, 16384, 0, 5000, 0⟩) (n := 8)
      (List.forall_mem_map.mpr fun id hid => ?_) (by simpa using h.count.2) (by decide)
    have hle := (Json.size_le_arr (List.mem_map_of_mem (f := Json.str) hid)).bytes.trans hbytes
    constructor <;> simp only [Json.size] at * <;> omega
  have hid := size_identifier h.endpointId
  have hintent := size_text (Bool.and_eq_true_iff.mp h.intent).1
  have hsummary := size_text (Bool.and_eq_true_iff.mp h.summary).1
  refine @Json.size_obj_le_sum _ 12 _ _ _ ?_ ?_ ?_ ?_ ?_ (by simp)
  · simp only [forall_mem_cons]
    decide
  · have h1 := hid.nodes
    have h2 := hintent.nodes
    have h3 := hsummary.nodes
    have h4 := hsize.nodes
    simp only [map_cons, map_nil, sum_cons, sum_nil] at *
    omega
  · have h1 := hid.bytes
    have h2 := hintent.bytes
    have h3 := hsummary.bytes
    simp only [map_cons, map_nil, sum_cons, sum_nil] at *
    omega
  · simp only [forall_mem_cons]
    exact ⟨hid.depth.trans (by decide), hintent.depth.trans (by decide),
      hsummary.depth.trans (by decide), hsize.depth, by simp⟩
  · simp only [forall_mem_cons]
    exact ⟨hid.keys, hintent.keys, hsummary.keys, hsize.keys, by simp⟩

theorem copyJson_of_le {j : Json} (h : j.size.Le ⟨50000, 4194304, 64, 10001, 0⟩) :
    copyJson j = some j := by
  refine Json.copyWithin_eq_some_iff.mpr ⟨rfl, ?_⟩
  simp only [Json.Size.isWithin, corpusLimits, Bool.and_eq_true, all_none, and_true]
  exact ⟨⟨⟨decide_eq_true h.bytes, decide_eq_true h.nodes⟩, decide_eq_true h.depth⟩,
    decide_eq_true h.keys⟩

/-! ### Answers to a valid input -/

section Answer

variable {host : Host} {input : SemanticAnalysisInput} {intentQuery : Option String}
  {request : SemanticProviderRequest} (hrequest : IsRequest host input intentQuery request)

include hrequest

theorem IsRequest.analyzed : (request.endpoints.map (·.endpointId)).Nodup ∧
    (∀ id ∈ request.endpoints.map (·.endpointId), id ∈ input.endpointIds) ∧
    request.endpoints.length ≤ 16 := by
  obtain ⟨sourceProfile, hendpoints⟩ := hrequest.endpoints
  have hgrounded := isGroundedProjection_preparedEndpoints hendpoints
  have hnodup := hgrounded.nodup hrequest.valid.2.1.nodup_ids.1
  have hsub : ∀ id ∈ request.endpoints.map (·.endpointId), id ∈ input.endpointIds := by
    intro id hid
    obtain ⟨context, hcontext, rfl⟩ := List.mem_map.mp hid
    exact (hgrounded.grounded context hcontext).selected
  refine ⟨hnodup, hsub, ?_⟩
  have hlength := (subperm_of_subset hnodup hsub).length_le
  rw [length_map] at hlength
  exact hlength.trans hrequest.valid.2.2.2.2.1

variable {output : SemanticOutput}

variable {raw : Json}

theorem IsRequest.size_members (hraw : raw.size.bytes ≤ 16384)
    (houtput : IsOutput request raw output) :
    (∀ m ∈ output.members, byteLength m.1 ≤ 32 ∧ m.2.size.Le ⟨209, 300854, 3, 5000, 0⟩) ∧
      output.members.length ≤ 3 := by
  obtain ⟨-, hsub, hlength⟩ := hrequest.analyzed
  have hids := hrequest.valid.2.2.2.2.2.2
  cases output with
  | suggestions suggestions =>
    obtain ⟨-, hsuggestions, -, hcount, -⟩ := houtput
    have hsize : (arrayOf SemanticSuggestion.toJson suggestions).size.Le
        ⟨209, 300854, 3, 5000, 0⟩ := by
      refine Json.size_arr_le (s := ⟨13, 18800, 2, 5000, 0⟩) (n := 16) (List.forall_mem_map.mpr fun
        suggestion hmem => ?_) (by simpa using hcount.trans hlength) (by decide)
      obtain ⟨item, hitem, hvalid, hreads⟩ := hsuggestions.exists_left hmem
      exact size_suggestion hraw hitem hvalid hreads
    refine ⟨?_, by simp [SemanticOutput.members]⟩
    simp only [SemanticOutput.members, forall_mem_cons]
    exact ⟨⟨by decide, by constructor <;> decide⟩, ⟨by decide, hsize⟩, by simp⟩
  | ambiguous candidates reason =>
    obtain ⟨-, -, hcount, -, hknown, -, hreason⟩ := houtput
    have hsize : (stringArray candidates).size.Le ⟨17, 2102, 1, 5000, 0⟩ := by
      refine size_endpointIds (fun id hid => ?_) (hcount.trans hlength)
      obtain ⟨context, hcontext, rfl⟩ := hknown id hid
      exact (hids _ (hsub _ (List.mem_map_of_mem hcontext))).1
    refine ⟨?_, by simp [SemanticOutput.members]⟩
    simp only [SemanticOutput.members, forall_mem_cons]
    exact ⟨⟨by decide, by constructor <;> decide⟩,
      ⟨by decide, hsize.trans (by constructor <;> decide)⟩,
      ⟨by decide, (size_text (Bool.and_eq_true_iff.mp hreason).1).trans
        (by constructor <;> decide)⟩, by simp⟩
  | noMatch reason =>
    obtain ⟨-, -, hreason⟩ := houtput
    refine ⟨?_, by simp [SemanticOutput.members]⟩
    simp only [SemanticOutput.members, forall_mem_cons]
    exact ⟨⟨by decide, by constructor <;> decide⟩,
      ⟨by decide, (size_text (Bool.and_eq_true_iff.mp hreason).1).trans
        (by constructor <;> decide)⟩, by simp⟩

theorem IsRequest.copyJson_toJson (hraw : raw.size.bytes ≤ 16384)
    (houtput : IsOutput request raw output) :
    copyJson (SemanticAnalysisResult.answered output ⟨request.provider, request.model,
        request.promptVersion, input.selection.selector, input.pin⟩
      (some (contextCoverage input.endpointIds
        (request.endpoints.map (·.endpointId))))).toJson =
      some (SemanticAnalysisResult.answered output ⟨request.provider, request.model,
        request.promptVersion, input.selection.selector, input.pin⟩
      (some (contextCoverage input.endpointIds
        (request.endpoints.map (·.endpointId))))).toJson := by
  obtain ⟨hmembers, hcount⟩ := hrequest.size_members hraw houtput
  obtain ⟨hnodup, hsub, hlength⟩ := hrequest.analyzed
  have hids := hrequest.valid.2.2.2.2.2.2
  have hcoverage : (contextCoverage input.endpointIds
      (request.endpoints.map (·.endpointId))).toJson.size.Le ⟨69, 8536, 2, 5000, 0⟩ :=
    size_coverage (fun id hid => (hids id hid).1) hrequest.valid.2.2.2.2.1
    (fun id hid => (hids id (hsub id hid)).1) (by simpa using hlength)
  have hprovenance := size_provenance hrequest.valid request.provider request.promptVersion
  refine copyJson_of_le (Json.Size.Le.trans (Json.size_obj_le (s := ⟨209, 300854, 3, 5000, 0⟩)
    (n := 8) ?_ ?_ ?_ (by decide)) (by constructor <;> decide))
  · simp only [forall_mem_append, forall_mem_cons, optionalMember, map_some, toList_some]
    exact ⟨⟨fun m hm => (hmembers m hm).1, by decide⟩, by decide⟩
  · simp only [forall_mem_append, forall_mem_cons, optionalMember, map_some, toList_some]
    exact ⟨⟨fun m hm => (hmembers m hm).2, by constructor <;> decide, by constructor <;> decide,
      by constructor <;> decide, hprovenance.trans (by constructor <;> decide), by simp⟩,
      hcoverage.trans (by constructor <;> decide), by simp⟩
  · simp only [length_append, length_cons, length_nil, optionalMember, map_some, toList_some]
    omega

end Answer

/-! ### Texts -/

/-- The text is free of what the corpus layer excludes. -/
def IsCorpusText (text : String) : Prop := corpusPattern.test text = false

theorem safeText_iff {max max' : ℕ} (h : isText text max' = true) :
    safeText text max = true ↔ unitLength text ≤ max ∧ IsCorpusText text := by
  simp only [isText, Bool.and_eq_true, Bool.not_eq_true', decide_eq_true_eq] at h
  have hpos : 0 < unitLength text := by
    rcases Nat.eq_zero_or_pos (unitLength text) with hzero | hpos
    · have hnil : text.toList = [] := by
        by_contra hne
        obtain ⟨c, cs, hcons⟩ := exists_cons_of_ne_nil hne
        simp only [unitLength, hcons, map_cons, sum_cons] at hzero
        split_ifs at hzero <;> omega
      simp [isBlank, hnil] at h
    · exact hpos
  simp [safeText, hpos, h.2, IsCorpusText]

/-- The texts of a provider's answer stay within the limits of the corpus layer. -/
structure TextsFit (raw : Json) : Prop where
  intents : ∀ item ∈ (raw.member "suggestions").items, ∀ text,
    item.member "intent" = .str text → IsCorpusText text
  summaries : ∀ item ∈ (raw.member "suggestions").items, ∀ text,
    item.member "summary" = .str text → unitLength text ≤ 300 ∧ IsCorpusText text
  reason : ∀ text, raw.member "reason" = .str text → IsCorpusText text

/-- If the model is asked, its name and the texts of its answer stay within the limits of the corpus
layer. -/
def DiscoveryFits (host : Host) (input : SemanticAnalysisInput) (intentQuery : String)
    (providerPort : SemanticProviderRequest → ProviderOutcome) : Prop :=
  ∀ request, semanticRequest host input (some intentQuery) = .ok (some request) →
    IsCorpusText request.model ∧ ∀ raw, providerPort request = .resolved raw → TextsFit raw

theorem member_eq_null_of_isPlain {name : String} {value : Json} (h : isPlain names value = true)
    (hname : name ∉ names) : value.member name = .null := by
  cases value with
  | obj members =>
    simp only [isPlain, Bool.and_eq_true, List.all_eq_true, contains_iff_mem] at h
    simp only [Json.member]
    cases hlookup : members.lookup name with
    | none => rfl
    | some v => exact absurd (h.2 _ (Json.mem_of_lookup hlookup)) hname
  | _ => rfl

variable {reason : String}

theorem textsFit_of_reason (hplain : isPlain names raw = true) (hnames : "suggestions" ∉ names)
    (hreason : raw.member "reason" = .str reason) :
    TextsFit raw ↔ IsCorpusText reason := by
  have hnone : (raw.member "suggestions").items = [] := by
    rw [member_eq_null_of_isPlain hplain hnames]
    rfl
  refine ⟨fun hfits => hfits.reason _ hreason, fun hfits => ⟨by simp [hnone], by simp [hnone],
    fun text htext => ?_⟩⟩
  rw [hreason] at htext
  exact Json.str.inj htext ▸ hfits

theorem textsFit_iff {request : SemanticProviderRequest} {output : SemanticOutput}
    (h : IsOutput request raw output) : TextsFit raw ↔
      match output with
      | .suggestions suggestions => ∀ suggestion ∈ suggestions, IsCorpusText suggestion.intent ∧
          unitLength suggestion.summary ≤ 300 ∧ IsCorpusText suggestion.summary
      | .ambiguous _ reason => IsCorpusText reason
      | .noMatch reason => IsCorpusText reason := by
  cases output with
  | suggestions suggestions =>
    obtain ⟨hplain, hsuggestions, -⟩ := h
    constructor
    · intro hfits suggestion hmem
      obtain ⟨item, hitem, -, hreads⟩ := hsuggestions.exists_left hmem
      exact ⟨hfits.intents item hitem _ hreads.intent, hfits.summaries item hitem _ hreads.summary⟩
    · intro hfits
      refine ⟨fun item hitem text htext => ?_, fun item hitem text htext => ?_,
        fun text htext => ?_⟩
      · obtain ⟨suggestion, hmem, -, hreads⟩ := hsuggestions.exists_right hitem
        rw [hreads.intent] at htext
        exact Json.str.inj htext ▸ (hfits suggestion hmem).1
      · obtain ⟨suggestion, hmem, -, hreads⟩ := hsuggestions.exists_right hitem
        rw [hreads.summary] at htext
        exact Json.str.inj htext ▸ (hfits suggestion hmem).2
      · rw [member_eq_null_of_isPlain hplain (by decide)] at htext
        cases htext
  | ambiguous candidates reason =>
    obtain ⟨hplain, -, -, -, -, hreason, -⟩ := h
    exact textsFit_of_reason hplain (by decide) hreason
  | noMatch reason =>
    obtain ⟨hplain, hreason, -⟩ := h
    exact textsFit_of_reason hplain (by decide) hreason

/-! ### Checks of an answer -/

/-- The result of an answer, as the corpus layer receives it. -/
def answerJson (output : SemanticOutput) (provenance : SemanticProvenance)
    (coverage : SemanticContextCoverage) : Json :=
  (SemanticAnalysisResult.answered output provenance (some coverage)).toJson

section Checks

variable {output : SemanticOutput} {provenance : SemanticProvenance} {group : Group}
  {analyzed : List String}

theorem lookup_contextCoverage (coverage : SemanticContextCoverage) :
    (answerJson output provenance coverage).members.lookup "contextCoverage" =
      some coverage.toJson := by
  cases output <;> rfl

theorem coverageAnalyzed_answerJson (hnodup : group.endpointIds.Nodup) (hanalyzed : analyzed.Nodup)
    (hsub : ∀ id ∈ analyzed, id ∈ group.endpointIds) :
    coverageAnalyzed ((answerJson output provenance
      (contextCoverage group.endpointIds analyzed)).members.lookup "contextCoverage")
      group.endpointIds = some analyzed := by
  rw [lookup_contextCoverage, coverageAnalyzed_contextCoverage hnodup hanalyzed hsub]

theorem common_answerJson (hnodup : group.endpointIds.Nodup) (hanalyzed : analyzed.Nodup)
    (hsub : ∀ id ∈ analyzed, id ∈ group.endpointIds) (hne : analyzed ≠ [])
    (hpin : provenance.pin = group.pin) (hselector : provenance.selector = group.selector.selector)
    (hversion : provenance.promptVersion ≠ .grounding)
    (hmodel : isText provenance.model 128 = true) :
    common (answerJson output provenance (contextCoverage group.endpointIds analyzed)) group =
      true ↔ IsCorpusText provenance.model := by
  have hfields : fields ["provider", "model", "promptVersion", "selector", "pin"]
      ((answerJson output provenance (contextCoverage group.endpointIds analyzed)).member
        "provenance") = some provenance.toJson := by
    cases output <;> exact fields_self rfl (by decide)
  have hliterals : hasText (answerJson output provenance
        (contextCoverage group.endpointIds analyzed)) "verification" "inferred" = true ∧
      hasText (answerJson output provenance (contextCoverage group.endpointIds analyzed))
        "review" "unreviewed" = true ∧
      ((answerJson output provenance (contextCoverage group.endpointIds analyzed)).member
        "normative" == .bool false) = true := by
    cases output <;> exact ⟨beq_self_eq_true _, beq_self_eq_true _, beq_self_eq_true _⟩
  have hprovider : ["openai", "gemini", "claude"].contains
      (coerce (provenance.toJson.member "provider")) = true := by
    have hread : provenance.toJson.member "provider" = .str provenance.provider.text := rfl
    rw [hread]
    cases provenance.provider <;> decide
  have hprompt : ["semantic-discovery-1", "semantic-discovery-source-1"].contains
      (coerce (provenance.toJson.member "promptVersion")) = true := by
    have hread : provenance.toJson.member "promptVersion" =
      .str provenance.promptVersion.text := rfl
    rw [hread]
    cases hcase : provenance.promptVersion with
    | grounding => exact absurd hcase hversion
    | discovery => decide
    | discoverySource => decide
  have hequal : equal (provenance.toJson.member "pin") group.pin.toJson = true ∧
      equal (provenance.toJson.member "selector") group.selector.selector.toJson = true := by
    rw [← hpin, ← hselector]
    exact ⟨beq_self_eq_true _, beq_self_eq_true _⟩
  have htext : isSafeText (provenance.toJson.member "model") 128 =
      safeText provenance.model 128 := rfl
  have hunits : unitLength provenance.model ≤ 128 := by
    simp only [isText, Bool.and_eq_true, decide_eq_true_eq] at hmodel
    exact hmodel.1.2
  simp only [common, coverageAnalyzed_answerJson hnodup hanalyzed hsub, any_some, hfields,
    hliterals, hprovider, hprompt, hequal, htext, Bool.and_true, Bool.true_and]
  rw [Bool.and_eq_true, safeText_iff hmodel]
  simp [hne, hunits]

theorem allowedEvidence_of_isGrounded {snapshot : ContractSnapshot} {endpointId id : String}
    {document : SemanticDocument} (hservice : group.serviceId = snapshot.service.serviceId)
    (hendpoint : endpointId ∈ group.endpointIds)
    (hgrounded : IsGrounded snapshot endpointId document) (hid : id ∈ document.evidenceIds) :
    ((allowedEvidence group snapshot).get? endpointId).any (fun known => known.contains id) =
      true := by
  obtain ⟨claims, -, hclaims, hids⟩ := hgrounded
  obtain ⟨claim, hclaim, hmem⟩ := (hids id).mp hid
  obtain ⟨item, hitem, rfl, hcovers⟩ := (hclaims claim hclaim).1.evidence id hmem
  have hallowed : isAllowedEvidence group snapshot endpointId item = true := by
    have hlocal := hcovers.isLocal
    simp only [isLocalEvidence, Bool.and_eq_true, beq_iff_eq] at hlocal
    obtain ⟨⟨⟨⟨hsource, hversion⟩, hscope⟩, hsnapshot⟩, hrevision⟩ := hlocal
    rcases hcovers.origin with ⟨hkind, hmethod, hendpoint⟩ | ⟨hkind, hmethod, hendpoint⟩ |
      ⟨hkind, hmethod | hmethod, hendpoint⟩ <;>
    simp [isAllowedEvidence, hsource, hversion, hscope, hservice, hsnapshot, hrevision, hkind,
      hmethod, hendpoint]
  have hkeys : endpointId ∈ (allowedEvidence group snapshot).keys := by
    rw [allowedEvidence, mem_keys_ofEntries, List.map_map]
    exact List.mem_map.mpr ⟨endpointId, hendpoint, rfl⟩
  obtain ⟨known, hknown⟩ := Option.isSome_iff_exists.mp ((get?_isSome_iff _ _).mpr hkeys)
  have hentry := mem_of_mem_ofEntries ((get?_eq_some_iff _).mp hknown)
  obtain ⟨other, -, heq⟩ := List.mem_map.mp hentry
  cases heq
  rw [hknown]
  exact List.contains_iff_mem.mpr (List.mem_map_of_mem (List.mem_filter.mpr ⟨hitem, hallowed⟩))

theorem validSuggestion_toJson {request : SemanticProviderRequest} {suggestion : SemanticSuggestion}
    {allowed : OrderedMap String (List String)} (h : IsSuggestion request suggestion)
    (hgroup : suggestion.endpointId ∈ group.endpointIds) (hanalyzed : suggestion.endpointId ∈ analyzed)
    (hallowed : ∀ id ∈ suggestion.evidenceIds,
      (allowed.get? suggestion.endpointId).any (fun known => known.contains id) = true) :
    validSuggestion group allowed analyzed suggestion.toJson = true ↔
      IsCorpusText suggestion.intent ∧ unitLength suggestion.summary ≤ 300 ∧
        IsCorpusText suggestion.summary := by
  have hfields : fields ["endpointId", "intent", "summary", "evidenceIds"] suggestion.toJson =
      some suggestion.toJson := fields_self rfl (by decide)
  have hendpoint : coerce (suggestion.toJson.member "endpointId") = suggestion.endpointId := rfl
  have hintent : isSafeText (suggestion.toJson.member "intent") 120 =
      safeText suggestion.intent 120 := rfl
  have hsummary : isSafeText (suggestion.toJson.member "summary") 300 =
      safeText suggestion.summary 300 := rfl
  have hids : texts? (suggestion.toJson.member "evidenceIds") = some suggestion.evidenceIds :=
    texts?_stringArray _
  have hintentText := (Bool.and_eq_true_iff.mp h.intent).1
  have hunits : unitLength suggestion.intent ≤ 120 := by
    simp only [isText, Bool.and_eq_true, decide_eq_true_eq] at hintentText
    exact hintentText.1.2
  have hevidence : (suggestion.evidenceIds.all fun id =>
      (allowed.get? suggestion.endpointId).any fun known => known.contains id) = true :=
    List.all_eq_true.mpr hallowed
  simp only [validSuggestion, hfields, any_some, hendpoint, hintent, hsummary, hids,
    List.contains_iff_mem.mpr hgroup, List.contains_iff_mem.mpr hanalyzed, h.count.1, h.count.2,
    h.nodup, hevidence, decide_true, Bool.and_true, Bool.true_and]
  rw [Bool.and_eq_true, safeText_iff hintentText,
    safeText_iff (Bool.and_eq_true_iff.mp h.summary).1]
  simp [hunits]

end Checks

/-! ### Acceptance -/

section Acceptance

variable {host : Host} {input : SemanticAnalysisInput} {intentQuery : Option String}
  {request : SemanticProviderRequest} {group : Group} {raw : Json} {output : SemanticOutput}

def answerProvenance (input : SemanticAnalysisInput) (request : SemanticProviderRequest) :
    SemanticProvenance :=
  ⟨request.provider, request.model, request.promptVersion, input.selection.selector, input.pin⟩

theorem ite_copyJson_eq_some {value : Json} {check : Bool} (hcopy : copyJson value = some value) :
    (if check then copyJson value else none) = some value ↔ check = true := by
  cases check <;> simp [hcopy]

theorem unitLength_le_of_isOutputText {max : ℕ} (h : isOutputText text max = true) :
    isText text max = true ∧ unitLength text ≤ max := by
  have htext := (Bool.and_eq_true_iff.mp h).1
  refine ⟨htext, ?_⟩
  simp only [isText, Bool.and_eq_true, decide_eq_true_eq] at htext
  exact htext.1.2

section Kinds

variable {provenance : SemanticProvenance} {coverage : SemanticContextCoverage}
  {allowed : OrderedMap String (List String)} {answer : Json}

theorem validDiscoveryResult_noMatch
    (hanswer : answer = answerJson (.noMatch reason) provenance coverage)
    (hreason : isOutputText reason 300 = true) (hcopy : copyJson answer = some answer) :
    validDiscoveryResult answer group allowed = some answer ↔
      common answer group = true ∧ IsCorpusText reason := by
  obtain ⟨htext, hunits⟩ := unitLength_le_of_isOutputText hreason
  have hstatus (text : String) : hasText answer "status" text =
      (Json.str "no_match" == Json.str text) := hanswer ▸ rfl
  have hnames : answerNames answer ["reason"] = ["status", "reason", "verification", "review",
    "normative", "provenance", "contextCoverage"] := hanswer ▸ rfl
  have hfields : fields (answerNames answer ["reason"]) answer = some answer := by
    rw [hnames, hanswer]
    exact fields_self rfl (by decide)
  have hread : isSafeText (answer.member "reason") 300 = safeText reason 300 := hanswer ▸ rfl
  unfold validDiscoveryResult
  simp only [hstatus]
  rw [if_neg (by decide), if_neg (by decide), if_neg (by decide), if_neg (by decide),
    if_pos (by decide), hfields]
  simp only [bind_eq_bind, bind_some]
  rw [ite_copyJson_eq_some hcopy, hread, Bool.and_eq_true, safeText_iff htext, and_comm]
  simp [hunits]

theorem validDiscoveryResult_ambiguous {candidates : List String}
    (hanswer : answer = answerJson (.ambiguous candidates reason) provenance coverage)
    (hreason : isOutputText reason 300 = true)
    (hcount : 2 ≤ candidates.length ∧ candidates.length ≤ 16) (hnodup : candidates.Nodup)
    (hgroup : ∀ id ∈ candidates, id ∈ group.endpointIds)
    (hanalyzed : ∀ id ∈ candidates, id ∈ analyzedOf answer group)
    (hcopy : copyJson answer = some answer) :
    validDiscoveryResult answer group allowed = some answer ↔
      common answer group = true ∧ IsCorpusText reason := by
  obtain ⟨htext, hunits⟩ := unitLength_le_of_isOutputText hreason
  have hstatus (text : String) : hasText answer "status" text =
      (Json.str "ambiguous" == Json.str text) := hanswer ▸ rfl
  have hnames : answerNames answer ["candidateEndpointIds", "reason"] = ["status",
    "candidateEndpointIds", "reason", "verification", "review", "normative", "provenance", "contextCoverage"] := hanswer ▸ rfl
  have hfields : fields (answerNames answer ["candidateEndpointIds", "reason"]) answer =
      some answer := by
    rw [hnames, hanswer]
    exact fields_self rfl (by decide)
  have hread : isSafeText (answer.member "reason") 300 = safeText reason 300 := hanswer ▸ rfl
  have hcandidates : texts? (answer.member "candidateEndpointIds") = some candidates :=
    hanswer ▸ texts?_stringArray candidates
  have hknown : (candidates.all fun id => group.endpointIds.contains id) = true :=
    List.all_eq_true.mpr fun id hid => List.contains_iff_mem.mpr (hgroup id hid)
  have hseen : (candidates.all fun id => (analyzedOf answer group).contains id) = true :=
    List.all_eq_true.mpr fun id hid => List.contains_iff_mem.mpr (hanalyzed id hid)
  unfold validDiscoveryResult
  simp only [hstatus]
  rw [if_neg (by decide), if_neg (by decide), if_neg (by decide), if_pos (by decide), hfields]
  simp only [bind_eq_bind, bind_some, hcandidates]
  rw [ite_copyJson_eq_some hcopy]
  simp only [hread, hcount, hnodup, hknown, hseen, decide_true, Bool.and_true, Bool.true_and]
  rw [Bool.and_eq_true, safeText_iff htext, and_comm]
  simp [hunits]

theorem validDiscoveryResult_suggestions {suggestions : List SemanticSuggestion}
    (hanswer : answer = answerJson (.suggestions suggestions) provenance coverage)
    (hcount : 1 ≤ suggestions.length ∧ suggestions.length ≤ 16)
    (hnodup : (suggestions.map SemanticSuggestion.endpointId).Nodup)
    (hcopy : copyJson answer = some answer) :
    validDiscoveryResult answer group allowed = some answer ↔
      common answer group = true ∧ ∀ suggestion ∈ suggestions,
        validSuggestion group allowed (analyzedOf answer group) suggestion.toJson = true := by
  have hstatus (text : String) : hasText answer "status" text =
      (Json.str "suggestions" == Json.str text) := hanswer ▸ rfl
  have hnames : answerNames answer ["suggestions"] = ["status", "suggestions", "verification", "review",
    "normative", "provenance", "contextCoverage"] := hanswer ▸ rfl
  have hfields : fields (answerNames answer ["suggestions"]) answer = some answer := by
    rw [hnames, hanswer]
    exact fields_self rfl (by decide)
  have hitems : (answer.member "suggestions").items =
      suggestions.map SemanticSuggestion.toJson := hanswer ▸ rfl
  have hdistinct : (((suggestions.map SemanticSuggestion.toJson).map
      (Json.member "endpointId")).filter isPrimitive).Nodup := by
    have hids : (suggestions.map SemanticSuggestion.toJson).map (Json.member "endpointId") =
        (suggestions.map SemanticSuggestion.endpointId).map Json.str := by
      rw [List.map_map, List.map_map]
      rfl
    rw [hids]
    exact (hnodup.map fun _ _ => Json.str.inj).filter _
  unfold validDiscoveryResult
  simp only [hstatus]
  rw [if_neg (by decide), if_neg (by decide), if_pos (by decide), hfields]
  simp only [bind_eq_bind, bind_some]
  rw [ite_copyJson_eq_some hcopy]
  simp only [hitems, hdistinct, length_map, hcount, decide_true, Bool.and_true, Bool.true_and]
  rw [Bool.and_eq_true, List.all_map, List.all_eq_true]
  rfl

end Kinds

/-- The answer to the request of a group is accepted exactly when its texts and the name of the model
stay within the limits of the corpus layer. -/
theorem validDiscoveryResult_answerJson {answer : Json}
    (hanswer : answer = answerJson output (answerProvenance input request)
      (contextCoverage group.endpointIds (request.endpoints.map (·.endpointId))))
    (hrequest : IsRequest host input intentQuery request)
    (hdiscovery : intentQuery.isSome = true) (hids : input.endpointIds = group.endpointIds)
    (hpin : input.pin = group.pin) (hselection : input.selection = group.selector)
    (hraw : raw.size.isWithin outputLimits = true) (houtput : IsOutput request raw output) :
    validDiscoveryResult answer group (allowedEvidence group input.snapshot) = some answer ↔
      IsCorpusText request.model ∧ TextsFit raw := by
  obtain ⟨hnodup, hsub, hlength⟩ := hrequest.analyzed
  have hvalid := hrequest.valid
  have hrequested : group.endpointIds.Nodup := hids ▸ hvalid.2.2.2.2.2.1
  rw [hids] at hsub
  have hbytes : raw.size.bytes ≤ 16384 := by
    simp only [Json.Size.isWithin, outputLimits, Bool.and_eq_true] at hraw
    exact of_decide_eq_true hraw.1.1.1.1
  have hcopy : copyJson answer = some answer := by
    rw [hanswer, ← hids]
    exact hrequest.copyJson_toJson hbytes houtput
  have hcommon : common answer group = true ↔ IsCorpusText request.model := by
    rw [hanswer]
    exact common_answerJson hrequested hnodup hsub (by simpa using hrequest.ne_nil) hpin
      (congrArg Query.QuerySelection.selector hselection) (hrequest.discovery hdiscovery) hvalid.1
  have hanalyzed : analyzedOf answer group = request.endpoints.map (·.endpointId) := by
    rw [hanswer, analyzedOf, coverageAnalyzed_answerJson hrequested hnodup hsub]
    rfl
  have hservice : group.serviceId = input.snapshot.service.serviceId := by
    have hvalidated := hvalid.2.2.1
    simp only [validateSelection, Bool.and_eq_true, beq_iff_eq] at hvalidated
    rw [← group.serviceId_eq, ← hselection]
    exact hvalidated.1.1.1.1.2
  rw [textsFit_iff houtput, ← hcommon]
  cases output with
  | suggestions suggestions =>
    obtain ⟨-, hsuggestions, hcount, hmax, hdistinct⟩ := houtput
    rw [validDiscoveryResult_suggestions hanswer ⟨hcount, hmax.trans hlength⟩ hdistinct hcopy, hanalyzed]
    refine and_congr_right fun _ => forall₂_congr fun suggestion hmem => ?_
    obtain ⟨item, -, hchecks, -⟩ := hsuggestions.exists_left hmem
    have hendpoint : suggestion.endpointId ∈ request.endpoints.map (·.endpointId) := by
      obtain ⟨id, hid⟩ := exists_mem_of_length_pos hchecks.count.1
      obtain ⟨context, hcontext, hcontextId, -⟩ := hchecks.evidence id hid
      exact List.mem_map.mpr ⟨context, hcontext, hcontextId⟩
    refine validSuggestion_toJson hchecks (hsub _ hendpoint) hendpoint fun id hid => ?_
    obtain ⟨context, hcontext, hcontextId, document, hdocument, hcited⟩ := hchecks.evidence id hid
    obtain ⟨sourceProfile, hendpoints⟩ := hrequest.endpoints
    have hgrounded := ((isGroundedProjection_preparedEndpoints hendpoints).grounded
      context hcontext).grounded document hdocument
    rw [hcontextId] at hgrounded
    exact allowedEvidence_of_isGrounded hservice (hsub _ hendpoint) hgrounded hcited
  | ambiguous candidates reason =>
    obtain ⟨-, hcount, hmax, hdistinct, hknown, -, hreason⟩ := houtput
    have hendpoints : ∀ id ∈ candidates, id ∈ request.endpoints.map (·.endpointId) := by
      intro id hid
      obtain ⟨context, hcontext, hcontextId⟩ := hknown id hid
      exact List.mem_map.mpr ⟨context, hcontext, hcontextId⟩
    exact validDiscoveryResult_ambiguous hanswer hreason ⟨hcount, hmax.trans hlength⟩ hdistinct
      (fun id hid => hsub id (hendpoints id hid))
      (fun id hid => by rw [hanalyzed]; exact hendpoints id hid) hcopy
  | noMatch reason =>
    obtain ⟨-, -, hreason⟩ := houtput
    exact validDiscoveryResult_noMatch hanswer hreason hcopy

theorem groupResult_disabled (group : Group) (snapshot : ContractSnapshot) :
    groupResult group snapshot SemanticAnalysisResult.disabled.toJson =
      some SemanticAnalysisResult.disabled.toJson := by
  have hcopy : copyJson SemanticAnalysisResult.disabled.toJson =
      some SemanticAnalysisResult.disabled.toJson := copyJson_of_le (by constructor <;> decide)
  have hfields : fields ["status"] SemanticAnalysisResult.disabled.toJson =
      some SemanticAnalysisResult.disabled.toJson := fields_self rfl (by decide)
  exact hcopy

theorem groupResult_noContext {model : String} (hvalid : IsValidInput host input model)
    (hids : input.endpointIds = group.endpointIds) (snapshot : ContractSnapshot) :
    groupResult group snapshot (SemanticAnalysisResult.noContext
        (some (contextCoverage input.endpointIds []))).toJson =
      some (SemanticAnalysisResult.noContext
        (some (contextCoverage input.endpointIds []))).toJson := by
  have hcoverage : (contextCoverage input.endpointIds []).toJson.size.Le ⟨69, 8536, 2, 5000, 0⟩ :=
    size_coverage (fun id hid => (hvalid.2.2.2.2.2.2 id hid).1) hvalid.2.2.2.2.1 (by simp) (by simp)
  obtain ⟨answer, hanswer⟩ : ∃ answer, answer = (SemanticAnalysisResult.noContext
      (some (contextCoverage input.endpointIds []))).toJson := ⟨_, rfl⟩
  rw [← hanswer]
  have hcopy : copyJson answer = some answer := by
    rw [hanswer]
    refine copyJson_of_le (Json.Size.Le.trans (Json.size_obj_le (s := ⟨69, 8536, 2, 5000, 0⟩)
      (n := 2) ?_ ?_ (by simp [optionalMember]) (by decide)) (by constructor <;> decide))
    · simp only [forall_mem_append, forall_mem_cons, optionalMember, map_some, toList_some]
      exact ⟨by decide, by decide⟩
    · simp only [forall_mem_append, forall_mem_cons, optionalMember, map_some, toList_some]
      exact ⟨⟨by constructor <;> decide, by simp⟩, hcoverage, by simp⟩
  have hfields : fields ["status", "contextCoverage"] answer = some answer :=
    hanswer ▸ fields_self rfl (by decide)
  have hlookup : answer.members.lookup "contextCoverage" =
    some (contextCoverage input.endpointIds []).toJson := hanswer ▸ rfl
  have hstatus (text : String) : hasText answer "status" text =
    (Json.str "no_context" == Json.str text) := hanswer ▸ rfl
  have hread := coverageAnalyzed_contextCoverage hvalid.2.2.2.2.2.1 nodup_nil (by simp)
  rw [hids] at hread
  rw [groupResult, hcopy, bind_some]
  unfold validDiscoveryResult
  simp only [hstatus]
  rw [if_neg (by decide), if_pos (by decide), hlookup, isSome_some, if_pos rfl, hfields]
  simp only [bind_eq_bind, bind_some]
  rw [hlookup, hids, hread, ite_copyJson_eq_some hcopy]
  rfl

end Acceptance

theorem groupResult_answered_iff {host : Host} {input : SemanticAnalysisInput} {intentQuery : String}
    {providerPort : SemanticProviderRequest → ProviderOutcome} {group : Group}
    {request : SemanticProviderRequest} {output : SemanticOutput}
    (hids : input.endpointIds = group.endpointIds) (hpin : input.pin = group.pin)
    (hselection : input.selection = group.selector)
    (hrequest : semanticRequest host input (some intentQuery) = .ok (some request))
    (houtput : validateOutput (providerPort request) request = .ok output) :
    let result := SemanticAnalysisResult.answered output
      ⟨request.provider, request.model, request.promptVersion, input.selection.selector, input.pin⟩
      ((some intentQuery).map fun _ =>
        contextCoverage input.endpointIds (request.endpoints.map (·.endpointId)))
    groupResult group input.snapshot result.toJson = some result.toJson ↔
      DiscoveryFits host input intentQuery providerPort := by
  intro result
  have hsent := isRequest_of_semanticRequest hrequest
  obtain ⟨raw, hraw, hwithin, hchecks⟩ := validateOutput_eq_ok houtput
  have hbytes : raw.size.bytes ≤ 16384 := by
    simp only [Json.Size.isWithin, outputLimits, Bool.and_eq_true] at hwithin
    exact of_decide_eq_true hwithin.1.1.1.1
  have hfits : DiscoveryFits host input intentQuery providerPort ↔
      IsCorpusText request.model ∧ TextsFit raw := by
    constructor
    · intro h
      exact ⟨(h request hrequest).1, (h request hrequest).2 raw hraw⟩
    · rintro ⟨hmodel, htexts⟩ other hother
      rw [hrequest] at hother
      cases hother
      refine ⟨hmodel, fun raw' hraw' => ?_⟩
      rw [hraw] at hraw'
      cases hraw'
      exact htexts
  rw [hfits, groupResult]
  simp only [result, map_some]
  rw [hsent.copyJson_toJson hbytes hchecks, bind_some, hids]
  exact validDiscoveryResult_answerJson rfl hsent rfl hids hpin hselection hwithin hchecks

/-- **What the corpus layer accepts.**  A result of the kernel for the endpoints, the pin and the
selection of a group is passed on unchanged exactly when the name of the model and the texts of the
provider's answer stay within the limits of the corpus layer, if the model is asked at all. -/
theorem groupResult_toJson_iff {host : Host} {input : SemanticAnalysisInput} {intentQuery : String}
    {providerPort : SemanticProviderRequest → ProviderOutcome} {group : Group}
    {result : SemanticAnalysisResult} (hids : input.endpointIds = group.endpointIds)
    (hpin : input.pin = group.pin) (hselection : input.selection = group.selector)
    (hrun : runGroundedSemanticDiscovery host input intentQuery providerPort = .ok result) :
    groupResult group input.snapshot result.toJson = some result.toJson ↔
      DiscoveryFits host input intentQuery providerPort := by
  rcases runSemantic_cases hrun with ⟨-, hnone, rfl⟩ | ⟨provider, model, -, hvalid, hnone, rfl⟩ |
    ⟨request, output, hrequest, houtput, rfl⟩
  · refine iff_of_true (groupResult_disabled group input.snapshot) fun request hrequest => ?_
    rw [hnone] at hrequest
    cases hrequest
  · refine iff_of_true (groupResult_noContext hvalid hids input.snapshot) fun request hrequest => ?_
    rw [hnone] at hrequest
    cases hrequest
  · exact groupResult_answered_iff hids hpin hselection hrequest houtput

/-! ### A long summary -/

def sampleGroup : Group where
  repositoryId := "repo"
  serviceId := "svc"
  selector := sampleDiscoveryInput.selection
  pin := sampleDiscoveryInput.pin
  candidates := [⟨"ep", "GET", "/a", ["code"]⟩]
  repositoryId_eq := rfl
  serviceId_eq := rfl

/-- An answer that suggests the endpoint of the sample with this summary. -/
def sampleAnswer (summary : String) : Json :=
  .obj [("status", .str "suggestions"),
    ("suggestions", .arr [.obj [("endpointId", .str "ep"), ("intent", .str "list items"),
      ("summary", .str summary), ("evidenceIds", .arr [.str "doc"])]])]

def samplePort (summary : String) : SemanticProviderRequest → ProviderOutcome :=
  fun _ => .resolved (sampleAnswer summary)

theorem unitLength_le_of_textsFit {summary : String} (h : TextsFit (sampleAnswer summary)) :
    unitLength summary ≤ 300 :=
  (h.summaries _ (.head _) summary rfl).1

theorem validateOutput_sampleAnswer {summary : String}
    (hwithin : (sampleAnswer summary).size.isWithin outputLimits = true)
    (hsummary : isOutputText summary 600 = true) :
    validateOutput (samplePort summary sampleDiscoveryRequest) sampleDiscoveryRequest =
      .ok (.suggestions [⟨"ep", "list items", summary, ["doc"]⟩]) := by
  have hsuggestion : validateSuggestion sampleDiscoveryRequest
      (.obj [("endpointId", .str "ep"), ("intent", .str "list items"),
        ("summary", .str summary), ("evidenceIds", .arr [.str "doc"])]) =
      some ⟨"ep", "list items", summary, ["doc"]⟩ := by
    have hintent : isOutputText "list items" 120 = true := by decide +kernel
    have hcited : (citable sampleDiscoveryRequest "ep").any (fun ids => ids.contains "doc") = true :=
      by decide +kernel
    rw [validateSuggestion]
    refine Option.bind_eq_some_iff.mpr ⟨"ep", rfl, ?_⟩
    refine Option.bind_eq_some_iff.mpr ⟨"list items", rfl, ?_⟩
    refine Option.bind_eq_some_iff.mpr ⟨summary, rfl, ?_⟩
    refine Option.bind_eq_some_iff.mpr ⟨["doc"], rfl, if_pos ?_⟩
    rw [hintent, hsummary, all_cons, hcited]
    exact (by decide : (true && isIdentifier "ep" && true && true && decide (1 ≤ ["doc"].length) &&
      decide (["doc"].length ≤ 8) && decide ["doc"].Nodup && (true && true)) = true)
  refine orRaise_bind_eq_ok.mpr ⟨_, Json.copyWithin_eq_some_iff.mpr ⟨rfl, hwithin⟩,
    orRaise_eq_ok.mpr ?_⟩
  have hstatus : hasText (sampleAnswer summary) "status" "suggestions" = true := rfl
  refine Option.bind_eq_some_iff.mpr ⟨[⟨"ep", "list items", summary, ["doc"]⟩],
    mapM_eq_some_iff.mpr (.cons hsuggestion .nil), if_pos ?_⟩
  exact (by decide : (true && decide (1 ≤ 1) && decide (1 ≤ 1) && decide ["ep"].Nodup) = true)

def longSummary : String :=
  String.ofList ((List.replicate 150 ['a', ' ']).flatten ++ ['a'])

theorem toList_longSummary :
    longSummary.toList = (List.replicate 150 ['a', ' ']).flatten ++ ['a'] :=
  String.toList_ofList

theorem sum_map_longSummary (f : Char → ℕ) :
    (longSummary.toList.map f).sum = 150 * (f 'a' + f ' ') + f 'a' := by
  rw [toList_longSummary, map_append, map_flatten, sum_append, sum_flatten]
  simp only [map_replicate, sum_replicate]
  rfl

theorem unitLength_longSummary : unitLength longSummary = 301 :=
  sum_map_longSummary _

theorem byteLength_longSummary : byteLength longSummary = 301 :=
  sum_map_longSummary _

theorem isOutputText_longSummary : isOutputText longSummary 600 = true := by
  rw [isOutputText, isText, isSemanticDocumentTextSafe, isBlank, Regex.test, unitLength,
    toList_longSummary]
  decide +kernel

theorem validateOutput_longSummary :
    validateOutput (samplePort longSummary sampleDiscoveryRequest) sampleDiscoveryRequest =
      .ok (.suggestions [⟨"ep", "list items", longSummary, ["doc"]⟩]) := by
  refine validateOutput_sampleAnswer ?_ isOutputText_longSummary
  simp only [sampleAnswer, Json.size, Json.itemsSize, Json.membersSize, unitLength_longSummary,
    byteLength_longSummary]
  decide +kernel

/-- A summary that the kernel passes is more than the corpus layer accepts. -/
theorem groupResult_long_summary :
    ∃ result, runGroundedSemanticDiscovery .ascii sampleDiscoveryInput "list items"
        (samplePort longSummary) = .ok result ∧
      groupResult sampleGroup sampleDescribedSnapshot result.toJson ≠ some result.toJson := by
  refine ⟨_, runSemantic_of_request semanticRequest_sampleDiscovery validateOutput_longSummary,
    fun haccepted => ?_⟩
  have hfits := (@groupResult_answered_iff .ascii sampleDiscoveryInput _ _ sampleGroup _ _ rfl rfl
    rfl semanticRequest_sampleDiscovery validateOutput_longSummary).mp haccepted
  have hsummary := unitLength_le_of_textsFit
    ((hfits _ semanticRequest_sampleDiscovery).2 (sampleAnswer longSummary) rfl)
  rw [unitLength_longSummary] at hsummary
  exact absurd hsummary (by decide)

/-- A short summary is passed on when the texts fit. -/
theorem groupResult_short_summary :
    ∃ result, runGroundedSemanticDiscovery .ascii sampleDiscoveryInput "list items"
        (samplePort "Items") = .ok result ∧
      (groupResult sampleGroup sampleDescribedSnapshot result.toJson = some result.toJson ↔
        DiscoveryFits .ascii sampleDiscoveryInput "list items" (samplePort "Items")) := by
  have houtput : validateOutput (samplePort "Items" sampleDiscoveryRequest) sampleDiscoveryRequest =
      .ok (.suggestions [⟨"ep", "list items", "Items", ["doc"]⟩]) :=
    validateOutput_sampleAnswer (by decide +kernel) (by decide +kernel)
  have hrun := runSemantic_of_request semanticRequest_sampleDiscovery houtput
  exact ⟨_, hrun, @groupResult_toJson_iff .ascii sampleDiscoveryInput _ _ sampleGroup _ rfl rfl rfl
    hrun⟩

end ApiTruth.Semantics
