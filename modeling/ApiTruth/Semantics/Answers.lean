import ApiTruth.Foundation.Traverse
import ApiTruth.Semantics.Kernel

/-!
# Answers of a model provider

An answer that the kernel accepts is a bounded JSON value of one of three shapes; its texts are read
from the value, and what it cites is in the request.

## Main definitions

* `IsSuggestion`, `ReadsSuggestion`, `IsOutput` : what is checked of an answer.

## Main results

* `validateOutput_eq_ok` : an accepted answer meets the checks of its shape.
-/

namespace ApiTruth.Semantics

open Checked Ir Option Bool

/-! ### Answers -/

structure IsSuggestion (request : SemanticProviderRequest) (suggestion : SemanticSuggestion) :
    Prop where
  endpointId : isIdentifier suggestion.endpointId = true
  intent : isOutputText suggestion.intent 120 = true
  summary : isOutputText suggestion.summary 600 = true
  count : 1 ≤ suggestion.evidenceIds.length ∧ suggestion.evidenceIds.length ≤ 8
  nodup : suggestion.evidenceIds.Nodup
  evidence : ∀ id ∈ suggestion.evidenceIds, ∃ context ∈ request.endpoints,
    context.endpointId = suggestion.endpointId ∧ ∃ document ∈ context.documents,
      id ∈ document.evidenceIds

/-- The suggestion is read from this JSON value. -/
structure ReadsSuggestion (item : Json) (suggestion : SemanticSuggestion) : Prop where
  intent : item.member "intent" = .str suggestion.intent
  summary : item.member "summary" = .str suggestion.summary
  evidenceIds : texts? (item.member "evidenceIds") = some suggestion.evidenceIds

theorem text?_eq_some {value : Json} {text : String} (h : text? value = some text) :
    value = .str text := by
  unfold text? at h
  split at h
  · rw [Option.some.inj h]
  · cases h

variable {request : SemanticProviderRequest} {output : SemanticOutput}

theorem mem_citable {endpointId : String} {ids : List String}
    (h : citable request endpointId = some ids) : ∃ context ∈ request.endpoints,
      context.endpointId = endpointId ∧ ids = context.documents.flatMap (·.evidenceIds) := by
  have hmem := OrderedMap.mem_of_mem_ofEntries ((OrderedMap.get?_eq_some_iff _).mp h)
  obtain ⟨context, hcontext, heq⟩ := List.mem_map.mp hmem
  obtain ⟨hid, hids⟩ := Prod.mk.inj heq
  exact ⟨context, hcontext, hid, hids.symm⟩

theorem validateSuggestion_eq_some {item : Json}
    {suggestion : SemanticSuggestion} (h : validateSuggestion request item = some suggestion) :
    IsSuggestion request suggestion ∧ ReadsSuggestion item suggestion := by
  obtain ⟨endpointId, hendpoint, h⟩ := bind_eq_some_iff.mp h
  obtain ⟨intent, hintent, h⟩ := bind_eq_some_iff.mp h
  obtain ⟨summary, hsummary, h⟩ := bind_eq_some_iff.mp h
  obtain ⟨evidenceIds, hevidence, h⟩ := bind_eq_some_iff.mp h
  split_ifs at h with hchecks
  cases h
  simp only [and_eq_true, decide_eq_true_eq, List.all_eq_true] at hchecks
  obtain ⟨⟨⟨⟨⟨⟨⟨-, hid⟩, hintentText⟩, hsummaryText⟩, hmin⟩, hmax⟩, hnodup⟩, hcited⟩ := hchecks
  refine ⟨⟨hid, hintentText, hsummaryText, ⟨hmin, hmax⟩, hnodup, fun id hmem => ?_⟩,
    ⟨text?_eq_some hintent, text?_eq_some hsummary, hevidence⟩⟩
  obtain ⟨ids, hids, hcontains⟩ := (any_eq_true _ _).mp (hcited id hmem)
  obtain ⟨context, hcontext, hcontextId, rfl⟩ := mem_citable hids
  exact ⟨context, hcontext, hcontextId, List.mem_flatMap.mp (List.contains_iff_mem.mp hcontains)⟩

def IsOutput (request : SemanticProviderRequest) (raw : Json) : SemanticOutput → Prop
  | .suggestions suggestions =>
    isPlain ["status", "suggestions"] raw = true ∧ List.Forall₂ (fun item suggestion => IsSuggestion request suggestion ∧
      ReadsSuggestion item suggestion) (raw.member "suggestions").items suggestions ∧
    1 ≤ suggestions.length ∧ suggestions.length ≤ request.endpoints.length ∧
    (suggestions.map SemanticSuggestion.endpointId).Nodup
  | .ambiguous candidates reason =>
    isPlain ["status", "candidateEndpointIds", "reason"] raw = true ∧ 2 ≤ candidates.length ∧ candidates.length ≤ request.endpoints.length ∧ candidates.Nodup ∧
    (∀ id ∈ candidates, ∃ context ∈ request.endpoints, context.endpointId = id) ∧
    raw.member "reason" = .str reason ∧ isOutputText reason 300 = true
  | .noMatch reason => isPlain ["status", "reason"] raw = true ∧ raw.member "reason" = .str reason ∧ isOutputText reason 300 = true

theorem validateSuggestions_eq_some {raw : Json}
    (h : validateSuggestions request raw = some output) :
    IsOutput request raw output := by
  obtain ⟨suggestions, hsuggestions, h⟩ := bind_eq_some_iff.mp h
  split_ifs at h with hchecks
  cases h
  simp only [and_eq_true, decide_eq_true_eq] at hchecks
  exact ⟨hchecks.1.1.1, (mapM_eq_some_iff.mp hsuggestions).imp fun _ _ => validateSuggestion_eq_some,
    hchecks.1.1.2, hchecks.1.2, hchecks.2⟩

theorem validateAmbiguous_eq_some {raw : Json} (h : validateAmbiguous request raw = some output) :
    IsOutput request raw output := by
  obtain ⟨candidates, -, h⟩ := bind_eq_some_iff.mp h
  obtain ⟨reason, hreason, h⟩ := bind_eq_some_iff.mp h
  split_ifs at h with hchecks
  cases h
  simp only [and_eq_true, decide_eq_true_eq, List.all_eq_true] at hchecks
  obtain ⟨⟨⟨⟨⟨hplain, hmin⟩, hmax⟩, hnodup⟩, hknown⟩, htext⟩ := hchecks
  refine ⟨hplain, hmin, hmax, hnodup, fun id hid => ?_, text?_eq_some hreason, htext⟩
  obtain ⟨ids, hids⟩ := isSome_iff_exists.mp (hknown id hid)
  obtain ⟨context, hcontext, hcontextId, -⟩ := mem_citable hids
  exact ⟨context, hcontext, hcontextId⟩

theorem validateNoMatch_eq_some {raw : Json} (h : validateNoMatch raw = some output) :
    IsOutput request raw output := by
  obtain ⟨reason, hreason, h⟩ := bind_eq_some_iff.mp h
  split_ifs at h with hchecks
  cases h
  simp only [and_eq_true] at hchecks
  exact ⟨hchecks.1, text?_eq_some hreason, hchecks.2⟩

/-- An accepted answer is a bounded JSON value that meets the checks of its kind. -/
theorem validateOutput_eq_ok {outcome : ProviderOutcome}
    (h : validateOutput outcome request = .ok output) :
    ∃ raw, outcome = .resolved raw ∧ raw.size.isWithin outputLimits = true ∧
      IsOutput request raw output := by
  cases outcome with
  | rejected => cases h
  | foreign => cases h
  | resolved raw =>
    obtain ⟨copy, hcopy, h⟩ := orRaise_bind_eq_ok.mp h
    obtain ⟨rfl, hwithin⟩ := Json.copyWithin_eq_some_iff.mp hcopy
    refine ⟨raw, rfl, hwithin, ?_⟩
    rw [orRaise_eq_ok] at h
    split_ifs at h
    · exact validateSuggestions_eq_some h
    · exact validateAmbiguous_eq_some h
    · exact validateNoMatch_eq_some h

end ApiTruth.Semantics
