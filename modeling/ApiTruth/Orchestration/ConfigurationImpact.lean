import ApiTruth.Foundation.Checked
import ApiTruth.Foundation.Json.Shape
import ApiTruth.Ir.Validation

/-!
# The impact of a configuration

`calculateConfigurationImpact` compares two configurations of an installation and names the services
that have to be analysed again.  A change of a global setting affects all services, a change of the
data of a repository affects its services, and otherwise services are compared one by one.

## Main definitions

* `isInstallationConfig`, `validateConfigReferences`, `parseConfig` : the valid documents.
* `validatePair` : a document with its fingerprint.
* `calculateConfigurationImpact` : the affected services.
* `Configures` : a document configures a service in a repository.
* `SameSettings` : two documents agree in everything that concerns a service.

## Main results

* `not_sameSettings_of_named` : services that are named do not have the same settings.
* `calculateConfigurationImpact_sound` : the order of the documents does not matter, and services
  that are not named have the same settings in both.
-/

namespace ApiTruth.Orchestration

open Checked Json List OrderedMap
open Ir hiding isNonEmptyString

/-! ### The shape of a configuration -/

section Shape

def isTruth (value : Bool) : Json → Bool
  | .bool b => b == value
  | _ => false

def isStringWith (property : List Char → Bool) : Json → Bool
  | .str s => property s.toList
  | _ => false

/-- `[A-Z]`. -/
def isUpperLetter (c : Char) : Bool := decide ('A' ≤ c ∧ c ≤ 'Z')

/-- `^[A-Z][A-Z0-9_]{1,127}$`. -/
def isEnvLocator : List Char → Bool
  | [] => false
  | c :: cs => isUpperLetter c && decide (1 ≤ cs.length ∧ cs.length ≤ 127)
    && cs.all fun c => isUpperLetter c || c.isDigit || c == '_'

/-- `[A-Za-z0-9_.-]+`. -/
def isLocatorSegment (segment : List Char) : Bool :=
  !segment.isEmpty && segment.all fun c => c.isAlphanum || c == '_' || c == '.' || c == '-'

/-- `^[A-Za-z0-9_.-]+(?:/[A-Za-z0-9_.-]+)+#[A-Za-z0-9_.-]+$`. -/
def isVaultLocator (locator : List Char) : Bool :=
  match locator.splitOn '#' with
  | [path, key] => decide (2 ≤ (path.splitOn '/').length) && (path.splitOn '/').all isLocatorSegment
    && isLocatorSegment key
  | _ => false

/-- `SecretReferenceSchema`. -/
def isSecretReference : Json → Bool :=
  isClosedObject [("secret_ref", fun j =>
    isClosedObject [("scheme", isLiteral "env"), ("locator", isStringWith isEnvLocator)] [] j
      || isClosedObject [("scheme", isLiteral "vault"), ("locator", isStringWith isVaultLocator)]
        [] j)] []

/-- `InferenceConfigSchema`. -/
def isInferenceConfig (j : Json) : Bool :=
  isClosedObject [("enabled", isTruth false)] [] j
    || isClosedObject
      [("enabled", isTruth true), ("provider", isOneOf ["openai", "gemini", "claude"]),
        ("model", isNonEmptyString), ("credential", isSecretReference)] [] j

/-- `LogsConfigSchema`. -/
def isLogsConfig (j : Json) : Bool :=
  isClosedObject [("enabled", isTruth false)] [] j
    || isClosedObject
      [("enabled", isTruth true), ("adapter_id", isNonEmptyString),
        ("credential", isSecretReference)] [] j

/-- `DeploymentAuthoritySchema`. -/
def isDeploymentAuthority : Json → Bool :=
  isClosedObject [("adapter_id", isNonEmptyString), ("access_scope_id", isNonEmptyString)]
    [("credential", isSecretReference)]

/-- `EnvironmentConfigSchema`. -/
def isEnvironmentConfig : Json → Bool :=
  isClosedObject [("name", isNonEmptyString), ("deployment_authority", isDeploymentAuthority)]
    [("intended_branch", isNonEmptyString)]

/-- `^(?!.*(?:^|/)\.{1,2}(?:/|$))[A-Za-z0-9_@+.-]+(?:/[A-Za-z0-9_@+.-]+)*$`, of at most 1024
characters. -/
def isSelectedSourcePath (path : List Char) : Bool :=
  decide (path.length ≤ 1024) && (path.splitOn '/').all fun segment =>
    !segment.isEmpty && segment != ['.'] && segment != ['.', '.']
      && segment.all fun c => c.isAlphanum || ['_', '@', '+', '.', '-'].contains c

/-- `AnalyzerSelectionSchema`. -/
def isAnalyzerSelection : Json → Bool :=
  isClosedObject [("adapter_id", isNonEmptyString), ("adapter_version", isNonEmptyString)]
    [("ir_version", isOneOf ["1.0.0", "1.1.0"]),
      ("production_entrypoint", isStringWith isSelectedSourcePath),
      ("resolution_inputs", fun j =>
        isArrayOf (isClosedObject
          [("kind", isLiteral "type_manifest"), ("path", isStringWith isSelectedSourcePath)] []) j
          && decide (j.items.length ≤ 16) && hasUniqueItems j)]

/-- `ServiceConfigSchema`. -/
def isServiceConfig : Json → Bool :=
  isClosedObject
    [("service_id", isNonEmptyString), ("root", isNonEmptyString),
      ("analyzer", isAnalyzerSelection),
      ("intended_branches", fun j => isArrayOf isNonEmptyString j && hasUniqueItems j),
      ("environments", isArrayOf isEnvironmentConfig)] []

/-- `RepositoryConfigSchema`. -/
def isRepositoryConfig : Json → Bool :=
  isClosedObject
    [("repository_id", isNonEmptyString), ("provider", isNonEmptyString),
      ("locator", isNonEmptyString), ("access_scope_id", isNonEmptyString),
      ("services", fun j => isArrayOf isServiceConfig j && decide (1 ≤ j.items.length))] []

/-- `InstallationConfigSchema`. -/
def isInstallationConfig : Json → Bool :=
  isClosedObject
    [("config_version", isLiteral "1.0.0"),
      ("access_scopes", fun j =>
        isArrayOf (isClosedObject
          [("access_scope_id", isNonEmptyString), ("label", isNonEmptyString)] []) j
          && decide (1 ≤ j.items.length)),
      ("repositories", fun j => isArrayOf isRepositoryConfig j && decide (1 ≤ j.items.length))]
    [("inference", isInferenceConfig), ("logs", isLogsConfig)]

end Shape

/-! ### References -/

def textOf (name : String) (j : Json) : String :=
  match j.member name with
  | .str s => s
  | _ => ""

def repositoriesOf (document : Json) : List Json := (document.member "repositories").items

def servicesOf (repository : Json) : List Json := (repository.member "services").items

def serviceIdsOf (document : Json) : List String :=
  (repositoriesOf document).flatMap fun repository =>
    (servicesOf repository).map (textOf "service_id")

/-- `duplicates` : the values that stand in the list before. -/
def duplicates (values : List String) : List String :=
  forEachIndexed values fun value index => if values.idxOf value ≠ index then [value] else []

def environmentIssues (scopeIds : List String) (service : Json) (path : String)
    (environment : Json) : List ValidationIssue :=
  (match environment.members.lookup "intended_branch" with
    | none => []
    | some branch => expect ((service.member "intended_branches").items.contains branch)
      (path ++ "/intended_branch") "semantic.intended_branch_mismatch"
      "environment branch is not declared by the service") ++
  expect (scopeIds.contains (textOf "access_scope_id" (environment.member "deployment_authority")))
    (path ++ "/deployment_authority/access_scope_id") "semantic.dangling_reference"
    "unknown access scope"

def serviceIssues (scopeIds : List String) (path : String) (service : Json) :
    List ValidationIssue :=
  let environments := (service.member "environments").items
  ((duplicates (environments.map (textOf "name"))).map fun _ =>
    ⟨path ++ "/environments", "semantic.duplicate_id", "duplicate environment name"⟩) ++
  forEachIndexed environments fun environment index =>
    environmentIssues scopeIds service (path ++ "/environments/" ++ toString index) environment

def validateConfigReferences (config : Json) : List ValidationIssue :=
  let scopeIds := (config.member "access_scopes").items.map (textOf "access_scope_id")
  ((duplicates scopeIds).map fun _ =>
    ⟨"/access_scopes", "semantic.duplicate_id", "duplicate access scope ID"⟩) ++
  ((duplicates ((repositoriesOf config).map (textOf "repository_id"))).map fun _ =>
    ⟨"/repositories", "semantic.duplicate_id", "duplicate repository ID"⟩) ++
  ((duplicates (serviceIdsOf config)).map fun _ =>
    ⟨"/repositories", "semantic.duplicate_id", "duplicate service ID"⟩) ++
  forEachIndexed (repositoriesOf config) fun repository repositoryIndex =>
    let path := "/repositories/" ++ toString repositoryIndex
    expect (scopeIds.contains (textOf "access_scope_id" repository)) (path ++ "/access_scope_id")
      "semantic.dangling_reference" "unknown access scope" ++
    forEachIndexed (servicesOf repository) fun service serviceIndex =>
      serviceIssues scopeIds (path ++ "/services/" ++ toString serviceIndex) service

section Impact

variable (ajvIssues : Json → List ValidationIssue)

/-- `parseConfig`; the issues of a document of another shape come from the validator. -/
def parseConfig (document : Json) : Except (List ValidationIssue) Json :=
  if isInstallationConfig document then
    let issues := validateConfigReferences document
    if issues = [] then .ok document else .error issues
  else .error (ajvIssues document)

structure ConfigurationPair where
  fingerprint : String
  document : Json

def validatePair (input : Json) : Except (List ValidationIssue) ConfigurationPair :=
  match input with
  | .obj members =>
    match members.lookup "fingerprint", members.lookup "document" with
    | some fingerprint, some document =>
      if members.length ≠ 2 then .error [⟨"/", "shape.required", "invalid"⟩]
      else if isNonEmptyString fingerprint then
        (parseConfig ajvIssues document).map fun document =>
          ⟨textOf "fingerprint" input, document⟩
      else .error [⟨"/fingerprint", "shape.minLength", "invalid"⟩]
    | _, _ => .error [⟨"/", "shape.required", "invalid"⟩]
  | _ => .error [⟨"/", "shape.type", "invalid"⟩]

/-! ### The impact -/

def allServices (documents : List Json) : List String :=
  canonicalSet (documents.flatMap serviceIdsOf)

def byId (name : String) (values : List Json) : OrderedMap String Json :=
  OrderedMap.ofEntries (values.map fun value => (textOf name value, value))

def Differ (left right : Json) : Prop := canonicalJson left ≠ canonicalJson right

instance (left right : Json) : Decidable (Differ left right) :=
  inferInstanceAs (Decidable (canonicalJson left ≠ canonicalJson right))

def repositoryMetadata (repository : Json) : Json :=
  .obj [("provider", repository.member "provider"), ("locator", repository.member "locator"),
    ("access_scope_id", repository.member "access_scope_id")]

/-- The services of a repository of both documents that are affected. -/
def changedServices (previous next : Json) : List String :=
  if Differ (repositoryMetadata previous) (repositoryMetadata next) then
    (servicesOf previous ++ servicesOf next).map (textOf "service_id")
  else
    let oldServices := byId "service_id" (servicesOf previous)
    let newServices := byId "service_id" (servicesOf next)
    (oldServices.keys ++ newServices.keys).dedup.filter fun serviceId =>
      Differ ((oldServices.get? serviceId).getD .null) ((newServices.get? serviceId).getD .null)

/-- The services that are affected by changes of repositories. -/
def affectedServices (oldDocument newDocument : Json) : List String :=
  let oldRepositories := byId "repository_id" (repositoriesOf oldDocument)
  let newRepositories := byId "repository_id" (repositoriesOf newDocument)
  (oldRepositories.keys ++ newRepositories.keys).dedup.flatMap fun repositoryId =>
    match oldRepositories.get? repositoryId, newRepositories.get? repositoryId with
    | some previous, some next => changedServices previous next
    | some repository, none | none, some repository =>
      (servicesOf repository).map (textOf "service_id")
    | none, none => []

def configurationImpact (active candidate : ConfigurationPair) : List String :=
  let oldDocument := active.document
  let newDocument := candidate.document
  if active.fingerprint ≠ candidate.fingerprint
      ∨ oldDocument.member "config_version" ≠ newDocument.member "config_version" then
    allServices [oldDocument, newDocument]
  else if Differ (oldDocument.member "access_scopes") (newDocument.member "access_scopes")
      ∨ Differ (oldDocument.member "inference") (newDocument.member "inference")
      ∨ Differ (oldDocument.member "logs") (newDocument.member "logs") then
    allServices [oldDocument, newDocument]
  else canonicalSet (affectedServices oldDocument newDocument)

def calculateConfigurationImpact (activeInput candidateInput : Json) :
    Except (List ValidationIssue) (List String) := do
  let active ← validatePair ajvIssues activeInput
  let candidate ← validatePair ajvIssues candidateInput
  return configurationImpact active candidate

end Impact

/-! ### Valid documents -/

theorem duplicates_eq_nil_iff {values : List String} : duplicates values = [] ↔ values.Nodup := by
  rw [duplicates, forEachIndexed_eq_nil_iff]
  constructor
  · intro h
    have hidx (i : ℕ) (hi : i < values.length) : values.idxOf values[i] = i := by
      by_contra hne
      simpa [hne] using h i hi
    refine List.nodup_iff_injective_getElem.mpr fun i j hij => ?_
    have heq : (i : ℕ) = j :=
      (hidx i i.2).symm.trans ((congrArg values.idxOf hij).trans (hidx j j.2))
    exact Fin.ext heq
  · intro h i hi
    simp [h.idxOf_getElem]

/-- A document in which repositories and services are told apart by their names. -/
structure IsValidDocument (document : Json) : Prop where
  shape : isInstallationConfig document = true
  repositories : ((repositoriesOf document).map (textOf "repository_id")).Nodup
  services : (serviceIdsOf document).Nodup

variable {ajvIssues : Json → List ValidationIssue} {serviceId : String}
  {oldDocument newDocument : Json}

theorem isValidDocument_of_parseConfig
    {document parsed : Json} (h : parseConfig ajvIssues document = .ok parsed) :
    parsed = document ∧ IsValidDocument parsed := by
  unfold parseConfig at h
  dsimp only at h
  split_ifs at h with hshape hissues
  cases h
  simp only [validateConfigReferences, append_eq_nil_iff, map_eq_nil_iff,
    duplicates_eq_nil_iff] at hissues
  exact ⟨rfl, hshape, hissues.1.1.2, hissues.1.2⟩

theorem isValidDocument_of_validatePair {input : Json}
    {pair : ConfigurationPair} (h : validatePair ajvIssues input = .ok pair) :
    IsValidDocument pair.document := by
  unfold validatePair at h
  split at h
  · split at h
    · split_ifs at h
      obtain ⟨document, hparse, rfl⟩ := map_eq_ok.mp h
      exact (isValidDocument_of_parseConfig hparse).2
    · cases h
  · cases h

/-! ### Settings of a service -/

/-- The document configures the service in the repository. -/
structure Configures (document : Json) (serviceId : String) (repository service : Json) : Prop where
  mem_repositories : repository ∈ repositoriesOf document
  mem_services : service ∈ servicesOf repository
  name : textOf "service_id" service = serviceId

def AgreeBut (name : String) (left right : Json) : Prop :=
  ∀ other, other ≠ name → (left.members.lookup other).map canon = (right.members.lookup other).map canon

/-- Two configurations agree in everything that concerns a service: in the global settings, in the
data of its repository and in its own configuration. -/
structure SameSettings (active candidate : ConfigurationPair) (serviceId : String) : Prop where
  fingerprint : active.fingerprint = candidate.fingerprint
  globals : AgreeBut "repositories" active.document candidate.document
  configured : ∃ repository service, Configures active.document serviceId repository service
  configured' : ∃ repository service, Configures candidate.document serviceId repository service
  settings : ∀ repository service repository' service',
    Configures active.document serviceId repository service →
    Configures candidate.document serviceId repository' service' →
    AgreeBut "services" repository repository' ∧ canon service = canon service'

variable {document : Json} {previous next : Json} {values : List Json} {name id : String}

theorem mem_serviceIdsOf_iff :
    serviceId ∈ serviceIdsOf document ↔
      ∃ repository service, Configures document serviceId repository service := by
  simp only [serviceIdsOf, mem_flatMap, List.mem_map]
  constructor
  · rintro ⟨repository, hrepository, service, hservice, hname⟩
    exact ⟨repository, service, hrepository, hservice, hname⟩
  · rintro ⟨repository, service, hrepository, hservice, hname⟩
    exact ⟨repository, hrepository, service, hservice, hname⟩

theorem differ_iff {left right : Json} : Differ left right ↔ canon left ≠ canon right :=
  not_congr canonicalJson_inj

/-! ### Closed objects -/

theorem mem_items_of_isArrayOf {shape : Json → Bool} {j item : Json}
    (h : isArrayOf shape j = true) (hitem : item ∈ j.items) : shape item = true := by
  cases j with
  | arr items => exact List.all_eq_true.mp h item hitem
  | _ => cases h

theorem eq_null_of_canon_eq {j : Json} (h : canon j = .null) : j = .null := by
  cases j with
  | null => rfl
  | obj members =>
    cases h
  | _ => simp at h

section Closed

variable {required optional : List (String × (Json → Bool))} {left right : Json}

variable (hleft : isClosedObject required optional left = true)

include hleft in
theorem lookup_eq_of_member_eq (hright : isClosedObject required optional right = true)
    {name : String}
    (hnull : ∀ shape, (required ++ optional).lookup name = some shape → shape .null = false)
    (h : canon (left.member name) = canon (right.member name)) :
    (left.members.lookup name).map canon = (right.members.lookup name).map canon := by
  have hvalue {j value : Json} (hj : isClosedObject required optional j = true)
      (hlookup : j.members.lookup name = some value) : canon value ≠ .null := by
    intro heq
    obtain ⟨shape, hshape, hvalid⟩ := valid_of_isClosedObject hj hlookup
    rw [eq_null_of_canon_eq heq, hnull shape hshape] at hvalid
    cases hvalid
  rw [member_eq, member_eq] at h
  cases hl : left.members.lookup name with
  | none =>
    cases hr : right.members.lookup name with
    | none => rfl
    | some value =>
      rw [hl, hr] at h
      exact absurd h.symm (hvalue hright hr)
  | some value =>
    cases hr : right.members.lookup name with
    | none =>
      rw [hl, hr] at h
      exact absurd h (hvalue hleft hl)
    | some value' =>
      rw [hl, hr] at h
      exact congrArg some h

include hleft in
theorem agreeBut_of_member_eq (hright : isClosedObject required optional right = true)
    (hnull : ∀ field ∈ required ++ optional, field.2 .null = false) {but : String}
    (h : ∀ field ∈ required ++ optional, field.1 ≠ but → canon (left.member field.1) = canon (right.member field.1)) :
    AgreeBut but left right := by
  intro name hname
  cases hshape : (required ++ optional).lookup name with
  | none =>
    rw [lookup_eq_none_of_isClosedObject hleft hshape,
      lookup_eq_none_of_isClosedObject hright hshape]
  | some shape =>
    have hfield := mem_of_lookup hshape
    exact lookup_eq_of_member_eq hleft hright (fun shape' hshape' => hnull _ (mem_of_lookup hshape'))
      (h _ hfield hname)

include hleft in
theorem member_eq_str_textOf {name : String} (hname : name ∈ required.map Prod.fst)
    (hshape : (required ++ optional).lookup name = some isNonEmptyString) :
    left.member name = .str (textOf name left) := by
  obtain ⟨value, hvalue⟩ := exists_of_isClosedObject hleft hname
  have hvalid := shape_of_lookup hleft hvalue hshape
  rw [textOf, member_eq_of_lookup hvalue]
  cases value with
  | str s => rfl
  | _ => cases hvalid

end Closed

theorem canon_member_eq_of_repositoryMetadata
    (h : canon (repositoryMetadata previous) = canon (repositoryMetadata next)) :
    canon (previous.member "provider") = canon (next.member "provider") ∧
      canon (previous.member "locator") = canon (next.member "locator") ∧
      canon (previous.member "access_scope_id") = canon (next.member "access_scope_id") :=
  ⟨Option.some.inj (lookup_canon_eq h "provider"), Option.some.inj (lookup_canon_eq h "locator"),
    Option.some.inj (lookup_canon_eq h "access_scope_id")⟩

/-! ### Looking up by name -/

theorem get?_byId_eq_some_iff {value : Json} (h : (values.map (textOf name)).Nodup) :
    (byId name values).get? id = some value ↔ value ∈ values ∧ textOf name value = id := by
  have hkeys : ((values.map fun value => (textOf name value, value)).map Prod.fst).Nodup := by
    rwa [List.map_map]
  rw [byId, get?, entries_ofEntries hkeys, lookup_eq_some_iff hkeys, List.mem_map]
  constructor
  · rintro ⟨other, hother, heq⟩
    cases heq
    exact ⟨hother, rfl⟩
  · rintro ⟨hvalue, rfl⟩
    exact ⟨value, hvalue, rfl⟩

theorem mem_keys_byId :
    id ∈ (byId name values).keys ↔ id ∈ values.map (textOf name) := by
  rw [byId, mem_keys_ofEntries, List.map_map]
  rfl

namespace IsValidDocument

variable {document : Json} (h : IsValidDocument document)

include h

theorem configures_unique {repository service repository' service' : Json}
    (hservice : Configures document serviceId repository service)
    (hservice' : Configures document serviceId repository' service') :
    repository = repository' ∧ service = service' := by
  have hservices : serviceIdsOf document = ((repositoriesOf document).flatMap fun repository =>
      (servicesOf repository).map (Prod.mk repository)).map fun entry =>
        textOf "service_id" entry.2 := by
    simp only [serviceIdsOf, map_flatMap, List.map_map]
    rfl
  have hnodup := h.services
  rw [hservices] at hnodup
  have hmem {repository service : Json} (hconfigures : Configures document serviceId repository
      service) : (repository, service) ∈ (repositoriesOf document).flatMap fun repository =>
        (servicesOf repository).map (Prod.mk repository) :=
    List.mem_flatMap.mpr ⟨_, hconfigures.mem_repositories,
      List.mem_map_of_mem hconfigures.mem_services⟩
  exact Prod.mk.inj (inj_on_of_nodup_map hnodup (hmem hservice) (hmem hservice')
    (hservice.name.trans hservice'.name.symm))

variable {repository : Json}

theorem nodup_services (hrepository : repository ∈ repositoriesOf document) :
    ((servicesOf repository).map (textOf "service_id")).Nodup :=
  (List.nodup_flatMap.mp h.services).1 repository hrepository

theorem shape_of_mem_repositoriesOf
    (hrepository : repository ∈ repositoriesOf document) : isRepositoryConfig repository = true := by
  rw [repositoriesOf, member_eq] at hrepository
  cases hvalue : document.members.lookup "repositories" with
  | none =>
    rw [hvalue] at hrepository
    cases hrepository
  | some value =>
    have hshape := shape_of_lookup h.shape hvalue rfl
    rw [hvalue] at hrepository
    exact mem_items_of_isArrayOf (Bool.and_eq_true_iff.mp hshape).1 hrepository

theorem shape_of_mem_servicesOf {repository service : Json}
    (hrepository : repository ∈ repositoriesOf document) (hservice : service ∈ servicesOf repository) :
    isServiceConfig service = true := by
  rw [servicesOf, member_eq] at hservice
  cases hvalue : repository.members.lookup "services" with
  | none =>
    rw [hvalue] at hservice
    cases hservice
  | some value =>
    have hshape := shape_of_lookup (h.shape_of_mem_repositoriesOf hrepository) hvalue rfl
    rw [hvalue] at hservice
    exact mem_items_of_isArrayOf (Bool.and_eq_true_iff.mp hshape).1 hservice

end IsValidDocument

/-! ### The order of the documents -/

theorem differ_comm {left right : Json} : Differ left right ↔ Differ right left := ne_comm

theorem mem_changedServices_comm :
    serviceId ∈ changedServices previous next ↔ serviceId ∈ changedServices next previous := by
  unfold changedServices
  simp only [@differ_comm (repositoryMetadata previous)]
  split_ifs
  · simp only [map_append, mem_append]
    exact or_comm
  · simp only [mem_filter, mem_dedup, mem_append, decide_eq_true_eq]
    rw [differ_comm, or_comm]

theorem mem_affectedServices_comm :
    serviceId ∈ affectedServices oldDocument newDocument ↔
      serviceId ∈ affectedServices newDocument oldDocument := by
  have hone {oldDocument newDocument : Json} (h : serviceId ∈ affectedServices oldDocument
      newDocument) : serviceId ∈ affectedServices newDocument oldDocument := by
    obtain ⟨repositoryId, hid, h⟩ := List.mem_flatMap.mp h
    rw [mem_dedup, mem_append, or_comm] at hid
    refine List.mem_flatMap.mpr ⟨repositoryId, List.mem_dedup.mpr (List.mem_append.mpr hid), ?_⟩
    split at h
    next hold hnew =>
      simp only [hold, hnew]
      exact mem_changedServices_comm.mp h
    next hold hnew =>
      simp only [hold, hnew]
      exact h
    next hold hnew =>
      simp only [hold, hnew]
      exact h
    · cases h
  exact ⟨hone, hone⟩

theorem allServices_comm (oldDocument newDocument : Json) :
    allServices [oldDocument, newDocument] = allServices [newDocument, oldDocument] := by
  refine canonicalSet_eq_iff.mpr fun serviceId => ?_
  simp only [flatMap_cons, flatMap_nil, append_nil, mem_append]
  exact or_comm

theorem configurationImpact_comm (active candidate : ConfigurationPair) :
    configurationImpact active candidate = configurationImpact candidate active := by
  unfold configurationImpact
  simp only [@ne_comm _ active.fingerprint, @ne_comm _ (active.document.member "config_version"),
    @differ_comm (active.document.member _), allServices_comm active.document]
  split_ifs
  · rfl
  · rfl
  · exact canonicalSet_eq_iff.mpr fun serviceId => mem_affectedServices_comm

/-! ### Services that are not named -/

/-- A service that is not affected is configured alike in a repository with the same data. -/
theorem exists_configures_of_notMem
    (hold : IsValidDocument oldDocument) (hnew : IsValidDocument newDocument)
    {repository service : Json} (h : Configures oldDocument serviceId repository service)
    (hnot : serviceId ∉ affectedServices oldDocument newDocument) :
    ∃ repository' service', Configures newDocument serviceId repository' service' ∧
      AgreeBut "services" repository repository' ∧ canon service = canon service' := by
  have hprevious : (byId "repository_id" (repositoriesOf oldDocument)).get?
      (textOf "repository_id" repository) = some repository :=
    (get?_byId_eq_some_iff hold.repositories).mpr ⟨h.mem_repositories, rfl⟩
  have hnamed : serviceId ∈ (servicesOf repository).map (textOf "service_id") :=
    List.mem_map.mpr ⟨service, h.mem_services, h.name⟩
  have hnot' := fun hmem => hnot (List.mem_flatMap.mpr ⟨textOf "repository_id" repository,
    List.mem_dedup.mpr (mem_append_left _ (mem_keys_byId.mpr
      (List.mem_map_of_mem h.mem_repositories))), hmem⟩)
  simp only [hprevious] at hnot'
  cases hnext : (byId "repository_id" (repositoriesOf newDocument)).get?
      (textOf "repository_id" repository) with
  | none =>
    simp only [hnext] at hnot'
    exact absurd hnamed hnot'
  | some next =>
    obtain ⟨hmem, hid⟩ := (get?_byId_eq_some_iff hnew.repositories).mp hnext
    simp only [hnext, changedServices] at hnot'
    split_ifs at hnot' with hmetadata
    · rw [map_append, mem_append] at hnot'
      exact (hnot' (.inl hnamed)).elim
    rw [differ_iff, not_not] at hmetadata
    have hgetOld : (byId "service_id" (servicesOf repository)).get? serviceId = some service :=
      (get?_byId_eq_some_iff (hold.nodup_services h.mem_repositories)).mpr ⟨h.mem_services, h.name⟩
    have hsame : canon service =
        canon (((byId "service_id" (servicesOf next)).get? serviceId).getD .null) := by
      by_contra hne
      refine hnot' (List.mem_filter.mpr ⟨List.mem_dedup.mpr (mem_append_left _
        (mem_keys_byId.mpr hnamed)), decide_eq_true ?_⟩)
      rw [hgetOld, differ_iff]
      exact hne
    have hshape := hold.shape_of_mem_servicesOf h.mem_repositories h.mem_services
    cases hgetNew : (byId "service_id" (servicesOf next)).get? serviceId with
    | none =>
      rw [hgetNew, Option.getD_none, canon_null] at hsame
      rw [eq_null_of_canon_eq hsame] at hshape
      cases hshape
    | some service' =>
      rw [hgetNew, Option.getD_some] at hsame
      obtain ⟨hservice', hname'⟩ :=
        (get?_byId_eq_some_iff (hnew.nodup_services hmem)).mp hgetNew
      refine ⟨next, service', ⟨hmem, hservice', hname'⟩, ?_, hsame⟩
      have hrepository := hold.shape_of_mem_repositoriesOf h.mem_repositories
      have hrepository' := hnew.shape_of_mem_repositoriesOf hmem
      obtain ⟨hprovider, hlocator, hscope⟩ := canon_member_eq_of_repositoryMetadata hmetadata
      refine agreeBut_of_member_eq hrepository hrepository' ?_ ?_
      · simp [Json.isNonEmptyString, isArrayOf]
      · have hids : canon (repository.member "repository_id") =
            canon (next.member "repository_id") := by
          rw [member_eq_str_textOf hrepository (by simp) rfl,
            member_eq_str_textOf hrepository' (by simp) rfl, hid]
        simp [hids, hprovider, hlocator, hscope]

theorem agreeBut_repositories
    (hold : IsValidDocument oldDocument) (hnew : IsValidDocument newDocument)
    (hversion : oldDocument.member "config_version" = newDocument.member "config_version")
    (hscopes : ¬Differ (oldDocument.member "access_scopes") (newDocument.member "access_scopes"))
    (hinference : ¬Differ (oldDocument.member "inference") (newDocument.member "inference"))
    (hlogs : ¬Differ (oldDocument.member "logs") (newDocument.member "logs")) :
    AgreeBut "repositories" oldDocument newDocument := by
  rw [differ_iff, not_not] at hscopes hinference hlogs
  refine agreeBut_of_member_eq hold.shape hnew.shape ?_ ?_
  · simp [isLiteral, isArrayOf, isInferenceConfig, isLogsConfig, isClosedObject]
  · simp [hversion, hscopes, hinference, hlogs]

/-- The order of the documents does not matter, and a service that is not named has the same
settings in both. -/
theorem calculateConfigurationImpact_sound {ajvIssues : Json → List ValidationIssue}
    {activeInput candidateInput : Json} {active candidate : ConfigurationPair}
    (hactive : validatePair ajvIssues activeInput = .ok active)
    (hcandidate : validatePair ajvIssues candidateInput = .ok candidate) :
    ∃ named, calculateConfigurationImpact ajvIssues activeInput candidateInput = .ok named ∧
      calculateConfigurationImpact ajvIssues candidateInput activeInput = .ok named ∧
      ∀ serviceId, (serviceId ∈ serviceIdsOf active.document ∨
        serviceId ∈ serviceIdsOf candidate.document) → serviceId ∉ named →
        SameSettings active candidate serviceId := by
  have hold := isValidDocument_of_validatePair hactive
  have hnew := isValidDocument_of_validatePair hcandidate
  refine ⟨configurationImpact active candidate, ?_, ?_, fun serviceId hmem hnot => ?_⟩
  · rw [calculateConfigurationImpact, hactive, hcandidate]
    rfl
  · rw [calculateConfigurationImpact, hactive, hcandidate, configurationImpact_comm]
    rfl
  · have hall : serviceId ∈ allServices [active.document, candidate.document] := by
      simpa [allServices] using hmem
    unfold configurationImpact at hnot
    dsimp only at hnot
    split_ifs at hnot with hversion hglobals
    · exact absurd hall hnot
    · exact absurd hall hnot
    rw [not_or, not_not, not_not] at hversion
    rw [not_or, not_or] at hglobals
    rw [mem_canonicalSet] at hnot
    -- the service is configured in both documents, whichever names it
    have hboth : ∃ repository service repository' service',
        Configures active.document serviceId repository service ∧
        Configures candidate.document serviceId repository' service' ∧
        AgreeBut "services" repository repository' ∧ canon service = canon service' := by
      rcases hmem with hmem | hmem
      · obtain ⟨repository, service, h⟩ := mem_serviceIdsOf_iff.mp hmem
        obtain ⟨repository', service', h', hagree, hcanon⟩ :=
          exists_configures_of_notMem hold hnew h hnot
        exact ⟨repository, service, repository', service', h, h', hagree, hcanon⟩
      · obtain ⟨repository', service', h'⟩ := mem_serviceIdsOf_iff.mp hmem
        obtain ⟨repository, service, h, hagree, hcanon⟩ :=
          exists_configures_of_notMem hnew hold h' (mt mem_affectedServices_comm.mpr hnot)
        exact ⟨repository, service, repository', service', h, h',
          fun name hname => (hagree name hname).symm, hcanon.symm⟩
    obtain ⟨repository, service, repository', service', h, h', hagree, hcanon⟩ := hboth
    refine ⟨hversion.1, agreeBut_repositories hold hnew hversion.2 hglobals.1 hglobals.2.1
      hglobals.2.2, ⟨_, _, h⟩, ⟨_, _, h'⟩, fun other otherService other' otherService' hc hc' => ?_⟩
    obtain ⟨rfl, rfl⟩ := hold.configures_unique h hc
    obtain ⟨rfl, rfl⟩ := hnew.configures_unique h' hc'
    exact ⟨hagree, hcanon⟩

/-! ### Services that are named -/

theorem AgreeBut.canon_member_eq {left right : Json} (h : AgreeBut name left right) {other : String}
    (hne : other ≠ name) : canon (left.member other) = canon (right.member other) := by
  have hlookup := h other hne
  rw [member_eq, member_eq]
  cases hl : left.members.lookup other <;> cases hr : right.members.lookup other <;> simp_all

/-- The repository that holds a service is the one which configures it. -/
theorem IsValidDocument.repository_eq (h : IsValidDocument document)
    {repository service other : Json}
    (hconfigures : Configures document serviceId repository service)
    (hget : (byId "repository_id" (repositoriesOf document)).get? id = some other)
    (hmem : serviceId ∈ (servicesOf other).map (textOf "service_id")) : other = repository := by
  obtain ⟨service', hservice', hname⟩ := List.mem_map.mp hmem
  have hother := ((get?_byId_eq_some_iff h.repositories).mp hget).1
  exact (h.configures_unique ⟨hother, hservice', hname⟩ hconfigures).1

/-- A service that a change of repositories affects is configured differently. -/
theorem not_agree_of_mem_affectedServices
    (hold : IsValidDocument oldDocument) (hnew : IsValidDocument newDocument)
    (h : serviceId ∈ affectedServices oldDocument newDocument)
    {repository service repository' service' : Json}
    (hconfigures : Configures oldDocument serviceId repository service)
    (hconfigures' : Configures newDocument serviceId repository' service')
    (hagree : AgreeBut "services" repository repository') : canon service ≠ canon service' := by
  intro hcanon
  obtain ⟨id, -, h⟩ := List.mem_flatMap.mp h
  have hshape := hold.shape_of_mem_repositoriesOf hconfigures.mem_repositories
  have hshape' := hnew.shape_of_mem_repositoriesOf hconfigures'.mem_repositories
  have hids : textOf "repository_id" repository = textOf "repository_id" repository' := by
    have hmember := hagree.canon_member_eq (show "repository_id" ≠ "services" by decide)
    rw [member_eq_str_textOf hshape (by simp) rfl, member_eq_str_textOf hshape' (by simp) rfl]
      at hmember
    simpa using hmember
  have hget (id : String) : (byId "repository_id" (repositoriesOf oldDocument)).get? id =
      some repository ↔ (byId "repository_id" (repositoriesOf newDocument)).get? id =
        some repository' := by
    rw [get?_byId_eq_some_iff hold.repositories, get?_byId_eq_some_iff hnew.repositories, hids]
    exact and_congr_left fun _ => iff_of_true hconfigures.mem_repositories
      hconfigures'.mem_repositories
  split at h
  next previous next hgetOld hgetNew =>
    obtain ⟨rfl, rfl⟩ : previous = repository ∧ next = repository' := by
      have hmem : serviceId ∈ (servicesOf previous).map (textOf "service_id") ∨
          serviceId ∈ (servicesOf next).map (textOf "service_id") := by
        unfold changedServices at h
        split_ifs at h
        · rwa [map_append, mem_append] at h
        · have hkeys := List.mem_dedup.mp (List.mem_filter.mp h).1
          rwa [mem_append, mem_keys_byId, mem_keys_byId] at hkeys
      rcases hmem with hmem | hmem
      · obtain rfl := hold.repository_eq hconfigures hgetOld hmem
        exact ⟨rfl, Option.some.inj (hgetNew.symm.trans ((hget id).mp hgetOld))⟩
      · obtain rfl := hnew.repository_eq hconfigures' hgetNew hmem
        exact ⟨Option.some.inj (hgetOld.symm.trans ((hget id).mpr hgetNew)), rfl⟩
    unfold changedServices at h
    split_ifs at h with hmetadata
    · refine differ_iff.mp hmetadata ?_
      simp [repositoryMetadata, canon_obj, hagree.canon_member_eq]
    · have hdiffer := of_decide_eq_true (List.mem_filter.mp h).2
      rw [(get?_byId_eq_some_iff (hold.nodup_services hconfigures.mem_repositories)).mpr
        ⟨hconfigures.mem_services, hconfigures.name⟩,
        (get?_byId_eq_some_iff (hnew.nodup_services hconfigures'.mem_repositories)).mpr
        ⟨hconfigures'.mem_services, hconfigures'.name⟩] at hdiffer
      exact differ_iff.mp hdiffer hcanon
  next hgetOld hgetNew =>
    obtain rfl := hold.repository_eq hconfigures hgetOld h
    cases hgetNew.symm.trans ((hget id).mp hgetOld)
  next hgetOld hgetNew =>
    obtain rfl := hnew.repository_eq hconfigures' hgetNew h
    cases hgetOld.symm.trans ((hget id).mpr hgetNew)
  · cases h

/-- No service is analysed again for nothing: the settings of a named service are not the same. -/
theorem not_sameSettings_of_named (ajvIssues : Json → List ValidationIssue)
    {activeInput candidateInput : Json}
    {active candidate : ConfigurationPair} {named : List String}
    (hactive : validatePair ajvIssues activeInput = .ok active)
    (hcandidate : validatePair ajvIssues candidateInput = .ok candidate)
    (hnamed : calculateConfigurationImpact ajvIssues activeInput candidateInput = .ok named) :
    ∀ serviceId ∈ named, ¬SameSettings active candidate serviceId := by
  intro serviceId hmem hsame
  have hold := isValidDocument_of_validatePair hactive
  have hnew := isValidDocument_of_validatePair hcandidate
  obtain rfl : configurationImpact active candidate = named := by
    rw [calculateConfigurationImpact, hactive, hcandidate] at hnamed
    exact Except.ok.inj hnamed
  unfold configurationImpact at hmem
  dsimp only at hmem
  split_ifs at hmem with hversion hglobals
  · have hversionOf {document : Json} (h : IsValidDocument document) :
        document.member "config_version" = .str "1.0.0" := by
      obtain ⟨value, hvalue⟩ := exists_of_isClosedObject h.shape
        (show "config_version" ∈ _ by simp)
      have hshape := shape_of_lookup h.shape hvalue rfl
      rw [member_eq_of_lookup hvalue]
      cases value with
      | str s => simpa [isLiteral] using hshape
      | _ => cases hshape
    exact hversion.elim (absurd hsame.fingerprint) fun hne =>
      hne ((hversionOf hold).trans (hversionOf hnew).symm)
  · simp [differ_iff, hsame.globals.canon_member_eq] at hglobals
  · obtain ⟨repository, service, hconfigures⟩ := hsame.configured
    obtain ⟨repository', service', hconfigures'⟩ := hsame.configured'
    obtain ⟨hagree, hcanon⟩ := hsame.settings _ _ _ _ hconfigures hconfigures'
    exact not_agree_of_mem_affectedServices hold hnew (mem_canonicalSet.mp hmem) hconfigures
      hconfigures' hagree hcanon

/-! ### Two configurations of a service -/

def pairInput (fingerprint : String) (document : Json) : Json :=
  .obj [("fingerprint", .str fingerprint), ("document", document)]

theorem validatePair_pairInput {fingerprint : String} (hfingerprint : fingerprint ≠ "")
    (hshape : isInstallationConfig document = true)
    (hreferences : validateConfigReferences document = []) :
    validatePair ajvIssues (pairInput fingerprint document) = .ok ⟨fingerprint, document⟩ := by
  have hparse : parseConfig ajvIssues document = .ok document := by
    rw [parseConfig, if_pos hshape]
    exact if_pos hreferences
  have hnonempty : Json.isNonEmptyString (.str fingerprint) = true := decide_eq_true hfingerprint
  simp only [pairInput, validatePair]
  simp [hnonempty, hparse, lookup_cons, textOf, member]
  rfl

def ordersService (root : String) : Json :=
  .obj [("service_id", .str "orders"), ("root", .str root),
    ("analyzer", .obj [("adapter_id", .str "typescript"), ("adapter_version", .str "1")]),
    ("intended_branches", .arr [.str "main"]), ("environments", .arr [])]

def ordersConfiguration (root : String) : Json :=
  .obj [("config_version", .str "1.0.0"),
    ("access_scopes", .arr [.obj [("access_scope_id", .str "engineering"),
      ("label", .str "Engineering")]]),
    ("repositories", .arr [.obj [("repository_id", .str "commerce"), ("provider", .str "github"),
      ("locator", .str "acme/commerce"), ("access_scope_id", .str "engineering"),
      ("services", .arr [ordersService root])]])]

theorem not_sameSettings_of_named_orders :
    ¬SameSettings ⟨"one", ordersConfiguration "services/orders"⟩
      ⟨"one", ordersConfiguration "apps/orders"⟩ "orders" :=
  not_sameSettings_of_named (fun _ => [])
    (validatePair_pairInput (by decide) (by decide +kernel) (by decide +kernel))
    (validatePair_pairInput (by decide) (by decide +kernel) (by decide +kernel))
    (by decide +kernel) "orders" (mem_singleton_self _)

theorem calculateConfigurationImpact_sound_orders :
    ∃ named, calculateConfigurationImpact (fun _ => [])
        (pairInput "one" (ordersConfiguration "services/orders"))
        (pairInput "one" (ordersConfiguration "apps/orders")) = .ok named ∧
      calculateConfigurationImpact (fun _ => [])
        (pairInput "one" (ordersConfiguration "apps/orders"))
        (pairInput "one" (ordersConfiguration "services/orders")) = .ok named ∧
      ∀ serviceId, (serviceId ∈ serviceIdsOf (ordersConfiguration "services/orders") ∨
        serviceId ∈ serviceIdsOf (ordersConfiguration "apps/orders")) → serviceId ∉ named →
        SameSettings ⟨"one", ordersConfiguration "services/orders"⟩
          ⟨"one", ordersConfiguration "apps/orders"⟩ serviceId :=
  calculateConfigurationImpact_sound
    (validatePair_pairInput (by decide) (by decide +kernel) (by decide +kernel))
    (validatePair_pairInput (by decide) (by decide +kernel) (by decide +kernel))

end ApiTruth.Orchestration
