import ApiTruth.Query.OperationSearch

/-!
# The keyword search across services

One transaction reads the active configuration, keeps the services of an environment whose scopes
are granted, and searches the serving contract of each of them.  Limits and contracts that do not
resolve make the search incomplete.

What the database answers in the transaction and what the clock says at each check of the deadline
are the fields of a reader.

## Main definitions

* `CorpusReader` : the answers of the database and of the clock.
* `configuredServices`, `authorizedServices`, `visibleRead`.
* `searchService`, `searchServices`, `searchCorpus`.
-/

namespace ApiTruth.Query

open Checked Ir

/-! ### What is read -/

inductive CorpusError
  | budgetExceeded
  | failed
deriving DecidableEq, Repr

/-- A service of the configuration, with its environments and the scopes of their authorities. -/
structure ServiceConfig where
  serviceId : String
  environments : List (String × String)

structure RepositoryConfig where
  repositoryId : String
  accessScopeId : String
  services : List ServiceConfig

/-- The row of the active configuration: too large to be read, invalid, or with its size. -/
inductive ActiveDocument
  | oversized
  | invalid
  | document (bytes : ℕ) (repositories : List RepositoryConfig)

structure Configured where
  repositoryId : String
  serviceId : String
  repositoryScope : String
  environmentScope : String
deriving DecidableEq, Repr

/-- What `readEnvironment` finds: nothing that may be seen, a state without a contract, or a contract
in a document of this size. -/
inductive EnvironmentRead
  | denied
  | unresolved
  | resolved (documentBytes : ℕ) (input : SearchInput)

inductive DeadlineCheck
  | beforeGrants
  | beforeService (service : Configured)
  | beforeScopes (service : Configured)
  | afterService (service : Configured)

/-- The answers of the database in the transaction, and of the clock. -/
structure CorpusReader where
  active : Except CorpusError (Option ActiveDocument)
  grants : Except CorpusError (List String)
  readEnvironment : QuerySelection → Except CorpusError EnvironmentRead
  queryScopes : Configured → Except CorpusError Unit
  isExpired : DeadlineCheck → Bool

structure CorpusSearchRequest where
  tenantId : String
  environment : String
  options : OperationSearchOptions

structure CorpusCandidate where
  candidate : OperationCandidate
  service : Configured
  selector : QuerySelection
  pin : QueryPin

/-- The reasons of an unknown result across services. -/
inductive CorpusUnknownReason
  | noVisibleServices
  | scanLimit
  | incompleteScan
deriving DecidableEq, Repr

/-- `CorpusOperationSearchResult`; an incomplete list of candidates says why. -/
inductive CorpusSearchResult
  | candidates (candidates : List CorpusCandidate) (truncated : Bool)
      (incompleteReason : Option CorpusUnknownReason)
  | noMatch
  | unknown (reason : CorpusUnknownReason)

/-! ### Services -/

/-- The services of the environment among some of the configuration, with the scopes they need. -/
def configuredServices (environment : String)
    (services : List (RepositoryConfig × ServiceConfig)) : List Configured :=
  services.filterMap fun (repository, service) =>
    (service.environments.lookup environment).map fun scope =>
      ⟨repository.repositoryId, service.serviceId, repository.accessScopeId, scope⟩

def allServices (repositories : List RepositoryConfig) :
    List (RepositoryConfig × ServiceConfig) :=
  repositories.flatMap fun repository => repository.services.map fun service =>
    (repository, service)

def configuredLe (left right : Configured) : Prop :=
  [left.repositoryId, left.serviceId].map Host.utf8 ≤
    [right.repositoryId, right.serviceId].map Host.utf8

instance : DecidableRel configuredLe := fun _ _ => inferInstanceAs (Decidable (_ ≤ _))

/-- The configured services whose scopes are granted. -/
def authorizedServices (grants : List String) (services : List Configured) : List Configured :=
  services.filter fun service =>
    grants.contains service.repositoryScope && grants.contains service.environmentScope

/-- `hasScopes`, where these scopes are granted. -/
def hasScopes (grants scopes : List String) : Bool :=
  !scopes.isEmpty && scopes.all isIdentifier && scopes.all grants.contains

def selectionOf (request : CorpusSearchRequest) (service : Configured)
    (version : Option String) : QuerySelection :=
  ⟨request.tenantId, service.repositoryId, service.serviceId,
    .environment request.environment version⟩

def evidenceScopes (snapshot : ContractSnapshot) : List String :=
  (snapshot.evidence.map Evidence.accessLabel).eraseDups

def snapshotBytes (snapshot : ContractSnapshot) : ℕ := byteLength (Json.stringify snapshot.toJson)

def pinnedInput (request : CorpusSearchRequest) (service : Configured) (input : SearchInput) :
    SearchInput :=
  { input with selector := selectionOf request service input.pin.checkpointVersion }

/-! ### The loop -/

/-- The variables of the loop over the services. -/
structure CorpusState where
  scanLimit : Bool := false
  isIncomplete : Bool := false
  truncated : Bool := false
  visible : ℕ := 0
  bytes : ℕ
  endpoints : ℕ := 0
  found : List CorpusCandidate := []

/-- The loop ends early at a limit. -/
def CorpusState.limited (state : CorpusState) : CorpusState := { state with scanLimit := true }

section Loop

variable (host : Host) (unicode : Unicode) (reader : CorpusReader) (request : CorpusSearchRequest)
  (grants : List String)

/-- What the result of the search in a service adds. -/
def CorpusState.add (state : CorpusState) (service : Configured) (input : SearchInput) :
    OperationSearchResult → CorpusState
  | .candidates candidates truncated complete =>
    { state with
      isIncomplete := state.isIncomplete || !complete
      truncated := state.truncated || truncated
      found := state.found ++ candidates.map fun candidate =>
        ⟨candidate, service, input.selector, input.pin⟩ }
  | .noMatch => state
  | .unknown _ => { state with isIncomplete := true }

/-- A resolved service: a limit is exceeded, or the search goes on. -/
def searchResolved (service : Configured) (input : SearchInput) (state : CorpusState) :
    Except CorpusError (Bool × CorpusState) := do
  let state := { state with
    visible := state.visible + 1
    endpoints := state.endpoints + input.snapshot.endpoints.length
    bytes := state.bytes + snapshotBytes input.snapshot }
  if 5000 < state.endpoints ∨ 4194304 < state.bytes then return (false, state.limited)
  let input := pinnedInput request service input
  require (input.pin.checkpointVersion.isSome ∧ isQuerySelection input.selector = true) .failed
  let state := state.add service input (searchOperationCandidates host unicode (some input)
    ⟨request.options.intentQuery, 20⟩)
  if reader.isExpired (.afterService service) then return (false, state.limited)
  return (true, state)

/-- A resolved service whose evidence may have scopes of its own. -/
def searchAuthorized (service : Configured) (input : SearchInput) (state : CorpusState) :
    Except CorpusError (Bool × CorpusState) :=
  let scopes := evidenceScopes input.snapshot
  if 1024 < scopes.length then .ok (false, state.limited)
  else if scopes.isEmpty then searchResolved host unicode reader request service input state
  else if reader.isExpired (.beforeScopes service) then .ok (false, state.limited)
  else do
    reader.queryScopes service
    if hasScopes grants scopes then searchResolved host unicode reader request service input state
    else return (true, state)

/-- A service of the loop: whether the loop goes on, and the new state. -/
def searchService (service : Configured) (state : CorpusState) :
    Except CorpusError (Bool × CorpusState) :=
  if 4194304 < state.bytes ∨ reader.isExpired (.beforeService service) then
    .ok (false, state.limited)
  else do
    require (isQuerySelection (selectionOf request service none) = true) .failed
    match ← reader.readEnvironment (selectionOf request service none) with
    | .denied => return (true, state)
    | .unresolved =>
      return (true, { state with visible := state.visible + 1, isIncomplete := true })
    | .resolved documentBytes input =>
      require (documentBytes ≤ 4194304 - state.bytes) .budgetExceeded
      searchAuthorized host unicode reader request grants service input state

def searchServices : List Configured → CorpusState → Except CorpusError CorpusState
  | [], state => .ok state
  | service :: services, state => do
    let step ← searchService host unicode reader request grants service state
    if step.1 then searchServices services step.2 else return step.2

end Loop

/-! ### The search -/

def corpusCandidateLe (left right : CorpusCandidate) : Prop :=
  right.candidate.score < left.candidate.score ∨
    left.candidate.score = right.candidate.score ∧
      [left.service.repositoryId, left.service.serviceId, left.candidate.endpointId].map Host.utf8 ≤
      [right.service.repositoryId, right.service.serviceId, right.candidate.endpointId].map Host.utf8

instance : DecidableRel corpusCandidateLe := fun _ _ => inferInstanceAs (Decidable (_ ∨ _))

def corpusResult (limit : ℕ) (state : CorpusState) : CorpusSearchResult :=
  let found := state.found.insertionSort corpusCandidateLe
  let complete := !state.scanLimit && !state.isIncomplete
  if found.isEmpty then
    if complete && decide (0 < state.visible) then .noMatch
    else .unknown (if state.scanLimit then .scanLimit
      else if state.visible = 0 then .noVisibleServices else .incompleteScan)
  else .candidates (found.take limit) (state.truncated || decide (limit < found.length))
    (if complete then none else some (if state.scanLimit then .scanLimit else .incompleteScan))

def searchCorpusWithClient (host : Host) (unicode : Unicode) (reader : CorpusReader)
    (request : CorpusSearchRequest) : Except CorpusError CorpusSearchResult := do
  match ← reader.active with
  | none => return .unknown .noVisibleServices
  | some .oversized => return .unknown .scanLimit
  | some .invalid => throw .failed
  | some (.document bytes repositories) =>
    if 4194304 < bytes ∨ reader.isExpired .beforeGrants then return .unknown .scanLimit
    let services := allServices repositories
    let configured := (configuredServices request.environment (services.take 200)).insertionSort
      configuredLe
    let grants ← reader.grants
    if 1024 < grants.length then return .unknown .scanLimit
    let authorized := authorizedServices grants configured
    let state ← searchServices host unicode reader request grants (authorized.take 20)
      { scanLimit := decide (200 < services.length) || decide (20 < authorized.length), bytes }
    return corpusResult request.options.limit.toNat state

/-- `searchOperationCandidatesAcrossServices`; an exceeded budget is a limit of the scan. -/
def searchCorpus (host : Host) (unicode : Unicode) (reader : CorpusReader)
    (request : CorpusSearchRequest) : Except CorpusError CorpusSearchResult := do
  require (isIdentifier request.tenantId = true ∧ isIdentifier request.environment = true ∧
    request.options.isValid = true) .failed
  match searchCorpusWithClient host unicode reader request with
  | .error .budgetExceeded => return .unknown .scanLimit
  | .error .failed => throw .failed
  | .ok result => return result

end ApiTruth.Query
