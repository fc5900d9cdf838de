import ApiTruth.Query.Terms
import ApiTruth.Semantics.Kernel

/-!
# The keyword search for operations

A query is matched with the texts of one contract: the path of an endpoint, and what claims with
qualified evidence say about it.  A contract without a match is reported as such only if it is
complete and every endpoint has an exactly supported route.

## Main definitions

* `routeEvidence`, `routeUnambiguous` : the support of a route.
* `pathTexts`, `claimTexts` : the texts of an endpoint that are matched.
* `scanEndpoint`, `searchOperationCandidates`.
-/

namespace ApiTruth.Query

open Ir
open Semantics (evidenceAt isLocalEvidence isJavaProfile isPlain hasText)

/-! ### Options and inputs -/

/-- `safeText`, which is the check on the documents of a request to a model. -/
def safeText (value : String) (max : ℕ) : Bool := Semantics.isSemanticDocumentTextSafe value max

def safeTextOf (value : Json) (max : ℕ) : Option String :=
  (Semantics.text? value).filter (safeText · max)

/-- `safeIdentifier`, with the text. -/
def safeIdentifier (value : Json) : Option String :=
  (Semantics.text? value).filter fun text => decide (unitLength text ≤ 128) &&
    Semantics.isIdentifierWord text.toList && !Semantics.credentialPattern.test text

structure OperationSearchOptions where
  intentQuery : String
  limit : ℤ := 20
deriving DecidableEq, Repr

/-- `validateOperationSearchOptions` accepts the options. -/
def OperationSearchOptions.isValid (options : OperationSearchOptions) : Bool :=
  Semantics.isSemanticIntentQuerySafe options.intentQuery && decide (1 ≤ options.limit) &&
    decide (options.limit ≤ 20)

/-- The selection, the pin and the snapshot of a resolved contract. -/
structure SearchInput where
  snapshot : ContractSnapshot
  selector : QuerySelection
  pin : QueryPin

/-- The limits of `cloneJson`. -/
def searchLimits : Json.Limits := ⟨4194304, 100000, 64, 10001, some 65536⟩

def isPinnedEnvironment (selector : QuerySelector) (pin : QueryPin) : Bool :=
  match selector with
  | .environment _ version => version.isSome && pin.checkpointVersion == version
  | _ => false

/-- `[a-fA-F0-9]{12,128}`. -/
def isRevision (value : String) : Bool :=
  decide (12 ≤ value.length) && decide (value.length ≤ 128) && value.toList.all fun c =>
    c.isDigit || ('a' ≤ c && c ≤ 'f') || ('A' ≤ c && c ≤ 'F')

/-- `resolvedInput` accepts the input. -/
def SearchInput.isValid (host : Host) (input : SearchInput) : Bool :=
  (Json.copyWithin searchLimits input.selector.toJson).isSome &&
    (Json.copyWithin searchLimits input.pin.toJson).isSome &&
    (Json.copyWithin searchLimits input.snapshot.toJson).isSome &&
    isQuerySelection input.selector && decide (input.snapshot.Accepted host) &&
    input.pin.pointerVersion.isNone &&
    (input.pin.selectedRevision.all fun revision =>
      isRevision revision && revision != input.pin.revision) &&
    isPinnedEnvironment input.selector.selector input.pin &&
    input.pin.snapshotId == input.snapshot.snapshotId &&
    input.pin.revision == input.snapshot.source.immutableRevision &&
    input.pin.configFingerprint == input.snapshot.config.configFingerprint &&
    input.selector.repositoryId == input.snapshot.source.repositoryId &&
    input.selector.repositoryId == input.snapshot.service.repositoryId &&
    input.selector.serviceId == input.snapshot.service.serviceId

/-! ### Evidence of claims -/

section Snapshot

variable (snapshot : ContractSnapshot)

def evidenceMatches (id endpointId sourceKind : String) (method : EvidenceMethod) : Bool :=
  (evidenceAt snapshot id).any fun evidence => isLocalEvidence snapshot evidence &&
    evidence.sourceKind == sourceKind && evidence.method == method &&
    evidence.scope.endpointId == some endpointId

/-- The claim is about the endpoint, and about nothing inside a schema. -/
def isAbout (claim : Claim) (endpointId : String) : Bool :=
  claim.subject.serviceId == snapshot.service.serviceId &&
    claim.subject.endpointId == some endpointId && claim.subject.schemaPointer.isNone

/-- `claimEvidence`, for a claim of this verification. -/
def claimEvidence (claim : Claim) (endpointId sourceKind : String) (method : EvidenceMethod)
    (verification : Verification) : Option (List String) :=
  if isAbout snapshot claim endpointId && decide (1 ≤ claim.evidenceIds.length) &&
      decide (claim.evidenceIds.length ≤ 8) && claim.verification == verification &&
      claim.evidenceIds.all (evidenceMatches snapshot · endpointId sourceKind method)
  then some claim.evidenceIds
  else none

/-- `claimEvidence` with `api_document` and `type_declaration`. -/
def documentEvidence (claim : Claim) (endpointId : String) : Option (List String) :=
  claimEvidence snapshot claim endpointId "api_document" .typeDeclaration .declared

/-- `claimEvidence` with `source_code` and `deterministic_analysis`. -/
def analysisEvidence (claim : Claim) (endpointId : String) : Option (List String) :=
  claimEvidence snapshot claim endpointId "source_code" .deterministicAnalysis
    .establishedByAnalysis

def routingDeclarationEvidence (claim : Claim) (endpointId : String) : Option (List String) :=
  let hasMethod := fun method => claim.evidenceIds.any
    (evidenceMatches snapshot · endpointId "source_code" method)
  if claim.verification == .declared && isAbout snapshot claim endpointId &&
      decide (2 ≤ claim.evidenceIds.length) && decide (claim.evidenceIds.length ≤ 8) &&
      (claim.evidenceIds.all fun id =>
        evidenceMatches snapshot id endpointId "source_code" .typeDeclaration ||
          evidenceMatches snapshot id endpointId "source_code" .deterministicAnalysis) &&
      hasMethod .typeDeclaration && hasMethod .deterministicAnalysis
  then some claim.evidenceIds
  else none

def javaDeclarationEvidence (claim : Claim) (endpointId : String) : Option (List String) :=
  match claim.evidenceIds with
  | [id] =>
    if isJavaProfile snapshot.analyzer && claim.predicate == "route.declaration" &&
        claim.verification == .declared && isAbout snapshot claim endpointId &&
        evidenceMatches snapshot id endpointId "source_code" .typeDeclaration
    then some [id]
    else none
  | _ => none

/-- `javaRouteValue`, with the handler. -/
def javaHandler (value : Json) (endpoint : Endpoint) : Option String :=
  if isPlain ["method", "path", "selectors", "handler"] value &&
      hasText value "method" endpoint.identity.method &&
      hasText value "path" endpoint.applicationPath &&
      Json.canonicalJson (value.member "selectors") ==
        Json.canonicalJson endpoint.identity.selectors.toJson
  then safeIdentifier (value.member "handler")
  else none

/-- `codeDeclaration`: a declaration with a controller, where the analyzer is not the one of Java. -/
def isCodeDeclaration (claim : Claim) : Bool :=
  !isJavaProfile snapshot.analyzer && claim.predicate == "route.declaration" &&
    (claim.value.members.lookup "controller").isSome

def routeEvidence (endpoint : Endpoint) (claim : Claim) : Option (List String) :=
  if isJavaProfile snapshot.analyzer then
    if claim.predicate == "route.declaration" && (javaHandler claim.value endpoint).isSome
    then javaDeclarationEvidence snapshot claim endpoint.endpointId
    else none
  else if isCodeDeclaration snapshot claim then
    routingDeclarationEvidence snapshot claim endpoint.endpointId
  else if claim.predicate == "route.declaration" then
    documentEvidence snapshot claim endpoint.endpointId
  else analysisEvidence snapshot claim endpoint.endpointId

/-! ### Endpoints -/

section Endpoint

variable (endpoint : Endpoint)

/-- `endpointClaims`; an empty identifier counts as none. -/
def endpointClaims : List Claim :=
  if endpoint.endpointId == "" then []
  else snapshot.claims.filter fun claim => claim.subject.endpointId == some endpoint.endpointId

def routeInputs : List Claim :=
  (endpointClaims snapshot endpoint).filter fun claim =>
    claim.predicate == "route.declaration" || claim.predicate == "route.registration"

/-- `routeClaims`: the supported ones, with their evidence. -/
def routeClaims : List (Claim × List String) :=
  (routeInputs snapshot endpoint).filterMap fun claim =>
    (routeEvidence snapshot endpoint claim).map fun ids => (claim, ids)

def routeUnambiguous : Bool :=
  !(routeInputs snapshot endpoint).isEmpty &&
    (!isJavaProfile snapshot.analyzer || (routeInputs snapshot endpoint).length == 1) &&
    (routeClaims snapshot endpoint).length == (routeInputs snapshot endpoint).length &&
    (routeClaims snapshot endpoint).all fun route =>
      hasText route.1.value "method" endpoint.identity.method &&
        hasText route.1.value "path" endpoint.applicationPath

def pathIds : List String :=
  if routeUnambiguous snapshot endpoint then
    ((routeClaims snapshot endpoint).head?.map Prod.snd).getD []
  else []

/-- What a matched text is, as far as labels look at it. -/
inductive TextKind
  | summary
  | description
  | operationId
  | path
  | name
deriving DecidableEq, Repr

/-- A text that is matched, with what a match counts and cites. -/
structure SearchedText where
  kind : TextKind
  text : String
  weight : ℕ
  evidenceIds : List String
deriving DecidableEq, Repr

/-- The path is matched where the route is supported. -/
def pathTexts : List SearchedText :=
  if (pathIds snapshot endpoint).isEmpty then []
  else [⟨.path, endpoint.applicationPath, 2, pathIds snapshot endpoint⟩]

def pointersEndWith (ids : List String) (suffix : String) : Bool :=
  ids.all fun id => (evidenceAt snapshot id).any fun evidence =>
    evidence.location.pointer.any fun pointer => suffix.toList.isSuffixOf pointer.toList

def documentTexts (claim : Claim) (kind : TextKind) (weight : ℕ) (suffix : String) :
    Option (List SearchedText) := do
  let text ← safeTextOf claim.value 2048
  let ids ← documentEvidence snapshot claim endpoint.endpointId
  if pointersEndWith snapshot ids suffix then some [⟨kind, text, weight, ids⟩] else none

/-- The texts of a declared route that is supported. -/
def declarationTexts (claim : Claim) (ids : List String) : List SearchedText :=
  if isCodeDeclaration snapshot claim then
    match safeIdentifier (claim.value.member "controller"),
      safeIdentifier (claim.value.member "action") with
    | some controller, some action => [⟨.name, controller ++ " " ++ action, 2, ids⟩]
    | _, _ => []
  else
    ((safeTextOf (claim.value.member "operationId") 128).map fun text =>
      ⟨.operationId, text, 5, ids⟩).toList ++
    if isJavaProfile snapshot.analyzer then
      ((javaHandler claim.value endpoint).map fun handler => ⟨.name, handler, 2, ids⟩).toList
    else []

/-- The texts of a claim that are matched; a claim without context has none. -/
def claimTexts (claim : Claim) : Option (List SearchedText) :=
  if claim.predicate == "operation.summary" then
    documentTexts snapshot endpoint claim .summary 8 "/summary"
  else if claim.predicate == "operation.description" then
    documentTexts snapshot endpoint claim .description 3 "/description"
  else if claim.predicate == "route.declaration" then do
    let ids ← routeEvidence snapshot endpoint claim
    if routeUnambiguous snapshot endpoint then
      some (declarationTexts snapshot endpoint claim ids) else none
  else if claim.predicate == "route.registration" then do
    let _ ← routeEvidence snapshot endpoint claim
    if routeUnambiguous snapshot endpoint then some [] else none
  else if claim.predicate == "handler.symbol" && !isJavaProfile snapshot.analyzer then do
    let ids ← analysisEvidence snapshot claim endpoint.endpointId
    let symbol ← safeTextOf (claim.value.member "symbol") 128
    some [⟨.name, symbol, 2, ids⟩]
  else none

def searchedTexts : List SearchedText :=
  pathTexts snapshot endpoint ++
    (endpointClaims snapshot endpoint).flatMap fun claim =>
      (claimTexts snapshot endpoint claim).getD []

def endpointHasContext : Bool :=
  !(pathIds snapshot endpoint).isEmpty ||
    (endpointClaims snapshot endpoint).any fun claim => (claimTexts snapshot endpoint claim).isSome

def isSafePath : Bool :=
  safeText endpoint.applicationPath 512 &&
    !("//".toList.isPrefixOf endpoint.applicationPath.toList)

end Endpoint

end Snapshot

/-! ### Candidates -/

structure OperationCandidate where
  endpointId : String
  method : String
  path : String
  label : String
  evidenceIds : List String
  score : ℕ
deriving DecidableEq, Repr

/-- `slice(0, limit)`; a character that the limit would cut in two is left out. -/
def sliceUnits : ℕ → List Char → List Char
  | _, [] => []
  | limit, c :: cs =>
    let units := if c.toNat < 65536 then 1 else 2
    if units ≤ limit then c :: sliceUnits (limit - units) cs else []

/-- The label of a candidate: the first match of the best kind. -/
def candidateLabel (matched : List SearchedText) (endpoint : Endpoint) : String :=
  let first := fun kind => (matched.find? fun item => item.kind == kind).map fun item =>
    String.ofList (sliceUnits 160 item.text.toList)
  first .summary |>.or (first .description) |>.or (first .operationId) |>.or (first .path)
    |>.getD (endpoint.identity.method ++ " operation")

/-- What the loop over the endpoints makes of one endpoint. -/
structure EndpointScan where
  covered : Bool
  usable : Bool
  candidate : Option OperationCandidate

section Search

variable (unicode : Unicode) (snapshot : ContractSnapshot) (terms : List String)

def matchScore (texts : List SearchedText) : ℕ :=
  (texts.map fun item => item.weight * countMatches unicode item.text terms).sum

def scanEndpoint (endpoint : Endpoint) : EndpointScan :=
  if isSafePath endpoint then
    let ids := pathIds snapshot endpoint
    let score := matchScore unicode terms (searchedTexts snapshot endpoint)
    let matched := (searchedTexts snapshot endpoint).filter fun item =>
      decide (0 < countMatches unicode item.text terms)
    { covered := !ids.isEmpty
      usable := endpointHasContext snapshot endpoint
      candidate :=
        if decide (0 < score) && !ids.isEmpty then
          some
            { endpointId := endpoint.endpointId
              method := endpoint.identity.method
              path := endpoint.applicationPath
              label := candidateLabel matched endpoint
              evidenceIds := (ids ++ matched.flatMap (·.evidenceIds)).dedup.insertionSort
                (utf16 · ≤ utf16 ·)
              score }
        else none }
  else ⟨false, false, none⟩

def candidateLe (left right : OperationCandidate) : Prop :=
  right.score < left.score ∨
    left.score = right.score ∧ Host.utf8 left.endpointId ≤ Host.utf8 right.endpointId

instance : DecidableRel candidateLe := fun _ _ => inferInstanceAs (Decidable (_ ∨ _))

inductive UnknownReason
  | invalidInput
  | unresolvedSelection
  | incompleteSnapshot
  | noUsableContext
  | scanLimit
deriving DecidableEq, Repr

/-- `OperationSearchResult`; the selection and the pin are those of the input. -/
inductive OperationSearchResult
  | candidates (candidates : List OperationCandidate) (truncated complete : Bool)
  | noMatch
  | unknown (reason : UnknownReason)
deriving DecidableEq, Repr

def searchSnapshot (limit : ℕ) : OperationSearchResult :=
  if terms.isEmpty then .unknown .noUsableContext
  else if snapshot.endpoints.isEmpty then .unknown .noUsableContext
  else if 5000 < snapshot.endpoints.length ∨ 50000 < snapshot.claims.length then
    .unknown .scanLimit
  else
    let scans := snapshot.endpoints.map (scanEndpoint unicode snapshot terms)
    let complete := !snapshot.coverage.isIncomplete && scans.all (·.covered)
    let candidates := (scans.filterMap (·.candidate)).insertionSort candidateLe
    if scans.any (·.usable) then
      if candidates.isEmpty then if complete then .noMatch else .unknown .incompleteSnapshot
      else .candidates (candidates.take limit) (decide (limit < candidates.length)) complete
    else .unknown .noUsableContext

end Search

/-- `searchOperationCandidates`; a selection may not have been resolved. -/
def searchOperationCandidates (host : Host) (unicode : Unicode) (input : Option SearchInput)
    (options : OperationSearchOptions) : OperationSearchResult :=
  if options.isValid then
    match input with
    | none => .unknown .unresolvedSelection
    | some input =>
      if input.isValid host then
        searchSnapshot unicode input.snapshot (termsFor unicode options.intentQuery)
          options.limit.toNat
      else .unknown .invalidInput
  else .unknown .invalidInput

end ApiTruth.Query
