import ApiTruth.Ir.Validation

/-!
# The projection of endpoints onto operations

An operation of a document stands under a path template and a method.  The planner groups the
endpoints of a snapshot by method and by the shape of their path, with the names of parameters
forgotten; an endpoint with another method or with a path that no template renders is reported.

## Main definitions

* `sortedBy`, `sorted` : the order of UTF-16 code units.
* `projectedShape`, `openApiPath` : the shape and the template of an application path.
* `planOpenApiProjection` : the groups of a snapshot.

## Main results

* `mem_groups_iff` : the groups are the classes of the routed endpoints with one method and shape.
-/

namespace ApiTruth.OpenApi

open ApiTruth.Ir List OrderedMap

/-! ### Sorting -/

/-- `sort` by the first of the keys that differ, in the order of `ascii`. -/
def sortedBy {α : Type*} (keys : α → List String) (xs : List α) : List α :=
  xs.insertionSort fun a b => (keys a).map utf16 ≤ (keys b).map utf16

def sorted {α : Type*} (key : α → String) (xs : List α) : List α := sortedBy (fun x => [key x]) xs

section Sorted

variable {α : Type*} (keys : α → List String) (key : α → String) (xs : List α)

theorem sortedBy_perm : (sortedBy keys xs).Perm xs := perm_insertionSort _ _

theorem sorted_perm : (sorted key xs).Perm xs := sortedBy_perm _ _

@[simp] theorem mem_sortedBy {x : α} : x ∈ sortedBy keys xs ↔ x ∈ xs :=
  (sortedBy_perm keys xs).mem_iff

@[simp] theorem mem_sorted {x : α} : x ∈ sorted key xs ↔ x ∈ xs := (sorted_perm key xs).mem_iff

@[simp] theorem sorted_nil : sorted key [] = [] := rfl

@[simp] theorem sorted_singleton (x : α) : sorted key [x] = [x] := rfl

theorem nodup_map_sorted {β : Type*} {f : α → β} :
    ((sorted key xs).map f).Nodup ↔ (xs.map f).Nodup :=
  ((sorted_perm key xs).map f).nodup_iff

theorem lookup_sorted (entries : List (String × α)) (name : String) :
    (sorted Prod.fst entries).lookup name = entries.lookup name := by
  have hinsert (entry : String × α) (rest : List (String × α)) :
      (rest.orderedInsert (fun a b => [a.1].map utf16 ≤ [b.1].map utf16) entry).lookup name =
        (entry :: rest).lookup name := by
    induction rest with
    | nil => rfl
    | cons next rest ih =>
      by_cases hle : [entry.1].map utf16 ≤ [next.1].map utf16
      · rw [List.orderedInsert, if_pos hle]
      · have hne : next.1 ≠ entry.1 := fun heq => hle (heq ▸ le_refl _)
        rw [List.orderedInsert, if_neg hle, lookup_cons_ite, ih,
          lookup_cons_ite, lookup_cons_ite, lookup_cons_ite]
        by_cases hname : name = next.1
        · subst hname
          simp [hne]
        · simp [hname]
  induction entries with
  | nil => rfl
  | cons entry entries ih =>
    rw [sorted, sortedBy, insertionSort_cons, hinsert, lookup_cons_ite,
      lookup_cons_ite, ← ih, sorted, sortedBy]

end Sorted

/-! ### Paths -/

/-- The methods of an OpenAPI path item. -/
def methods : List String := ["GET", "PUT", "POST", "DELETE", "OPTIONS", "HEAD", "PATCH", "TRACE"]

/-- `[A-Za-z0-9._~-]`. -/
def isLiteralChar (c : Char) : Bool := c.isAlphanum || c == '.' || c == '_' || c == '~' || c == '-'

/-- `literalSegment`. -/
def isLiteralSegment (segment : List Char) : Bool := !segment.isEmpty && segment.all isLiteralChar

/-- `parameterSegment`, which `openApiPath` has under the name `params` : the name that is
captured. -/
def segmentParameter : List Char → Option (List Char)
  | ':' :: name => if isPathName name then some name else none
  | '{' :: cs =>
    if isPathName cs.dropLast && cs.getLast? == some '}' then some cs.dropLast else none
  | _ => none

/-- `path.slice(1).split("/")`. -/
def pathSegments (path : String) : List (List Char) := (path.toList.drop 1).splitOn '/'

/-- `/${segments.join("/")}`. -/
def joinSegments (segments : List (List Char)) : String :=
  String.ofList ('/' :: List.intercalate ['/'] segments)

/-- A segment with the name of its parameter erased. -/
def projectedSegment (segment : List Char) : Option (List Char) :=
  if (segmentParameter segment).isSome then some ['{', '}']
  else if isLiteralSegment segment then some segment
  else none

def projectedShape (path : String) : Option String :=
  if path = "/" then some path
  else if path.toList.head? ≠ some '/' then none
  else ((pathSegments path).mapM projectedSegment).map joinSegments

def renderedSegment (segment : List Char) : List Char :=
  match segmentParameter segment with
  | none => segment
  | some name => '{' :: name ++ ['}']

/-- A path template with the names of its parameters. -/
structure RenderedPath where
  path : String
  names : List String
deriving DecidableEq, Repr

def openApiPath (path : String) : RenderedPath where
  path := if path = "/" then "/" else joinSegments ((pathSegments path).map renderedSegment)
  names := ((pathSegments path).filterMap segmentParameter).map String.ofList

/-! ### The plan -/

inductive GroupKind
  | single
  | selectedSingle
  | variantSet
deriving DecidableEq, Repr

/-- `OpenApiProjectionGroup`. -/
structure ProjectionGroup where
  method : String
  pathShape : String
  endpointIds : List String
  kind : GroupKind
deriving DecidableEq, Repr

/-- `OpenApiProjectionDiagnostic`. -/
structure ProjectionDiagnostic where
  code : String
  endpointIds : List String
deriving DecidableEq, Repr

/-- `OpenApiProjectionPlan`. -/
structure ProjectionPlan where
  snapshotId : String
  groups : List ProjectionGroup
  diagnostics : List ProjectionDiagnostic
deriving DecidableEq, Repr

def hasSelectors (endpoint : Endpoint) : Bool :=
  let selectors := endpoint.identity.selectors
  !(selectors.headers.getD []).isEmpty || !(selectors.consumes.getD []).isEmpty ||
    !(selectors.produces.getD []).isEmpty || !(selectors.query.getD []).isEmpty

structure RoutedEndpoint where
  endpoint : Endpoint
  pathShape : String

/-- The key of the candidates for one operation. -/
def RoutedEndpoint.key (routed : RoutedEndpoint) : String :=
  routed.endpoint.identity.method ++ "\u0000" ++ routed.pathShape

/-- The endpoint becomes a candidate, or the plan reports it under this code. -/
def routeEndpoint (endpoint : Endpoint) : Except String RoutedEndpoint :=
  if methods.contains endpoint.identity.method then
    match projectedShape endpoint.applicationPath with
    | none => .error "UNREPRESENTABLE_ROUTE"
    | some pathShape => .ok ⟨endpoint, pathShape⟩
  else .error "UNSUPPORTED_METHOD"

def projectionGroup : List RoutedEndpoint → Option ProjectionGroup
  | [] => none
  | first :: rest => some
    { method := first.endpoint.identity.method
      pathShape := first.pathShape
      endpointIds := sorted id ((first :: rest).map (·.endpoint.endpointId))
      kind :=
        if rest.isEmpty then if hasSelectors first.endpoint then .selectedSingle else .single
        else .variantSet }

/-- The endpoints that a template and a method of OpenAPI can represent. -/
def routedEndpoints (snapshot : ContractSnapshot) : List RoutedEndpoint :=
  snapshot.endpoints.filterMap fun endpoint => (routeEndpoint endpoint).toOption

def routeDiagnostics (endpoint : Endpoint) : List ProjectionDiagnostic :=
  match routeEndpoint endpoint with
  | .ok _ => []
  | .error code => [⟨code, [endpoint.endpointId]⟩]

def planOpenApiProjection (snapshot : ContractSnapshot) : ProjectionPlan :=
  let candidates := OrderedMap.groupBy RoutedEndpoint.key (routedEndpoints snapshot)
  let groups := candidates.entries.filterMap fun entry => projectionGroup entry.2
  let variants := (groups.filter (·.kind = .variantSet)).map fun group =>
    ⟨"VARIANT_REQUIRES_REPRESENTATION", group.endpointIds⟩
  { snapshotId := snapshot.snapshotId
    groups := sortedBy (fun group => [group.method, group.pathShape]) groups
    diagnostics := sortedBy (fun diagnostic =>
        [diagnostic.code, "\u0000".intercalate diagnostic.endpointIds])
      (snapshot.endpoints.flatMap routeDiagnostics ++ variants) }

/-! ### The groups of a snapshot -/

/-- A text in front of a separator that it does not contain can be told from what follows. -/
theorem append_separator_inj {a b c d separator : List Char} {sep : Char}
    (hseparator : separator = [sep]) (ha : sep ∉ a) (hb : sep ∉ b)
    (h : a ++ separator ++ c = b ++ separator ++ d) : a = b ∧ c = d := by
  subst hseparator
  have htake {u : List Char} (hu : sep ∉ u) (v : List Char) :
      (u ++ [sep] ++ v).takeWhile (· ≠ sep) = u := by
    have hall : ∀ x ∈ u, decide (x ≠ sep) = true := fun x hx => by
      simpa using fun heq : x = sep => hu (heq ▸ hx)
    rw [append_assoc, takeWhile_append_of_pos hall]
    simp
  have hab : a = b := by rw [← htake ha c, h, htake hb d]
  subst hab
  exact ⟨rfl, append_cancel_left h⟩

theorem notMem_of_mem_methods {method : String} (h : method ∈ methods) :
    '\x00' ∉ method.toList := by
  revert method
  decide

section Groups

variable {snapshot : ContractSnapshot} {routed : RoutedEndpoint} {group : ProjectionGroup}

theorem mem_routedEndpoints : routed ∈ routedEndpoints snapshot ↔
    routed.endpoint ∈ snapshot.endpoints ∧ routed.endpoint.identity.method ∈ methods ∧
      projectedShape routed.endpoint.applicationPath = some routed.pathShape := by
  have hroute (endpoint : Endpoint) : (routeEndpoint endpoint).toOption = some routed ↔
      endpoint = routed.endpoint ∧ endpoint.identity.method ∈ methods ∧
        projectedShape endpoint.applicationPath = some routed.pathShape := by
    obtain ⟨_, shape⟩ := routed
    unfold routeEndpoint
    by_cases hmethod : endpoint.identity.method ∈ methods
    · rw [if_pos (List.contains_iff_mem.mpr hmethod)]
      cases hshape : projectedShape endpoint.applicationPath with
      | none => simp [Except.toOption]
      | some found => simp [Except.toOption, hmethod]
    · rw [if_neg fun hmem => hmethod (List.contains_iff_mem.mp hmem)]
      simp [Except.toOption, hmethod]
  rw [routedEndpoints, mem_filterMap]
  simp only [hroute]
  constructor
  · rintro ⟨endpoint, hmem, rfl, hrest⟩
    exact ⟨hmem, hrest⟩
  · rintro ⟨hmem, hrest⟩
    exact ⟨_, hmem, rfl, hrest⟩

theorem RoutedEndpoint.key_eq_iff {a b : RoutedEndpoint} (ha : a ∈ routedEndpoints snapshot)
    (hb : b ∈ routedEndpoints snapshot) : a.key = b.key ↔
      a.endpoint.identity.method = b.endpoint.identity.method ∧ a.pathShape = b.pathShape := by
  constructor
  · intro h
    have hlist := congrArg String.toList h
    simp only [RoutedEndpoint.key, String.toList_append] at hlist
    have hinj := @append_separator_inj _ _ _ _ _ '\x00' rfl (notMem_of_mem_methods
      (mem_routedEndpoints.mp ha).2.1) (notMem_of_mem_methods (mem_routedEndpoints.mp hb).2.1) hlist
    exact ⟨String.toList_inj.mp hinj.1, String.toList_inj.mp hinj.2⟩
  · rintro ⟨hmethod, hshape⟩
    rw [RoutedEndpoint.key, RoutedEndpoint.key, hmethod, hshape]

/-- The candidates that share an operation with one of them. -/
def candidatesOf (snapshot : ContractSnapshot) (routed : RoutedEndpoint) : List RoutedEndpoint :=
  (routedEndpoints snapshot).filter (·.key = routed.key)

/-- The groups are the classes of the candidates with one method and shape. -/
theorem mem_groups_iff :
    group ∈ (planOpenApiProjection snapshot).groups ↔
      ∃ routed ∈ routedEndpoints snapshot,
        projectionGroup (candidatesOf snapshot routed) = some group := by
  simp only [planOpenApiProjection, mem_sortedBy, mem_filterMap, Prod.exists,
    mem_entries_groupBy, List.mem_map]
  constructor
  · rintro ⟨_, _, ⟨⟨routed, hrouted, rfl⟩, rfl⟩, hgroup⟩
    exact ⟨routed, hrouted, hgroup⟩
  · rintro ⟨routed, hrouted, hgroup⟩
    exact ⟨_, _, ⟨⟨routed, hrouted, rfl⟩, rfl⟩, hgroup⟩

/-- What a group says about the candidates it was built from. -/
structure IsGroupOf (group : ProjectionGroup) (candidates : List RoutedEndpoint) : Prop where
  ids : group.endpointIds.Perm (candidates.map (·.endpoint.endpointId))
  first : ∃ first ∈ candidates, group.method = first.endpoint.identity.method ∧
    group.pathShape = first.pathShape
  single : group.kind ≠ .variantSet → candidates.length = 1

theorem isGroupOf_of_projectionGroup {candidates : List RoutedEndpoint}
    (h : projectionGroup candidates = some group) : IsGroupOf group candidates := by
  cases candidates with
  | nil => simp [projectionGroup] at h
  | cons first rest =>
    cases h
    refine ⟨sorted_perm _ _, ⟨first, mem_cons_self, rfl, rfl⟩, ?_⟩
    cases rest with
    | nil => exact fun _ => rfl
    | cons next rest => simp

theorem mem_candidatesOf {routed other : RoutedEndpoint} : other ∈ candidatesOf snapshot routed ↔
    other ∈ routedEndpoints snapshot ∧ other.key = routed.key := by
  simp [candidatesOf]

theorem exists_routed_of_mem_groups (h : group ∈ (planOpenApiProjection snapshot).groups) :
    ∃ routed ∈ routedEndpoints snapshot, IsGroupOf group (candidatesOf snapshot routed) ∧
      group.method = routed.endpoint.identity.method ∧ group.pathShape = routed.pathShape := by
  obtain ⟨routed, hrouted, hgroup⟩ := mem_groups_iff.mp h
  have hof := isGroupOf_of_projectionGroup hgroup
  obtain ⟨first, hfirst, hmethod, hshape⟩ := hof.first
  obtain ⟨hfirst, hkey⟩ := mem_candidatesOf.mp hfirst
  obtain ⟨hmethod', hshape'⟩ := (RoutedEndpoint.key_eq_iff hfirst hrouted).mp hkey
  exact ⟨routed, hrouted, hof, hmethod.trans hmethod', hshape.trans hshape'⟩

theorem exists_group_of_mem_routedEndpoints
    (h : routed ∈ routedEndpoints snapshot) : ∃ group ∈ (planOpenApiProjection snapshot).groups,
      group.method = routed.endpoint.identity.method ∧ group.pathShape = routed.pathShape := by
  have hmem : routed ∈ candidatesOf snapshot routed := mem_candidatesOf.mpr ⟨h, rfl⟩
  cases hcandidates : candidatesOf snapshot routed with
  | nil => simp [hcandidates] at hmem
  | cons first rest =>
    obtain ⟨group, hgroup⟩ : ∃ group, projectionGroup (candidatesOf snapshot routed) = some group :=
      ⟨_, congrArg projectionGroup hcandidates⟩
    refine ⟨group, mem_groups_iff.mpr ⟨routed, h, hgroup⟩, ?_⟩
    obtain ⟨other, hother, hmethod, hshape⟩ := (isGroupOf_of_projectionGroup hgroup).first
    obtain ⟨hother, hkey⟩ := mem_candidatesOf.mp hother
    obtain ⟨hmethod', hshape'⟩ := (RoutedEndpoint.key_eq_iff hother h).mp hkey
    exact ⟨hmethod.trans hmethod', hshape.trans hshape'⟩

theorem nodup_groups : ((planOpenApiProjection snapshot).groups.map fun group =>
    (group.method, group.pathShape)).Nodup := by
  rw [planOpenApiProjection, ((sortedBy_perm _ _).map _).nodup_iff, Nodup, pairwise_map,
    pairwise_filterMap]
  have hnodup := (groupBy RoutedEndpoint.key (routedEndpoints snapshot)).nodup
  refine Pairwise.imp_of_mem ?_ (List.pairwise_map.mp hnodup)
  intro entry entry' hentry hentry' hne group hgroup group' hgroup' heq
  -- the key of the candidates can be read off their group
  have hkey {entry : String × List RoutedEndpoint} {group : ProjectionGroup}
      (hentry : entry ∈ (groupBy RoutedEndpoint.key (routedEndpoints snapshot)).entries)
      (hgroup : projectionGroup entry.2 = some group) :
      entry.1 = group.method ++ "\u0000" ++ group.pathShape := by
    obtain ⟨first, hfirst, hmethod, hshape⟩ := (isGroupOf_of_projectionGroup hgroup).first
    rw [((mem_entries_groupBy _ _ _ _).mp hentry).2, mem_filter, decide_eq_true_eq] at hfirst
    rw [← hfirst.2, RoutedEndpoint.key, hmethod, hshape]
  obtain ⟨hmethod, hshape⟩ := Prod.mk.inj heq
  exact hne (by rw [hkey hentry hgroup, hkey hentry' hgroup', hmethod, hshape])

end Groups

end ApiTruth.OpenApi
