import ApiTruth.Foundation.Checked
import ApiTruth.Foundation.Collation
import ApiTruth.Query.Selector
import Mathlib.Data.List.Enum
import Mathlib.Data.Prod.Lex

/-!
# The scope checks of four readers

A principal may read what a set of access scopes protects when every scope of the set exists and is
active and the principal has an active grant on it.  The semantic service, the observation stores,
the reader of loaded documents and the query reader each decide this from the tables
`access_scopes` and `principal_scope_grants`, two of them by comparing rows that the database sorts
by its default collation with identifiers that JavaScript sorts.

## Main definitions

* `ScopeTables` : the two tables, of all tenants.
* `ScopeTables.lockScopes`, `ScopeTables.lockAuthorizedScopes`,
  `ScopeTables.checkLoadedDocumentScopes`, `ScopeTables.hasScopes` : the four checks.
* `ScopeReader.passes` : the check of a reader on the scopes as its caller lists them.
* `ScopeTables.Authorizes` : the principal may use all these scopes.

## Main results

* `ScopeReader.passes_iff` : what each reader decides.
* `readersAgree_iff` : the readers agree, in whatever order the scopes are listed, unless the
  default collation and JavaScript sort these scopes differently or a reader does not take them.
-/

namespace ApiTruth.Query

open Checked List Bool
open Ir (utf16 utf16_injective)

/-! ### The tables -/

/-- A row of `access_scopes`. -/
structure AccessScopeRow where
  tenantId : String
  accessScopeId : String
  active : Bool
deriving DecidableEq, Repr

/-- `PRIMARY KEY (tenant_id, access_scope_id)`. -/
def AccessScopeRow.key (row : AccessScopeRow) : String × String := (row.tenantId, row.accessScopeId)

/-- A row of `principal_scope_grants`. -/
structure ScopeGrantRow where
  tenantId : String
  principalId : String
  accessScopeId : String
  active : Bool
deriving DecidableEq, Repr

/-- `PRIMARY KEY (tenant_id, principal_id, access_scope_id)`. -/
def ScopeGrantRow.key (row : ScopeGrantRow) : String × String × String :=
  (row.tenantId, row.principalId, row.accessScopeId)

/-- `FOREIGN KEY (tenant_id, access_scope_id) REFERENCES access_scopes`. -/
def ScopeGrantRow.scopeKey (row : ScopeGrantRow) : String × String :=
  (row.tenantId, row.accessScopeId)

structure ScopeTables where
  accessScopes : Table AccessScopeRow.key
  principalScopeGrants : Table ScopeGrantRow.key
  scopes_named : ∀ row ∈ accessScopes.rows, row.tenantId ≠ "" ∧ row.accessScopeId ≠ ""
  grants_named : ∀ row ∈ principalScopeGrants.rows, row.principalId ≠ ""
  grants_scoped : ∀ row ∈ principalScopeGrants.rows,
    row.scopeKey ∈ accessScopes.rows.map AccessScopeRow.key

inductive ScopeError
  | semanticStorageError
  | semanticNotFoundOrDenied
  | observationStorageError
  | observationNotAuthorized
  | loadedDocumentReadStorageError
  | loadedDocumentReadUnauthorized
deriving DecidableEq, Repr

/-! ### Orders -/

/-- The default order of `sort`, that of UTF-16 code units. -/
def unitCollation : Collation String := .ofKey utf16 utf16_injective

def utf8Bytes (text : String) : List ℕ := text.toByteArray.data.toList.map UInt8.toNat

theorem utf8Bytes_injective : Function.Injective utf8Bytes := by
  intro a b h
  have hbytes : Function.Injective UInt8.toNat := fun _ _ => UInt8.toNat_inj.mp
  have hdata := Array.toList_inj.mp (hbytes.list_map h)
  exact String.toByteArray_inj.mp (ByteArray.ext hdata)

/-- `Buffer.compare` of the UTF-8 bytes, which is also `COLLATE "C"`. -/
def byteCollation : Collation String := .ofKey utf8Bytes utf8Bytes_injective

/-- The rows are as many as the identifiers, and each is active and has the identifier at its
index. -/
def matchesRequired (required : List String) (rows : List (String × Bool)) : Bool :=
  rows.length == required.length &&
    rows.zipIdx.all fun (row, index) => required[index]? == some row.1 && row.2

/-- `[...new Set(ids)].sort()`. -/
def requiredScopes (ids : List String) : List String := unitCollation.sort ids.dedup

def safeAccessLabel (label : String) : Bool :=
  decide (0 < unitLength label) && decide (unitLength label ≤ 512) && !label.toList.any isControl

namespace ScopeTables

variable (db : ScopeTables) (collation : Collation String) (tenantId principalId : String)
  (required : List String)

/-- `SELECT access_scope_id,active FROM access_scopes WHERE tenant_id=$1 AND access_scope_id=ANY($2)
ORDER BY access_scope_id`. -/
def selectScopes : List (String × Bool) :=
  (collation.sortBy AccessScopeRow.accessScopeId
    (db.accessScopes.select (required.map (tenantId, ·)) fun _ => true)).map fun row =>
      (row.accessScopeId, row.active)

/-- `SELECT access_scope_id,active FROM principal_scope_grants WHERE tenant_id=$1 AND
principal_id=$2 AND access_scope_id=ANY($3) ORDER BY access_scope_id`. -/
def selectGrants : List (String × Bool) :=
  (collation.sortBy ScopeGrantRow.accessScopeId
    (db.principalScopeGrants.select (required.map (tenantId, principalId, ·)) fun _ => true)).map
      fun row => (row.accessScopeId, row.active)

/-- `lockScopes` of the semantic service. -/
def lockScopes : Except ScopeError Unit := do
  require (required ≠ [] ∧ required.length ≤ 1024 ∧ required.all isIdentifier = true)
    .semanticStorageError
  let scopes := db.selectScopes collation tenantId required
  let grants := db.selectGrants collation tenantId principalId required
  require (matchesRequired required scopes = true ∧ matchesRequired required grants = true)
    .semanticNotFoundOrDenied

/-- `lockAuthorizedScopes` of the observation stores. -/
def lockAuthorizedScopes : Except ScopeError Unit := do
  let scopes := db.selectScopes collation tenantId required
  let grants := db.selectGrants collation tenantId principalId required
  require (matchesRequired required scopes = true ∧ matchesRequired required grants = true)
    .observationNotAuthorized

/-- What `authorizePinned` checks of its scopes. -/
def authorizePinnedScopes : Except ScopeError Unit := do
  require (required.length ≤ 1024 ∧ required.all ApiTruth.isIdentifier = true)
    .observationStorageError
  db.lockAuthorizedScopes collation tenantId principalId required

/-- The check of the reader of loaded documents; both queries say `COLLATE "C"`. -/
def checkLoadedDocumentScopes (scopeIds : List String) : Except ScopeError Unit := do
  require (scopeIds.length ≤ 1024 ∧ scopeIds.all safeAccessLabel = true)
    .loadedDocumentReadStorageError
  let scopeRows := db.selectScopes byteCollation tenantId scopeIds
  let grantRows := db.selectGrants byteCollation tenantId principalId scopeIds
  require (scopeRows.length = scopeIds.length ∧ grantRows.length = scopeIds.length ∧
    scopeIds.zipIdx.all (fun (id, index) =>
      scopeRows[index]? == some (id, true) && grantRows[index]? == some (id, true)) = true)
    .loadedDocumentReadUnauthorized

/-- `hasScopes` of the query reader: the count of the join is the number of distinct scopes. -/
def hasScopes (scopes : List String) : Bool :=
  if scopes.isEmpty || scopes.any (fun scope => !isIdentifier scope) then false
  else
    let unique := scopes.dedup
    (db.accessScopes.join db.principalScopeGrants (unique.map (tenantId, ·)) AccessScopeRow.active
      (fun scope => (scope.tenantId, principalId, scope.accessScopeId)) ScopeGrantRow.active).length
        == unique.length

/-- Every scope exists and is active, and the principal has an active grant on it. -/
def Authorizes (ids : List String) : Prop :=
  ∀ id ∈ ids, db.accessScopes.Has (tenantId, id) AccessScopeRow.active ∧
    db.principalScopeGrants.Has (tenantId, principalId, id) ScopeGrantRow.active

instance (ids : List String) : Decidable (db.Authorizes tenantId principalId ids) :=
  inferInstanceAs (Decidable (∀ id ∈ ids, _))

end ScopeTables

/-! ### What the queries return -/

variable {rows : List (String × Bool)} {ids : List String}

theorem matchesRequired_iff {required : List String} :
    matchesRequired required rows = true ↔ rows = required.map (·, true) := by
  simp only [matchesRequired, and_eq_true, beq_iff_eq, List.all_eq_true, forall_mem_zipIdx']
  constructor
  · rintro ⟨hlength, hrows⟩
    refine ext_getElem (by simpa using hlength) fun index hindex hindex' => ?_
    obtain ⟨hid, hactive⟩ := hrows index hindex
    obtain ⟨_, heq⟩ := List.getElem?_eq_some_iff.mp hid
    rw [getElem_map, heq, ← hactive]
  · rintro rfl
    exact ⟨by simp, fun index hindex => by simp⟩

/-- The rows are the identifiers, each active, when there are as many and each is where its
identifier is. -/
theorem rows_eq_iff :
    rows = ids.map (·, true) ↔ rows.length = ids.length ∧
      ∀ entry ∈ ids.zipIdx, rows[entry.2]? = some (entry.1, true) := by
  rw [forall_mem_zipIdx']
  constructor
  · rintro rfl
    exact ⟨by simp, fun index hindex => by simp [hindex]⟩
  · rintro ⟨hlength, hrows⟩
    refine ext_getElem (by simpa using hlength) fun index hindex hindex' => ?_
    obtain ⟨_, heq⟩ := List.getElem?_eq_some_iff.mp (hrows index (by simpa using hindex'))
    rw [heq, getElem_map]

namespace ScopeTables

variable {db : ScopeTables} {collation : Collation String} {tenantId principalId : String}
  {required : List String}

theorem selectScopes_eq_iff (hrequired : required.Nodup) :
    db.selectScopes collation tenantId required = required.map (·, true) ↔
      (∀ id ∈ required, db.accessScopes.Has (tenantId, id) AccessScopeRow.active) ∧
        collation.Sorted required := by
  refine db.accessScopes.map_sortBy_select_eq_iff collation (Prod.mk_right_injective tenantId)
    hrequired (fun row hrow => ?_) AccessScopeRow.active
  obtain ⟨id, -, heq⟩ := List.mem_map.mp (db.accessScopes.mem_select.mp hrow).2.1
  rw [AccessScopeRow.key, Prod.mk.injEq] at heq
  rw [AccessScopeRow.key, heq.1]

theorem selectGrants_eq_iff (hrequired : required.Nodup) :
    db.selectGrants collation tenantId principalId required = required.map (·, true) ↔
      (∀ id ∈ required,
        db.principalScopeGrants.Has (tenantId, principalId, id) ScopeGrantRow.active) ∧
          collation.Sorted required := by
  refine db.principalScopeGrants.map_sortBy_select_eq_iff collation
    ((Prod.mk_right_injective tenantId).comp (Prod.mk_right_injective principalId))
    hrequired (fun row hrow => ?_) ScopeGrantRow.active
  obtain ⟨id, -, heq⟩ := List.mem_map.mp (db.principalScopeGrants.mem_select.mp hrow).2.1
  rw [ScopeGrantRow.key, Function.comp_apply, Prod.mk.injEq, Prod.mk.injEq] at heq
  rw [ScopeGrantRow.key, Function.comp_apply, heq.1, heq.2.1]

/-- Both queries return the identifiers, each active, when the principal may use all of them and the
collation sorts them as they are listed. -/
theorem select_eq_iff (hrequired : required.Nodup) :
    db.selectScopes collation tenantId required = required.map (·, true) ∧
        db.selectGrants collation tenantId principalId required = required.map (·, true) ↔
      db.Authorizes tenantId principalId required ∧ collation.Sorted required := by
  rw [selectScopes_eq_iff hrequired, selectGrants_eq_iff hrequired, Authorizes, forall₂_and]
  tauto

variable {ids ids' : List String}

theorem authorizes_congr (h : ∀ id, id ∈ ids ↔ id ∈ ids') :
    db.Authorizes tenantId principalId ids ↔ db.Authorizes tenantId principalId ids' := by
  simp only [Authorizes, h]

theorem lockScopes_isOk_iff (hrequired : required.Nodup) :
    (db.lockScopes collation tenantId principalId required).isOk = true ↔
      (required ≠ [] ∧ required.length ≤ 1024 ∧ ∀ id ∈ required, isIdentifier id = true) ∧
        db.Authorizes tenantId principalId required ∧ collation.Sorted required := by
  rw [isOk_iff, ← select_eq_iff hrequired]
  simp only [lockScopes, require_bind_eq_ok, require_eq_ok, matchesRequired_iff, List.all_eq_true,
    exists_const]

theorem authorizePinnedScopes_isOk_iff (hrequired : required.Nodup) :
    (db.authorizePinnedScopes collation tenantId principalId required).isOk = true ↔
      (required.length ≤ 1024 ∧ ∀ id ∈ required, ApiTruth.isIdentifier id = true) ∧
        db.Authorizes tenantId principalId required ∧ collation.Sorted required := by
  rw [isOk_iff, ← select_eq_iff hrequired]
  simp only [authorizePinnedScopes, lockAuthorizedScopes, require_bind_eq_ok, require_eq_ok,
    matchesRequired_iff, List.all_eq_true, exists_const]

theorem checkLoadedDocumentScopes_isOk_iff (hrequired : required.Nodup)
    (hsorted : byteCollation.Sorted required) :
    (db.checkLoadedDocumentScopes tenantId principalId required).isOk = true ↔
      (required.length ≤ 1024 ∧ ∀ id ∈ required, safeAccessLabel id = true) ∧
        db.Authorizes tenantId principalId required := by
  have hselect := @select_eq_iff db byteCollation tenantId principalId required hrequired
  rw [and_iff_left hsorted, rows_eq_iff, rows_eq_iff] at hselect
  rw [isOk_iff, ← hselect]
  simp only [checkLoadedDocumentScopes, require_bind_eq_ok, require_eq_ok, List.all_eq_true,
    and_eq_true, beq_iff_eq, exists_const, forall₂_and]
  tauto

theorem hasScopes_eq_true_iff {scopes : List String} :
    db.hasScopes tenantId principalId scopes = true ↔
      (scopes ≠ [] ∧ ∀ scope ∈ scopes, isIdentifier scope = true) ∧
        db.Authorizes tenantId principalId scopes := by
  have hcount : (db.accessScopes.join db.principalScopeGrants (scopes.dedup.map (tenantId, ·))
      AccessScopeRow.active (fun scope => (scope.tenantId, principalId, scope.accessScopeId))
        ScopeGrantRow.active).length = scopes.dedup.length ↔
          db.Authorizes tenantId principalId scopes := by
    have hkeys := scopes.nodup_dedup.map (Prod.mk_right_injective tenantId)
    have hlength : (scopes.dedup.map (Prod.mk tenantId)).length = scopes.dedup.length :=
      length_map _
    rw [Table.length_join, ← hlength, Table.length_select_eq_iff _ hkeys, List.forall_mem_map]
    refine forall_congr' fun id => ?_
    rw [mem_dedup]
    refine imp_congr_right fun _ => ⟨?_, ?_⟩
    · rintro ⟨scope, hscope, hkey, hholds⟩
      rw [and_eq_true, decide_eq_true_eq] at hholds
      cases hkey
      exact ⟨⟨scope, hscope, rfl, hholds.1⟩, hholds.2⟩
    · rintro ⟨⟨scope, hscope, hkey, hactive⟩, hgrant⟩
      cases hkey
      exact ⟨scope, hscope, rfl, (and_eq_true _ _).mpr ⟨hactive, decide_eq_true hgrant⟩⟩
  have htaken : ¬(scopes.isEmpty || scopes.any fun scope => !isIdentifier scope) = true ↔
      scopes ≠ [] ∧ ∀ scope ∈ scopes, isIdentifier scope = true := by
    simp
  unfold hasScopes
  split_ifs with h
  · exact iff_of_false id fun hall => htaken.mpr hall.1 h
  · rw [beq_iff_eq, hcount, and_iff_right (htaken.mp h)]

end ScopeTables

/-! ### The readers -/

inductive ScopeReader
  | semantics
  | observations
  | loadedDocument
  | query
deriving DecidableEq, Repr

namespace ScopeReader

/-- The check of a reader passes, on the scopes as its caller lists them. -/
def passes (db : ScopeTables) (collation : Collation String) (tenantId principalId : String)
    (ids : List String) : ScopeReader → Bool
  | semantics => (db.lockScopes collation tenantId principalId (requiredScopes ids)).isOk
  | observations =>
    (db.authorizePinnedScopes collation tenantId principalId (requiredScopes ids)).isOk
  | loadedDocument =>
    (db.checkLoadedDocumentScopes tenantId principalId (byteCollation.sort ids.dedup)).isOk
  | query => db.hasScopes tenantId principalId ids

def Takes (ids : List String) : ScopeReader → Prop
  | semantics => ids ≠ [] ∧ ids.dedup.length ≤ 1024 ∧ ∀ id ∈ ids, isIdentifier id = true
  | observations => ids.dedup.length ≤ 1024 ∧ ∀ id ∈ ids, ApiTruth.isIdentifier id = true
  | loadedDocument => ids.dedup.length ≤ 1024 ∧ ∀ id ∈ ids, safeAccessLabel id = true
  | query => ids ≠ [] ∧ ∀ id ∈ ids, isIdentifier id = true

/-- The queries of the reader sort by the default collation. -/
def sortsByDefault : ScopeReader → Bool
  | semantics | observations => true
  | loadedDocument | query => false

variable {db : ScopeTables} {collation : Collation String} {tenantId principalId : String}
  {ids : List String}

/-- What each reader decides. -/
theorem passes_iff (reader : ScopeReader) :
    reader.passes db collation tenantId principalId ids = true ↔
      reader.Takes ids ∧ db.Authorizes tenantId principalId ids ∧
        (reader.sortsByDefault = true → collation.Sorted (requiredScopes ids)) := by
  have hnodup (c : Collation String) : (c.sort ids.dedup).Nodup :=
    Collation.nodup_sort.mpr ids.nodup_dedup
  have hmem (c : Collation String) (id : String) : id ∈ c.sort ids.dedup ↔ id ∈ ids := by
    rw [Collation.mem_sort, mem_dedup]
  have hne (c : Collation String) : c.sort ids.dedup ≠ [] ↔ ids ≠ [] := by
    simp only [ne_eq, eq_nil_iff_forall_not_mem, hmem]
  cases reader with
  | semantics =>
    rw [passes, requiredScopes, ScopeTables.lockScopes_isOk_iff (hnodup _),
      ScopeTables.authorizes_congr (hmem _), hne, Collation.length_sort]
    simp [Takes, sortsByDefault, hmem]
  | observations =>
    rw [passes, requiredScopes, ScopeTables.authorizePinnedScopes_isOk_iff (hnodup _),
      ScopeTables.authorizes_congr (hmem _), Collation.length_sort]
    simp [Takes, sortsByDefault, hmem]
  | loadedDocument =>
    rw [passes, ScopeTables.checkLoadedDocumentScopes_isOk_iff (hnodup _) (Collation.sorted_sort _),
      ScopeTables.authorizes_congr (hmem _), Collation.length_sort]
    simp [Takes, sortsByDefault, hmem]
  | query =>
    rw [passes, ScopeTables.hasScopes_eq_true_iff]
    simp [Takes, sortsByDefault]

end ScopeReader

def IsScopeSet (ids : List String) : Prop :=
  ids ≠ [] ∧ ids.dedup.length ≤ 1024 ∧ ∀ id ∈ ids, ApiTruth.isIdentifier id = true

/-- Letters, digits and the marks of identifiers are printable and one code unit long. -/
theorem not_isControl_of_identifierChar {c : Char}
    (h : (c.isAlphanum || "._:-".toList.contains c) = true) :
    c.toNat < 65536 ∧ isControl c = false := by
  have hrange : 45 ≤ c.toNat ∧ c.toNat < 127 := by
    rcases (or_eq_true _ _).mp h with h | h
    · have hrange := toNat_of_isAlphanum h
      omega
    · have hmem : c ∈ ['.', '_', ':', '-'] := by simpa using h
      fin_cases hmem <;> decide
  refine ⟨by omega, ?_⟩
  simp only [isControl, or_eq_false_iff, decide_eq_false_iff_not, beq_eq_false_iff_ne]
  omega

/-- The identifiers of the observation stores are texts that the other readers take. -/
theorem isIdentifier_of_isIdentifier {id : String} (h : ApiTruth.isIdentifier id = true) :
    isIdentifier id = true ∧ safeAccessLabel id = true := by
  simp only [ApiTruth.isIdentifier, and_eq_true, decide_eq_true_eq, List.all_eq_true] at h
  obtain ⟨⟨hhead, hlength⟩, hchars⟩ := h
  have hunits : unitLength id = id.length := by
    rw [unitLength, map_congr_left fun c hc =>
      if_pos (not_isControl_of_identifierChar (hchars c hc)).1]
    simp [String.length_toList]
  have hpos : 0 < id.length := by
    rw [← String.length_toList, length_pos_iff]
    intro hnil
    simp [hnil] at hhead
  have hcontrol : ∀ c ∈ id.toList, isControl c = false := fun c hc =>
    (not_isControl_of_identifierChar (hchars c hc)).2
  simp only [isIdentifier, safeAccessLabel, and_eq_true, decide_eq_true_eq, hunits,
    List.all_eq_true, not_eq_true', List.any_eq_false, not_eq_true]
  exact ⟨⟨⟨hpos, by omega⟩, hcontrol⟩, ⟨hpos, by omega⟩, hcontrol⟩

theorem takes_iff :
    (∀ reader : ScopeReader, reader.Takes ids) ↔ IsScopeSet ids := by
  constructor
  · intro h
    exact ⟨(h .semantics).1, (h .observations).1, (h .observations).2⟩
  · rintro ⟨hne, hlength, hids⟩ reader
    cases reader with
    | semantics => exact ⟨hne, hlength, fun id hid => (isIdentifier_of_isIdentifier (hids id hid)).1⟩
    | observations => exact ⟨hlength, hids⟩
    | loadedDocument => exact ⟨hlength, fun id hid => (isIdentifier_of_isIdentifier (hids id hid)).2⟩
    | query => exact ⟨hne, fun id hid => (isIdentifier_of_isIdentifier (hids id hid)).1⟩

namespace ScopeReader

theorem takes_congr (h : ∀ id, id ∈ ids' ↔ id ∈ ids) (reader : ScopeReader) :
    reader.Takes ids' ↔ reader.Takes ids := by
  have hlength : ids'.dedup.length = ids.dedup.length :=
    ((perm_ext_iff_of_nodup ids'.nodup_dedup ids.nodup_dedup).mpr fun id => by
      rw [mem_dedup, mem_dedup, h]).length_eq
  have hne : ids' ≠ [] ↔ ids ≠ [] := by
    simp only [ne_eq, eq_nil_iff_forall_not_mem, h]
  cases reader <;> simp only [Takes, hlength, hne, h]

end ScopeReader

theorem requiredScopes_congr (h : ∀ id, id ∈ ids' ↔ id ∈ ids) :
    requiredScopes ids' = requiredScopes ids :=
  Collation.sort_congr ids'.nodup_dedup ids.nodup_dedup fun id => by
    rw [mem_dedup, mem_dedup, h]

/-- Every reader lets the principal pass exactly when all scopes are authorized, in whatever order
they are listed. -/
def ReadersAgree (db : ScopeTables) (collation : Collation String) (tenantId principalId : String)
    (ids : List String) : Prop :=
  ∀ reader : ScopeReader, ∀ ids' : List String, (∀ id, id ∈ ids' ↔ id ∈ ids) →
    (reader.passes db collation tenantId principalId ids' = true ↔
      db.Authorizes tenantId principalId ids)

/-- The readers agree unless the scopes are authorized and the default collation sorts them in
another order than JavaScript, or they are not a set that every reader takes. -/
theorem readersAgree_iff (db : ScopeTables) (collation : Collation String)
    (tenantId principalId : String) (ids : List String) :
    ReadersAgree db collation tenantId principalId ids ↔
      (db.Authorizes tenantId principalId ids →
        IsScopeSet ids ∧ collation.Sorted (requiredScopes ids)) := by
  constructor
  · intro hagree hauthorized
    have hpasses (reader : ScopeReader) :=
      (ScopeReader.passes_iff reader).mp ((hagree reader ids fun _ => Iff.rfl).mpr hauthorized)
    exact ⟨takes_iff.mp fun reader => (hpasses reader).1, (hpasses .semantics).2.2 rfl⟩
  · intro h reader ids' hmem
    rw [ScopeReader.passes_iff, reader.takes_congr hmem, ScopeTables.authorizes_congr hmem,
      requiredScopes_congr hmem]
    constructor
    · exact fun hpasses => hpasses.2.1
    · intro hauthorized
      obtain ⟨hset, hsorted⟩ := h hauthorized
      exact ⟨takes_iff.mpr hset reader, hauthorized, fun _ => hsorted⟩

def ignoringCase : Collation String :=
  .ofKey (fun text => toLex (text.toList.map fun c => c.toLower.toNat, utf16 text)) fun _ _ h =>
    utf16_injective (congrArg (fun key => (ofLex key).2) h)

/-- Two scopes of a tenant, granted to a principal. -/
def sampleScopes : ScopeTables where
  accessScopes := ⟨[⟨"tenant", "B", true⟩, ⟨"tenant", "a", true⟩], by decide⟩
  principalScopeGrants :=
    ⟨[⟨"tenant", "principal", "B", true⟩, ⟨"tenant", "principal", "a", true⟩], by decide⟩
  scopes_named := by decide
  grants_named := by decide
  grants_scoped := by decide

/-- The semantic service turns away a principal that has both grants. -/
theorem not_readersAgree_ignoringCase :
    ¬ReadersAgree sampleScopes ignoringCase "tenant" "principal" ["a", "B"] := by
  intro h
  have hpasses := (h .semantics ["a", "B"] fun _ => Iff.rfl).mpr (by decide +kernel)
  revert hpasses
  decide +kernel

end ApiTruth.Query
