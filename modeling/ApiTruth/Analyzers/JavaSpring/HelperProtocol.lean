import ApiTruth.Connectors.TreeListing
import ApiTruth.Foundation.Base64Url
import ApiTruth.Foundation.Decimal
import ApiTruth.Foundation.Js.Strings

/-!
# The protocol of the Java helper

The helper prints a line for each diagnostic and for each route that it finds, with the strings of a
route in Base64.  The analyzer reads the lines back, and gives up the whole service where one of
them is not as expected.

## Main definitions

* `HelperRecord`, `printed` : what the helper prints.
* `AstRecord`, `parseProtocol` : what the analyzer reads.
* `HelperRecord.IsCarried` : the records that the protocol carries.

## Main results

* `parseProtocol_printed_iff` : the analyzer reads what the helper prints if and only if the
  protocol carries every record.
-/

namespace ApiTruth.Analyzers.JavaSpring

open JsString List Decimal

/-! ### The helper -/

def helperCodes : List String :=
  ["source_syntax_unsupported", "annotation_shadowing_unsupported", "nested_controller_unsupported",
    "controller_import_unresolved", "controller_inheritance_unsupported",
    "controller_mapping_combination_unsupported", "mapping_import_unresolved",
    "class_mapping_unsupported", "class_path_dynamic", "method_request_mapping_unsupported",
    "method_mapping_combination_unsupported", "route_ambiguous_or_unimplemented",
    "route_import_unresolved", "route_mapping_unsupported", "route_path_dynamic",
    "java_parser_failure"]

def routeMethods : List String := ["GET", "POST", "PUT", "PATCH", "DELETE"]

/-- A route in the source with the index; a list of strings may be absent. -/
structure HelperRoute (n : ℕ) where
  index : Fin n
  line : ℕ
  column : ℕ
  endLine : ℕ
  endColumn : ℕ
  classLine : ℕ
  methodLine : ℕ
  method : String
  pathPrefix : JsString
  pathSuffix : JsString
  headers : Option (List JsString)
  consumes : Option (List JsString)
  produces : Option (List JsString)
  handler : JsString

def HelperRoute.positions {n : ℕ} (r : HelperRoute n) : List ℕ :=
  [r.line, r.column, r.endLine, r.endColumn, r.classLine, r.methodLine]

inductive HelperRecord (n : ℕ)
  | diagnostic (index : Fin n) (line : ℕ) (code : String)
  | route (route : HelperRoute n)

/-- The text that `getBytes(StandardCharsets.UTF_8)` encodes, with a question mark for a surrogate
without its partner. -/
def wellFormedText (value : JsString) : String :=
  String.ofList ((codePoints value).map fun p => if p.isValidChar then Char.ofNat p else '?')

def enc (value : JsString) : String :=
  String.ofList (Base64Url.encode (Ir.Host.utf8 (wellFormedText value)))

def joined : Option (List JsString) → JsString
  | none => []
  | some values => [0].intercalate values

/-- The fields of a line. -/
def HelperRecord.fields {n : ℕ} : HelperRecord n → List String
  | .diagnostic index line code => ["D", toString index.val, toString line, code]
  | .route r => ["R", toString r.index.val, toString r.line, toString r.column,
      toString r.endLine, toString r.endColumn, toString r.classLine, toString r.methodLine,
      r.method, enc r.pathPrefix, enc r.pathSuffix, enc (joined r.headers),
      enc (joined r.consumes), enc (joined r.produces), enc r.handler]

def HelperRecord.printedLine {n : ℕ} (record : HelperRecord n) : List Char :=
  ['\t'].intercalate (record.fields.map String.toList)

/-- The output. -/
def printed {n : ℕ} (records : List (HelperRecord n)) : List Char :=
  records.flatMap fun record => record.printedLine ++ ['\n']

def isControlUnit (unit : UInt16) : Bool := unit.toNat < 32 || unit.toNat == 127

/-- The strings of `literal`. -/
def IsPlain (value : JsString) : Prop := ∀ unit ∈ value, isControlUnit unit = false

/-- What the helper prints: nodes have positions from one on, and an empty list of strings is not
supported. -/
def HelperRecord.IsPrintable {n : ℕ} : HelperRecord n → Prop
  | .diagnostic _ line code => 0 < line ∧ code ∈ helperCodes
  | .route r => (∀ position ∈ r.positions, 0 < position) ∧ r.method ∈ routeMethods ∧
      IsPlain r.pathPrefix ∧ IsPlain r.pathSuffix ∧
      ∀ list ∈ [r.headers, r.consumes, r.produces], ∀ values ∈ list,
        values ≠ [] ∧ ∀ value ∈ values, IsPlain value

/-! ### The analyzer -/

/-- `AstRecord`, with a list of the positions of a route. -/
inductive AstRecord
  | route (path : String) (positions : List ℕ) (method : String)
      (pathPrefix pathSuffix : JsString) (headers consumes produces : List JsString)
      (handler : JsString)
  | diagnostic (path : String) (line : ℕ) (code : String)
deriving DecidableEq

/-- `code`: `/^[a-z][a-z0-9_]{1,80}$/`. -/
def isCode (value : String) : Bool :=
  decide (2 ≤ value.length) && decide (value.length ≤ 81) &&
    (value.toList.head?.any Char.isLower) &&
    value.toList.all fun c => c.isLower || c.isDigit || c == '_'

def bounded (value : JsString) (max : ℕ) : Bool :=
  decide (value.length ≤ max) && value.all fun unit => !isControlUnit unit

/-- `/^[A-Za-z_$][A-Za-z0-9_$]*$/`. -/
def isHandler (value : JsString) : Bool :=
  let isStart := fun unit : UInt16 =>
    let c := Char.ofNat unit.toNat
    c.isAlpha || c == '_' || c == '$'
  value.head?.any isStart && value.all fun unit => isStart unit || (Char.ofNat unit.toNat).isDigit

def decode (value : String) : Option JsString :=
  if ¬ value.toList.all Base64Url.isLetter then none
  else
    let decoded := Base64Url.decode value.toList
    if String.ofList (Base64Url.encode decoded) ≠ value then none
    else (Connectors.decode decoded).map ofString

/-- The path with the number of `index`. -/
def pathAt (paths : List String) (value : String) : Option String :=
  if Decimal.isCanonical value && decide (value.length ≤ 3) then paths[Decimal.value value]?
  else none

def positive (value : String) : Option ℕ :=
  if Decimal.isCanonical value && value != "0" && decide (value.length ≤ 7) then
    some (Decimal.value value)
  else none

def split (text : JsString) : List JsString := if text = [] then [] else text.splitOn 0

def parseFields (paths : List String) : List String → Option AstRecord
  | [kind, index, line, code] =>
    if kind ≠ "D" then none
    else do
      let path ← pathAt paths index
      if ¬ isCode code then none
      else return .diagnostic path (← positive line) code
  | [kind, index, line, column, endLine, endColumn, classLine, methodLine, method, pathPrefix,
      pathSuffix, headers, consumes, produces, handler] =>
    if kind ≠ "R" then none
    else do
      let path ← pathAt paths index
      let pathPrefix ← decode pathPrefix
      let pathSuffix ← decode pathSuffix
      let headers ← decode headers
      let consumes ← decode consumes
      let produces ← decode produces
      let handler ← decode handler
      if !bounded pathPrefix 1024 || !bounded pathSuffix 1024 || !bounded handler 128 ||
          !isHandler handler || !routeMethods.contains method then none
      else
        let positions ←
          [line, column, endLine, endColumn, classLine, methodLine].mapM positive
        return .route path positions method pathPrefix pathSuffix (split headers) (split consumes)
          (split produces) handler
  | _ => none

/-- `replace(/\r$/, "")`. -/
def withoutReturn (line : List Char) : List Char :=
  if line.getLast? = some '\r' then line.dropLast else line

def parseRound (paths : List String) (records : List AstRecord) (line : List Char) :
    Option (List AstRecord) :=
  if line = [] then some records
  else if 4000 < records.length then none
  else (parseFields paths (((withoutReturn line).splitOn '\t').map String.ofList)).map fun record =>
    records ++ [record]

/-- `parseProtocol`; nothing stands for an error. -/
def parseProtocol (output : List Char) (paths : List String) : Option (List AstRecord) :=
  if 1000000 < output.length then none
  else (output.splitOn '\n').foldlM (parseRound paths) []

def HelperRecord.toAst (paths : List String) : HelperRecord paths.length → AstRecord
  | .diagnostic index line code => .diagnostic paths[index] line code
  | .route r => .route paths[r.index] r.positions r.method r.pathPrefix r.pathSuffix
      (r.headers.getD []) (r.consumes.getD []) (r.produces.getD []) r.handler

/-! ### Strings -/

theorem codePoints_cons {unit : UInt16} (h : isHigh unit = false) (rest : JsString) :
    codePoints (unit :: rest) = unit.toNat :: codePoints rest := by
  cases rest with
  | nil => rfl
  | cons low rest => rw [codePoints, h, Bool.false_and, if_neg Bool.false_ne_true]

theorem codePoints_ofString (s : String) : codePoints (ofString s) = s.toList.map Char.toNat := by
  rw [ofString]
  induction s.toList with
  | nil => rfl
  | cons c cs ih =>
    have hvalid : c.toNat.isValidChar := c.valid
    rw [flatMap_cons, map_cons, ← ih, unitsOf]
    split
    · have hunit : (UInt16.ofNat c.toNat).toNat = c.toNat := by
        rw [UInt16.toNat_ofNat', Nat.mod_eq_of_lt (by omega)]
      have hhigh : isHigh (UInt16.ofNat c.toNat) = false := by
        simp only [isHigh, hunit, Bool.and_eq_false_iff, decide_eq_false_iff_not]
        omega
      rw [singleton_append, codePoints_cons hhigh, hunit]
    · have hhigh : (UInt16.ofNat (0xd800 + (c.toNat - 0x10000) / 0x400)).toNat =
          0xd800 + (c.toNat - 0x10000) / 0x400 := by
        rw [UInt16.toNat_ofNat', Nat.mod_eq_of_lt (by omega)]
      have hlow : (UInt16.ofNat (0xdc00 + (c.toNat - 0x10000) % 0x400)).toNat =
          0xdc00 + (c.toNat - 0x10000) % 0x400 := by
        rw [UInt16.toNat_ofNat', Nat.mod_eq_of_lt (by omega)]
      have hpoint : 0x10000 + (0xd800 + (c.toNat - 0x10000) / 0x400 - 0xd800) * 0x400 +
          (0xdc00 + (c.toNat - 0x10000) % 0x400 - 0xdc00) = c.toNat := by omega
      rw [cons_append, singleton_append, codePoints, if_pos, hhigh, hlow, hpoint]
      simp only [isHigh, isLow, hhigh, hlow, Bool.and_eq_true, decide_eq_true_eq]
      omega

/-- The strings that the encoding and the decoder keep: every surrogate has its partner, and no byte
order mark stands in front. -/
def IsCarriedString (value : JsString) : Prop :=
  (∀ p ∈ codePoints value, p.isValidChar) ∧
    Connectors.byteOrderMark.isPrefixOf (Ir.Host.utf8 (wellFormedText value)) = false

theorem wellFormedText_ofString (s : String) : wellFormedText (ofString s) = s := by
  rw [wellFormedText, codePoints_ofString, map_map]
  have hchars : s.toList.map ((fun p => if p.isValidChar then Char.ofNat p else '?') ∘ Char.toNat) =
      s.toList := by
    conv_rhs => rw [← map_id s.toList]
    refine map_congr_left fun c _ => ?_
    have hvalid : c.toNat.isValidChar := c.valid
    rw [Function.comp, if_pos hvalid, Char.ofNat_toNat]
    rfl
  rw [hchars, String.ofList_toList]

variable {value : JsString}

theorem ofString_wellFormedText (h : ∀ p ∈ codePoints value, p.isValidChar) :
    ofString (wellFormedText value) = value := by
  rw [ofString, wellFormedText, String.toList_ofList, flatMap_map]
  conv_rhs => rw [← flatMap_codePoints value]
  refine flatMap_congr fun p hp => ?_
  have hp := h p hp
  rw [if_pos hp, Char.ofNat, dif_pos hp]
  rfl

theorem decode_enc_iff :
    decode (enc value) = some value ↔ IsCarriedString value := by
  have hletters : (Base64Url.encode (Ir.Host.utf8 (wellFormedText value))).all
      Base64Url.isLetter = true :=
    List.all_eq_true.mpr Base64Url.isLetter_of_mem_encode
  rw [decode, enc, String.toList_ofList, hletters, Base64Url.decode_encode, if_neg (by simp)]
  simp only [ne_eq, not_true_eq_false, ↓reduceIte, Option.map_eq_some_iff, Connectors.decode,
    Connectors.fromUtf8_eq_some_iff]
  constructor
  · rintro ⟨s, hs, rfl⟩
    rw [wellFormedText_ofString] at hs
    refine ⟨fun p hp => ?_, ?_⟩
    · rw [codePoints_ofString] at hp
      obtain ⟨c, -, rfl⟩ := List.mem_map.mp hp
      exact c.valid
    · rw [wellFormedText_ofString]
      exact Connectors.withoutMark_eq_self_iff.mp hs.symm
  · rintro ⟨hvalid, hmark⟩
    exact ⟨_, (Connectors.withoutMark_eq_self_iff.mpr hmark).symm, ofString_wellFormedText hvalid⟩

theorem split_eq_iff {text : JsString} {list : Option (List JsString)}
    (h : ∀ values ∈ list, values ≠ [] ∧ ∀ value ∈ values, IsPlain value) :
    split text = list.getD [] ↔ list ≠ some [[]] ∧ text = joined list := by
  have hzero {value : JsString} (hvalue : IsPlain value) : 0 ∉ value := fun hmem => by
    cases hvalue 0 hmem
  unfold split
  cases list with
  | none =>
    by_cases htext : text = []
    · simp [htext, joined]
    · simp [htext, joined, splitOn_ne_nil]
  | some values =>
    obtain ⟨hne, hplain⟩ := h values rfl
    rw [Option.getD_some, joined]
    constructor
    · intro hsplit
      split_ifs at hsplit with htext
      · exact absurd hsplit.symm hne
      · have hjoin : [0].intercalate values = text := by rw [← hsplit, intercalate_splitOn]
        refine ⟨?_, hjoin.symm⟩
        rintro ⟨⟩
        exact htext hjoin.symm
    · rintro ⟨hsingle, rfl⟩
      rw [if_neg, splitOn_intercalate 0 (fun value hvalue => hzero (hplain value hvalue)) hne]
      intro hempty
      have hsplit := splitOn_intercalate 0 (fun value hvalue => hzero (hplain value hvalue)) hne
      rw [hempty, splitOn_nil] at hsplit
      exact hsingle (congrArg some hsplit.symm)

/-! ### Numbers -/

theorem length_toString_le_iff {n k : ℕ} (h : 0 < k) :
    (toString n).length ≤ k ↔ n < 10 ^ k := by
  rw [← String.length_toList, Nat.toString_eq_repr, Nat.toList_repr,
    Nat.length_toDigits_le_iff (by decide) h]

theorem pathAt_toString {paths : List String} (hpaths : paths.length ≤ 200)
    (index : Fin paths.length) : pathAt paths (toString index.val) = some paths[index] := by
  have hlength : (toString index.val).length ≤ 3 :=
    (length_toString_le_iff (by decide)).mpr (by omega)
  rw [pathAt, isCanonical_toString, decide_eq_true hlength, value_toString]
  simp

theorem positive_toString_eq_some_iff (n m : ℕ) :
    positive (toString n) = some m ↔ (0 < n ∧ n < 10 ^ 7) ∧ m = n := by
  have hzero : (toString n != "0") = decide (0 < n) := by
    rw [Bool.eq_iff_iff, bne_iff_ne, decide_eq_true_eq, Nat.pos_iff_ne_zero]
    exact not_congr ⟨fun h => by rw [← value_toString n, h]; rfl, fun h => by rw [h]; rfl⟩
  rw [positive, isCanonical_toString, value_toString, hzero, Bool.true_and,
    Option.ite_none_right_eq_some, Bool.and_eq_true, decide_eq_true_eq, decide_eq_true_eq,
    length_toString_le_iff (by decide), Option.some_inj, @eq_comm _ m]

theorem mapM_positive_iff {ns ms : List ℕ} (h : ∀ n ∈ ns, 0 < n) :
    (ns.map toString).mapM positive = some ms ↔ (∀ n ∈ ns, n < 10 ^ 7) ∧ ms = ns := by
  rw [mapM_map]
  refine (mapM_eq_some_map_iff positive_toString_eq_some_iff).trans ?_
  rw [map_id']
  exact and_congr_left fun _ => forall₂_congr fun n hn => and_iff_right (h n hn)

/-! ### Lines -/

theorem isLetter_of_mem_toString {n : ℕ} :
    ∀ c ∈ (toString n).toList, Base64Url.isLetter c = true := by
  intro c hc
  rw [Nat.toString_eq_repr, Nat.toList_repr] at hc
  have hdigit : c.isDigit = true := Nat.isDigit_of_mem_toDigits (by decide) (by decide) hc
  simp [Base64Url.isLetter, Char.isAlphanum, hdigit]

theorem isLetter_of_mem_enc :
    ∀ c ∈ (enc value).toList, Base64Url.isLetter c = true := by
  rw [enc, String.toList_ofList]
  exact Base64Url.isLetter_of_mem_encode

theorem eq_or_exists_of_mem_intercalate {α : Type} {x y : α} {lists : List (List α)}
    (h : y ∈ [x].intercalate lists) : y = x ∨ ∃ list ∈ lists, y ∈ list := by
  induction lists with
  | nil => cases h
  | cons list lists ih =>
    cases lists with
    | nil => exact .inr ⟨list, mem_cons_self, by simpa using h⟩
    | cons next lists =>
      rw [intercalate_cons_cons, mem_append, mem_append, mem_singleton] at h
      rcases h with (h | h) | h
      · exact .inr ⟨list, mem_cons_self, h⟩
      · exact .inl h
      · exact (ih h).imp_right fun ⟨found, hfound, hy⟩ => ⟨found, mem_cons_of_mem _ hfound, hy⟩

section Lines

variable {n : ℕ} {record : HelperRecord n} (hprintable : record.IsPrintable)
include hprintable

theorem isLetter_of_mem_fields :
    ∀ field ∈ record.fields, ∀ c ∈ field.toList, Base64Url.isLetter c = true := by
  cases record with
  | diagnostic index line code =>
    have hcode : ∀ code ∈ helperCodes, ∀ c ∈ code.toList, Base64Url.isLetter c = true := by
      simp only [← all_eq_true]
      decide
    simp only [HelperRecord.fields, forall_mem_cons, not_mem_nil, IsEmpty.forall_iff, implies_true,
      and_true]
    exact ⟨all_eq_true.mp (by decide), isLetter_of_mem_toString, isLetter_of_mem_toString,
      hcode _ hprintable.2⟩
  | route r =>
    have hmethod : ∀ method ∈ routeMethods, ∀ c ∈ method.toList, Base64Url.isLetter c = true := by
      simp only [← all_eq_true]
      decide
    simp only [HelperRecord.fields, forall_mem_cons, not_mem_nil, IsEmpty.forall_iff, implies_true,
      and_true]
    exact ⟨all_eq_true.mp (by decide), isLetter_of_mem_toString, isLetter_of_mem_toString,
      isLetter_of_mem_toString, isLetter_of_mem_toString, isLetter_of_mem_toString,
      isLetter_of_mem_toString, isLetter_of_mem_toString, hmethod _ hprintable.2.1, isLetter_of_mem_enc, isLetter_of_mem_enc,
      isLetter_of_mem_enc, isLetter_of_mem_enc, isLetter_of_mem_enc, isLetter_of_mem_enc⟩

theorem notMem_printedLine {c : Char} (htab : c ≠ '\t') (hletter : Base64Url.isLetter c = false) :
    c ∉ record.printedLine := fun hmem => by
  rcases eq_or_exists_of_mem_intercalate hmem with heq | ⟨field, hfield, hc⟩
  · exact htab heq
  · obtain ⟨text, htext, rfl⟩ := List.mem_map.mp hfield
    exact Bool.eq_false_iff.mp hletter (isLetter_of_mem_fields hprintable _ htext _ hc)

theorem fields_printedLine :
    ((withoutReturn record.printedLine).splitOn '\t').map String.ofList = record.fields := by
  have hreturn : record.printedLine.getLast? ≠ some '\r' := fun hlast =>
    notMem_printedLine hprintable (by decide) (by decide) (mem_of_getLast? hlast)
  have htab : ∀ field ∈ record.fields.map String.toList, '\t' ∉ field := by
    intro field hfield hmem
    obtain ⟨text, htext, rfl⟩ := List.mem_map.mp hfield
    cases isLetter_of_mem_fields hprintable _ htext _ hmem
  have hne : record.fields.map String.toList ≠ [] := by cases record <;> simp [HelperRecord.fields]
  rw [withoutReturn, if_neg hreturn, HelperRecord.printedLine, splitOn_intercalate _ htab hne,
    map_map]
  exact (map_congr_left fun field _ => String.ofList_toList).trans (map_id _)

theorem printedLine_ne_nil : record.printedLine ≠ [] := by
  intro hnil
  have hfields := fields_printedLine hprintable
  rw [hnil] at hfields
  have hlength := congrArg List.length hfields
  cases record <;> simp [withoutReturn, HelperRecord.fields] at hlength

end Lines

theorem splitOn_printed {n : ℕ} {records : List (HelperRecord n)}
    (h : ∀ record ∈ records, record.IsPrintable) :
    (printed records).splitOn '\n' = records.map HelperRecord.printedLine ++ [[]] := by
  induction records with
  | nil => rfl
  | cons record records ih =>
    rw [forall_mem_cons] at h
    rw [printed, flatMap_cons, append_assoc, singleton_append, splitOn_append_cons_self_of_not_mem
      (notMem_printedLine h.1 (by decide) (by decide))]
    exact congrArg (record.printedLine :: ·) (ih h.2)

theorem foldlM_parseRound {paths : List String} {lines : List (List Char)}
    (h : ∀ line ∈ lines, line ≠ []) {records : List AstRecord}
    (hcount : records.length + lines.length ≤ 4001) :
    lines.foldlM (parseRound paths) records = (lines.mapM fun line =>
      parseFields paths (((withoutReturn line).splitOn '\t').map String.ofList)).map
        (records ++ ·) := by
  induction lines generalizing records with
  | nil => simp
  | cons line lines ih =>
    rw [forall_mem_cons] at h
    rw [length_cons] at hcount
    rw [foldlM_cons, mapM_cons, parseRound, if_neg h.1, if_neg (by omega)]
    cases parseFields paths (((withoutReturn line).splitOn '\t').map String.ofList) with
    | none => rfl
    | some record =>
      have hlength : (records ++ [record]).length + lines.length ≤ 4001 := by simp; omega
      show lines.foldlM (parseRound paths) (records ++ [record]) = _
      rw [ih h.2 hlength]
      cases lines.mapM fun line =>
        parseFields paths (((withoutReturn line).splitOn '\t').map String.ofList) with
      | none => rfl
      | some rest => simp

/-! ### What the protocol carries -/

def HelperRecord.IsCarried {n : ℕ} : HelperRecord n → Prop
  | .diagnostic _ line _ => line < 10 ^ 7
  | .route r => (∀ position ∈ r.positions, position < 10 ^ 7) ∧ r.pathPrefix.length ≤ 1024 ∧
      r.pathSuffix.length ≤ 1024 ∧ bounded r.handler 128 = true ∧ isHandler r.handler = true ∧
      (∀ value ∈ [r.pathPrefix, r.pathSuffix, r.handler], IsCarriedString value) ∧
      ∀ list ∈ [r.headers, r.consumes, r.produces],
        list ≠ some [[]] ∧ IsCarriedString (joined list)

theorem isCode_of_mem : ∀ code ∈ helperCodes, isCode code = true := by decide

theorem bounded_iff (h : IsPlain value) (max : ℕ) :
    bounded value max = true ↔ value.length ≤ max := by
  have hplain : (value.all fun unit => !isControlUnit unit) = true :=
    List.all_eq_true.mpr fun unit hunit => by rw [h unit hunit]; rfl
  rw [bounded, hplain, Bool.and_true, decide_eq_true_eq]

theorem exists_decode_iff {list : Option (List JsString)}
    (h : ∀ values ∈ list, values ≠ [] ∧ ∀ value ∈ values, IsPlain value) :
    (∃ text, decode (enc (joined list)) = some text ∧ split text = list.getD []) ↔
      list ≠ some [[]] ∧ decode (enc (joined list)) = some (joined list) := by
  constructor
  · rintro ⟨text, htext, hsplit⟩
    obtain ⟨hne, rfl⟩ := (split_eq_iff h).mp hsplit
    exact ⟨hne, htext⟩
  · rintro ⟨hne, htext⟩
    exact ⟨_, htext, (split_eq_iff h).mpr ⟨hne, rfl⟩⟩

section Records

variable {paths : List String} (hpaths : paths.length ≤ 200)
include hpaths

theorem parseFields_route_iff {r : HelperRoute paths.length}
    (h : (HelperRecord.route r).IsPrintable) :
    parseFields paths (HelperRecord.route r).fields = some ((HelperRecord.route r).toAst paths) ↔
      (HelperRecord.route r).IsCarried := by
  obtain ⟨hpositions, hmethod, hfront, hback, hlists⟩ := h
  simp only [forall_mem_cons, not_mem_nil, IsEmpty.forall_iff, implies_true, and_true] at hlists
  obtain ⟨hlist, hlist', hlist''⟩ := hlists
  simp only [HelperRecord.fields, parseFields, HelperRecord.toAst, HelperRecord.IsCarried,
    forall_mem_cons, not_mem_nil, IsEmpty.forall_iff, implies_true, and_true, ← decode_enc_iff,
    ← bounded_iff hfront, ← bounded_iff hback]
  have hpositive (ms : List ℕ) := @mapM_positive_iff _ ms hpositions
  rw [if_neg (not_not.mpr rfl), pathAt_toString hpaths]
  constructor
  · intro h
    obtain ⟨path, hpath, h⟩ := Option.bind_eq_some_iff.mp h
    obtain ⟨pathPrefix, hdecoded, h⟩ := Option.bind_eq_some_iff.mp h
    obtain ⟨pathSuffix, hdecoded', h⟩ := Option.bind_eq_some_iff.mp h
    obtain ⟨headers, hheaders, h⟩ := Option.bind_eq_some_iff.mp h
    obtain ⟨consumes, hconsumes, h⟩ := Option.bind_eq_some_iff.mp h
    obtain ⟨produces, hproduces, h⟩ := Option.bind_eq_some_iff.mp h
    obtain ⟨handler, hhandler, h⟩ := Option.bind_eq_some_iff.mp h
    obtain ⟨hbounds, h⟩ := Option.ite_none_left_eq_some.mp h
    obtain ⟨positions, hpositions, h⟩ := Option.bind_eq_some_iff.mp h
    injection h with h
    injection h with _ _ _ hpre hsuf hhead hcons hprod hhand
    subst hpre hsuf hhand
    simp only [Bool.or_eq_true, Bool.not_eq_true', not_or, Bool.not_eq_false] at hbounds
    obtain ⟨⟨⟨⟨hbounded, hbounded'⟩, hshort⟩, hname⟩, -⟩ := hbounds
    exact ⟨((hpositive _).mp hpositions).1, hbounded, hbounded', hshort, hname, ⟨hdecoded,
      hdecoded', hhandler⟩, (exists_decode_iff hlist).mp ⟨headers, hheaders, hhead⟩,
      (exists_decode_iff hlist').mp ⟨consumes, hconsumes, hcons⟩, (exists_decode_iff hlist'').mp
      ⟨produces, hproduces, hprod⟩⟩
  · rintro ⟨hpositions, hbounded, hbounded', hshort, hname, ⟨hdecoded, hdecoded', hhandler⟩,
      hkept, hkept', hkept''⟩
    obtain ⟨headers, hheaders, hhead⟩ := (exists_decode_iff hlist).mpr hkept
    obtain ⟨consumes, hconsumes, hcons⟩ := (exists_decode_iff hlist').mpr hkept'
    obtain ⟨produces, hproduces, hprod⟩ := (exists_decode_iff hlist'').mpr hkept''
    have hmember : routeMethods.contains r.method = true := List.contains_iff_mem.mpr hmethod
    simp only [hdecoded, hdecoded', hhandler, hheaders, hconsumes, hproduces, hbounded, hbounded',
      hshort, hname, hmember, Option.bind_eq_bind, Option.bind_some]
    rw [← hhead, ← hcons, ← hprod]
    exact congrArg (Option.bind · _) ((hpositive _).mpr ⟨hpositions, rfl⟩)

theorem parseFields_iff {record : HelperRecord paths.length} (h : record.IsPrintable) :
    parseFields paths record.fields = some (record.toAst paths) ↔ record.IsCarried := by
  cases record with
  | route r => exact parseFields_route_iff hpaths h
  | diagnostic index line code =>
    have hcode : isCode code = true := isCode_of_mem code h.2
    simp only [HelperRecord.fields, parseFields, HelperRecord.toAst, HelperRecord.IsCarried]
    rw [if_neg (not_not.mpr rfl), pathAt_toString hpaths, Option.bind_eq_bind, Option.bind_some,
      if_neg (not_not.mpr hcode)]
    constructor
    · intro hparsed
      obtain ⟨read, hread, -⟩ := Option.bind_eq_some_iff.mp hparsed
      exact ((positive_toString_eq_some_iff _ _).mp hread).1.2
    · intro hline
      rw [(positive_toString_eq_some_iff _ _).mpr ⟨⟨h.1, hline⟩, rfl⟩]
      rfl

end Records

/-- **The protocol of the Java helper.**  Within the limits, the analyzer reads the records that the
helper prints if and only if the protocol carries each of them. -/
theorem parseProtocol_printed_iff {paths : List String}
    {records : List (HelperRecord paths.length)} (hpaths : paths.length ≤ 200)
    (hprintable : ∀ record ∈ records, record.IsPrintable) (hcount : records.length ≤ 4001)
    (houtput : (printed records).length ≤ 1000000) :
    parseProtocol (printed records) paths = some (records.map (HelperRecord.toAst paths)) ↔
      ∀ record ∈ records, record.IsCarried := by
  have hlines : ∀ line ∈ records.map HelperRecord.printedLine, line ≠ [] := fun line hline => by
    obtain ⟨record, hrecord, rfl⟩ := List.mem_map.mp hline
    exact printedLine_ne_nil (hprintable record hrecord)
  rw [parseProtocol, if_neg houtput.not_gt, splitOn_printed hprintable, foldlM_append,
    foldlM_parseRound hlines (by simpa using hcount)]
  simp only [nil_append, Option.map_id', foldlM_cons, foldlM_nil, parseRound, ↓reduceIte]
  rw [show ∀ read : Option (List AstRecord), (read >>= fun found => some found >>= pure) = read
    from fun read => by cases read <;> rfl, mapM_eq_some_iff, forall₂_map_left_iff,
    forall₂_map_right_iff, forall₂_same]
  refine forall₂_congr fun record hrecord => ?_
  rw [fields_printedLine (hprintable record hrecord), parseFields_iff hpaths
    (hprintable record hrecord)]

/-- A route with an empty string as the media type that it consumes. -/
def unnamedMedia : HelperRoute 1 :=
  ⟨0, 7, 3, 7, 40, 5, 8, "GET", [], ofString "/pets", none, some [[]], none, ofString "list"⟩

theorem isPrintable_unnamedMedia :
    ∀ record ∈ [HelperRecord.route unnamedMedia], record.IsPrintable := by
  rw [forall_mem_singleton]
  have hsuffix : unnamedMedia.pathSuffix.any isControlUnit = false := by decide
  refine ⟨by decide, by decide, by simp [unnamedMedia, IsPlain], ?_, ?_⟩
  · simpa [IsPlain] using hsuffix
  · simp [unnamedMedia, IsPlain]

theorem parseProtocol_printed_iff_unnamedMedia :
    parseProtocol (printed [.route unnamedMedia]) ["A.java"] ≠
      some [(HelperRecord.route unnamedMedia).toAst ["A.java"]] := fun h =>
  (((@parseProtocol_printed_iff ["A.java"] [.route unnamedMedia] (by decide)
    isPrintable_unnamedMedia (by decide) (by decide +kernel)).mp h _ mem_cons_self).2.2.2.2.2.2
      (some [[]]) (by decide)).1 rfl

/-- The media type is lost. -/
theorem not_parseProtocol_printed : ¬∀ (paths : List String)
    (records : List (HelperRecord paths.length)), paths.length ≤ 200 →
      (∀ record ∈ records, record.IsPrintable) → records.length ≤ 4001 →
      (printed records).length ≤ 1000000 →
        parseProtocol (printed records) paths = some (records.map (HelperRecord.toAst paths)) := by
  intro h
  have hread := h ["A.java"] [.route unnamedMedia] (by decide) isPrintable_unnamedMedia (by decide)
    (by decide +kernel)
  exact absurd hread (by decide +kernel)

end ApiTruth.Analyzers.JavaSpring
