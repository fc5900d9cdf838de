import ApiTruth.Foundation.Collation
import Mathlib.Data.List.Lex
import Mathlib.Data.Nat.Notation

/-!
# Strings of JavaScript

A string of JavaScript is a list of UTF-16 code units, which need not be well formed: a high
surrogate without a low one after it, or a low one without a high one before it, stands for itself.
Iterating over a string yields its code points.

## Main definitions

* `JsString` : lists of code units.
* `JsString.codePoints` : the code points that iteration yields.
* `JsString.unitsOf`, `JsString.ofString` : the code units of a code point and of a text.
* `JsString.collation` : the order of code points.

## Main results

* `JsString.flatMap_codePoints` : the code points tell the string.
* `JsString.compareCodePoints_nonpos_iff` : the difference of the first code points that differ
  compares by this order.
-/

abbrev JsString := List UInt16

namespace JsString

open List

instance : LawfulBEq JsString := inferInstance

def isHigh (unit : UInt16) : Bool := decide (0xd800 ≤ unit.toNat) && decide (unit.toNat < 0xdc00)

def isLow (unit : UInt16) : Bool := decide (0xdc00 ≤ unit.toNat) && decide (unit.toNat < 0xe000)

/-- The code points of a string; a surrogate without its partner is a code point of its own. -/
def codePoints : JsString → List ℕ
  | [] => []
  | [unit] => [unit.toNat]
  | high :: low :: rest =>
    if isHigh high && isLow low then
      (0x10000 + (high.toNat - 0xd800) * 0x400 + (low.toNat - 0xdc00)) :: codePoints rest
    else high.toNat :: codePoints (low :: rest)

def unitsOf (point : ℕ) : JsString :=
  if point < 0x10000 then [UInt16.ofNat point]
  else [UInt16.ofNat (0xd800 + (point - 0x10000) / 0x400),
    UInt16.ofNat (0xdc00 + (point - 0x10000) % 0x400)]

def ofString (s : String) : JsString := s.toList.flatMap fun c => unitsOf c.toNat

theorem unitsOf_toNat (unit : UInt16) : unitsOf unit.toNat = [unit] := by
  have hlt : unit.toNat < 0x10000 := unit.toNat_lt
  rw [unitsOf, if_pos hlt, UInt16.ofNat_toNat]

theorem unitsOf_pair {high low : UInt16} (h : isHigh high = true) (h' : isLow low = true) :
    unitsOf (0x10000 + (high.toNat - 0xd800) * 0x400 + (low.toNat - 0xdc00)) = [high, low] := by
  simp only [isHigh, isLow, Bool.and_eq_true, decide_eq_true_eq] at h h'
  have hhigh : 0xd800 + (0x10000 + (high.toNat - 0xd800) * 0x400 + (low.toNat - 0xdc00) - 0x10000)
      / 0x400 = high.toNat := by omega
  have hlow : 0xdc00 + (0x10000 + (high.toNat - 0xd800) * 0x400 + (low.toNat - 0xdc00) - 0x10000)
      % 0x400 = low.toNat := by omega
  rw [unitsOf, if_neg (by omega), hhigh, hlow, UInt16.ofNat_toNat, UInt16.ofNat_toNat]

theorem flatMap_codePoints (s : JsString) : (codePoints s).flatMap unitsOf = s := by
  fun_induction codePoints s with
  | case1 => rfl
  | case2 unit => rw [flatMap_singleton, unitsOf_toNat]
  | case3 high low rest hpair ih =>
    rw [Bool.and_eq_true] at hpair
    rw [flatMap_cons, ih, unitsOf_pair hpair.1 hpair.2, cons_append, cons_append, nil_append]
  | case4 high low rest hpair ih =>
    rw [flatMap_cons, ih, unitsOf_toNat, singleton_append]

theorem codePoints_injective : Function.Injective codePoints := fun s t h => by
  rw [← flatMap_codePoints s, h, flatMap_codePoints]

theorem codePoints_lt {s : JsString} : ∀ point ∈ codePoints s, point < 0x110000 := by
  fun_induction codePoints s with
  | case1 => simp
  | case2 unit =>
    intro point hpoint
    have hlt := unit.toNat_lt
    rw [List.mem_singleton.mp hpoint]
    omega
  | case3 high low rest hpair ih =>
    simp only [isHigh, isLow, Bool.and_eq_true, decide_eq_true_eq] at hpair
    intro point hpoint
    rcases List.mem_cons.mp hpoint with heq | hpoint
    · omega
    · exact ih point hpoint
  | case4 high low rest hpair ih =>
    intro point hpoint
    have hlt := high.toNat_lt
    rcases List.mem_cons.mp hpoint with heq | hpoint
    · omega
    · exact ih point hpoint

/-! ### The order of code points -/

/-- The strings ordered by their code points. -/
def collation : Collation JsString := .ofKey codePoints codePoints_injective

/-- The difference of the first code points that differ, else that of the lengths. -/
def comparePoints : List ℕ → List ℕ → ℤ
  | p :: ps, q :: qs => if p = q then comparePoints ps qs else (p : ℤ) - q
  | ps, qs => (ps.length : ℤ) - qs.length

def compareCodePoints (left right : JsString) : ℤ :=
  comparePoints (codePoints left) (codePoints right)

theorem comparePoints_nonpos_iff (ps qs : List ℕ) : comparePoints ps qs ≤ 0 ↔ ¬qs < ps := by
  induction ps generalizing qs with
  | nil =>
    rw [iff_true_right (not_lt_nil qs), comparePoints]
    · simp
    · simp
  | cons p ps ih =>
    cases qs with
    | nil => simp [comparePoints]
    | cons q qs =>
      rw [comparePoints, cons_lt_cons_iff]
      split_ifs with h
      · rw [ih, h]
        simp
      · have hne : q ≠ p := fun heq => h heq.symm
        omega

/-- The comparison is that of the order of code points. -/
theorem compareCodePoints_nonpos_iff {left right : JsString} :
    compareCodePoints left right ≤ 0 ↔ collation.le left right = true := by
  rw [compareCodePoints, comparePoints_nonpos_iff, not_lt, collation, Collation.ofKey,
    decide_eq_true_eq]

end JsString
