import ApiTruth.Foundation.Regex
import Mathlib.Algebra.BigOperators.Group.List.Basic
import Mathlib.Algebra.GroupWithZero.Nat

/-!
# Patterns of stored texts

The lengths of texts and the regular expressions that columns and requests are checked against, as
predicates on the characters of a text.

## Main definitions

* `unitLength`, `byteLength` : the length of a text in UTF-16 code units and in UTF-8 bytes.
* `isSha256` : `/^sha256:[0-9a-f]{64}$/`.
* `isIdentifier` : `/^[A-Za-z0-9][A-Za-z0-9._:-]{0,127}$/`.

## Main results

* `byteLength_le` : a code unit takes at most three bytes.
-/

namespace ApiTruth

/-! ### Lengths -/

def unitLength (text : String) : ℕ :=
  (text.toList.map fun c => if c.toNat < 65536 then 1 else 2).sum

def byteLength (text : String) : ℕ := (text.toList.map Char.utf8Size).sum

/-- A code unit takes at most three bytes. -/
theorem byteLength_le (text : String) : byteLength text ≤ 3 * unitLength text := by
  unfold byteLength unitLength
  induction text.toList with
  | nil => simp
  | cons c cs ih =>
    have hc : c.utf8Size ≤ 3 * if c.toNat < 65536 then 1 else 2 := by
      have hsize := c.utf8Size_le_four
      split_ifs with h
      · have hval : c.val ≤ 0xffff := UInt32.le_iff_toNat_le.mpr (Nat.le_of_lt_succ h)
        have hthree : c.utf8Size ≤ 3 := by
          simp only [Char.utf8Size]
          split_ifs with h1 h2 h3
          · decide
          · decide
          · decide
          · exact absurd hval h3
        omega
      · omega
    simp only [List.map_cons, List.sum_cons]
    omega

/-! ### Characters -/

/-- `[\u0000-\u001f\u007f]`. -/
def isControl (c : Char) : Bool := c.toNat < 32 || c.toNat == 127

theorem toNat_of_isAlphanum {c : Char} (h : c.isAlphanum = true) :
    ((65 ≤ c.toNat ∧ c.toNat ≤ 90) ∨ (97 ≤ c.toNat ∧ c.toNat ≤ 122)) ∨
      (48 ≤ c.toNat ∧ c.toNat ≤ 57) := by
  delta Char.isAlphanum Char.isAlpha Char.isUpper Char.isLower Char.isDigit at h
  simp only [Bool.or_eq_true, Bool.and_eq_true, decide_eq_true_eq, ge_iff_le,
    UInt32.le_iff_toNat_le] at h
  exact h

/-- `\s`, which is also what `trim` removes. -/
def isSpace (c : Char) : Bool :=
  (9 ≤ c.toNat && c.toNat ≤ 13) || (0x2000 ≤ c.toNat && c.toNat ≤ 0x200a) ||
    [0x20, 0xa0, 0x1680, 0x2028, 0x2029, 0x202f, 0x205f, 0x3000, 0xfeff].contains c.toNat

def isBlank (text : String) : Bool := text.toList.all isSpace

/-! ### Formats -/

/-- `/^sha256:[0-9a-f]{64}$/`. -/
def isSha256 (text : String) : Bool :=
  let digits := text.toList.drop 7
  decide (text.toList.take 7 = "sha256:".toList) && decide (digits.length = 64) &&
    digits.all fun c => c.isDigit || ('a' ≤ c && c ≤ 'f')

/-- `/^[A-Za-z0-9][A-Za-z0-9._:-]{0,127}$/`. -/
def isIdentifier (text : String) : Bool :=
  (text.toList.head?.any Char.isAlphanum) && decide (text.length ≤ 128) &&
    text.toList.all fun c => c.isAlphanum || "._:-".toList.contains c

end ApiTruth
