import Mathlib.Data.String.Basic
import Mathlib.Order.Basic
import Mathlib.Tactic.Ring

/-!
# Canonical decimals as text

Unbounded decimals without leading zeros, compared as text: the longer one is the larger, and two
of equal length are ordered digit by digit.

## Main definitions

* `Decimal.isCanonical` : the texts `0` and `[1-9][0-9]*`.
* `Decimal.compare` : the position of a text with respect to a current one.
* `Decimal.Precedes` : the strict order behind `Decimal.compare`.
* `Decimal.value` : the number a text denotes.

## Main results

* `Decimal.compare_eq_numericOrder` : canonical decimals are compared as numbers.
* `Decimal.value_toString`, `Decimal.toString_value` : canonical decimals are the rendered numbers.
-/

namespace Decimal

open List

/-- `/^(0|[1-9][0-9]*)$/`. -/
def isCanonical (text : String) : Bool :=
  match text.toList with
  | [] => false
  | ['0'] => true
  | first :: rest => '1' ≤ first && first ≤ '9' && rest.all Char.isDigit

/-- The position of an incoming decimal with respect to the current one. -/
inductive Order
  | older
  | equal
  | newer
deriving DecidableEq, Repr

/-- Orders two canonical decimals: digit count first, then digit order. -/
def compare (current incoming : String) : Order :=
  if incoming.length ≠ current.length then
    if incoming.length < current.length then .older else .newer
  else if incoming = current then .equal
  else if incoming < current then .older else .newer

/-- The first text is shorter, or as long as the second and smaller. -/
def Precedes (a b : String) : Prop :=
  a.length < b.length ∨ (a.length = b.length ∧ a < b)

theorem Precedes.irrefl (a : String) : ¬ Precedes a a := by
  rintro (h | ⟨-, h⟩) <;> exact lt_irrefl _ h

theorem Precedes.trans {a b c : String} (hab : Precedes a b) (hbc : Precedes b c) :
    Precedes a c := by
  rcases hab with hab | ⟨hlab, hab⟩ <;> rcases hbc with hbc | ⟨hlbc, hbc⟩
  · exact .inl (hab.trans hbc)
  · exact .inl (hlbc ▸ hab)
  · exact .inl (hlab ▸ hbc)
  · exact .inr ⟨hlab.trans hlbc, hab.trans hbc⟩

theorem precedes_trichotomy (a b : String) : Precedes a b ∨ a = b ∨ Precedes b a := by
  rcases lt_trichotomy a.length b.length with hlength | hlength | hlength
  · exact .inl (.inl hlength)
  · rcases lt_trichotomy a b with h | h | h
    · exact .inl (.inr ⟨hlength, h⟩)
    · exact .inr (.inl h)
    · exact .inr (.inr (.inr ⟨hlength.symm, h⟩))
  · exact .inr (.inr (.inl hlength))

variable {current incoming : String} {as bs : List Char} {text : String}

theorem compare_eq_equal_iff :
    compare current incoming = .equal ↔ incoming = current := by
  by_cases h : incoming = current
  · simp [compare, h]
  · simp only [compare, h, ↓reduceIte, iff_false]
    split_ifs <;> simp

theorem compare_eq_newer_iff :
    compare current incoming = .newer ↔ Precedes current incoming := by
  by_cases hlength : incoming.length = current.length
  · by_cases h : incoming = current
    · simp [compare, h, Precedes]
    · have hlt : ¬ incoming < current ↔ current < incoming := by
        rw [not_lt, le_iff_lt_or_eq, or_iff_left fun heq => h heq.symm]
      simp only [compare, hlength, h, Precedes, ne_eq, not_true_eq_false, ↓reduceIte,
        lt_irrefl, true_and, false_or, ← hlt]
      split_ifs with hc <;> simp [hc]
  · have hlt : ¬ incoming.length < current.length ↔ current.length < incoming.length := by
      omega
    simp only [compare, hlength, Precedes, ne_eq, not_false_eq_true, ↓reduceIte, ← hlt,
      Ne.symm hlength, false_and, or_false]
    split_ifs with hc <;> simp [hc]

theorem compare_eq_older_iff :
    compare current incoming = .older ↔ Precedes incoming current := by
  constructor
  · intro h
    rcases precedes_trichotomy incoming current with hlt | heq | hgt
    · exact hlt
    · simp [compare_eq_equal_iff.mpr heq] at h
    · simp [compare_eq_newer_iff.mpr hgt] at h
  · intro h
    cases hcompare : compare current incoming with
    | older => rfl
    | equal => exact absurd (compare_eq_equal_iff.mp hcompare ▸ h) (Precedes.irrefl _)
    | newer =>
      exact absurd (h.trans (compare_eq_newer_iff.mp hcompare)) (Precedes.irrefl _)

theorem compare_eq_ite (current next : String) : compare current next =
    if next.length < current.length then .older
    else if current.length < next.length then .newer
    else if next = current then .equal
    else if next < current then .older else .newer := by
  unfold compare
  rcases lt_trichotomy next.length current.length with h | h | h
  · rw [if_pos h.ne, if_pos h, if_pos h]
  · rw [if_neg (not_not.mpr h), if_neg h.not_lt, if_neg h.symm.not_lt]
  · rw [if_pos h.ne', if_neg h.le.not_gt, if_neg h.le.not_gt, if_pos h]

/-! ### The numeric order -/

def digitValue (digit : Char) : ℕ := digit.toNat - '0'.toNat

/-- The number read from the digits after a prefix that denotes `n`. -/
def valueFrom (n : ℕ) (digits : List Char) : ℕ :=
  digits.foldl (fun n digit => 10 * n + digitValue digit) n

/-- The number a text of decimal digits denotes. -/
def value (text : String) : ℕ := valueFrom 0 text.toList

theorem digitValue_le {digit : Char} (h : digit.isDigit = true) : digitValue digit ≤ 9 := by
  have h9 : digit.toNat ≤ 57 := by
    simp only [Char.isDigit, Bool.and_eq_true, decide_eq_true_eq] at h
    exact h.2
  have h0 : '0'.toNat = 48 := rfl
  unfold digitValue
  omega

theorem digitValue_lt {a b : Char} (ha : a.isDigit = true) (h : a < b) :
    digitValue a < digitValue b := by
  have h48 : 48 ≤ a.toNat := by
    simp only [Char.isDigit, Bool.and_eq_true, decide_eq_true_eq] at ha
    exact ha.1
  have hlt : a.toNat < b.toNat := h
  have h0 : '0'.toNat = 48 := rfl
  unfold digitValue
  omega

theorem valueFrom_lt (digits : List Char) (hdigits : ∀ c ∈ digits, c.isDigit = true) (n : ℕ) :
    valueFrom n digits < (n + 1) * 10 ^ digits.length := by
  induction digits generalizing n with
  | nil => simp [valueFrom]
  | cons digit digits ih =>
    have hhead := digitValue_le (hdigits digit mem_cons_self)
    have htail := ih (fun c hc => hdigits c (mem_cons_of_mem _ hc)) (10 * n + digitValue digit)
    calc valueFrom n (digit :: digits)
        = valueFrom (10 * n + digitValue digit) digits := rfl
      _ < (10 * n + digitValue digit + 1) * 10 ^ digits.length := htail
      _ ≤ (10 * n + 10) * 10 ^ digits.length := Nat.mul_le_mul_right _ (by omega)
      _ = (n + 1) * 10 ^ (digit :: digits).length := by rw [length_cons, pow_succ]; ring

theorem le_valueFrom (digits : List Char) (n : ℕ) :
    n * 10 ^ digits.length ≤ valueFrom n digits := by
  induction digits generalizing n with
  | nil => simp [valueFrom]
  | cons digit digits ih =>
    calc n * 10 ^ (digit :: digits).length
        = 10 * n * 10 ^ digits.length := by rw [length_cons, pow_succ]; ring
      _ ≤ (10 * n + digitValue digit) * 10 ^ digits.length :=
        Nat.mul_le_mul_right _ (Nat.le_add_right _ _)
      _ ≤ valueFrom n (digit :: digits) := ih _

theorem valueFrom_lt_of_lt (hlength : as.length = bs.length)
    (has : ∀ c ∈ as, c.isDigit = true) {m n : ℕ} (h : m < n) :
    valueFrom m as < valueFrom n bs :=
  calc valueFrom m as < (m + 1) * 10 ^ as.length := valueFrom_lt as has m
    _ ≤ n * 10 ^ bs.length := hlength ▸ Nat.mul_le_mul_right _ h
    _ ≤ valueFrom n bs := le_valueFrom bs n

theorem valueFrom_lt_of_lex (hlength : as.length = bs.length)
    (has : ∀ c ∈ as, c.isDigit = true) (n : ℕ) (h : as < bs) :
    valueFrom n as < valueFrom n bs := by
  induction as generalizing bs n with
  | nil =>
    obtain rfl := List.length_eq_zero_iff.mp hlength.symm
    exact absurd h (lt_irrefl _)
  | cons a as ih =>
    cases bs with
    | nil => simp at hlength
    | cons b bs =>
      have hlength' : as.length = bs.length := by simpa using hlength
      have has' : ∀ c ∈ as, c.isDigit = true := fun c hc => has c (mem_cons_of_mem _ hc)
      rcases List.cons_lt_cons_iff.mp h with hab | ⟨rfl, htail⟩
      · have hdigit := digitValue_lt (has a mem_cons_self) hab
        have hstep : 10 * n + digitValue a < 10 * n + digitValue b := by omega
        exact valueFrom_lt_of_lt hlength' has' hstep
      · exact ih hlength' has' _ htail

theorem isDigit_of_isCanonical (h : isCanonical text = true) :
    ∀ c ∈ text.toList, c.isDigit = true := by
  unfold isCanonical at h
  split at h
  · simp at h
  · next heq => simp [heq]
  · next first rest _ heq =>
    simp only [Bool.and_eq_true, decide_eq_true_eq, List.all_eq_true] at h
    have hfirst : first.isDigit = true := by
      have h0 : '0' ≤ first := le_trans (by decide) h.1.1
      simp only [Char.isDigit, Bool.and_eq_true, decide_eq_true_eq]
      exact ⟨h0, h.1.2⟩
    rw [heq]
    exact List.forall_mem_cons.mpr ⟨hfirst, h.2⟩

theorem pow_le_value (h : isCanonical text = true) (hlong : 1 < text.length) :
    10 ^ (text.length - 1) ≤ value text := by
  unfold isCanonical at h
  split at h
  · simp at h
  · next heq => rw [← String.length_toList, heq] at hlong; simp at hlong
  · next first rest _ heq =>
    simp only [Bool.and_eq_true, decide_eq_true_eq] at h
    have hfirst : 1 ≤ digitValue first :=
      digitValue_lt (a := '0') (by decide) (lt_of_lt_of_le (by decide) h.1.1)
    calc 10 ^ (text.length - 1) = 1 * 10 ^ rest.length := by
          rw [← String.length_toList, heq]; simp
      _ ≤ digitValue first * 10 ^ rest.length := Nat.mul_le_mul_right _ hfirst
      _ ≤ valueFrom (digitValue first) rest := le_valueFrom _ _
      _ = value text := by rw [value, heq]; simp [valueFrom]

theorem value_lt_of_precedes {a b : String} (ha : isCanonical a = true)
    (hb : isCanonical b = true) (h : Precedes a b) : value a < value b := by
  rcases h with hlength | ⟨hlength, hlt⟩
  · have hane : 0 < a.length := by
      refine List.length_pos_iff.mpr fun hnil => ?_
      simp [isCanonical, hnil] at ha
    have hupper := valueFrom_lt a.toList (isDigit_of_isCanonical ha) 0
    rw [String.length_toList, zero_add, one_mul] at hupper
    calc value a < 10 ^ a.length := hupper
      _ ≤ 10 ^ (b.length - 1) := Nat.pow_le_pow_right (by decide) (by omega)
      _ ≤ value b := pow_le_value hb (by omega)
  · refine valueFrom_lt_of_lex ?_ (isDigit_of_isCanonical ha) 0 (String.lt_iff_toList_lt.mp hlt)
    rw [String.length_toList, String.length_toList, hlength]

theorem value_inj {a b : String} (ha : isCanonical a = true) (hb : isCanonical b = true) :
    value a = value b ↔ a = b := by
  refine ⟨fun h => ?_, congrArg value⟩
  rcases precedes_trichotomy a b with hab | heq | hba
  · exact absurd (value_lt_of_precedes ha hb hab) (h ▸ lt_irrefl _)
  · exact heq
  · exact absurd (value_lt_of_precedes hb ha hba) (h ▸ lt_irrefl _)

/-- The position of a number with respect to the current one. -/
def numericOrder (current incoming : ℕ) : Order :=
  if incoming < current then .older else if incoming = current then .equal else .newer

/-- Canonical decimals are compared as the numbers they denote. -/
theorem compare_eq_numericOrder (hcurrent : isCanonical current = true)
    (hincoming : isCanonical incoming = true) :
    compare current incoming = numericOrder (value current) (value incoming) := by
  unfold numericOrder
  rcases precedes_trichotomy incoming current with h | rfl | h
  · rw [compare_eq_older_iff.mpr h, if_pos (value_lt_of_precedes hincoming hcurrent h)]
  · rw [compare_eq_equal_iff.mpr rfl, if_neg (lt_irrefl _), if_pos rfl]
  · have hlt := value_lt_of_precedes hcurrent hincoming h
    rw [compare_eq_newer_iff.mpr h, if_neg hlt.le.not_gt, if_neg hlt.ne']

/-! ### Rendered numbers -/

theorem valueFrom_eq_ofDigitChars (n : ℕ) (digits : List Char) :
    valueFrom n digits = Nat.ofDigitChars 10 digits n := rfl

@[simp] theorem value_toString (n : ℕ) : value (toString n) = n := by
  rw [value, Nat.toString_eq_repr, Nat.toList_repr, valueFrom_eq_ofDigitChars,
    Nat.ofDigitChars_ten_toDigits]

theorem exists_toDigits_eq_cons {n : ℕ} (hn : 0 < n) :
    ∃ first rest, Nat.toDigits 10 n = first :: rest ∧ '1' ≤ first ∧ first ≤ '9' := by
  induction n using Nat.strong_induction_on with
  | _ n ih =>
    rcases lt_or_ge n 10 with hlt | hge
    · rw [Nat.toDigits_of_lt_base hlt]
      have hdigit : ∀ d : Fin 10, 0 < d.val → '1' ≤ d.val.digitChar ∧ d.val.digitChar ≤ '9' := by
        decide
      exact ⟨_, _, rfl, hdigit ⟨n, hlt⟩ hn⟩
    · rw [Nat.toDigits_of_base_le (by decide) hge]
      obtain ⟨first, rest, heq, hfirst⟩ := ih (n / 10) (by omega) (by omega)
      exact ⟨first, rest ++ [(n % 10).digitChar], by rw [heq, cons_append], hfirst⟩

theorem isCanonical_toString (n : ℕ) : isCanonical (toString n) = true := by
  rcases Nat.eq_zero_or_pos n with rfl | hn
  · decide
  · obtain ⟨first, rest, heq, hlow, hhigh⟩ := exists_toDigits_eq_cons hn
    have hdigits : ∀ c ∈ first :: rest, c.isDigit = true := fun c hc =>
      Nat.isDigit_of_mem_toDigits (by decide) (by decide) (heq ▸ hc)
    have hzero : first ≠ '0' := by
      rintro rfl
      exact absurd hlow (by decide)
    have hlist : (toString n).toList = first :: rest := by
      rw [Nat.toString_eq_repr, Nat.toList_repr, heq]
    rw [isCanonical, hlist]
    split
    · next h => cases h
    · next h => exact absurd (List.cons.inj h).1 hzero
    · next h =>
      cases h
      simp only [Bool.and_eq_true, decide_eq_true_eq, List.all_eq_true]
      exact ⟨⟨hlow, hhigh⟩, fun c hc => hdigits c (mem_cons_of_mem _ hc)⟩

theorem toString_value (h : isCanonical text = true) :
    toString (value text) = text :=
  (value_inj (isCanonical_toString _) h).mp (value_toString _)

end Decimal
