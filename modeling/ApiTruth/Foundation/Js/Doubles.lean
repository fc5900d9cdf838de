import Mathlib.Data.Int.Log
import Mathlib.Data.Rat.Floor
import Mathlib.Tactic.Linarith
import Mathlib.Tactic.NormNum.Pow
import Mathlib.Tactic.Positivity

/-!
# Doubles

A number of JavaScript is a double.  Rounding takes a rational number to the double next to it, and
to the one with an even significand halfway between two; numbers of `2 ^ 1024` and more become
infinite.  Both zeros are the number zero here.

## Main definitions

* `Double`, `Double.ofRat` : doubles, and rounding.
* `Double.minus`, `Double.atMost`, `Double.below` : arithmetic and comparison with whole numbers.
* `Double.isInteger`, `Double.isSafeInteger` : the tests of `Number`.
* `Double.sliceFrom` : `slice` with a number for the start.

## Main results

* `Double.ofRat_intCast` : whole numbers up to `2 ^ 53` are doubles.
* `Double.ofRat_intCast_eq_finite` : a whole number that becomes a smaller one than `2 ^ 53` is a
  double.
* `Double.minus_ofRat` : the difference of a rounded whole number and a small one is exact, or large.
-/

/-- A double that is a number: a finite one, or an infinite one with its sign. -/
inductive Double
  | finite (x : ℚ)
  | infinite (negative : Bool)
deriving DecidableEq

namespace Double

/-! ### Rounding -/

/-- The whole number next to a number, and the even one of two. -/
def nearestEven (x : ℚ) : ℕ :=
  let below := ⌊x⌋₊
  let rest := x - below
  if rest < 1 / 2 ∨ rest = 1 / 2 ∧ below % 2 = 0 then below else below + 1

/-- The distance of the doubles around a positive number. -/
def spacing (x : ℚ) : ℚ := 2 ^ max (Int.log 2 x - 52) (-1074)

/-- The multiple of the spacing that a positive number is rounded to. -/
def magnitude (x : ℚ) : ℚ := nearestEven (x / spacing x) * spacing x

/-- A magnitude with a sign, which is infinite from `2 ^ 1024` on. -/
def signed (negative : Bool) (magnitude : ℚ) : Double :=
  if magnitude < 2 ^ 1024 then .finite (if negative then -magnitude else magnitude)
  else .infinite negative

def ofRat (x : ℚ) : Double :=
  if x < 0 then signed true (magnitude (-x)) else signed false (magnitude x)

theorem nearestEven_natCast (n : ℕ) : nearestEven n = n := by
  simp [nearestEven]

variable {x : ℚ} {n : ℕ} {k : ℕ}

theorem le_nearestEven (h : n ≤ x) : n ≤ nearestEven x := by
  have hfloor : n ≤ ⌊x⌋₊ := Nat.le_floor h
  simp only [nearestEven]
  split_ifs
  · exact hfloor
  · exact hfloor.trans (Nat.le_succ _)

theorem spacing_pos (x : ℚ) : 0 < spacing x := zpow_pos two_pos _

theorem magnitude_of_eq_mul (h : x = n * spacing x) : magnitude x = x := by
  have hquotient : x / spacing x = n := by
    rw [div_eq_iff (spacing_pos x).ne', ← h]
  rw [magnitude, hquotient, nearestEven_natCast, ← h]

theorem magnitude_mul_two_pow (hn : n < 2 ^ 53) (k : ℕ) :
    magnitude ((n * 2 ^ k : ℕ) : ℚ) = ((n * 2 ^ k : ℕ) : ℚ) := by
  rcases Nat.eq_zero_or_pos n with rfl | hpos
  · exact magnitude_of_eq_mul (n := 0) (by simp)
  have hlog : Int.log 2 ((n * 2 ^ k : ℕ) : ℚ) = (Nat.log 2 n + k : ℕ) := by
    rw [Int.log_natCast]
    congr 1
    induction k with
    | zero => simp
    | succ k ih => rw [pow_succ, ← mul_assoc, Nat.log_mul_base (by decide) (by positivity), ih]; rfl
  have hbound : Nat.log 2 n < 53 := Nat.log_lt_of_lt_pow' (by decide) hn
  have hspacing : spacing ((n * 2 ^ k : ℕ) : ℚ) = 2 ^ ((Nat.log 2 n + k : ℕ) - 52 : ℤ) := by
    rw [spacing, hlog, max_eq_left (by omega)]
  refine magnitude_of_eq_mul (n := n * 2 ^ (52 - Nat.log 2 n)) ?_
  rw [hspacing, Nat.cast_mul, Nat.cast_mul, mul_assoc, Nat.cast_pow, Nat.cast_pow, Nat.cast_ofNat,
    ← zpow_natCast, ← zpow_natCast, ← zpow_add₀ two_ne_zero]
  congr 2
  omega

theorem magnitude_natCast (hn : n ≤ 2 ^ 53) : magnitude n = n := by
  rcases hn.eq_or_lt with rfl | hlt
  · simpa using magnitude_mul_two_pow (n := 1) (by decide) 53
  · simpa using magnitude_mul_two_pow hlt 0

theorem le_magnitude (h : 2 ^ k ≤ x) : 2 ^ k ≤ magnitude x := by
  have hpos : 0 < x := lt_of_lt_of_le (by positivity) h
  have hlog : (k : ℤ) ≤ Int.log 2 x := by
    rw [← Int.zpow_le_iff_le_log (by decide) hpos]
    exact_mod_cast h
  have hspacing : spacing x = 2 ^ (Int.log 2 x - 52) := by
    rw [spacing, max_eq_left (by omega)]
  have hpow : (2 : ℚ) ^ Int.log 2 x = (2 ^ 52 : ℕ) * spacing x := by
    rw [hspacing, Nat.cast_pow, Nat.cast_ofNat, ← zpow_natCast, ← zpow_add₀ two_ne_zero]
    congr 1
    omega
  have hle : ((2 ^ 52 : ℕ) : ℚ) ≤ x / spacing x := by
    rw [le_div_iff₀ (spacing_pos x), ← hpow]
    exact_mod_cast Int.zpow_log_le_self (by decide) hpos
  calc (2 : ℚ) ^ k = 2 ^ (k : ℤ) := (zpow_natCast _ _).symm
    _ ≤ 2 ^ Int.log 2 x := zpow_le_zpow_right₀ one_le_two hlog
    _ = (2 ^ 52 : ℕ) * spacing x := hpow
    _ ≤ magnitude x :=
      mul_le_mul_of_nonneg_right (Nat.cast_le.mpr (le_nearestEven hle)) (spacing_pos x).le

/-! ### Whole numbers -/

theorem signed_natCast (hn : n ≤ 2 ^ 53) (negative : Bool) :
    signed negative n = finite (if negative then -n else n) := by
  have hlt : (n : ℚ) < 2 ^ 1024 := by
    calc (n : ℚ) ≤ 2 ^ 53 := by exact_mod_cast hn
      _ < 2 ^ 1024 := pow_lt_pow_right₀ one_lt_two (by decide)
  rw [signed, if_pos hlt]

theorem ofRat_mul_two_pow (hn : n < 2 ^ 53) (hk : k ≤ 53) :
    ofRat ((n * 2 ^ k : ℕ) : ℚ) = finite ((n * 2 ^ k : ℕ) : ℚ) := by
  have hlt : n * 2 ^ k < 2 ^ 1024 :=
    calc n * 2 ^ k < 2 ^ 53 * 2 ^ k := Nat.mul_lt_mul_of_pos_right hn (by positivity)
      _ ≤ 2 ^ 53 * 2 ^ 53 := Nat.mul_le_mul_left _ (Nat.pow_le_pow_right (by decide) hk)
      _ < 2 ^ 1024 := by
        rw [← pow_add, Nat.pow_lt_pow_iff_right (by decide)]
        decide
  rw [ofRat, if_neg (not_lt.mpr (Nat.cast_nonneg _)), magnitude_mul_two_pow hn, signed,
    if_pos (by exact_mod_cast hlt)]
  rfl

/-- Whole numbers up to `2 ^ 53` are doubles. -/
theorem ofRat_intCast {n : ℤ} (hn : |n| ≤ 2 ^ 53) : ofRat n = finite n := by
  rcases lt_or_ge n 0 with hneg | hpos
  · obtain ⟨m, rfl⟩ := Int.exists_eq_neg_ofNat hneg.le
    rw [abs_neg, Nat.abs_cast] at hn
    have hm : m ≤ 2 ^ 53 := by exact_mod_cast hn
    rw [ofRat, if_pos (by exact_mod_cast hneg), Int.cast_neg, neg_neg, Int.cast_natCast,
      magnitude_natCast hm, signed_natCast hm]
    rfl
  · obtain ⟨m, rfl⟩ := Int.eq_ofNat_of_zero_le hpos
    have hm : m ≤ 2 ^ 53 := by exact_mod_cast hn
    rw [ofRat, if_neg (by exact_mod_cast hpos.not_gt), Int.cast_natCast, magnitude_natCast hm,
      signed_natCast hm]
    rfl

/-- The number is `2 ^ k` at least. -/
def AtLeastPow (k : ℕ) (x : Double) : Prop := x = infinite false ∨ ∃ y, x = finite y ∧ 2 ^ k ≤ y

/-- The number is `-2 ^ k` at most. -/
def AtMostNegPow (k : ℕ) (x : Double) : Prop := x = infinite true ∨ ∃ y, x = finite y ∧ y ≤ -2 ^ k

theorem atLeastPow_ofRat (h : 2 ^ k ≤ x) : AtLeastPow k (ofRat x) := by
  have hpos : ¬x < 0 := not_lt.mpr (le_trans (by positivity) h)
  rw [ofRat, if_neg hpos, signed]
  split_ifs with hlt hneg
  · cases hneg
  · exact .inr ⟨_, rfl, le_magnitude h⟩
  · exact .inl rfl

theorem atMostNegPow_ofRat (h : x ≤ -2 ^ k) : AtMostNegPow k (ofRat x) := by
  have hpow : (0 : ℚ) < 2 ^ k := by positivity
  rw [ofRat, if_pos (by linarith), signed, if_pos rfl]
  split_ifs
  · exact .inr ⟨_, rfl, neg_le_neg (le_magnitude (by linarith))⟩
  · exact .inl rfl

/-- A whole number that becomes a smaller one than `2 ^ 53` is a double. -/
theorem ofRat_intCast_eq_finite {n : ℤ} (h : ofRat n = finite x) (hx : |x| < 2 ^ 53) :
    x = n := by
  obtain ⟨hlow, hhigh⟩ := abs_lt.mp hx
  rcases le_or_gt |n| (2 ^ 53) with hle | hgt
  · exact finite.inj (h.symm.trans (ofRat_intCast hle))
  · rcases lt_abs.mp hgt with hpos | hneg
    · rcases atLeastPow_ofRat (k := 53) (x := n) (by exact_mod_cast hpos.le) with h' | ⟨y, h', hy⟩
      · cases h.symm.trans h'
      · obtain rfl := finite.inj (h.symm.trans h')
        exact absurd hhigh hy.not_gt
    · have hle : (n : ℚ) ≤ -2 ^ 53 := by
        rw [le_neg]
        exact_mod_cast hneg.le
      rcases atMostNegPow_ofRat (k := 53) hle with h' | ⟨y, h', hy⟩
      · cases h.symm.trans h'
      · obtain rfl := finite.inj (h.symm.trans h')
        exact absurd hlow hy.not_gt

/-- `Number.isFinite`. -/
def isFinite : Double → Bool
  | finite _ => true
  | infinite _ => false

/-- `Number.isInteger`. -/
def isInteger : Double → Bool
  | finite x => decide (x.den = 1)
  | infinite _ => false

/-- `Number.isSafeInteger`. -/
def isSafeInteger : Double → Bool
  | finite x => decide (x.den = 1 ∧ |x| ≤ 2 ^ 53 - 1)
  | infinite _ => false

/-! ### Differences -/

/-- A whole number less. -/
def minus (x : Double) (n : ℕ) : Double :=
  match x with
  | finite x => ofRat (x - n)
  | infinite negative => infinite negative

/-- The number is not greater than a whole number. -/
def atMost (x : Double) (bound : ℤ) : Bool :=
  match x with
  | finite x => decide (x ≤ bound)
  | infinite negative => negative

/-- The number is smaller than a whole number. -/
def below (x : Double) (bound : ℤ) : Bool :=
  match x with
  | finite x => decide (x < bound)
  | infinite negative => negative

/-- The difference of a rounded whole number and a small one is exact, or large. -/
theorem minus_ofRat (e : ℤ) {f : ℕ} (hf : f ≤ 2 ^ 51) :
    (ofRat e).minus f = finite ((e - f : ℤ) : ℚ) ∨
      2 ^ 51 ≤ e - f ∧ AtLeastPow 51 ((ofRat e).minus f) ∨
      e - f ≤ -2 ^ 51 ∧ AtMostNegPow 51 ((ofRat e).minus f) := by
  have hrat : (f : ℚ) ≤ 2 ^ 51 := by exact_mod_cast hf
  rcases lt_or_ge e (-2 ^ 52) with hlow | hlow
  · refine .inr (.inr ⟨by omega, ?_⟩)
    have hle : (e : ℚ) ≤ -2 ^ 52 := by exact_mod_cast hlow.le
    rcases atMostNegPow_ofRat hle with h | ⟨y, h, hy⟩ <;> rw [h, minus]
    · exact .inl rfl
    · exact atMostNegPow_ofRat (by linarith [Nat.cast_nonneg (α := ℚ) f])
  rcases le_or_gt e (2 ^ 52) with hhigh | hhigh
  · rw [ofRat_intCast (abs_le.mpr ⟨by omega, by omega⟩), minus]
    refine .inl ?_
    rw [← ofRat_intCast (abs_le.mpr ⟨by omega, by omega⟩), Int.cast_sub, Int.cast_natCast]
  · refine .inr (.inl ⟨by omega, ?_⟩)
    have hle : (2 : ℚ) ^ 52 ≤ e := by exact_mod_cast hhigh.le
    rcases atLeastPow_ofRat hle with h | ⟨y, h, hy⟩ <;> rw [h, minus]
    · exact .inl rfl
    · exact atLeastPow_ofRat (by linarith)

theorem compare_minus_ofRat (e : ℤ) {f : ℕ} (hf : f ≤ 2 ^ 51) {bound : ℤ}
    (hbound : |bound| < 2 ^ 51) :
    ((ofRat e).minus f).atMost bound = decide (e - f ≤ bound) ∧
      ((ofRat e).minus f).below bound = decide (e - f < bound) := by
  obtain ⟨hlow, hhigh⟩ := abs_lt.mp hbound
  have hlow' : (-2 ^ 51 : ℚ) < bound := by exact_mod_cast hlow
  have hhigh' : (bound : ℚ) < 2 ^ 51 := by exact_mod_cast hhigh
  rcases minus_ofRat e hf with h | ⟨hle, h | ⟨y, h, hy⟩⟩ | ⟨hle, h | ⟨y, h, hy⟩⟩ <;>
    rw [h, atMost, below]
  · simp only [Int.cast_le, Int.cast_lt, and_self]
  · simp only [Bool.false_eq, decide_eq_false_iff_not]
    omega
  · rw [decide_eq_false (show ¬y ≤ bound by linarith), decide_eq_false (show ¬y < bound by linarith)]
    simp only [Bool.false_eq, decide_eq_false_iff_not]
    omega
  · simp only [Bool.true_eq, decide_eq_true_iff]
    omega
  · rw [decide_eq_true (show y ≤ bound by linarith), decide_eq_true (show y < bound by linarith)]
    simp only [Bool.true_eq, decide_eq_true_iff]
    omega

/-! ### Slices -/

/-- The whole number next to a number in the direction of zero. -/
def truncate (x : ℚ) : ℤ := if x < 0 then -⌊-x⌋ else ⌊x⌋

/-- `slice` with a start, which counts from the end when it is negative. -/
def sliceFrom {α : Type*} (start : Double) (xs : List α) : List α :=
  match start with
  | finite x =>
    if truncate x < 0 then xs.drop (xs.length + truncate x).toNat else xs.drop (truncate x).toNat
  | infinite negative => if negative then xs else []

theorem truncate_intCast (n : ℤ) : truncate n = n := by
  unfold truncate
  split_ifs
  · rw [← Int.cast_neg, Int.floor_intCast, neg_neg]
  · exact Int.floor_intCast n

theorem sliceFrom_neg {α : Type*} {count : ℕ} (hcount : 0 < count) (xs : List α) :
    sliceFrom (finite ((-count : ℤ) : ℚ)) xs = xs.drop (xs.length - count) := by
  rw [sliceFrom, truncate_intCast, if_pos (by omega)]
  congr 1
  omega

end Double
