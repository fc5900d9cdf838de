import ApiTruth.Foundation.Js.Doubles
import ApiTruth.Foundation.Js.JsonText
import ApiTruth.Orchestration.Worker

/-!
# The delay before a retry

The delay doubles with every attempt up to a maximum.  The product may leave the range of the safe
integers before the maximum is taken, and from the attempt 54 on it is not computed at all.  A product
with a power of two is exact in doubles, and `2 ^ 53` is above every safe integer, so the delay is
the one that is computed over the whole numbers.

## Main definitions

* `RetryDelay.computeRetryDelayMs` : the delay that is computed in doubles.

## Main results

* `RetryDelay.computeRetryDelayMs_exact` : it is the delay over the whole numbers, and grows with the
  attempts.
-/

namespace ApiTruth.Orchestration.RetryDelay

open Option

/-- The names that the input may have. -/
def known : List JsString := ["attempt", "baseDelayMs", "maxDelayMs"].map JsString.ofString

def safeIntegerAt (value : List (JsString × JsonTree Double)) (key : String) : Option ℤ :=
  match value.lookup (JsString.ofString key) with
  | some (.num (.finite x)) => if (Double.finite x).isSafeInteger then some x.num else none
  | _ => none

/-- `Math.min` of a finite number and a double. -/
def mathMin (x : ℚ) : Double → Double
  | .finite y => .finite (min x y)
  | .infinite negative => if negative then .infinite true else .finite x

/-- `2 ** exponent`. -/
def powerOfTwo (exponent : ℤ) : Double := .ofRat (2 ^ exponent)

/-- The product of a finite number and a double. -/
def times (x : ℚ) : Double → Double
  | .finite y => .ofRat (x * y)
  | .infinite negative => .infinite (negative != decide (x < 0))

/-- `computeRetryDelayMs` of a value that was detached; nothing where the source throws
`INVALID_ORCHESTRATION_INPUT`. -/
def computeRetryDelayMs : JsonTree Double → Option Double
  | .obj value =>
    if value.any fun m => !(known.contains m.1) then none
    else do
      let attempt ← safeIntegerAt value "attempt"
      let baseDelayMs ← safeIntegerAt value "baseDelayMs"
      let maxDelayMs ← safeIntegerAt value "maxDelayMs"
      if attempt < 1 || baseDelayMs < 1 || maxDelayMs < baseDelayMs then none
      else if attempt > 53 then some (.finite maxDelayMs)
      else some (mathMin maxDelayMs (times baseDelayMs (powerOfTwo (attempt - 1))))
  | _ => none

structure Admits (input : JsonTree Double) (attempt baseDelayMs maxDelayMs : ℕ) : Prop where
  input_eq : ∃ value, input = .obj value ∧
    (∀ m ∈ value, m.1 ∈ known) ∧
    safeIntegerAt value "attempt" = some (attempt : ℤ) ∧
    safeIntegerAt value "baseDelayMs" = some (baseDelayMs : ℤ) ∧
    safeIntegerAt value "maxDelayMs" = some (maxDelayMs : ℤ)
  one_le_attempt : 1 ≤ attempt
  one_le_base : 1 ≤ baseDelayMs
  base_le_max : baseDelayMs ≤ maxDelayMs

theorem lt_of_safeIntegerAt {value : List (JsString × JsonTree Double)} {key : String} {n : ℕ}
    (h : safeIntegerAt value key = some (n : ℤ)) : n < 2 ^ 53 := by
  unfold safeIntegerAt at h
  split at h
  · rename_i x _
    split_ifs at h with hsafe
    obtain ⟨hden, hbound⟩ := of_decide_eq_true hsafe
    have hx : x = (n : ℚ) := by
      rw [← Rat.num_div_den x, hden, Option.some.inj h]
      simp
    rw [hx, Nat.abs_cast] at hbound
    have hlt : (n : ℚ) < 2 ^ 53 := hbound.trans_lt (by norm_num)
    exact_mod_cast hlt
  · cases h

/-- Up to the attempt 53 the product is exact; from then on it is above every maximum. -/
theorem delay_eq {attempt baseDelayMs maxDelayMs : ℕ} (hattempt : 1 ≤ attempt)
    (hbase : 1 ≤ baseDelayMs) (hle : baseDelayMs ≤ maxDelayMs) (hmax : maxDelayMs < 2 ^ 53) :
    (if (attempt : ℤ) > 53 then some (Double.finite (maxDelayMs : ℤ))
      else some (mathMin (maxDelayMs : ℤ) (times (baseDelayMs : ℤ)
        (powerOfTwo ((attempt : ℤ) - 1))))) =
      some (.finite (min maxDelayMs (baseDelayMs * 2 ^ (attempt - 1)) : ℕ)) := by
  split_ifs with hlarge
  · have hpow : 2 ^ 53 ≤ baseDelayMs * 2 ^ (attempt - 1) :=
      calc 2 ^ 53 ≤ 2 ^ (attempt - 1) := Nat.pow_le_pow_right (by decide) (by omega)
        _ ≤ baseDelayMs * 2 ^ (attempt - 1) := Nat.le_mul_of_pos_left _ hbase
    rw [min_eq_left (hmax.le.trans hpow), Int.cast_natCast]
  · obtain ⟨k, rfl⟩ : ∃ k, attempt = k + 1 := ⟨attempt - 1, by omega⟩
    have hpower : powerOfTwo (((k + 1 : ℕ) : ℤ) - 1) = .finite ((2 ^ k : ℕ) : ℚ) := by
      have hexact := Double.ofRat_mul_two_pow (n := 1) (k := k) (by decide) (by omega)
      rw [one_mul] at hexact
      rw [← hexact, powerOfTwo]
      congr 1
      simp
    have hproduct : times (baseDelayMs : ℤ) (.finite ((2 ^ k : ℕ) : ℚ)) =
        .finite ((baseDelayMs * 2 ^ k : ℕ) : ℚ) := by
      rw [← Double.ofRat_mul_two_pow (hle.trans_lt hmax) (by omega), times]
      congr 1
      push_cast
      rfl
    rw [hpower, hproduct, mathMin, Nat.add_sub_cancel, Nat.cast_min, Int.cast_natCast]

theorem computeRetryDelayMs_eq_some_iff {input : JsonTree Double} {delay : Double} :
    computeRetryDelayMs input = some delay ↔ ∃ attempt baseDelayMs maxDelayMs : ℕ,
      Admits input attempt baseDelayMs maxDelayMs ∧
        delay = .finite (min maxDelayMs (baseDelayMs * 2 ^ (attempt - 1)) : ℕ) := by
  constructor
  · intro h
    unfold computeRetryDelayMs at h
    split at h
    · rename_i value
      split_ifs at h with hunknown
      simp only [bind_eq_bind, bind_eq_some_iff] at h
      obtain ⟨attempt, hattempt, base, hbase, max, hmax, h⟩ := h
      obtain ⟨hbounds, h⟩ := ite_none_left_eq_some.mp h
      simp only [Bool.or_eq_true, decide_eq_true_eq, not_or, not_lt] at hbounds
      lift attempt to ℕ using by omega
      lift base to ℕ using by omega
      lift max to ℕ using by omega
      rw [delay_eq (by omega) (by omega) (by omega) (lt_of_safeIntegerAt hmax)] at h
      refine ⟨attempt, base, max, ⟨⟨value, rfl, fun m hm => ?_, hattempt, hbase, hmax⟩,
        by omega, by omega, by omega⟩, (Option.some.inj h).symm⟩
      by_contra hm'
      exact hunknown (List.any_eq_true.mpr ⟨m, hm, by simpa using hm'⟩)
    · cases h
  · rintro ⟨attempt, base, max, ⟨⟨value, rfl, hknown, hattempt, hbase, hmax⟩, hone, hpos, hle⟩, rfl⟩
    have hunknown : ¬(value.any fun m => !(known.contains m.1)) = true := by
      rw [List.any_eq_true]
      rintro ⟨m, hm, hm'⟩
      simp [hknown m hm] at hm'
    have hbounds : ¬(decide ((attempt : ℤ) < 1) || decide ((base : ℤ) < 1) ||
        decide ((max : ℤ) < base)) = true := by
      simp only [Bool.or_eq_true, decide_eq_true_eq]
      omega
    rw [computeRetryDelayMs, if_neg hunknown, hattempt, hbase, hmax]
    simp only [bind_eq_bind, bind_some]
    rw [if_neg hbounds, delay_eq hone hpos hle (lt_of_safeIntegerAt hmax)]

/-- The delay is the one over the whole numbers, for every admitted attempt, base and maximum, and
does not fall when the attempt is a later one. -/
theorem computeRetryDelayMs_exact :
    (∀ (input : JsonTree Double) (delay : Double), computeRetryDelayMs input = some delay ↔
      ∃ attempt baseDelayMs maxDelayMs : ℕ, Admits input attempt baseDelayMs maxDelayMs ∧
        delay = .finite (min maxDelayMs (baseDelayMs * 2 ^ (attempt - 1)) : ℕ)) ∧
    ∀ (input later : JsonTree Double) (attempt attempt' baseDelayMs maxDelayMs : ℕ),
      Admits input attempt baseDelayMs maxDelayMs →
      Admits later attempt' baseDelayMs maxDelayMs → attempt ≤ attempt' →
      ∃ delay delay' : ℕ, computeRetryDelayMs input = some (.finite delay) ∧
        computeRetryDelayMs later = some (.finite delay') ∧ delay ≤ delay' := by
  refine ⟨fun input delay => computeRetryDelayMs_eq_some_iff,
    fun input later attempt attempt' base max hinput hlater hle =>
      ⟨_, _, computeRetryDelayMs_eq_some_iff.mpr ⟨_, _, _, hinput, rfl⟩,
        computeRetryDelayMs_eq_some_iff.mpr ⟨_, _, _, hlater, rfl⟩, ?_⟩⟩
  have hpow : 2 ^ (attempt - 1) ≤ 2 ^ (attempt' - 1) :=
    Nat.pow_le_pow_right (by decide) (Nat.sub_le_sub_right hle 1)
  exact min_le_min_left _ (Nat.mul_le_mul_left _ hpow)

theorem computeRetryDelayMs_third : computeRetryDelayMs (.obj
    [(JsString.ofString "attempt", .num (.finite 3)),
      (JsString.ofString "baseDelayMs", .num (.finite 1000)),
      (JsString.ofString "maxDelayMs", .num (.finite 60000))]) = some (.finite (4000 : ℕ)) :=
  (computeRetryDelayMs_exact.1 _ _).mpr ⟨3, 1000, 60000,
    ⟨⟨_, rfl, by decide, by decide +kernel, by decide +kernel, by decide +kernel⟩, by decide,
      by decide, by decide⟩, by decide⟩

end ApiTruth.Orchestration.RetryDelay
