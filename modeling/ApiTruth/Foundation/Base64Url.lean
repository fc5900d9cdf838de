import Mathlib.Data.Nat.Notation
import Mathlib.Tactic.Basic

/-!
# The Base64 encoding for URLs

Three bytes are written as four letters, and one or two bytes at the end as two or three letters,
without padding.

## Main definitions

* `Base64Url.encode`, `Base64Url.decode` : the letters of bytes and the bytes of letters.

## Main results

* `Base64Url.decode_encode`, `Base64Url.isLetter_of_mem_encode`.
-/

namespace Base64Url

open List

/-- `[A-Za-z0-9_-]`. -/
def isLetter (c : Char) : Bool := c.isAlphanum || c == '_' || c == '-'

/-- The letter of a number below 64. -/
def letter (v : ℕ) : Char :=
  if v < 26 then Char.ofNat (65 + v)
  else if v < 52 then Char.ofNat (71 + v)
  else if v < 62 then Char.ofNat (v - 4)
  else if v = 62 then '-' else '_'

def value (c : Char) : ℕ :=
  if c.isUpper then c.toNat - 65
  else if c.isLower then c.toNat - 71
  else if c.isDigit then c.toNat + 4
  else if c = '-' then 62 else 63

/-- The letters of 24 bits. -/
def quad (n : ℕ) : List Char :=
  [letter (n / 0x40000), letter (n / 0x1000 % 64), letter (n / 64 % 64), letter (n % 64)]

/-- The 24 bits of letters. -/
def bits (p q r s : Char) : ℕ := ((value p * 64 + value q) * 64 + value r) * 64 + value s

def bytes (n : ℕ) : List UInt8 :=
  [UInt8.ofNat (n / 0x10000), UInt8.ofNat (n / 0x100), UInt8.ofNat n]

def encode : List UInt8 → List Char
  | a :: b :: c :: rest => quad ((a.toNat * 256 + b.toNat) * 256 + c.toNat) ++ encode rest
  | [a, b] => (quad ((a.toNat * 256 + b.toNat) * 256)).take 3
  | [a] => (quad (a.toNat * 256 * 256)).take 2
  | [] => []

/-- Bits that do not make up a byte are dropped. -/
def decode : List Char → List UInt8
  | p :: q :: r :: s :: rest => bytes (bits p q r s) ++ decode rest
  | [p, q, r] => (bytes (bits p q r 'A')).take 2
  | [p, q] => (bytes (bits p q 'A' 'A')).take 1
  | _ => []

theorem letter_spec : ∀ v < 64, value (letter v) = v ∧ isLetter (letter v) = true := by
  decide +kernel

section Quad

variable {n : ℕ} (h : n < 0x1000000)
include h

theorem isLetter_of_mem_quad : ∀ c ∈ quad n, isLetter c = true := by
  simp only [quad, forall_mem_cons, not_mem_nil, false_implies, implies_true, and_true]
  exact ⟨(letter_spec _ (by omega)).2, (letter_spec _ (by omega)).2, (letter_spec _ (by omega)).2,
    (letter_spec _ (by omega)).2⟩

theorem bits_quad : bits (letter (n / 0x40000)) (letter (n / 0x1000 % 64)) (letter (n / 64 % 64))
    (letter (n % 64)) = n := by
  rw [bits, (letter_spec (n / 0x40000) (by omega)).1, (letter_spec (n / 0x1000 % 64) (by omega)).1,
    (letter_spec (n / 64 % 64) (by omega)).1, (letter_spec (n % 64) (by omega)).1]
  omega

end Quad

theorem bytes_eq (a b c : UInt8) :
    bytes ((a.toNat * 256 + b.toNat) * 256 + c.toNat) = [a, b, c] := by
  have ha := a.toNat_lt
  have hb := b.toNat_lt
  have hc := c.toNat_lt
  simp only [bytes, cons.injEq, and_true, ← UInt8.toNat_inj, UInt8.toNat_ofNat']
  omega

theorem decode_encode (bs : List UInt8) : decode (encode bs) = bs := by
  fun_induction encode bs with
  | case1 a b c rest ih =>
    have ha := a.toNat_lt
    have hb := b.toNat_lt
    have hc := c.toNat_lt
    have hbits := bits_quad (show (a.toNat * 256 + b.toNat) * 256 + c.toNat < 0x1000000 by omega)
    show bytes (bits _ _ _ _) ++ decode (encode rest) = _
    rw [hbits, bytes_eq, ih]
    rfl
  | case2 a b =>
    have ha := a.toNat_lt
    have hb := b.toNat_lt
    have hbits := bits_quad (show (a.toNat * 256 + b.toNat) * 256 < 0x1000000 by omega)
    rw [show (a.toNat * 256 + b.toNat) * 256 % 64 = 0 by omega] at hbits
    show (bytes (bits _ _ _ (letter 0))).take 2 = _
    have hbytes := bytes_eq a b 0
    rw [UInt8.toNat_zero, Nat.add_zero] at hbytes
    rw [hbits, hbytes]
    rfl
  | case3 a =>
    have ha := a.toNat_lt
    have hbits := bits_quad (show a.toNat * 256 * 256 < 0x1000000 by omega)
    rw [show a.toNat * 256 * 256 % 64 = 0 by omega,
      show a.toNat * 256 * 256 / 64 % 64 = 0 by omega] at hbits
    show (bytes (bits _ _ (letter 0) (letter 0))).take 1 = _
    have hbytes := bytes_eq a 0 0
    rw [UInt8.toNat_zero, Nat.add_zero, Nat.add_zero] at hbytes
    rw [hbits, hbytes]
    rfl
  | case4 => rfl

theorem isLetter_of_mem_encode {bs : List UInt8} : ∀ c ∈ encode bs, isLetter c = true := by
  fun_induction encode bs with
  | case1 a b c rest ih =>
    have ha := a.toNat_lt
    have hb := b.toNat_lt
    have hc := c.toNat_lt
    exact forall_mem_append.mpr ⟨isLetter_of_mem_quad (by omega), ih⟩
  | case2 a b =>
    have ha := a.toNat_lt
    have hb := b.toNat_lt
    exact fun c hc => isLetter_of_mem_quad (by omega) c (mem_of_mem_take hc)
  | case3 a =>
    have ha := a.toNat_lt
    exact fun c hc => isLetter_of_mem_quad (by omega) c (mem_of_mem_take hc)
  | case4 => simp

end Base64Url
