import BrokerPolicy.Proofs.Json.Legible
import BrokerPolicy.Proofs.Json.Spelling

set_option autoImplicit false

/-!
Which literals are in range. What is kept of a literal stands for no more than the literal, and the
reader takes every number that leaves room for its roundings: that is up to one and a half units of
the last place below the greatest double.
-/

namespace BrokerPolicy.Json

open Binary64 (unitsPerOne lastShift)

theorem isFinite_zero_times (y : Binary64) : ((Binary64.ofNat 0).times y).isFinite = true := by
  have hmagnitude : (Binary64.ofNat 0).magnitude = 0 := by decide +kernel
  have hunits := Nat.mul_pos Binary64.unitsPerOne_pos Binary64.unitsPerOne_pos
  refine Binary64.isFinite_ofQuotient_of_lt false ?_
  rw [hmagnitude, Nat.zero_mul, Nat.zero_mul, Nat.mul_zero]
  exact Nat.mul_pos hunits (Nat.mul_pos (Nat.two_pow_pos _) (by decide))

theorem isSome_real?_of_zero {d : Digits} (h : d.significand = 0) (negative : Bool) :
    (d.real? negative).isSome = true := by
  have hzero : (Binary64.ofNat 0).isZero = true := by decide +kernel
  simp only [Digits.real?, h, isFinite_zero_times, hzero, if_true, Option.isSome_map]
  split_ifs <;> rfl

theorem isSome_real?_of_value_le {d : Digits} (h : d.value ≤ ((2 ^ 54 - 5) * 2 ^ 970 : Nat))
    (negative : Bool) : (d.real? negative).isSome = true := by
  rcases lt_or_ge d.exponent 0 with hbehind | hexponent
  · exact isSome_real?_of_behind hbehind negative
  rcases Nat.eq_zero_or_pos d.significand with hzero | hpos
  · exact isSome_real?_of_zero hzero negative
  have hnat : d.significand * 10 ^ d.exponent.toNat ≤ (2 ^ 54 - 5) * 2 ^ 970 := by
    rw [Digits.value_of_nonneg hexponent] at h
    exact Nat.cast_le.1 h
  have hsum : lastShift = 970 + 1074 + 1 := rfl
  have hshift : 2 ^ lastShift = 2 * (2 ^ 970 * unitsPerOne) := by
    rw [hsum, pow_succ', pow_add, Binary64.unitsPerOne_eq]
  refine isSome_real?_of_room hexponent hpos ?_ negative
  calc
    2 * (d.significand * 10 ^ d.exponent.toNat * unitsPerOne)
        ≤ 2 * ((2 ^ 54 - 5) * 2 ^ 970 * unitsPerOne) :=
      Nat.mul_le_mul_left 2 (Nat.mul_le_mul_right unitsPerOne hnat)
    _ = 2 ^ lastShift * (2 ^ 54 - 5) := by
      rw [hshift]
      generalize 2 ^ 970 = room
      ring

namespace Literal

def fractionChars (l : Literal) : List Char := (l.fraction.map Numerals.chars).getD []

theorem isDigit_fractionChars (l : Literal) : ∀ c ∈ l.fractionChars, c.isDigit = true := by
  intro c hc
  rw [fractionChars] at hc
  cases hfraction : l.fraction with
  | none =>
    rw [hfraction] at hc
    cases hc
  | some ds =>
    rw [hfraction] at hc
    exact ds.isDigit c hc

def magnitude (l : Literal) : ℚ :=
  Nat.ofDigitChars 10 (l.whole.chars ++ l.fractionChars) 0 *
    10 ^ (exponentValue l.exponent - l.fractionChars.length)

theorem digits_value_le (l : Literal) : l.digits.value ≤ l.magnitude := by
  have hkept := pointDigits_value_le l.whole.chars l.isDigit_fractionChars
  calc
    l.digits.value = (pointDigits l.whole.chars l.fractionChars).value *
        10 ^ exponentValue l.exponent := Digits.value_scale _ _
    _ ≤ Nat.ofDigitChars 10 (l.whole.chars ++ l.fractionChars) 0 *
        10 ^ (-(l.fractionChars.length : Int)) * 10 ^ exponentValue l.exponent :=
      mul_le_mul_of_nonneg_right hkept (by positivity)
    _ = l.magnitude := by
      rw [magnitude, mul_assoc, ← zpow_add₀ (by norm_num), neg_add_eq_sub]

theorem digits_of_not_isReal {l : Literal} (h : l.isReal = false) :
    l.digits = integerDigits ⟨0, 0⟩ l.whole.chars := by
  obtain ⟨hfraction, hexponent⟩ := Bool.or_eq_false_iff.1 h
  rw [Option.isSome_eq_false_iff, Option.isNone_iff_eq_none] at hfraction hexponent
  rw [digits, hfraction, hexponent]
  change Digits.mk _ (_ + 0) = _
  rw [Int.add_zero]
  rfl

/-- A literal with room above it is in range. -/
theorem inRange_of_magnitude_le {l : Literal} (h : l.magnitude ≤ ((2 ^ 54 - 5) * 2 ^ 970 : Nat)) :
    l.InRange := by
  have hreal : realDraft l.negative l.digits ≠ .fault := by
    obtain ⟨x, hx⟩ := Option.isSome_iff_exists.1
      (isSome_real?_of_value_le (l.digits_value_le.trans h) l.negative)
    rw [realDraft, hx]
    simp
  cases hmark : l.isReal with
  | true =>
    rw [InRange, draft, if_pos hmark]
    exact hreal
  | false =>
    rw [digits_of_not_isReal hmark] at hreal
    rw [InRange, draft_of_not_isReal hmark, integerDraft]
    split
    · exact hreal
    · simp

end Literal

end BrokerPolicy.Json
