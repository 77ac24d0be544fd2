import BrokerPolicy.Proofs.Numeral.Shortest
import Mathlib.Algebra.Order.Field.Power
import Mathlib.Data.Rat.Cast.Order
import Mathlib.Tactic.FieldSimp
import Mathlib.Tactic.Positivity
import Mathlib.Tactic.Ring

set_option autoImplicit false

/-!
The number that a shortest decimal stands for. It is not above the interval of the reals that round
to the double, on whichever grid the search stops and however many zeros are trimmed.
-/

namespace BrokerPolicy.Binary64

namespace Decimal

def value (d : Decimal) : ℚ := d.digits * 10 ^ d.exponent

theorem value_trim (steps : Nat) (d : Decimal) : (trim steps d).value = d.value := by
  induction steps generalizing d with
  | zero => rfl
  | succ n ih =>
    rw [trim]
    split_ifs with hzero
    · have hten : d.digits = d.digits / 10 * 10 :=
        (Nat.div_mul_cancel (Nat.dvd_of_mod_eq_zero hzero.1)).symm
      rw [ih, value, value, zpow_add_one₀ (by norm_num)]
      conv_rhs => rw [hten]
      push_cast
      ring
    · rfl

end Decimal

namespace RoundingInterval

theorem le_upper_of_contains {i : RoundingInterval} {n : Nat} (h : i.contains n = true) :
    n ≤ i.upper := by
  rw [contains] at h
  split_ifs at h <;> simp only [Bool.and_eq_true, decide_eq_true_eq] at h <;> omega

theorem pow_split (exponent : Int) :
    (10 : ℚ) ^ exponent * 10 ^ (-exponent).toNat = 10 ^ exponent.toNat := by
  rw [← zpow_natCast, ← zpow_natCast, ← zpow_add₀ (by norm_num)]
  congr 1
  omega

theorem value_mul_le {i : RoundingInterval} {exponent : Int} {digits : Nat}
    (h : digits * (i.scale exponent).denominator ≤ (i.scale exponent).upper) :
    (⟨digits, exponent⟩ : Decimal).value * i.denominator ≤ i.upper := by
  have hscaled : digits * (i.denominator * 10 ^ exponent.toNat) ≤
      i.upper * 10 ^ (-exponent).toNat := h
  have hcast : (digits : ℚ) * (i.denominator * 10 ^ exponent.toNat) ≤
      i.upper * 10 ^ (-exponent).toNat := by exact_mod_cast hscaled
  rw [← pow_split exponent] at hcast
  refine le_of_mul_le_mul_right ?_ (show (0 : ℚ) < 10 ^ (-exponent).toNat by positivity)
  calc
    (⟨digits, exponent⟩ : Decimal).value * i.denominator * 10 ^ (-exponent).toNat
        = digits * (i.denominator * (10 ^ exponent * 10 ^ (-exponent).toNat)) := by
          rw [Decimal.value]
          ring
    _ ≤ i.upper * 10 ^ (-exponent).toNat := hcast

end RoundingInterval

theorem searchGrid_value_le {i : RoundingInterval} (tie : Tie) (h : i.value ≤ i.upper)
    (steps : Nat) (exponent : Int) :
    (searchGrid i tie exponent steps).value * i.denominator ≤ i.upper := by
  induction steps generalizing exponent with
  | zero =>
    apply RoundingInterval.value_mul_le
    calc
      (i.scale exponent).value / (i.scale exponent).denominator * (i.scale exponent).denominator
          ≤ (i.scale exponent).value := Nat.div_mul_le_self _ _
      _ ≤ (i.scale exponent).upper := Nat.mul_le_mul_right _ h
  | succ n ih =>
    rw [searchGrid]
    cases hpoint : (i.scale exponent).nearestInteger? tie with
    | none => exact ih (exponent - 1)
    | some digits =>
      apply RoundingInterval.value_mul_le
      exact RoundingInterval.le_upper_of_contains (RoundingInterval.contains_nearestInteger? hpoint)

/-- The shortest decimal exceeds the double by half a unit of its last place at most. -/
theorem shortest_value_le (tie : Tie) (x : Binary64) :
    (x.shortest tie).value * (4 * unitsPerOne) ≤ 4 * x.magnitude + 2 * 2 ^ x.binade := by
  have hsearch := searchGrid_value_le tie (i := x.roundingInterval) (Nat.le_add_right _ _) 17
    (leadingExponent x.roundingInterval)
  have hdenominator : (x.roundingInterval.denominator : ℚ) = 4 * unitsPerOne :=
    Nat.cast_mul 4 unitsPerOne
  have hupper : x.roundingInterval.upper = 4 * x.magnitude + 2 * 2 ^ x.binade := rfl
  rw [← Decimal.value_trim 20, hdenominator, hupper] at hsearch
  exact_mod_cast hsearch

end BrokerPolicy.Binary64
