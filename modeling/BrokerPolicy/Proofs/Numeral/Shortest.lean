import BrokerPolicy.Numeral.Shortest
import BrokerPolicy.Proofs.Numeral.Binary64

set_option autoImplicit false

/-!
The shortest decimal of a number other than zero has a digit other than zero: no interval of the
search reaches down to zero, and the last grid is finer than the leading digit.
-/

namespace BrokerPolicy.Binary64

theorem unitsPerOne_le_pow : unitsPerOne ≤ Nat.pow 10 330 := by decide +kernel

namespace RoundingInterval

/-- The grid of this exponent has a point between zero and the value. -/
def Reaches (i : RoundingInterval) (exponent : Int) : Prop :=
  (i.scale exponent).denominator ≤ (i.scale exponent).value

theorem Reaches.pred {i : RoundingInterval} {exponent : Int} (h : i.Reaches exponent) :
    i.Reaches (exponent - 1) := by
  change i.denominator * Nat.pow 10 exponent.toNat ≤ i.value * Nat.pow 10 (-exponent).toNat at h
  change i.denominator * Nat.pow 10 (exponent - 1).toNat ≤
    i.value * Nat.pow 10 (-(exponent - 1)).toNat
  have hdown : Nat.pow 10 (exponent - 1).toNat ≤ Nat.pow 10 exponent.toNat :=
    Nat.pow_le_pow_right (by decide) (by omega)
  have hup : Nat.pow 10 (-exponent).toNat ≤ Nat.pow 10 (-(exponent - 1)).toNat :=
    Nat.pow_le_pow_right (by decide) (by omega)
  exact (Nat.mul_le_mul_left _ hdown).trans (h.trans (Nat.mul_le_mul_left _ hup))

theorem contains_nearestInteger? {i : RoundingInterval} {tie : Tie} {n : Nat}
    (h : i.nearestInteger? tie = some n) : i.contains (n * i.denominator) = true := by
  simp only [nearestInteger?] at h
  split at h
  · cases h
  · next hbelow _ =>
    cases h
    exact hbelow
  · next _ habove =>
    cases h
    exact habove
  · next hbelow habove =>
    split_ifs at h with _ _ heven
    · cases h
      exact hbelow
    · cases h
      exact habove
    · cases tie with
      | away =>
        cases h
        exact habove
      | toEven =>
        cases h
        exact hbelow
    · cases tie with
      | away =>
        cases h
        exact habove
      | toEven =>
        cases h
        exact habove

theorem nearestInteger?_pos {i : RoundingInterval} {tie : Tie} {n : Nat} (hlower : 0 < i.lower)
    (h : i.nearestInteger? tie = some n) : 0 < n := by
  rcases Nat.eq_zero_or_pos n with rfl | hn
  · have hzero := contains_nearestInteger? h
    rw [Nat.zero_mul, contains] at hzero
    split_ifs at hzero
    · simp only [Bool.and_eq_true, decide_eq_true_eq] at hzero
      omega
    · simp only [Bool.and_eq_true, decide_eq_true_eq] at hzero
      omega
  · exact hn

theorem reaches_of_length {i : RoundingInterval} {length k : Nat} (hlength : 0 < length)
    (h : i.denominator * 10 ^ (length - 1) ≤ i.value * 10 ^ k) :
    i.Reaches ((length : Int) - (k + 1 : Nat)) := by
  change i.denominator * 10 ^ ((length : Int) - (k + 1 : Nat)).toNat ≤
    i.value * 10 ^ (-((length : Int) - (k + 1 : Nat))).toNat
  rcases Nat.lt_or_ge length (k + 1) with hshort | hlong
  · have hdown : ((length : Int) - (k + 1 : Nat)).toNat = 0 := by omega
    have hup : (-((length : Int) - (k + 1 : Nat))).toNat = k + 1 - length := by omega
    have hsplit : k = (k + 1 - length) + (length - 1) := by omega
    rw [hdown, hup, pow_zero, Nat.mul_one]
    refine Nat.le_of_mul_le_mul_right (c := 10 ^ (length - 1)) ?_ (by positivity)
    calc i.denominator * 10 ^ (length - 1)
        ≤ i.value * 10 ^ k := h
      _ = i.value * 10 ^ (k + 1 - length) * 10 ^ (length - 1) := by
          rw [Nat.mul_assoc, ← pow_add, ← hsplit]
  · have hdown : ((length : Int) - (k + 1 : Nat)).toNat = length - (k + 1) := by omega
    have hup : (-((length : Int) - (k + 1 : Nat))).toNat = 0 := by omega
    have hsplit : length - 1 = (length - (k + 1)) + k := by omega
    rw [hdown, hup, pow_zero, Nat.mul_one]
    refine Nat.le_of_mul_le_mul_right (c := 10 ^ k) ?_ (by positivity)
    calc i.denominator * 10 ^ (length - (k + 1)) * 10 ^ k
        = i.denominator * 10 ^ (length - 1) := by rw [Nat.mul_assoc, ← pow_add, ← hsplit]
      _ ≤ i.value * 10 ^ k := h

end RoundingInterval

theorem pow_le_of_decimalLength {n : Nat} (hn : 0 < n) : 10 ^ (decimalLength n - 1) ≤ n := by
  rcases Nat.eq_zero_or_pos (decimalLength n - 1) with hzero | hpos
  · rw [hzero]
    exact hn
  · by_contra hlt
    have hle := (Nat.length_toDigits_le_iff (b := 10) (by decide) hpos).mpr (Nat.lt_of_not_le hlt)
    change decimalLength n ≤ decimalLength n - 1 at hle
    omega

theorem reaches_leadingExponent {i : RoundingInterval} (hdenominator : 0 < i.denominator)
    (hvalue : i.denominator ≤ i.value * Nat.pow 10 330) : i.Reaches (leadingExponent i) := by
  have hlead := pow_le_of_decimalLength (Nat.div_pos hvalue hdenominator)
  refine RoundingInterval.reaches_of_length Nat.length_toDigits_pos ?_
  calc i.denominator * 10 ^ (decimalLength (i.value * Nat.pow 10 330 / i.denominator) - 1)
      ≤ i.denominator * (i.value * Nat.pow 10 330 / i.denominator) :=
        Nat.mul_le_mul_left _ hlead
    _ ≤ i.value * Nat.pow 10 330 := Nat.mul_div_le _ _

theorem searchGrid_digits_pos {i : RoundingInterval} (tie : Tie) (hlower : 0 < i.lower)
    (hdenominator : 0 < i.denominator) (steps : Nat) {exponent : Int}
    (hreaches : i.Reaches exponent) : 0 < (searchGrid i tie exponent steps).digits := by
  induction steps generalizing exponent with
  | zero =>
    exact Nat.div_pos hreaches (Nat.mul_pos hdenominator (Nat.pow_pos (by decide)))
  | succ n ih =>
    rw [searchGrid]
    cases hpoint : (i.scale exponent).nearestInteger? tie with
    | none => exact ih hreaches.pred
    | some digits =>
      have hscaled : 0 < (i.scale exponent).lower :=
        Nat.mul_pos hlower (Nat.pow_pos (by decide))
      exact RoundingInterval.nearestInteger?_pos hscaled hpoint

theorem Decimal.trim_digits_pos (steps : Nat) {d : Decimal} (h : 0 < d.digits) :
    0 < (Decimal.trim steps d).digits := by
  induction steps generalizing d with
  | zero => exact h
  | succ n ih =>
    rw [Decimal.trim]
    split_ifs with hzero
    · exact ih (by change 0 < d.digits / 10; omega)
    · exact h

theorem shortest_digits_pos (tie : Tie) {x : Binary64} (hx : x.isZero = false) :
    0 < (x.shortest tie).digits := by
  have hsignificand := significand_pos hx
  have hunit : 0 < Nat.pow 2 x.binade := Nat.pow_pos (by decide)
  have hmagnitude : Nat.pow 2 x.binade ≤ x.magnitude := Nat.le_mul_of_pos_left _ hsignificand
  have hlower : 0 < x.roundingInterval.lower := by
    change 0 < 4 * x.magnitude -
      (if x.fraction = 0 ∧ 1 < x.exponentField then Nat.pow 2 x.binade else 2 * Nat.pow 2 x.binade)
    split_ifs <;> omega
  have hdenominator : 0 < x.roundingInterval.denominator :=
    Nat.mul_pos (by decide) unitsPerOne_pos
  have hvalue : x.roundingInterval.denominator ≤ x.roundingInterval.value * Nat.pow 10 330 := by
    have hone : 1 ≤ x.magnitude := magnitude_pos hx
    calc 4 * unitsPerOne ≤ 4 * Nat.pow 10 330 := Nat.mul_le_mul_left _ unitsPerOne_le_pow
      _ ≤ 4 * x.magnitude * Nat.pow 10 330 := Nat.mul_le_mul_right _ (by omega)
  exact Decimal.trim_digits_pos 20 (searchGrid_digits_pos tie hlower hdenominator 17
    (reaches_leadingExponent hdenominator hvalue))

end BrokerPolicy.Binary64
