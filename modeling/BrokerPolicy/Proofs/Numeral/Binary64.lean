import BrokerPolicy.Numeral.Binary64
import Mathlib.Tactic.Ring
import Mathlib.Tactic.Positivity

set_option autoImplicit false

namespace BrokerPolicy.Binary64

theorem unitsPerOne_eq : unitsPerOne = 2 ^ 1074 := rfl

theorem unitsPerOne_pos : 0 < unitsPerOne := by decide +kernel

theorem unsignedWord_lt (x : Binary64) : x.unsignedWord < 2 ^ 63 :=
  Nat.mod_lt _ (by decide)

theorem unsignedWord_ofWord (negative : Bool) {w : Nat} (hw : w < 2 ^ 63) :
    (ofWord negative w).unsignedWord = w := by
  cases negative with
  | true =>
    change (2 ^ 63 + w) % 2 ^ 64 % 2 ^ 63 = w
    omega
  | false =>
    change w % 2 ^ 64 % 2 ^ 63 = w
    omega

theorem isFinite_of_le {x : Binary64} {e : Nat} (hword : x.unsignedWord ≤ e * 2 ^ 52)
    (he : e < 2047) : x.isFinite = true := by
  refine decide_eq_true ?_
  change x.unsignedWord < 2047 * 2 ^ 52
  omega

theorem isFinite_of_isZero {x : Binary64} (hx : x.isZero = true) : x.isFinite = true := by
  have hword : x.unsignedWord = 0 := of_decide_eq_true hx
  exact isFinite_of_le (e := 0) (by omega) (by decide)

theorem isFinite_neg {x : Binary64} (hx : x.isFinite = true) : x.neg.isFinite = true := by
  have hword := unsignedWord_ofWord (!x.isNegative) x.unsignedWord_lt
  rw [isFinite, neg, hword]
  exact hx

theorem exponentField_eq (x : Binary64) : x.exponentField = x.unsignedWord / 2 ^ 52 := rfl

theorem fraction_lt (x : Binary64) : x.fraction < 2 ^ 52 := Nat.mod_lt _ (by decide)

theorem significand_lt (x : Binary64) : x.significand < 2 ^ 53 := by
  have hfraction := x.fraction_lt
  rw [significand]
  change (if x.exponentField = 0 then x.fraction else x.fraction + 2 ^ 52) < 2 ^ 53
  split_ifs <;> omega

theorem magnitude_lt {x : Binary64} {e : Nat} (he : 0 < e)
    (hword : x.unsignedWord ≤ e * 2 ^ 52) : x.magnitude < 2 ^ (52 + e) := by
  have hfield : x.exponentField ≤ e := by
    rw [exponentField_eq]
    omega
  have hbinade : x.binade ≤ e - 1 := Nat.sub_le_sub_right hfield 1
  calc x.significand * 2 ^ x.binade
      < 2 ^ 53 * 2 ^ x.binade := Nat.mul_lt_mul_of_pos_right x.significand_lt (by positivity)
    _ ≤ 2 ^ 53 * 2 ^ (e - 1) :=
        Nat.mul_le_mul_left _ (Nat.pow_le_pow_right (by decide) hbinade)
    _ = 2 ^ (52 + e) := by rw [← pow_add, show 53 + (e - 1) = 52 + e by omega]

theorem le_magnitude {x : Binary64} {e : Nat} (he : 0 < e)
    (hword : e * 2 ^ 52 ≤ x.unsignedWord) : 2 ^ (51 + e) ≤ x.magnitude := by
  have hfield : e ≤ x.exponentField := by
    rw [exponentField_eq]
    omega
  have hbinade : e - 1 ≤ x.binade := Nat.sub_le_sub_right hfield 1
  have hsignificand : 2 ^ 52 ≤ x.significand := by
    rw [significand, if_neg (by omega)]
    exact Nat.le_add_left _ _
  calc 2 ^ (51 + e) = 2 ^ 52 * 2 ^ (e - 1) := by
        rw [← pow_add, show 52 + (e - 1) = 51 + e by omega]
    _ ≤ 2 ^ 52 * 2 ^ x.binade :=
        Nat.mul_le_mul_left _ (Nat.pow_le_pow_right (by decide) hbinade)
    _ ≤ x.significand * 2 ^ x.binade := Nat.mul_le_mul_right _ hsignificand

theorem significand_pos {x : Binary64} (hx : x.isZero = false) : 0 < x.significand := by
  have hword : x.unsignedWord ≠ 0 := by simpa [isZero] using hx
  rw [significand]
  split_ifs with hfield
  · have hdiv : x.unsignedWord / Nat.pow 2 52 = 0 := hfield
    have hmod : x.fraction = x.unsignedWord % Nat.pow 2 52 := by
      rw [fraction, unsignedWord, Nat.mod_mod_of_dvd _ (by decide)]
    have hsplit := Nat.div_add_mod x.unsignedWord (Nat.pow 2 52)
    rw [hdiv, Nat.mul_zero, Nat.zero_add, ← hmod] at hsplit
    omega
  · exact Nat.add_pos_right _ (Nat.pow_pos (by decide))

theorem magnitude_pos {x : Binary64} (hx : x.isZero = false) : 0 < x.magnitude :=
  Nat.mul_pos (significand_pos hx) (Nat.pow_pos (by decide))

end BrokerPolicy.Binary64
