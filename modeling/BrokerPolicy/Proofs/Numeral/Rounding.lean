import BrokerPolicy.Numeral.Rounding
import BrokerPolicy.Proofs.Numeral.Binary64

set_option autoImplicit false

/-!
How large a rounded quotient is. A quotient between two powers of two is rounded to a word between
theirs, so one that is not too large is finite.
-/

namespace BrokerPolicy.Binary64

theorem divideToEven_le (n d : Nat) : divideToEven n d ≤ n / d + 1 := by
  rw [divideToEven]
  split_ifs <;> omega

theorem le_divideToEven (n d : Nat) : n / d ≤ divideToEven n d := by
  rw [divideToEven]
  split_ifs <;> omega

theorem nearestWord_le_infinityWord (n d : Nat) : nearestWord n d ≤ infinityWord :=
  Nat.min_le_right _ _

theorem nearestWord_le {n d k : Nat} (hk : 53 ≤ k) (h : n * unitsPerOne < d * 2 ^ k) :
    nearestWord n d ≤ (k - 51) * 2 ^ 52 := by
  generalize hscaled : n * unitsPerOne = scaled at h
  have hquotient : scaled / d < 2 ^ k := Nat.div_lt_of_lt_mul h
  generalize hq : scaled / d = q at hquotient
  have hlog : Nat.log2 q ≤ k - 1 := by
    rcases Nat.eq_zero_or_pos q with hzero | hpos
    · rw [hzero, Nat.log2_zero]
      exact Nat.zero_le _
    · exact Nat.le_sub_one_of_lt ((Nat.log2_lt hpos.ne').mpr hquotient)
  generalize hshift : Nat.log2 q - 52 = shift
  have hdigits : q / 2 ^ shift < 2 ^ 53 := by
    refine Nat.div_lt_of_lt_mul ?_
    calc q < 2 ^ (Nat.log2 q + 1) := Nat.lt_log2_self
      _ ≤ 2 ^ (shift + 53) := Nat.pow_le_pow_right (by decide) (by omega)
      _ = 2 ^ shift * 2 ^ 53 := pow_add 2 shift 53
  have hrounded := divideToEven_le scaled (d * 2 ^ shift)
  rw [← Nat.div_div_eq_div_mul, hq] at hrounded
  calc nearestWord n d
      ≤ shift * 2 ^ 52 + divideToEven scaled (d * 2 ^ shift) := by
        rw [nearestWord, hscaled, hq, hshift]
        exact Nat.min_le_left _ _
    _ ≤ (k - 51) * 2 ^ 52 := by omega

theorem le_nearestWord {n d k : Nat} (hd : 0 < d) (hk : 52 ≤ k)
    (h : d * 2 ^ k ≤ n * unitsPerOne) :
    min ((k - 51) * 2 ^ 52) infinityWord ≤ nearestWord n d := by
  generalize hscaled : n * unitsPerOne = scaled at h
  have hquotient : 2 ^ k ≤ scaled / d := (Nat.le_div_iff_mul_le hd).mpr (by rwa [Nat.mul_comm])
  generalize hq : scaled / d = q at hquotient
  have hpos : q ≠ 0 := (Nat.lt_of_lt_of_le (Nat.two_pow_pos k) hquotient).ne'
  have hlog : k ≤ Nat.log2 q := (Nat.le_log2 hpos).mpr hquotient
  generalize hshift : Nat.log2 q - 52 = shift
  have hdigits : 2 ^ 52 ≤ q / 2 ^ shift := by
    refine (Nat.le_div_iff_mul_le (Nat.two_pow_pos shift)).mpr ?_
    calc 2 ^ 52 * 2 ^ shift = 2 ^ Nat.log2 q := by
          rw [← pow_add, show 52 + shift = Nat.log2 q by omega]
      _ ≤ q := Nat.log2_self_le hpos
  have hrounded := le_divideToEven scaled (d * 2 ^ shift)
  rw [← Nat.div_div_eq_div_mul, hq] at hrounded
  have hword : (k - 51) * 2 ^ 52 ≤ shift * 2 ^ 52 + divideToEven scaled (d * 2 ^ shift) := by
    omega
  rw [nearestWord, hscaled, hq, hshift]
  exact min_le_min_right _ hword

theorem unsignedWord_ofQuotient (negative : Bool) (n d : Nat) :
    (ofQuotient negative n d).unsignedWord = nearestWord n d := by
  refine unsignedWord_ofWord negative ((nearestWord_le_infinityWord n d).trans_lt ?_)
  change 2047 * 2 ^ 52 < 2 ^ 63
  decide

theorem isFinite_ofQuotient (negative : Bool) {n d k : Nat} (hlow : 53 ≤ k) (hhigh : k ≤ 2097)
    (h : n * unitsPerOne < d * 2 ^ k) : (ofQuotient negative n d).isFinite = true := by
  refine isFinite_of_le (e := k - 51) ?_ (by omega)
  rw [unsignedWord_ofQuotient]
  exact nearestWord_le hlow h

theorem magnitude_ofQuotient_lt (negative : Bool) {n d k : Nat} (hk : 53 ≤ k)
    (h : n * unitsPerOne < d * 2 ^ k) : (ofQuotient negative n d).magnitude < 2 ^ (k + 1) := by
  have hword := nearestWord_le hk h
  rw [← unsignedWord_ofQuotient negative] at hword
  have hlt := magnitude_lt (by omega) hword
  rwa [show 52 + (k - 51) = k + 1 by omega] at hlt

theorem le_magnitude_ofNat {n j : Nat} (hj : j ≤ 1024) (h : 2 ^ j ≤ n) :
    2 ^ j * unitsPerOne ≤ (ofNat n).magnitude := by
  have hscaled : 1 * 2 ^ (1074 + j) ≤ n * unitsPerOne := by
    rw [unitsPerOne_eq, Nat.one_mul, pow_add, Nat.mul_comm]
    exact Nat.mul_le_mul_right _ h
  have hword := le_nearestWord Nat.one_pos (by omega) hscaled
  rw [Nat.min_eq_left, ← unsignedWord_ofQuotient false] at hword
  · have hle := le_magnitude (by omega) hword
    rw [show 51 + (1074 + j - 51) = j + 1074 by omega, pow_add, ← unitsPerOne_eq] at hle
    exact hle
  · change (1074 + j - 51) * 2 ^ 52 ≤ 2047 * 2 ^ 52
    exact Nat.mul_le_mul_right _ (by omega)

end BrokerPolicy.Binary64
