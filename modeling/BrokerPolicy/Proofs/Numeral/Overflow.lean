import BrokerPolicy.Proofs.Numeral.Rounding

set_option autoImplicit false

/-!
How far rounding carries. A rounded quotient exceeds the exact one by half a unit of its last place
at most, and it overflows only from half a unit past the greatest finite double.
-/

namespace BrokerPolicy.Binary64

theorem two_mul_divideToEven_le (n d : Nat) : 2 * (divideToEven n d * d) ≤ 2 * n + d := by
  have hsplit := Nat.div_add_mod n d
  have hcomm : d * (n / d) = n / d * d := Nat.mul_comm _ _
  rw [divideToEven]
  split_ifs with hup
  · have hhalf : d ≤ 2 * (n % d) := by omega
    rw [Nat.add_mul, Nat.one_mul]
    omega
  · omega

theorem magnitude_eq {x : Binary64} {shift digits : Nat}
    (hword : x.unsignedWord = shift * 2 ^ 52 + digits) (hlow : 2 ^ 52 ≤ digits)
    (hhigh : digits ≤ 2 ^ 53) : x.magnitude = digits * 2 ^ shift := by
  have hfraction : x.fraction = x.unsignedWord % 2 ^ 52 := by
    change x.word % 2 ^ 52 = x.word % 2 ^ 63 % 2 ^ 52
    omega
  change x.significand * 2 ^ (x.exponentField - 1) = digits * 2 ^ shift
  rw [significand]
  change (if x.exponentField = 0 then x.fraction else x.fraction + 2 ^ 52) *
    2 ^ (x.exponentField - 1) = digits * 2 ^ shift
  rcases Nat.lt_or_eq_of_le hhigh with hlt | hcarry
  · have hfield : x.exponentField = shift + 1 := by
      rw [exponentField_eq]
      omega
    have hdigits : x.fraction + 2 ^ 52 = digits := by omega
    rw [hfield, if_neg (Nat.succ_ne_zero shift), hdigits, Nat.add_sub_cancel]
  · have hfield : x.exponentField = shift + 2 := by
      rw [exponentField_eq]
      omega
    have hzero : x.fraction = 0 := by omega
    rw [hfield, if_neg (Nat.succ_ne_zero (shift + 1)), hzero, hcarry, Nat.zero_add,
      Nat.add_succ_sub_one, pow_succ, pow_succ 2 52]
    ring

structure Rounded (scaled d shift digits : Nat) : Prop where
  low : 2 ^ 52 ≤ digits
  high : digits ≤ 2 ^ 53
  unit_le : d * 2 ^ shift * 2 ^ 52 ≤ scaled
  near : 2 * (digits * (d * 2 ^ shift)) ≤ 2 * scaled + d * 2 ^ shift

theorem rounded_divideToEven {scaled d : Nat} (hd : 0 < d) (hnormal : d * 2 ^ 52 ≤ scaled) :
    Rounded scaled d (Nat.log2 (scaled / d) - 52)
      (divideToEven scaled (d * 2 ^ (Nat.log2 (scaled / d) - 52))) := by
  have hquotient : 2 ^ 52 ≤ scaled / d :=
    (Nat.le_div_iff_mul_le hd).mpr (by rwa [Nat.mul_comm])
  have hpos : scaled / d ≠ 0 := (Nat.lt_of_lt_of_le (Nat.two_pow_pos 52) hquotient).ne'
  have hlog : 52 ≤ Nat.log2 (scaled / d) := (Nat.le_log2 hpos).mpr hquotient
  have hfrom : 2 ^ Nat.log2 (scaled / d) ≤ scaled / d := Nat.log2_self_le hpos
  have hbelow : scaled / d < 2 ^ (Nat.log2 (scaled / d) + 1) := Nat.lt_log2_self
  generalize hshift : Nat.log2 (scaled / d) - 52 = shift
  have hsum : Nat.log2 (scaled / d) = shift + 52 := by omega
  rw [hsum, pow_add] at hfrom
  rw [hsum, Nat.add_assoc, pow_add] at hbelow
  have hdigits : scaled / (d * 2 ^ shift) < 2 ^ 53 := by
    rw [← Nat.div_div_eq_div_mul]
    exact Nat.div_lt_of_lt_mul hbelow
  have hleast : 2 ^ 52 ≤ scaled / (d * 2 ^ shift) := by
    rw [← Nat.div_div_eq_div_mul]
    exact (Nat.le_div_iff_mul_le (Nat.two_pow_pos shift)).mpr (by rwa [Nat.mul_comm])
  exact
    { low := hleast.trans (le_divideToEven _ _)
      high := (divideToEven_le _ _).trans hdigits
      unit_le := by
        rw [Nat.mul_comm]
        exact (Nat.le_div_iff_mul_le (Nat.mul_pos hd (Nat.two_pow_pos shift))).mp hleast
      near := two_mul_divideToEven_le _ _ }

theorem nearestWord_of_lt {n d : Nat} (h : nearestWord n d < infinityWord) :
    nearestWord n d = (Nat.log2 (n * unitsPerOne / d) - 52) * 2 ^ 52 +
      divideToEven (n * unitsPerOne) (d * 2 ^ (Nat.log2 (n * unitsPerOne / d) - 52)) := by
  rcases Nat.le_total infinityWord ((Nat.log2 (n * unitsPerOne / d) - 52) * 2 ^ 52 +
      divideToEven (n * unitsPerOne) (d * 2 ^ (Nat.log2 (n * unitsPerOne / d) - 52))) with hle | hle
  · exact absurd (Nat.min_eq_right hle) h.ne
  · exact Nat.min_eq_left hle

/-- Rounding makes a quotient that is not subnormal greater by a factor of `1 + 2 ^ (-53)` at
most. -/
theorem magnitude_ofQuotient_mul_le {negative : Bool} {n d : Nat} (hd : 0 < d)
    (hnormal : d * 2 ^ 52 ≤ n * unitsPerOne) (hfinite : (ofQuotient negative n d).isFinite = true) :
    (ofQuotient negative n d).magnitude * d * 2 ^ 53 ≤ n * unitsPerOne * (2 ^ 53 + 1) := by
  have hlt : (ofQuotient negative n d).unsignedWord < infinityWord := of_decide_eq_true hfinite
  have hword := unsignedWord_ofQuotient negative n d
  rw [hword] at hlt
  rw [nearestWord_of_lt hlt] at hword
  have hrounded := rounded_divideToEven hd hnormal
  generalize Nat.log2 (n * unitsPerOne / d) - 52 = shift at hword hrounded
  generalize divideToEven (n * unitsPerOne) (d * 2 ^ shift) = digits at hword hrounded
  generalize n * unitsPerOne = scaled at hrounded
  rw [magnitude_eq hword hrounded.low hrounded.high]
  calc
    digits * 2 ^ shift * d * 2 ^ 53
        = 2 * (digits * (d * 2 ^ shift)) * 2 ^ 52 := by ring
    _ ≤ (2 * scaled + d * 2 ^ shift) * 2 ^ 52 := Nat.mul_le_mul_right _ hrounded.near
    _ = scaled * 2 ^ 53 + d * 2 ^ shift * 2 ^ 52 := by ring
    _ ≤ scaled * 2 ^ 53 + scaled := Nat.add_le_add_left hrounded.unit_le _
    _ = scaled * (2 ^ 53 + 1) := by ring

/-- A quotient that is less than a power of two by more than half a unit is not rounded up to it. -/
theorem nearestWord_lt {n d j : Nat} (hj : 1 ≤ j)
    (h : 2 * (n * unitsPerOne) + d * 2 ^ j < d * 2 ^ (j + 54)) :
    nearestWord n d < (j + 2) * 2 ^ 52 := by
  rcases Nat.lt_or_ge (n * unitsPerOne) (d * 2 ^ (j + 52)) with hlow | hhigh
  · refine (nearestWord_le (by omega) hlow).trans_lt ?_
    exact Nat.mul_lt_mul_of_pos_right (by omega) (Nat.two_pow_pos 52)
  have hd : 0 < d := by
    by_contra hzero
    rw [Nat.eq_zero_of_not_pos hzero, Nat.zero_mul, Nat.zero_mul] at h
    exact Nat.not_lt_zero _ h
  generalize hscaled : n * unitsPerOne = scaled at h hhigh
  have hnormal : d * 2 ^ 52 ≤ scaled :=
    (Nat.mul_le_mul_left d (Nat.pow_le_pow_right Nat.two_pos (Nat.le_add_left 52 j))).trans hhigh
  have hrounded := rounded_divideToEven hd hnormal
  -- only quotients of one binade are left, so the shift is known
  have hshift : Nat.log2 (scaled / d) - 52 = j := by
    have hbelow : scaled / d < 2 ^ (j + 53) := by
      refine Nat.div_lt_of_lt_mul ?_
      have hdouble : d * 2 ^ (j + 54) = 2 * (d * 2 ^ (j + 53)) := by ring
      omega
    have hfrom : 2 ^ (j + 52) ≤ scaled / d :=
      (Nat.le_div_iff_mul_le hd).mpr ((Nat.mul_comm _ d).trans_le hhigh)
    have hpos : scaled / d ≠ 0 := (Nat.lt_of_lt_of_le (Nat.two_pow_pos _) hfrom).ne'
    have hleast := (Nat.le_log2 hpos).mpr hfrom
    have hmost := (Nat.log2_lt hpos).mpr hbelow
    omega
  rw [hshift] at hrounded
  have hdigits : divideToEven scaled (d * 2 ^ j) < 2 ^ 53 := by
    refine Nat.lt_of_mul_lt_mul_left (a := 2 * (d * 2 ^ j)) ?_
    calc
      2 * (d * 2 ^ j) * divideToEven scaled (d * 2 ^ j)
          = 2 * (divideToEven scaled (d * 2 ^ j) * (d * 2 ^ j)) := by ring
      _ ≤ 2 * scaled + d * 2 ^ j := hrounded.near
      _ < d * 2 ^ (j + 54) := h
      _ = 2 * (d * 2 ^ j) * 2 ^ 53 := by ring
  have hword : nearestWord n d ≤ j * 2 ^ 52 + divideToEven scaled (d * 2 ^ j) := by
    rw [nearestWord, hscaled, hshift]
    exact Nat.min_le_left _ _
  omega

/-- The unit of the last place of the greatest finite doubles is `2 ^ lastShift` units of
`2 ^ (-1074)`. -/
def lastShift : Nat := 2045

/-- A quotient is rounded to a finite double if it is less than half a unit past the greatest. -/
theorem isFinite_ofQuotient_of_lt (negative : Bool) {n d : Nat}
    (h : 2 * (n * unitsPerOne) < d * (2 ^ lastShift * (2 ^ 54 - 1))) :
    (ofQuotient negative n d).isFinite = true := by
  refine decide_eq_true ?_
  rw [unsignedWord_ofQuotient]
  refine nearestWord_lt (j := lastShift) (by decide) ?_
  calc
    2 * (n * unitsPerOne) + d * 2 ^ lastShift
        < d * (2 ^ lastShift * (2 ^ 54 - 1)) + d * 2 ^ lastShift := Nat.add_lt_add_right h _
    _ = d * 2 ^ (lastShift + 54) := by rw [pow_add]; ring

theorem isFinite_ofNat {n : Nat} (h : 2 * (n * unitsPerOne) < 2 ^ lastShift * (2 ^ 54 - 1)) :
    (ofNat n).isFinite = true :=
  isFinite_ofQuotient_of_lt false (by rwa [Nat.one_mul])

theorem magnitude_ofNat_mul_le {n : Nat} (hn : 0 < n) (hfinite : (ofNat n).isFinite = true) :
    (ofNat n).magnitude * 2 ^ 53 ≤ n * unitsPerOne * (2 ^ 53 + 1) := by
  have hone : 1 * 2 ^ 52 ≤ unitsPerOne := by decide +kernel
  have hle := magnitude_ofQuotient_mul_le Nat.one_pos
    (hone.trans (Nat.le_mul_of_pos_left _ hn)) hfinite
  rwa [Nat.mul_one] at hle

/-- Three roundings carry a product by less than two units of the last place, so it is finite if so
much is free below the greatest double. -/
theorem isFinite_times_ofNat {m p : Nat} (hm : 0 < m) (hp : 0 < p)
    (h : 2 * (m * p * unitsPerOne) ≤ 2 ^ lastShift * (2 ^ 54 - 5)) :
    ((ofNat m).times (ofNat p)).isFinite = true := by
  have hunit : 0 < 2 ^ lastShift := Nat.two_pow_pos lastShift
  have hroom : 2 ^ lastShift * (2 ^ 54 - 5) < 2 ^ lastShift * (2 ^ 54 - 1) :=
    Nat.mul_lt_mul_of_pos_left (by decide) hunit
  have hfactor {n : Nat} (hn : n ≤ m * p) : (ofNat n).isFinite = true := by
    refine isFinite_ofNat (Nat.lt_of_le_of_lt ?_ hroom)
    exact (Nat.mul_le_mul_left 2 (Nat.mul_le_mul_right unitsPerOne hn)).trans h
  have hx := magnitude_ofNat_mul_le hm (hfactor (Nat.le_mul_of_pos_right m hp))
  have hy := magnitude_ofNat_mul_le hp (hfactor (Nat.le_mul_of_pos_left p hm))
  refine isFinite_ofQuotient_of_lt false ?_
  generalize (ofNat m).magnitude = x at hx ⊢
  generalize (ofNat p).magnitude = y at hy ⊢
  have hunits := unitsPerOne_pos
  -- the powers are huge, so they are names before any arithmetic is done
  generalize unitsPerOne = u at h hx hy hunits ⊢
  generalize 2 ^ lastShift = unit at h hunit ⊢
  refine Nat.lt_of_mul_lt_mul_right (a := 2 ^ 53 * 2 ^ 53) ?_
  calc
    2 * (x * y * u) * (2 ^ 53 * 2 ^ 53)
        = 2 * u * (x * 2 ^ 53 * (y * 2 ^ 53)) := by ring
    _ ≤ 2 * u * (m * u * (2 ^ 53 + 1) * (p * u * (2 ^ 53 + 1))) :=
        Nat.mul_le_mul_left _ (Nat.mul_le_mul hx hy)
    _ = 2 * (m * p * u) * (u * u * ((2 ^ 53 + 1) * (2 ^ 53 + 1))) := by ring
    _ ≤ unit * (2 ^ 54 - 5) * (u * u * ((2 ^ 53 + 1) * (2 ^ 53 + 1))) :=
        Nat.mul_le_mul_right _ h
    _ = unit * (u * u) * ((2 ^ 54 - 5) * ((2 ^ 53 + 1) * (2 ^ 53 + 1))) := by ring
    _ < unit * (u * u) * ((2 ^ 54 - 1) * (2 ^ 53 * 2 ^ 53)) :=
        Nat.mul_lt_mul_of_pos_left (by decide)
          (Nat.mul_pos hunit (Nat.mul_pos hunits hunits))
    _ = u * u * (unit * (2 ^ 54 - 1)) * (2 ^ 53 * 2 ^ 53) := by ring

end BrokerPolicy.Binary64
