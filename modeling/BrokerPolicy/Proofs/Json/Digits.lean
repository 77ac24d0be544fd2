import BrokerPolicy.Json.Number
import Mathlib.Algebra.Order.Field.Power
import Mathlib.Data.Rat.Cast.Order
import Mathlib.Tactic.Positivity
import Mathlib.Tactic.Ring
import Mathlib.Tactic.SplitIfs

set_option autoImplicit false

/-!
What is kept of the digits of a literal. Digits that do not fit are dropped, so the kept ones stand
for no more than the literal says.
-/

namespace BrokerPolicy.Json

theorem ofDigitChars_le (ds : List Char) (n : Nat) : n ≤ Nat.ofDigitChars 10 ds n := by
  induction ds generalizing n with
  | nil => exact le_of_eq Nat.ofDigitChars_nil.symm
  | cons c cs ih =>
    rw [Nat.ofDigitChars_cons]
    exact (by omega : n ≤ 10 * n + (c.toNat - '0'.toNat)).trans (ih _)

theorem mul_pow_le_ofDigitChars (ds : List Char) (n : Nat) :
    n * 10 ^ ds.length ≤ Nat.ofDigitChars 10 ds n := by
  induction ds generalizing n with
  | nil => simp
  | cons c cs ih =>
    rw [Nat.ofDigitChars_cons, List.length_cons, pow_succ, Nat.mul_comm _ 10, ← Nat.mul_assoc]
    exact (Nat.mul_le_mul_right _ (by omega)).trans (ih _)

theorem digitValue_lt {c : Char} (hc : c.isDigit = true) : digitValue c < 10 := by
  have hhigh : c.toNat ≤ 57 := (Char.isDigit_iff_toNat.1 hc).2
  change c.toNat - 48 < 10
  omega

theorem digitValue_pos {c : Char} (hc : c.isDigit = true) (hzero : c ≠ '0') : 0 < digitValue c := by
  have hlow : 48 ≤ c.toNat := (Char.isDigit_iff_toNat.1 hc).1
  have hne : c.toNat ≠ 48 := fun h => hzero (Char.toNat_inj.1 h)
  change 0 < c.toNat - 48
  omega

theorem ofDigitChars_lt {ds : List Char} (hds : ∀ c ∈ ds, c.isDigit = true) (n : Nat) :
    Nat.ofDigitChars 10 ds n < (n + 1) * 10 ^ ds.length := by
  induction ds generalizing n with
  | nil => simp
  | cons c cs ih =>
    have hdigit : c.toNat - '0'.toNat < 10 := digitValue_lt (hds c List.mem_cons_self)
    rw [Nat.ofDigitChars_cons, List.length_cons, pow_succ, Nat.mul_comm _ 10, ← Nat.mul_assoc]
    exact (ih (fun x hx => hds x (List.mem_cons_of_mem _ hx)) _).trans_le
      (Nat.mul_le_mul_right _ (by omega))

theorem integerDigits_of_le (ds : List Char) {n : Nat} (exponent : Int)
    (h : Nat.ofDigitChars 10 ds n ≤ maxSignificand) :
    integerDigits ⟨n, exponent⟩ ds = ⟨Nat.ofDigitChars 10 ds n, exponent⟩ := by
  induction ds generalizing n with
  | nil => rw [integerDigits, Nat.ofDigitChars_nil]
  | cons c cs ih =>
    have hstep : n * 10 + digitValue c = 10 * n + (c.toNat - '0'.toNat) := by
      rw [Nat.mul_comm]
      rfl
    rw [Nat.ofDigitChars_cons, ← hstep] at h ⊢
    have hfits : Digits.fits ⟨n, exponent⟩ c = true :=
      decide_eq_true ((ofDigitChars_le cs _).trans h)
    rw [integerDigits, if_pos hfits]
    exact ih h

theorem integerDigits_of_lt {ds : List Char} {n : Nat} (hn : n ≤ maxSignificand)
    (h : maxSignificand < Nat.ofDigitChars 10 ds n) :
    ∃ significand digit dropped, maxSignificand < significand * 10 + digit ∧
      integerDigits ⟨n, 0⟩ ds = ⟨significand, (dropped + 1 : Nat)⟩ ∧
      (significand * 10 + digit) * 10 ^ dropped ≤ Nat.ofDigitChars 10 ds n := by
  induction ds generalizing n with
  | nil =>
    rw [Nat.ofDigitChars_nil] at h
    exact absurd hn (Nat.not_le.2 h)
  | cons c cs ih =>
    have hstep : n * 10 + digitValue c = 10 * n + (c.toNat - '0'.toNat) := by
      rw [Nat.mul_comm]
      rfl
    rw [Nat.ofDigitChars_cons, ← hstep] at h ⊢
    rw [integerDigits]
    by_cases hfits : Digits.fits ⟨n, 0⟩ c = true
    · rw [if_pos hfits]
      exact ih (of_decide_eq_true hfits) h
    · rw [if_neg hfits]
      refine ⟨n, digitValue c, cs.length, ?_, ?_, mul_pow_le_ofDigitChars cs _⟩
      · exact Nat.lt_of_not_le fun hle => hfits (decide_eq_true hle)
      · rw [Int.zero_add]

theorem fractionDigits_exponent_le (d : Digits) (cs : List Char) :
    (fractionDigits d cs).exponent ≤ d.exponent := by
  induction cs generalizing d with
  | nil => exact le_rfl
  | cons c cs ih =>
    rw [fractionDigits]
    split_ifs
    · exact (ih _).trans (Int.sub_le_self _ (by decide))
    · exact le_rfl

theorem significand_le_fractionDigits (d : Digits) (cs : List Char) :
    d.significand ≤ (fractionDigits d cs).significand := by
  induction cs generalizing d with
  | nil => exact le_rfl
  | cons c cs ih =>
    rw [fractionDigits]
    split_ifs
    · refine le_trans ?_ (ih _)
      change d.significand ≤ d.significand * 10 + digitValue c
      omega
    · exact le_rfl

def pointDigits (whole fraction : List Char) : Digits :=
  fractionDigits (integerDigits ⟨0, 0⟩ whole) fraction

theorem pointDigits_exponent_neg {whole fraction : List Char} (hlength : whole.length ≤ 16)
    (hfraction : fraction ≠ []) (hdigits : ∀ c ∈ whole ++ fraction, c.isDigit = true) :
    (pointDigits whole fraction).exponent < 0 := by
  obtain ⟨c, cs, rfl⟩ := List.exists_cons_of_ne_nil hfraction
  have hvalue : Nat.ofDigitChars 10 whole 0 < 10 ^ 16 := by
    refine (ofDigitChars_lt (fun x hx => hdigits x (List.mem_append_left _ hx)) 0).trans_le ?_
    rw [Nat.zero_add, Nat.one_mul]
    exact Nat.pow_le_pow_right (by decide) hlength
  have hdigit : digitValue c < 10 :=
    digitValue_lt (hdigits c (List.mem_append_right _ List.mem_cons_self))
  have hmax : maxSignificand = 18446744073709551615 := rfl
  have hfits : Digits.fits ⟨Nat.ofDigitChars 10 whole 0, 0⟩ c = true := by
    refine decide_eq_true ?_
    change Nat.ofDigitChars 10 whole 0 * 10 + digitValue c ≤ maxSignificand
    omega
  rw [pointDigits, integerDigits_of_le whole 0 (by omega), fractionDigits, if_pos hfits]
  exact (fractionDigits_exponent_le _ cs).trans_lt (show (0 : Int) - 1 < 0 by decide)

def Digits.value (d : Digits) : ℚ := d.significand * 10 ^ d.exponent

theorem Digits.value_of_nonneg {d : Digits} (h : 0 ≤ d.exponent) :
    d.value = (d.significand * 10 ^ d.exponent.toNat : Nat) := by
  rw [value, Nat.cast_mul, Nat.cast_pow, Nat.cast_ofNat, ← zpow_natCast, Int.toNat_of_nonneg h]

theorem fractionDigits_value_le (d : Digits) (cs : List Char) :
    (fractionDigits d cs).value ≤
      Nat.ofDigitChars 10 cs d.significand * 10 ^ (d.exponent - cs.length) := by
  induction cs generalizing d with
  | nil => simp [fractionDigits, Digits.value]
  | cons c cs ih =>
    rw [fractionDigits]
    split_ifs with hfits
    · have hstep : d.significand * 10 + digitValue c =
          10 * d.significand + (c.toNat - '0'.toNat) := by
        rw [Nat.mul_comm]
        rfl
      have hlength : d.exponent - 1 - cs.length = d.exponent - (c :: cs).length := by
        rw [List.length_cons]
        omega
      have hkept := ih ⟨d.significand * 10 + digitValue c, d.exponent - 1⟩
      rw [hlength, hstep, ← Nat.ofDigitChars_cons] at hkept
      rw [hstep]
      exact hkept
    · have hcast : (d.significand : ℚ) * 10 ^ (c :: cs).length ≤
          Nat.ofDigitChars 10 (c :: cs) d.significand := by
        exact_mod_cast mul_pow_le_ofDigitChars (c :: cs) d.significand
      calc
        d.value = d.significand * 10 ^ (c :: cs).length *
            10 ^ (d.exponent - (c :: cs).length) := by
          rw [Digits.value, mul_assoc, ← zpow_natCast, ← zpow_add₀ (by norm_num)]
          congr 2
          omega
        _ ≤ _ := mul_le_mul_of_nonneg_right hcast (by positivity)

/-- Behind a dropped digit only a lesser one is kept, so the dropped one makes up for the rest. -/
theorem fractionDigits_value_le_of_dropped {d : Digits} {digit : Nat}
    (h : maxSignificand < d.significand * 10 + digit) {cs : List Char}
    (hcs : ∀ c ∈ cs, c.isDigit = true) :
    (fractionDigits d cs).value ≤ (d.significand * 10 + digit : Nat) * 10 ^ (d.exponent - 1) := by
  have hten : (10 : ℚ) ^ d.exponent = 10 * 10 ^ (d.exponent - 1) := by
    rw [← zpow_one_add₀ (by norm_num), add_sub_cancel]
  have hpow : (0 : ℚ) ≤ 10 ^ (d.exponent - 1) := by positivity
  have hkept : d.value ≤ (d.significand * 10 + digit : Nat) * 10 ^ (d.exponent - 1) := by
    rw [Digits.value, hten, ← mul_assoc]
    refine mul_le_mul_of_nonneg_right ?_ hpow
    exact_mod_cast Nat.le_add_right _ digit
  cases cs with
  | nil => exact hkept
  | cons c rest =>
    rw [fractionDigits]
    split_ifs with hfits
    · -- a digit that fits is less than the dropped one, so all that follows stays below it
      have hless : d.significand * 10 + digitValue c + 1 ≤ d.significand * 10 + digit :=
        Nat.lt_of_le_of_lt (of_decide_eq_true hfits) h
      have hrest : Nat.ofDigitChars 10 rest (d.significand * 10 + digitValue c) ≤
          (d.significand * 10 + digit) * 10 ^ rest.length :=
        (ofDigitChars_lt (fun x hx => hcs x (List.mem_cons_of_mem c hx)) _).le.trans
          (Nat.mul_le_mul_right _ hless)
      refine (fractionDigits_value_le _ rest).trans ?_
      calc
        (Nat.ofDigitChars 10 rest (d.significand * 10 + digitValue c) : ℚ) *
            10 ^ (d.exponent - 1 - rest.length)
            ≤ ((d.significand * 10 + digit) * 10 ^ rest.length : Nat) *
              10 ^ (d.exponent - 1 - rest.length) :=
          mul_le_mul_of_nonneg_right (by exact_mod_cast hrest) (by positivity)
        _ = (d.significand * 10 + digit : Nat) * 10 ^ (d.exponent - 1) := by
          rw [Nat.cast_mul, Nat.cast_pow, Nat.cast_ofNat, mul_assoc, ← zpow_natCast,
            ← zpow_add₀ (by norm_num), add_sub_cancel]
    · exact hkept

theorem pointDigits_value_le (whole : List Char) {fraction : List Char}
    (hfraction : ∀ c ∈ fraction, c.isDigit = true) :
    (pointDigits whole fraction).value ≤
      Nat.ofDigitChars 10 (whole ++ fraction) 0 * 10 ^ (-(fraction.length : Int)) := by
  rw [Nat.ofDigitChars_append, pointDigits]
  rcases Nat.lt_or_ge maxSignificand (Nat.ofDigitChars 10 whole 0) with hdropped | hkept
  · obtain ⟨significand, digit, dropped, hlarge, hdigits, hle⟩ :=
      integerDigits_of_lt (Nat.zero_le _) hdropped
    have hall : ((significand * 10 + digit) * 10 ^ dropped) * 10 ^ fraction.length ≤
        Nat.ofDigitChars 10 fraction (Nat.ofDigitChars 10 whole 0) :=
      (Nat.mul_le_mul_right _ hle).trans (mul_pow_le_ofDigitChars fraction _)
    rw [hdigits]
    refine (fractionDigits_value_le_of_dropped hlarge hfraction).trans ?_
    calc
      ((significand * 10 + digit : Nat) : ℚ) * 10 ^ (((dropped + 1 : Nat) : Int) - 1)
          = (((significand * 10 + digit) * 10 ^ dropped) * 10 ^ fraction.length : Nat) *
            10 ^ (-(fraction.length : Int)) := by
        rw [Nat.cast_mul, Nat.cast_mul, Nat.cast_pow, Nat.cast_pow, Nat.cast_ofNat, mul_assoc,
          ← zpow_natCast 10 fraction.length, ← zpow_add₀ (by norm_num), add_neg_cancel, zpow_zero,
          mul_one, Nat.cast_succ, add_sub_cancel_right, zpow_natCast]
      _ ≤ _ := mul_le_mul_of_nonneg_right (by exact_mod_cast hall) (by positivity)
  · rw [integerDigits_of_le whole 0 hkept]
    have hvalue := fractionDigits_value_le ⟨Nat.ofDigitChars 10 whole 0, 0⟩ fraction
    rwa [zero_sub] at hvalue

def scientificDigits (digits : List Char) (exponent : Int) : Digits :=
  let kept := pointDigits (digits.take 1) (digits.drop 1)
  ⟨kept.significand, kept.exponent + exponent⟩

theorem integerDigits_one {c : Char} (hc : c.isDigit = true) :
    integerDigits ⟨0, 0⟩ [c] = ⟨digitValue c, 0⟩ := by
  have hdigit := digitValue_lt hc
  have hmax : maxSignificand = 18446744073709551615 := rfl
  have hvalue : Nat.ofDigitChars 10 [c] 0 = digitValue c := by
    rw [Nat.ofDigitChars_cons, Nat.ofDigitChars_nil, Nat.mul_zero, Nat.zero_add]
    rfl
  rw [integerDigits_of_le [c] 0 (by omega), hvalue]

theorem Digits.value_scale (d : Digits) (exponent : Int) :
    Digits.value ⟨d.significand, d.exponent + exponent⟩ = d.value * 10 ^ exponent := by
  rw [value, value, zpow_add₀ (by norm_num), mul_assoc]

theorem scientificDigits_value_le {digits : List Char} (hdigits : ∀ c ∈ digits, c.isDigit = true)
    (hne : digits ≠ []) (exponent : Int) :
    (scientificDigits digits exponent).value ≤
      Nat.ofDigitChars 10 digits 0 * 10 ^ (exponent + 1 - digits.length) := by
  obtain ⟨c, cs, rfl⟩ := List.exists_cons_of_ne_nil hne
  have hkept := pointDigits_value_le [c] fun x hx => hdigits x (List.mem_cons_of_mem c hx)
  calc
    (scientificDigits (c :: cs) exponent).value
        = (pointDigits [c] cs).value * 10 ^ exponent := Digits.value_scale _ exponent
    _ ≤ Nat.ofDigitChars 10 (c :: cs) 0 * 10 ^ (-(cs.length : Int)) * 10 ^ exponent :=
      mul_le_mul_of_nonneg_right hkept (by positivity)
    _ = Nat.ofDigitChars 10 (c :: cs) 0 * 10 ^ (exponent + 1 - (c :: cs).length) := by
      rw [mul_assoc, ← zpow_add₀ (by norm_num), List.length_cons]
      congr 2
      omega

theorem scientificDigits_significand_pos {c : Char} (cs : List Char) (hc : c.isDigit = true)
    (hzero : c ≠ '0') (exponent : Int) :
    0 < (scientificDigits (c :: cs) exponent).significand := by
  have hfirst : (integerDigits ⟨0, 0⟩ [c]).significand = digitValue c := by
    rw [integerDigits_one hc]
  calc
    0 < digitValue c := digitValue_pos hc hzero
    _ = (integerDigits ⟨0, 0⟩ [c]).significand := hfirst.symm
    _ ≤ (fractionDigits (integerDigits ⟨0, 0⟩ [c]) cs).significand :=
      significand_le_fractionDigits _ cs

end BrokerPolicy.Json
