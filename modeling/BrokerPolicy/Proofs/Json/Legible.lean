import BrokerPolicy.Proofs.Json.Reread
import BrokerPolicy.Proofs.Numeral.Decimal
import BrokerPolicy.Proofs.Numeral.Overflow

set_option autoImplicit false

/-!
Every finite double has a legible text. The text is read with several roundings, which need not lead
back to the double but never past the greatest one: its kept digits stand for at most the upper end
of the reals that round to the double, and the roundings use less than the room that is left above
all but the two greatest doubles.
-/

namespace BrokerPolicy.Json

open Binary64 (unitsPerOne lastShift)

theorem isSome_real?_of_behind {d : Digits} (h : d.exponent < 0) (negative : Bool) :
    (d.real? negative).isSome = true := by
  simp only [Digits.real?, if_pos h]
  rfl

theorem isSome_real?_of_room {d : Digits} (hexponent : 0 ≤ d.exponent) (hpos : 0 < d.significand)
    (hroom : 2 * (d.significand * 10 ^ d.exponent.toNat * unitsPerOne) ≤
      2 ^ lastShift * (2 ^ 54 - 5)) (negative : Bool) : (d.real? negative).isSome = true := by
  have hpast : 2 ^ lastShift * (2 ^ 54 - 5) < 2 * (10 ^ 309 * unitsPerOne) := by decide +kernel
  have hsmall : d.exponent ≤ 308 := by
    by_contra hlarge
    have hscaled {k : Nat} (hk : k ≤ d.exponent.toNat) :
        2 * (10 ^ k * unitsPerOne) ≤ 2 ^ lastShift * (2 ^ 54 - 5) := by
      have hpow : 10 ^ k ≤ d.significand * 10 ^ d.exponent.toNat :=
        (Nat.pow_le_pow_right (by decide) hk).trans (Nat.le_mul_of_pos_left _ hpos)
      exact (Nat.mul_le_mul_left 2 (Nat.mul_le_mul_right unitsPerOne hpow)).trans hroom
    exact absurd (hscaled (k := 309) (by omega)) (Nat.not_le.2 hpast)
  have hfinite := Binary64.isFinite_times_ofNat hpos (Nat.pow_pos (by decide)) hroom
  have hproduct : ((Binary64.ofNat d.significand).times
      (Binary64.ofNat (Nat.pow 10 d.exponent.toNat))).isFinite = true := hfinite
  simp only [Digits.real?, if_neg (not_lt.2 hexponent), if_pos hsmall, if_pos hproduct]
  rfl

/-- All doubles but the greatest two leave so much room above what rounds to them. -/
theorem magnitude_room {x : Binary64} (hword : x.unsignedWord + 3 ≤ Binary64.infinityWord) :
    2 * x.magnitude + 2 ^ x.binade ≤ 2 ^ lastShift * (2 ^ 54 - 5) := by
  have hfactor : 2 * x.magnitude + 2 ^ x.binade = (2 * x.significand + 1) * 2 ^ x.binade := by
    change 2 * (x.significand * 2 ^ x.binade) + 2 ^ x.binade = _
    ring
  have hwhole : x.unsignedWord + 3 ≤ 2047 * 2 ^ 52 := hword
  have hfraction : x.fraction = x.unsignedWord % 2 ^ 52 := by
    change x.word % 2 ^ 52 = x.word % 2 ^ 63 % 2 ^ 52
    omega
  have hfield := x.exponentField_eq
  have hbinade : x.binade = x.exponentField - 1 := rfl
  rw [hfactor]
  -- below the last binade there is a whole one above; in the last one the significand is small
  rcases Nat.lt_or_ge x.exponentField 2046 with hlow | hhigh
  · have hsignificand := x.significand_lt
    have hshift : x.binade ≤ lastShift - 1 := Nat.le_sub_one_of_lt (by
      change x.exponentField - 1 < 2045
      omega)
    calc
      (2 * x.significand + 1) * 2 ^ x.binade
          ≤ 2 ^ 54 * 2 ^ (lastShift - 1) :=
        Nat.mul_le_mul (by omega) (Nat.pow_le_pow_right (by decide) hshift)
      _ = 2 ^ lastShift * 2 ^ 53 := by
        rw [← pow_add, ← pow_add, show 54 + (lastShift - 1) = lastShift + 53 from rfl]
      _ ≤ 2 ^ lastShift * (2 ^ 54 - 5) := Nat.mul_le_mul_left _ (by decide)
  · have htop : x.exponentField = 2046 := by omega
    have hsignificand : x.significand ≤ 2 ^ 53 - 3 := by
      rw [Binary64.significand, if_neg (by omega)]
      change x.fraction + 2 ^ 52 ≤ _
      omega
    have hshift : x.binade = lastShift := by
      rw [hbinade, htop]
      rfl
    rw [hshift, Nat.mul_comm]
    exact Nat.mul_le_mul_left _ (by omega)

theorem scientificDigits_value_le_shortest (x : Binary64) (tie : Binary64.Tie) :
    (scientificDigits (toString (x.shortest tie).digits).toList
      ((x.shortest tie).exponent + (toString (x.shortest tie).digits).toList.length - 1)).value ≤
      (x.shortest tie).value := by
  have hchars : (toString (x.shortest tie).digits).toList =
      Nat.toDigits 10 (x.shortest tie).digits := Nat.toList_repr
  have hdigits : ∀ c ∈ Nat.toDigits 10 (x.shortest tie).digits, c.isDigit = true :=
    fun _ hc => Nat.isDigit_of_mem_toDigits (by decide) (by decide) hc
  have hkept := scientificDigits_value_le hdigits Nat.toDigits_ne_nil
    ((x.shortest tie).exponent + (Nat.toDigits 10 (x.shortest tie).digits).length - 1)
  rw [Nat.ofDigitChars_ten_toDigits, Int.sub_add_cancel, Int.add_sub_cancel] at hkept
  rw [hchars]
  exact hkept

theorem isSome_real?_of_kept {x : Binary64} {d : Digits}
    (hword : x.unsignedWord + 3 ≤ Binary64.infinityWord) (h : KeptOf x d) (negative : Bool) :
    (d.real? negative).isSome = true := by
  rcases h with hbehind | ⟨hnonzero, rfl⟩
  · exact isSome_real?_of_behind hbehind negative
  have hle := scientificDigits_value_le_shortest x .toEven
  have hpositive : 0 < (scientificDigits (toString (x.shortest .toEven).digits).toList
      ((x.shortest .toEven).exponent +
        (toString (x.shortest .toEven).digits).toList.length - 1)).significand := by
    have hleads := leads_toString (Binary64.shortest_digits_pos .toEven hnonzero)
    obtain ⟨c, cs, hcs⟩ := List.exists_cons_of_ne_nil hleads.ne_nil
    rw [hcs]
    refine scientificDigits_significand_pos cs (hleads.isDigit c ?_) ?_ _
    · rw [hcs]
      exact List.mem_cons_self
    · rintro rfl
      exact hleads.head_ne (by rw [hcs]; rfl)
  -- from here on only the value and the sign of the kept digits count
  generalize scientificDigits (toString (x.shortest .toEven).digits).toList
    ((x.shortest .toEven).exponent +
      (toString (x.shortest .toEven).digits).toList.length - 1) = d at hle hpositive
  rcases lt_or_ge d.exponent 0 with hbehind | hexponent
  · exact isSome_real?_of_behind hbehind negative
  refine isSome_real?_of_room hexponent hpositive ?_ negative
  have hvalue := Digits.value_of_nonneg hexponent
  have hunits : (0 : ℚ) ≤ 4 * unitsPerOne := mul_nonneg (by norm_num) (Nat.cast_nonneg _)
  have hupper : d.value * (4 * unitsPerOne) ≤ 4 * x.magnitude + 2 * 2 ^ x.binade :=
    (mul_le_mul_of_nonneg_right hle hunits).trans (Binary64.shortest_value_le .toEven x)
  have hkept : 2 * (d.significand * 10 ^ d.exponent.toNat * unitsPerOne) ≤
      2 * x.magnitude + 2 ^ x.binade := by
    generalize unitsPerOne = u at hupper ⊢
    rw [hvalue] at hupper
    have hnat : d.significand * 10 ^ d.exponent.toNat * (4 * u) ≤
        4 * x.magnitude + 2 * 2 ^ x.binade := by exact_mod_cast hupper
    have hfour : d.significand * 10 ^ d.exponent.toNat * (4 * u) =
        2 * (2 * (d.significand * 10 ^ d.exponent.toNat * u)) := by ring
    omega
  exact hkept.trans (magnitude_room hword)

theorem eq_ofWord_unsignedWord (x : Binary64) :
    x = Binary64.ofWord false x.unsignedWord ∨ x = Binary64.ofWord true x.unsignedWord := by
  obtain ⟨bits⟩ := x
  have hbits := bits.toNat_lt
  have hword : (⟨bits⟩ : Binary64).unsignedWord = bits.toNat % 2 ^ 63 := rfl
  rw [hword]
  rcases Nat.lt_or_ge bits.toNat (2 ^ 63) with hpositive | hnegative
  · left
    refine congrArg Binary64.mk (UInt64.toNat_inj.1 ?_)
    change bits.toNat = bits.toNat % 2 ^ 63 % 2 ^ 64
    omega
  · right
    refine congrArg Binary64.mk (UInt64.toNat_inj.1 ?_)
    change bits.toNat = (2 ^ 63 + bits.toNat % 2 ^ 63) % 2 ^ 64
    omega

theorem legible_of_great {x : Binary64} (hfinite : x.isFinite = true)
    (hword : ¬ x.unsignedWord + 3 ≤ Binary64.infinityWord) : (readBack? x).isSome = true := by
  have hlt : x.unsignedWord < Binary64.infinityWord := of_decide_eq_true hfinite
  have hlast : ∀ w ∈ [Binary64.infinityWord - 1, Binary64.infinityWord - 2],
      (readBack? (Binary64.ofWord false w)).isSome = true ∧
        (readBack? (Binary64.ofWord true w)).isSome = true := by decide +kernel
  have hmem : x.unsignedWord ∈ [Binary64.infinityWord - 1, Binary64.infinityWord - 2] := by
    simp only [List.mem_cons, List.not_mem_nil, or_false]
    omega
  obtain ⟨hpositive, hnegative⟩ := hlast _ hmem
  rcases eq_ofWord_unsignedWord x with hx | hx
  · rw [hx]
    exact hpositive
  · rw [hx]
    exact hnegative

/-- Reading the text of a finite double gives a double. -/
theorem legible (x : Binary64) : Legible x := by
  intro hfinite
  by_cases hword : x.unsignedWord + 3 ≤ Binary64.infinityWord
  · obtain ⟨l, hreal, hkept, htext⟩ := exists_literal_kept hfinite
    obtain ⟨y, hy⟩ := Option.isSome_iff_exists.1 (isSome_real?_of_kept hword hkept l.negative)
    have hdraft : l.draft = .real y := by
      rw [Literal.draft, if_pos hreal, realDraft, hy]
    have hnumber := l.number_append stops_nil
    rw [List.append_nil, htext, hdraft] at hnumber
    rw [readBack?, hnumber]
    rfl
  · exact legible_of_great hfinite hword

end BrokerPolicy.Json
