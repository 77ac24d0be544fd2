import BrokerPolicy.Proofs.Json.Digits
import BrokerPolicy.Proofs.Json.Literal

set_option autoImplicit false

/-!
Literals of integers. One that fits 64 bits is read as the integer, with or without a sign bit. Minus
zero is not an integer for the reader, and neither is what does not fit.
-/

namespace BrokerPolicy.Json

namespace Literal

variable {l : Literal} {i : Int}

def wholeNumber (l : Literal) : Nat := Nat.ofDigitChars 10 l.whole.chars 0

def integer? (l : Literal) : Option Int :=
  if l.isReal then none
  else some (if l.negative then -(l.wholeNumber : Int) else l.wholeNumber)

def IsMinusZero (l : Literal) : Prop := l.negative = true ∧ l.integer? = some 0

theorem isReal_or_integer? (l : Literal) : l.isReal = true ∨ ∃ i, l.integer? = some i := by
  by_cases h : l.isReal = true
  · exact .inl h
  · exact .inr ⟨_, if_neg h⟩

theorem integer?_of_isReal (h : l.isReal = true) : l.integer? = none := if_pos h

theorem eq_of_integer? (h : l.integer? = some i) :
    l.isReal = false ∧ i = if l.negative then -(l.wholeNumber : Int) else l.wholeNumber := by
  cases hreal : l.isReal with
  | true =>
    rw [integer?_of_isReal hreal] at h
    cases h
  | false =>
    rw [integer?, hreal] at h
    exact ⟨rfl, (Option.some.inj h).symm⟩

theorem draft_of_not_isReal (h : l.isReal = false) :
    l.draft = integerDraft l.negative (integerDigits ⟨0, 0⟩ l.whole.chars) :=
  if_neg (by simp [h])

theorem integerDraft_zero_exponent (negative : Bool) {n : Nat}
    (h : negative = true → n ≠ 0 ∧ n ≤ 2 ^ 63) :
    integerDraft negative ⟨n, 0⟩ = .integer (if negative then -(n : Int) else n) := by
  refine if_neg ?_
  rintro (hexponent | ⟨hnegative, hzero | hlarge⟩)
  · exact hexponent rfl
  · exact (h hnegative).1 hzero
  · exact Nat.not_lt.2 (h hnegative).2 hlarge

theorem draft_of_fits (h : l.integer? = some i) (hlow : -2 ^ 63 ≤ i) (hhigh : i < 2 ^ 64)
    (hzero : ¬ l.IsMinusZero) : l.draft = .integer i := by
  obtain ⟨hreal, hi⟩ := eq_of_integer? h
  have hmax : maxSignificand = 18446744073709551615 := rfl
  have hkept := integerDigits_of_le l.whole.chars (n := 0) 0 (by
    change l.wholeNumber ≤ _
    split_ifs at hi <;> omega)
  rw [draft_of_not_isReal hreal, hkept, hi]
  refine integerDraft_zero_exponent l.negative fun hnegative => ?_
  rw [hnegative, if_pos rfl] at hi
  refine ⟨fun hnone => hzero ⟨hnegative, ?_⟩, ?_⟩
  · have hwhole : l.wholeNumber = 0 := hnone
    rw [h, hi, hwhole]
    rfl
  · change l.wholeNumber ≤ _
    omega

theorem draft_of_isMinusZero (h : l.IsMinusZero) : l.draft = .real (.zero true) := by
  obtain ⟨hnegative, hinteger⟩ := h
  obtain ⟨hreal, hi⟩ := eq_of_integer? hinteger
  rw [hnegative, if_pos rfl] at hi
  have hwhole : Nat.ofDigitChars 10 l.whole.chars 0 = 0 := by
    change l.wholeNumber = 0
    omega
  have hkept := integerDigits_of_le l.whole.chars (n := 0) 0 (by rw [hwhole]; decide)
  have hdouble : Digits.real? true ⟨0, 0⟩ = some (.zero true) := by decide +kernel
  rw [draft_of_not_isReal hreal, hkept, hwhole, hnegative, integerDraft,
    if_pos (.inr ⟨rfl, .inl rfl⟩), hdouble]

theorem draft_of_wide (h : l.integer? = some i) (hwide : i < -2 ^ 63 ∨ 2 ^ 64 ≤ i) :
    l.draft = .fault ∨ ∃ x, l.draft = .real x := by
  obtain ⟨hreal, hi⟩ := eq_of_integer? h
  have hmax : maxSignificand = 18446744073709551615 := rfl
  have hdouble : (integerDigits ⟨0, 0⟩ l.whole.chars).exponent ≠ 0 ∨ (l.negative = true ∧
      ((integerDigits ⟨0, 0⟩ l.whole.chars).significand = 0 ∨
        Nat.pow 2 63 < (integerDigits ⟨0, 0⟩ l.whole.chars).significand)) := by
    rcases Nat.lt_or_ge maxSignificand l.wholeNumber with hdropped | hkept
    · obtain ⟨significand, digit, dropped, -, hdigits, -⟩ :=
        integerDigits_of_lt (Nat.zero_le _) hdropped
      rw [hdigits]
      exact .inl (Int.natCast_ne_zero.2 (Nat.succ_ne_zero dropped))
    · have hdigits := integerDigits_of_le l.whole.chars (n := 0) 0 hkept
      rw [hdigits]
      cases hnegative : l.negative with
      | true =>
        rw [hnegative, if_pos rfl] at hi
        refine .inr ⟨rfl, .inr ?_⟩
        change 9223372036854775808 < l.wholeNumber
        omega
      | false =>
        rw [hnegative] at hi
        simp only [Bool.false_eq_true, if_false] at hi
        omega
  rw [draft_of_not_isReal hreal, integerDraft, if_pos hdouble]
  exact realDraft_cases _ _

end Literal

end BrokerPolicy.Json
