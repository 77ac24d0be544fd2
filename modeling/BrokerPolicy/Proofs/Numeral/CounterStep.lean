import BrokerPolicy.Proofs.Numeral.Binary64
import Mathlib.Algebra.Order.Floor.Ring
import Mathlib.Data.Rat.Floor
import Mathlib.Order.WithBotTop
import Mathlib.Tactic.Linarith

set_option autoImplicit false

/-!
The numbers that doubles stand for, and how far a counter goes for them. A counter takes whole steps
only, so it falls behind the numbers it is given, by less than one for each of them.
-/

namespace BrokerPolicy.Binary64

def value (x : Binary64) : ℚ := (if x.isNegative then -1 else 1) * (x.magnitude / unitsPerOne)

/-- Numbers with one below and one above all others. -/
abbrev Number := WithBotTop ℚ

def number? (x : Binary64) : Option Number :=
  if x.isNaN then none
  else if x.isInfinite then some (if x.isNegative then ⊥ else ⊤)
  else some (x.value : Number)

theorem number?_of_isNaN {x : Binary64} (h : x.isNaN = true) : x.number? = none := if_pos h

theorem number?_cases (x : Binary64) :
    x.isNaN = true ∨
      (x.isNaN = false ∧ x.isInfinite = true ∧
        x.number? = some (if x.isNegative then ⊥ else ⊤)) ∨
      x.isNaN = false ∧ x.isInfinite = false ∧ x.number? = some (x.value : Number) := by
  cases hnan : x.isNaN with
  | true => exact .inl rfl
  | false =>
    cases hinfinite : x.isInfinite with
    | true => exact .inr (.inl ⟨rfl, rfl, by simp [number?, hnan, hinfinite]⟩)
    | false => exact .inr (.inr ⟨rfl, rfl, by simp [number?, hnan, hinfinite]⟩)

theorem value_of_isNegative {x : Binary64} (h : x.isNegative = true) :
    x.value = -(x.magnitude / unitsPerOne) := by
  rw [value, if_pos h, neg_one_mul]

theorem value_of_not_isNegative {x : Binary64} (h : x.isNegative = false) :
    x.value = x.magnitude / unitsPerOne := by
  rw [value, h]
  exact one_mul _

theorem value_nonpos {x : Binary64} (h : x.isNegative = true) : x.value ≤ 0 := by
  rw [value_of_isNegative h]
  exact neg_nonpos.2 (div_nonneg (Nat.cast_nonneg _) (Nat.cast_nonneg _))

theorem value_nonneg {x : Binary64} (h : x.isNegative = false) : 0 ≤ x.value := by
  rw [value_of_not_isNegative h]
  exact div_nonneg (Nat.cast_nonneg _) (Nat.cast_nonneg _)

theorem isNegative_of_value_neg {x : Binary64} (h : x.value < 0) : x.isNegative = true := by
  by_contra hnot
  exact absurd h (not_lt.2 (value_nonneg (by simpa using hnot)))

theorem not_isNegative_of_value_pos {x : Binary64} (h : 0 < x.value) : x.isNegative = false := by
  by_contra hnot
  exact absurd h (not_lt.2 (value_nonpos (by simpa using hnot)))

theorem floor_value {x : Binary64} (h : x.isNegative = false) :
    ⌊x.value⌋ = ((x.magnitude / unitsPerOne : Nat) : ℤ) := by
  rw [value_of_not_isNegative h, Rat.floor_natCast_div_natCast, Int.natCast_ediv]

theorem saturated_zero : (zero false).saturated = 0 := by decide +kernel

theorem maximum_zero_cases {x : Binary64} (hnan : x.isNaN = false) :
    x.maximum (zero false) = zero false ∨ x.maximum (zero false) = x := by
  have hzero : (zero false).isNaN = false := by decide
  rw [maximum, hnan, hzero]
  cases x.less (zero false) with
  | true => exact .inl rfl
  | false => exact .inr rfl

theorem maximum_zero_of_not_isNegative {x : Binary64} (hnan : x.isNaN = false)
    (hnegative : x.isNegative = false) : x.maximum (zero false) = x := by
  have hzero : (zero false).isNaN = false := by decide
  have hrank : ¬ x.rank < (zero false).rank := by
    have hnothing : (zero false).rank = 0 := by decide
    rw [hnothing, rank, hnegative]
    exact not_lt.2 (Int.natCast_nonneg _)
  rw [maximum, hnan, hzero, less, hnan, hzero, decide_eq_false hrank]
  rfl

theorem counterStep_of_isNaN {x : Binary64} (h : x.isNaN = true) : x.counterStep = 0 := by
  rw [counterStep, maximum, if_pos h, saturated_zero]
  rfl

theorem counterStep_of_isNegative {x : Binary64} (h : x.isNegative = true) :
    x.counterStep = 0 := by
  cases hnan : x.isNaN with
  | true => exact counterStep_of_isNaN hnan
  | false =>
    rw [counterStep]
    rcases maximum_zero_cases hnan with hmax | hmax
    · rw [hmax, saturated_zero]
      rfl
    · rw [hmax, saturated, h, Bool.or_true]
      rfl

theorem counterStep_of_isInfinite {x : Binary64} (hnan : x.isNaN = false)
    (hnegative : x.isNegative = false) (h : x.isInfinite = true) :
    x.counterStep = 2 ^ 64 - 1 := by
  rw [counterStep, maximum_zero_of_not_isNegative hnan hnegative, saturated, hnan, hnegative, h]
  rfl

theorem counterStep_of_number {x : Binary64} (hnan : x.isNaN = false)
    (hnegative : x.isNegative = false) (h : x.isInfinite = false) :
    x.counterStep = min (x.magnitude / unitsPerOne) (2 ^ 64 - 1) := by
  rw [counterStep, maximum_zero_of_not_isNegative hnan hnegative, saturated, hnan, hnegative, h]
  exact UInt64.toNat_ofNat_of_lt' ((min_le_right _ _).trans_lt (by decide))

structure StepsTo (x : Binary64) (n : Nat) : Prop where
  cut : ∀ q : ℚ, x.number? = some (q : Number) → 0 ≤ q → q < 2 ^ 64 → (n : ℤ) = ⌊q⌋
  nothing : x.isNaN = true ∨ (∃ v, x.number? = some v ∧ v < ((0 : ℚ) : Number)) → n = 0
  full : ∀ v, x.number? = some v → ((2 ^ 64 : ℚ) : Number) ≤ v → n = 2 ^ 64 - 1

theorem counterStep_of_value {x : Binary64} (hnan : x.isNaN = false)
    (hinfinite : x.isInfinite = false) (hlow : 0 ≤ x.value) (hhigh : x.value < 2 ^ 64) :
    (x.counterStep : ℤ) = ⌊x.value⌋ := by
  cases hnegative : x.isNegative with
  | true =>
    have hzero : x.value = 0 := le_antisymm (value_nonpos hnegative) hlow
    rw [counterStep_of_isNegative hnegative, hzero, Int.floor_zero, Nat.cast_zero]
  | false =>
    have hfloor := floor_value hnegative
    have hlt : ⌊x.value⌋ < 2 ^ 64 := Int.floor_lt.2 (by exact_mod_cast hhigh)
    have hle : x.magnitude / unitsPerOne ≤ 2 ^ 64 - 1 := by omega
    rw [counterStep_of_number hnan hnegative hinfinite, min_eq_left hle, hfloor]

theorem counterStep_of_le_value {x : Binary64} (hnan : x.isNaN = false)
    (hinfinite : x.isInfinite = false) (h : 2 ^ 64 ≤ x.value) : x.counterStep = 2 ^ 64 - 1 := by
  have hpositive : (0 : ℚ) < 2 ^ 64 := by norm_num
  have hnegative := not_isNegative_of_value_pos (hpositive.trans_le h)
  have hfloor := floor_value hnegative
  have hle : 2 ^ 64 ≤ ⌊x.value⌋ := Int.le_floor.2 (by exact_mod_cast h)
  rw [counterStep_of_number hnan hnegative hinfinite]
  exact min_eq_right (by omega)

theorem stepsTo_counterStep (x : Binary64) : x.StepsTo x.counterStep := by
  rcases x.number?_cases with hnan | ⟨hnan, hinfinite, hnumber⟩ | ⟨hnan, hinfinite, hnumber⟩
  · have hnone := number?_of_isNaN hnan
    refine ⟨?_, fun _ => counterStep_of_isNaN hnan, ?_⟩ <;> rw [hnone] <;> rintro _ ⟨⟩
  · cases hnegative : x.isNegative with
    | true =>
      rw [hnegative] at hnumber
      refine ⟨?_, fun _ => counterStep_of_isNegative hnegative, ?_⟩ <;> rw [hnumber]
      · rintro q ⟨⟩
      · rintro v ⟨⟩ hle
        exact absurd (le_bot_iff.1 hle) (by simp)
    | false =>
      rw [hnegative] at hnumber
      refine ⟨?_, ?_, fun _ _ _ => counterStep_of_isInfinite hnan hnegative hinfinite⟩
      · rw [hnumber]
        rintro q ⟨⟩
      · rintro (hnot | ⟨v, hv, hlt⟩)
        · rw [hnan] at hnot
          cases hnot
        · rw [hnumber] at hv
          cases hv
          exact absurd hlt (by simp)
  · refine ⟨?_, ?_, ?_⟩
    · intro q hq hlow hhigh
      have hsame : (x.value : Number) = q := Option.some.inj (hnumber.symm.trans hq)
      obtain rfl : x.value = q := WithBotTop.coe_injective hsame
      exact counterStep_of_value hnan hinfinite hlow hhigh
    · rintro (hnot | ⟨v, hv, hlt⟩)
      · rw [hnan] at hnot
        cases hnot
      · obtain rfl : (x.value : Number) = v := Option.some.inj (hnumber.symm.trans hv)
        exact counterStep_of_isNegative (isNegative_of_value_neg (WithBotTop.coe_lt_coe.1 hlt))
    · intro v hv hle
      obtain rfl : (x.value : Number) = v := Option.some.inj (hnumber.symm.trans hv)
      exact counterStep_of_le_value hnan hinfinite (WithBotTop.coe_le_coe.1 hle)

/-- A double that is below the most that a counter steps, if it is a number. -/
def Below (x : Binary64) : Prop := ∀ v, x.number? = some v → v < ((2 ^ 64 : ℚ) : Number)

theorem below_of_isNaN {x : Binary64} (h : x.isNaN = true) : x.Below := by
  intro v hv
  rw [number?_of_isNaN h] at hv
  cases hv

theorem below_of_magnitude_lt {x : Binary64} (hinfinite : x.isInfinite = false)
    (h : x.magnitude < 2 ^ 64 * unitsPerOne) : x.Below := by
  have hunits : (0 : ℚ) < unitsPerOne := by exact_mod_cast unitsPerOne_pos
  have hlt : (x.magnitude : ℚ) / unitsPerOne < 2 ^ 64 := by
    rw [div_lt_iff₀ hunits]
    exact_mod_cast h
  have hvalue : x.value < 2 ^ 64 := by
    cases hnegative : x.isNegative with
    | false => rwa [value_of_not_isNegative hnegative]
    | true => exact (value_nonpos hnegative).trans_lt (by norm_num)
  intro v hv
  rcases x.number?_cases with hnan | ⟨-, hinfinite', -⟩ | ⟨-, -, hnumber⟩
  · exact below_of_isNaN hnan v hv
  · rw [hinfinite] at hinfinite'
    cases hinfinite'
  · obtain rfl : (x.value : Number) = v := Option.some.inj (hnumber.symm.trans hv)
    exact WithBotTop.coe_lt_coe.2 hvalue

def positive? (x : Binary64) : Option ℚ :=
  if x.isFinite = true ∧ 0 < x.value then some x.value else none

/-- One step is the number rounded down, and nothing for what is not positive. -/
theorem counterStep_bounds {x : Binary64} (h : x.Below) :
    (x.counterStep : ℚ) ≤ x.positive?.getD 0 ∧ x.positive?.getD 0 < x.counterStep + 1 := by
  -- nothing is counted for what is no positive number, and no step is taken for it
  have hnone (hstep : x.counterStep = 0) (hnot : ¬ (x.isFinite = true ∧ 0 < x.value)) :
      (x.counterStep : ℚ) ≤ x.positive?.getD 0 ∧ x.positive?.getD 0 < x.counterStep + 1 := by
    rw [positive?, if_neg hnot, hstep]
    norm_num
  rcases x.number?_cases with hnan | ⟨hnan, hinfinite, hnumber⟩ | ⟨hnan, hinfinite, hnumber⟩
  · refine hnone (counterStep_of_isNaN hnan) fun hpositive => ?_
    have hword : infinityWord < x.unsignedWord := of_decide_eq_true hnan
    exact absurd (of_decide_eq_true hpositive.1) (Nat.lt_asymm hword)
  · have hbelow := h _ hnumber
    cases hnegative : x.isNegative with
    | false =>
      rw [hnegative] at hbelow
      exact absurd hbelow (by simp)
    | true =>
      refine hnone (counterStep_of_isNegative hnegative) fun hpositive => ?_
      exact absurd hpositive.2 (not_lt.2 (value_nonpos hnegative))
  · have hbelow : x.value < 2 ^ 64 := WithBotTop.coe_lt_coe.1 (h _ hnumber)
    have hword : x.isFinite = true := by
      have hle : ¬ infinityWord < x.unsignedWord := of_decide_eq_false hnan
      have hne : ¬ x.unsignedWord = infinityWord := of_decide_eq_false hinfinite
      exact decide_eq_true (by omega)
    by_cases hpositive : 0 < x.value
    · have hstep := counterStep_of_value hnan hinfinite hpositive.le hbelow
      have hcast : (x.counterStep : ℚ) = ⌊x.value⌋ := by exact_mod_cast hstep
      rw [positive?, if_pos ⟨hword, hpositive⟩, hcast]
      exact ⟨Int.floor_le _, Int.lt_floor_add_one _⟩
    · refine hnone ?_ fun hboth => hpositive hboth.2
      rcases lt_or_eq_of_le (not_lt.1 hpositive) with hlt | hzero
      · exact counterStep_of_isNegative (isNegative_of_value_neg hlt)
      · have hstep := counterStep_of_value hnan hinfinite hzero.ge hbelow
        rw [hzero, Int.floor_zero] at hstep
        exact_mod_cast hstep

def positiveSum (xs : List Binary64) : ℚ := (xs.filterMap positive?).sum

theorem positiveSum_cons (x : Binary64) (xs : List Binary64) :
    positiveSum (x :: xs) = x.positive?.getD 0 + positiveSum xs := by
  cases h : x.positive? with
  | none => rw [positiveSum, List.filterMap_cons_none h, Option.getD_none, zero_add, positiveSum]
  | some q =>
    rw [positiveSum, List.filterMap_cons_some h, List.sum_cons, Option.getD_some, positiveSum]

/-- A counter does not run ahead of what it is given, and falls back by less than one each time. -/
theorem counterSteps_bounds {xs : List Binary64} (h : ∀ x ∈ xs, x.Below) :
    ((xs.map counterStep).sum : ℚ) ≤ positiveSum xs ∧
      positiveSum xs ≤ (xs.map counterStep).sum + xs.length := by
  induction xs with
  | nil => simp [positiveSum]
  | cons x xs ih =>
    rw [List.forall_mem_cons] at h
    obtain ⟨hlow, hhigh⟩ := counterStep_bounds h.1
    obtain ⟨ihlow, ihhigh⟩ := ih h.2
    rw [positiveSum_cons, List.map_cons, List.sum_cons, List.length_cons,
      Nat.cast_add, Nat.cast_add, Nat.cast_one]
    exact ⟨add_le_add hlow ihlow, by linarith⟩

theorem positiveSum_lt {xs : List Binary64} (hne : xs ≠ []) (h : ∀ x ∈ xs, x.Below) :
    positiveSum xs < (xs.map counterStep).sum + xs.length := by
  obtain ⟨x, rest, rfl⟩ := List.exists_cons_of_ne_nil hne
  rw [List.forall_mem_cons] at h
  have hfirst := (counterStep_bounds h.1).2
  have hrest := (counterSteps_bounds h.2).2
  rw [positiveSum_cons, List.map_cons, List.sum_cons, List.length_cons,
    Nat.cast_add, Nat.cast_add, Nat.cast_one]
  linarith

end BrokerPolicy.Binary64
