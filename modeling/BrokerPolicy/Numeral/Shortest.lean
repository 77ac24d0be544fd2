import BrokerPolicy.Numeral.Binary64

set_option autoImplicit false

/-!
The shortest decimal that reads back as a given double. The reals that round to the double form an
interval; the coarsest power-of-ten grid with a point in it fixes the number of digits, and of the
grid points in it the one nearest to the double is taken.
-/

namespace BrokerPolicy.Binary64

inductive Tie where
  | toEven
  | away
deriving DecidableEq

structure Decimal where
  digits : Nat
  exponent : Int
deriving DecidableEq, Inhabited

/-- The reals that round to a positive double, over a common denominator: its value, the lower and
the upper end, and whether the ends belong to it. -/
structure RoundingInterval where
  value : Nat
  lower : Nat
  upper : Nat
  denominator : Nat
  closed : Bool

/-- The neighbour below a power of two is half as far away as the one above. -/
def roundingInterval (x : Binary64) : RoundingInterval :=
  let unit := Nat.pow 2 x.binade
  let value := 4 * x.magnitude
  let below := if x.fraction = 0 ∧ 1 < x.exponentField then unit else 2 * unit
  { value, lower := value - below, upper := value + 2 * unit
    denominator := 4 * unitsPerOne, closed := x.significand % 2 = 0 }

namespace RoundingInterval

def contains (i : RoundingInterval) (n : Nat) : Bool :=
  if i.closed then i.lower ≤ n && n ≤ i.upper else i.lower < n && n < i.upper

def scale (i : RoundingInterval) (exponent : Int) : RoundingInterval :=
  let up := Nat.pow 10 (-exponent).toNat
  { i with
    value := i.value * up, lower := i.lower * up, upper := i.upper * up
    denominator := i.denominator * Nat.pow 10 exponent.toNat }

def nearestInteger? (i : RoundingInterval) (tie : Tie) : Option Nat :=
  let below := i.value / i.denominator
  let above := below + 1
  match i.contains (below * i.denominator), i.contains (above * i.denominator) with
  | false, false => none
  | true, false => some below
  | false, true => some above
  | true, true =>
    let toBelow := i.value - below * i.denominator
    let toAbove := above * i.denominator - i.value
    if toBelow < toAbove then some below
    else if toAbove < toBelow then some above
    else match tie with
      | .away => some above
      | .toEven => some (if below % 2 = 0 then below else above)

end RoundingInterval

def decimalLength (n : Nat) : Nat := (Nat.toDigits 10 n).length

/-- The exponent of the leading digit: `10 ^ e ≤ value < 10 ^ (e + 1)`. -/
def leadingExponent (i : RoundingInterval) : Int :=
  (decimalLength (i.value * Nat.pow 10 330 / i.denominator) : Int) - 331

def Decimal.trim : Nat → Decimal → Decimal
  | 0, d => d
  | n + 1, d =>
    if d.digits % 10 = 0 ∧ d.digits ≠ 0 then Decimal.trim n ⟨d.digits / 10, d.exponent + 1⟩ else d

/-- Tries ever finer grids; seventeen digits always suffice. -/
def searchGrid (i : RoundingInterval) (tie : Tie) (exponent : Int) : Nat → Decimal
  | 0 =>
    let scaled := i.scale exponent
    ⟨scaled.value / scaled.denominator, exponent⟩
  | n + 1 =>
    match (i.scale exponent).nearestInteger? tie with
    | some digits => ⟨digits, exponent⟩
    | none => searchGrid i tie (exponent - 1) n

def shortest (tie : Tie) (x : Binary64) : Decimal :=
  let i := x.roundingInterval
  (searchGrid i tie (leadingExponent i) 17).trim 20

end BrokerPolicy.Binary64
