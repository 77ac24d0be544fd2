import BrokerPolicy.Numeral.Binary64

set_option autoImplicit false

/-!
The double nearest to an exact quotient, ties to the even significand, and the arithmetic that
rounds this way.
-/

namespace BrokerPolicy.Binary64

/-- The integer nearest to `n / d`, a half going to the even neighbour. -/
def divideToEven (n d : Nat) : Nat :=
  let q := n / d
  let r := n % d
  if d < 2 * r ∨ (2 * r = d ∧ q % 2 = 1) then q + 1 else q

/-- The word of the double nearest to `n / d`. A significand that rounds up to `2 ^ 53` carries
into the exponent field, and a word past the largest finite one is infinity. -/
def nearestWord (n d : Nat) : Nat :=
  let scaled := n * unitsPerOne
  let shift := Nat.log2 (scaled / d) - 52
  min (shift * Nat.pow 2 52 + divideToEven scaled (d * Nat.pow 2 shift)) infinityWord

def ofQuotient (negative : Bool) (n d : Nat) : Binary64 := ofWord negative (nearestWord n d)

def ofNat (n : Nat) : Binary64 := ofQuotient false n 1

def times (x y : Binary64) : Binary64 :=
  ofQuotient false (x.magnitude * y.magnitude) (unitsPerOne * unitsPerOne)

def dividedBy (x y : Binary64) : Binary64 := ofQuotient false x.magnitude y.magnitude

/-- The double nearest to `digits * 10 ^ exponent`. The two early exits only keep the powers of
ten small: past them the value overflows, or is below half of the least positive double. -/
def ofDecimal (negative : Bool) (digits : Nat) (exponent : Int) : Binary64 :=
  if digits = 0 then zero negative
  else if 400 < exponent then infinity negative
  else if exponent < -400 - (Nat.log2 digits : Int) then zero negative
  else ofQuotient negative (digits * Nat.pow 10 exponent.toNat) (Nat.pow 10 (-exponent).toNat)

end BrokerPolicy.Binary64
