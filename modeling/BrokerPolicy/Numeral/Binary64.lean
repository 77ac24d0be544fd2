set_option autoImplicit false

/-!
A double-precision number as its 64 bits. Finite numbers are exact multiples of `2 ^ (-1074)`, so
every comparison and rounding is integer arithmetic.
-/

namespace BrokerPolicy

structure Binary64 where
  bits : UInt64
deriving DecidableEq, Inhabited

namespace Binary64

def word (x : Binary64) : Nat := x.bits.toNat

def isNegative (x : Binary64) : Bool := Nat.pow 2 63 ≤ x.word

/-- The word without its sign bit. It orders magnitudes, infinity above the finite ones. -/
def unsignedWord (x : Binary64) : Nat := x.word % Nat.pow 2 63

def exponentField (x : Binary64) : Nat := x.unsignedWord / Nat.pow 2 52

def fraction (x : Binary64) : Nat := x.word % Nat.pow 2 52

def infinityWord : Nat := 2047 * Nat.pow 2 52

def isNaN (x : Binary64) : Bool := infinityWord < x.unsignedWord

def isInfinite (x : Binary64) : Bool := x.unsignedWord = infinityWord

def isFinite (x : Binary64) : Bool := x.unsignedWord < infinityWord

def isZero (x : Binary64) : Bool := x.unsignedWord = 0

def significand (x : Binary64) : Nat :=
  if x.exponentField = 0 then x.fraction else x.fraction + Nat.pow 2 52

/-- A finite number is `significand * 2 ^ binade` units of `2 ^ (-1074)`. -/
def binade (x : Binary64) : Nat := x.exponentField - 1

def magnitude (x : Binary64) : Nat := x.significand * Nat.pow 2 x.binade

def unitsPerOne : Nat := Nat.pow 2 1074

def ofWord (negative : Bool) (w : Nat) : Binary64 :=
  ⟨UInt64.ofNat (if negative then Nat.pow 2 63 + w else w)⟩

def zero (negative : Bool) : Binary64 := ofWord negative 0

def infinity (negative : Bool) : Binary64 := ofWord negative infinityWord

def nan (negative : Bool) : Binary64 := ofWord negative (infinityWord + Nat.pow 2 51)

def neg (x : Binary64) : Binary64 := ofWord (!x.isNegative) x.unsignedWord

/-- Numeric equality: NaN differs from everything, the two zeros are equal. -/
def same (x y : Binary64) : Bool :=
  !x.isNaN && !y.isNaN && (x == y || (x.isZero && y.isZero))

/-- The place of a number among the others; both zeros are at 0. -/
def rank (x : Binary64) : Int := if x.isNegative then -(x.unsignedWord : Int) else x.unsignedWord

def less (x y : Binary64) : Bool := !x.isNaN && !y.isNaN && x.rank < y.rank

/-- The greater of two numbers. A NaN gives way to the other one. -/
def maximum (x y : Binary64) : Binary64 :=
  if x.isNaN then y else if y.isNaN then x else if x.less y then y else x

/-- Rounds towards zero. What is out of range becomes the nearest number in it, and NaN zero. -/
def saturated (x : Binary64) : UInt64 :=
  if x.isNaN || x.isNegative then 0
  else if x.isInfinite then UInt64.ofNat (UInt64.size - 1)
  else UInt64.ofNat (min (x.magnitude / unitsPerOne) (UInt64.size - 1))

def counterStep (x : Binary64) : Nat := (x.maximum (zero false)).saturated.toNat

end Binary64

end BrokerPolicy
