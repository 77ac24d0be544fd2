import BrokerPolicy.Numeral.Shortest

set_option autoImplicit false

/-!
The written forms of a double. All of them show its shortest decimal; they differ in where they
stop writing it positionally and in their marks.
-/

namespace BrokerPolicy.Binary64

structure Layout where
  tie : Tie
  /-- Whether a number with this exponent of its leading digit is written without an exponent. -/
  positional : Int → Bool
  pointZero : Bool
  plusSign : Bool

namespace Layout

/-- Digits with the point after the first `point` of them; zeros fill both ends. -/
def placePoint (pointZero : Bool) (digits : String) (point : Int) : String :=
  let count := digits.length
  if point ≤ 0 then "0." ++ "".pushn '0' (-point).toNat ++ digits
  else if point.toNat < count then
    String.ofList (digits.toList.take point.toNat) ++ "." ++
      String.ofList (digits.toList.drop point.toNat)
  else digits.pushn '0' (point.toNat - count) ++ (if pointZero then ".0" else "")

def withExponent (plusSign : Bool) (digits : String) (exponent : Int) : String :=
  let first := String.ofList (digits.toList.take 1)
  let others := String.ofList (digits.toList.drop 1)
  first ++ (if others.isEmpty then "" else "." ++ others) ++ "e" ++
    (if plusSign && 0 ≤ exponent then "+" else "") ++ toString exponent

def magnitudeText (l : Layout) (x : Binary64) : String :=
  if x.isNaN then "NaN"
  else if x.isInfinite then "inf"
  else if x.isZero then (if l.pointZero then "0.0" else "0")
  else
    let d := x.shortest l.tie
    let digits := toString d.digits
    let exponent := d.exponent + digits.length - 1
    if l.positional exponent then placePoint l.pointZero digits (exponent + 1)
    else withExponent l.plusSign digits exponent

def write (l : Layout) (x : Binary64) : String :=
  if x.isNegative && !x.isNaN then "-" ++ l.magnitudeText x else l.magnitudeText x

end Layout

/-- Plain text: never an exponent, and an integer has no point. -/
def plain : Layout := ⟨.away, fun _ => true, false, false⟩

/-- Plain text that marks an integer with `.0`. -/
def pointed : Layout := ⟨.away, fun _ => true, true, false⟩

/-- Structural text: an exponent below `1e-4` and from `1e16`. -/
def structural : Layout := ⟨.away, fun e => -5 < e && e < 16, true, false⟩

/-- JSON text of a finite number: an exponent, always signed, below `1e-5` and from `1e16`. -/
def json : Layout := ⟨.toEven, fun e => -6 < e && e < 16, true, true⟩

end BrokerPolicy.Binary64
