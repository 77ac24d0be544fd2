import BrokerPolicy.Document
import BrokerPolicy.Json.Reader
import BrokerPolicy.Numeral.Rounding

set_option autoImplicit false

/-!
TOML numbers. An underscore may stand between two digits. Integers have 64 bits and a sign; a
decimal is rounded to the nearest double, and one that rounds to positive infinity is refused.
-/

namespace BrokerPolicy.Toml

/-- Digits with their underscores removed; an underscore needs a digit after it. -/
def moreDigits? (ok : Char → Bool) : List Char → Option (List Char × List Char)
  | [] => some ([], [])
  | '_' :: [] => none
  | '_' :: c :: rest =>
    if ok c then (moreDigits? ok rest).map fun (ds, r) => (c :: ds, r) else none
  | c :: rest =>
    if ok c then (moreDigits? ok rest).map fun (ds, r) => (c :: ds, r)
    else some ([], c :: rest)

def digitRun? (ok : Char → Bool) : List Char → Option (List Char × List Char)
  | [] => none
  | c :: rest =>
    if ok c then (moreDigits? ok rest).map fun (ds, r) => (c :: ds, r) else none

/-- A decimal integer part: a zero stands alone. -/
def wholePart? : List Char → Option (List Char × List Char)
  | '0' :: rest => some (['0'], rest)
  | cs => digitRun? Char.isDigit cs

def numeral (base : Nat) (ds : List Char) : Nat :=
  ds.foldl (fun n c => n * base + (Text.hexValue? c).getD 0) 0

def sign (cs : List Char) : Bool × List Char :=
  match cs with
  | '+' :: rest => (false, rest)
  | '-' :: rest => (true, rest)
  | _ => (false, cs)

def integer? (negative : Bool) (magnitude : Nat) : Option Document :=
  let i : Int := if negative then -(magnitude : Int) else magnitude
  if Int64.minValue.toInt ≤ i ∧ i ≤ Int64.maxValue.toInt then some (.integer i) else none

def real? (negative : Bool) (digits : Nat) (exponent : Int) : Option Document :=
  let x := Binary64.ofDecimal negative digits exponent
  if x = Binary64.infinity false then none else some (.real x)

def isExponentMark (c : Char) : Bool := c = 'e' || c = 'E'

def exponent? (cs : List Char) : Option (Int × List Char) := do
  let (negative, rest) := sign cs
  let (ds, rest) ← digitRun? Char.isDigit rest
  let n : Int := numeral 10 ds
  return (if negative then -n else n, rest)

def continueNumber? (negative : Bool) (whole rest : List Char) :
    Option (Document × List Char) := do
  match rest with
  | '.' :: rest => do
    let (frac, rest) ← digitRun? Char.isDigit rest
    let (exp, rest) ←
      match rest with
      | c :: after => if isExponentMark c then exponent? after else some (0, rest)
      | [] => some (0, [])
    let d ← real? negative (numeral 10 (whole ++ frac)) (exp - (frac.length : Int))
    return (d, rest)
  | c :: after =>
    if isExponentMark c then do
      let (exp, rest) ← exponent? after
      let d ← real? negative (numeral 10 whole) exp
      return (d, rest)
    else return (← integer? negative (numeral 10 whole), rest)
  | [] => return (← integer? negative (numeral 10 whole), [])

def isOctal (c : Char) : Bool := '0' ≤ c && c ≤ '7'

def isBinary (c : Char) : Bool := c = '0' || c = '1'

def isHex (c : Char) : Bool := (Text.hexValue? c).isSome

def basedInteger? (base : Nat) (ok : Char → Bool) (cs : List Char) :
    Option (Document × List Char) := do
  let (ds, rest) ← digitRun? ok cs
  return (← integer? false (numeral base ds), rest)

def decimalNumber? (cs : List Char) : Option (Document × List Char) := do
  let (negative, rest) := sign cs
  match rest with
  | 'i' :: 'n' :: 'f' :: rest => return (.real (Binary64.infinity negative), rest)
  | 'n' :: 'a' :: 'n' :: rest => return (.real (Binary64.nan negative), rest)
  | _ => do
    let (whole, rest) ← wholePart? rest
    continueNumber? negative whole rest

def number? (cs : List Char) : Option (Document × List Char) :=
  match cs with
  | '0' :: 'x' :: rest => basedInteger? 16 isHex rest
  | '0' :: 'o' :: rest => basedInteger? 8 isOctal rest
  | '0' :: 'b' :: rest => basedInteger? 2 isBinary rest
  | _ => decimalNumber? cs

end BrokerPolicy.Toml
