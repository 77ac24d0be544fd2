import BrokerPolicy.Log.Pattern.Reader

set_option autoImplicit false

/-!
The patterns that a directive may ask of a field's value. A value is a number or a regular
expression; here it is only told whether the text can be used as one.
-/

namespace BrokerPolicy.Log

inductive PatternFault where
  | malformed
  /-- Well formed, but it asks for word boundaries among characters. -/
  | wordBoundary
deriving DecidableEq

def PatternFault.message : PatternFault → String
  | .malformed => "error building NFA"
  | .wordBoundary =>
    "unsupported regex feature for DFAs: cannot build DFAs for regexes with Unicode word " ++
      "boundaries; switch to ASCII word boundaries, or heuristically enable Unicode word " ++
      "boundaries or use a different regex engine"

namespace Pattern

/-- A decimal number without a sign, or the name of infinity or of no number. -/
def isNumeral (cs : List Char) : Bool :=
  let word := String.ofList (cs.map Char.toLower)
  let rest := cs.dropWhile Char.isDigit
  let fraction :=
    match rest with
    | '.' :: r => r
    | r => r
  let digits := cs.takeWhile Char.isDigit ++
    (if rest.head? = some '.' then fraction.takeWhile Char.isDigit else [])
  let tail := if rest.head? = some '.' then fraction.dropWhile Char.isDigit else rest
  let tailFits :=
    match tail with
    | [] => true
    | e :: r =>
      let exponent :=
        match r with
        | '+' :: r => r
        | '-' :: r => r
        | r => r
      e.toLower = 'e' && !exponent.isEmpty && exponent.all Char.isDigit
  (!digits.isEmpty && tailFits) ||
    word ∈ ["inf", "infinity", "nan"]

/-- Whether a text is a number with a plus sign, which is no expression. -/
def isSignedNumber : List Char → Bool
  | '+' :: rest => isNumeral rest
  | _ => false

def fault? (text : String) : Option PatternFault :=
  let cs := text.toList
  if isSignedNumber cs then none
  else
    match Expression.read? cs with
    | none => some .malformed
    | some e =>
      if !e.fits ∨ Expression.maxDepth < e.depth then some .malformed
      else if e.asksWords then some .wordBoundary
      else none

end Pattern

end BrokerPolicy.Log
