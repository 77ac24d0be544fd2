import BrokerPolicy.Document
import BrokerPolicy.Numeral.Rounding

set_option autoImplicit false

/-!
JSON numbers. A literal without fraction and exponent that fits 64 bits is an integer. Every other
one is a double: the digits that fit 64 bits, rounded, then scaled by a power of ten with a second
rounding. A number too large for a double is not well formed.
-/

namespace BrokerPolicy.Json

def maxSignificand : Nat := UInt64.size - 1

def digitValue (c : Char) : Nat := c.toNat - '0'.toNat

structure Digits where
  significand : Nat
  exponent : Int
deriving DecidableEq

/-- Whether another digit keeps the significand within 64 bits. -/
def Digits.fits (d : Digits) (c : Char) : Bool :=
  d.significand * 10 + digitValue c ≤ maxSignificand

/-- Integer digits; those that do not fit are dropped and counted in the exponent. -/
def integerDigits (d : Digits) : List Char → Digits
  | [] => d
  | c :: rest =>
    if d.fits c then integerDigits ⟨d.significand * 10 + digitValue c, d.exponent⟩ rest
    else ⟨d.significand, d.exponent + (rest.length + 1 : Nat)⟩

/-- Digits after the point; those that do not fit are dropped. -/
def fractionDigits (d : Digits) : List Char → Digits
  | [] => d
  | c :: rest =>
    if d.fits c then fractionDigits ⟨d.significand * 10 + digitValue c, d.exponent - 1⟩ rest
    else d

/-- Division by a power of ten whose exponent may be past that of the largest double. -/
def scaleDown (x : Binary64) (exponent : Nat) : Binary64 :=
  if exponent ≤ 308 then x.dividedBy (Binary64.ofNat (Nat.pow 10 exponent))
  else if x.isZero then x
  else scaleDown (x.dividedBy (Binary64.ofNat (Nat.pow 10 308))) (exponent - 308)
termination_by exponent

def Digits.real? (negative : Bool) (d : Digits) : Option Binary64 :=
  let x := Binary64.ofNat d.significand
  let scaled :=
    if d.exponent < 0 then some (scaleDown x (-d.exponent).toNat)
    else if d.exponent ≤ 308 then
      let y := x.times (Binary64.ofNat (Nat.pow 10 d.exponent.toNat))
      if y.isFinite then some y else none
    else if x.isZero then some x
    else none
  scaled.map fun y => if negative then y.neg else y

/-- An integer literal; minus zero and what does not fit are doubles. -/
def integerDraft (negative : Bool) (d : Digits) : Draft :=
  if d.exponent ≠ 0 ∨ (negative ∧ (d.significand = 0 ∨ Nat.pow 2 63 < d.significand)) then
    match d.real? negative with
    | some x => .real x
    | none => .fault
  else .integer (if negative then -(d.significand : Int) else d.significand)

def realDraft (negative : Bool) (d : Digits) : Draft :=
  match d.real? negative with
  | some x => .real x
  | none => .fault

def spanDigits (cs : List Char) : List Char × List Char := cs.span Char.isDigit

/-- The exponent mark with its digits: none if the mark has no digits, zero without a mark. -/
def exponent? (cs : List Char) : Option (Option Int × List Char) :=
  match cs with
  | [] => some (none, [])
  | c :: rest =>
    if c = 'e' ∨ c = 'E' then
      let (negative, rest) :=
        match rest with
        | '+' :: r => (false, r)
        | '-' :: r => (true, r)
        | r => (false, r)
      match spanDigits rest with
      | ([], _) => none
      | (ds, r) =>
        let n : Int := ds.foldl (fun n c => n * 10 + digitValue c) 0
        some (some (if negative then -n else n), r)
    else some (none, cs)

/-- A fraction with its point: none if the point has no digits after it. -/
def fraction? (cs : List Char) : Option (Option (List Char) × List Char) :=
  match cs with
  | '.' :: rest =>
    match spanDigits rest with
    | ([], _) => none
    | (ds, r) => some (some ds, r)
  | _ => some (none, cs)

/-- A literal after its sign. Only a lone zero may start with a zero. -/
def unsignedNumber (negative : Bool) (cs : List Char) : Option (Draft × List Char) :=
  match spanDigits cs with
  | ([], _) => none
  | ('0' :: _ :: _, _) => none
  | (ds, rest) => do
    let whole := integerDigits ⟨0, 0⟩ ds
    let (frac, rest) ← fraction? rest
    let (exp, rest) ← exponent? rest
    match frac, exp with
    | none, none => return (integerDraft negative whole, rest)
    | _, _ =>
      let d := fractionDigits whole (frac.getD [])
      return (realDraft negative ⟨d.significand, d.exponent + exp.getD 0⟩, rest)

def number (cs : List Char) : Option (Draft × List Char) :=
  match cs with
  | '-' :: rest => unsignedNumber true rest
  | _ => unsignedNumber false cs

end BrokerPolicy.Json
