import BrokerPolicy.Text.Characters

set_option autoImplicit false

/-!
Dates and times of RFC 3339: a date, a time of day, or both with an optional offset. They are
checked against the calendar and kept as their canonical text.
-/

namespace BrokerPolicy.Toml

structure Date where
  year : Nat
  month : Nat
  day : Nat

structure Time where
  hour : Nat
  minute : Nat
  second : Nat
  nanos : Nat

inductive Offset where
  | utc
  | minutes (m : Int)

structure DateTime where
  date : Option Date
  time : Option Time
  offset : Option Offset

def isLeapYear (year : Nat) : Bool := year % 4 = 0 && (year % 100 ≠ 0 || year % 400 = 0)

def daysInMonth (year month : Nat) : Nat :=
  if month = 2 then (if isLeapYear year then 29 else 28)
  else if month = 4 ∨ month = 6 ∨ month = 9 ∨ month = 11 then 30
  else 31

def decimal (cs : List Char) : Nat := cs.foldl (fun n c => n * 10 + (c.toNat - '0'.toNat)) 0

/-- Exactly `count` digits with a value between two bounds. -/
def digits? (count low high : Nat) (cs : List Char) : Option (Nat × List Char) :=
  let ds := cs.take count
  if ds.length = count ∧ ds.all Char.isDigit ∧ low ≤ decimal ds ∧ decimal ds ≤ high then
    some (decimal ds, cs.drop count)
  else none

def mark? (mark : Char) : List Char → Option (List Char)
  | c :: rest => if c = mark then some rest else none
  | [] => none

def date? (cs : List Char) : Option (Date × List Char) := do
  let (year, rest) ← digits? 4 0 9999 cs
  let rest ← mark? '-' rest
  let (month, rest) ← digits? 2 1 12 rest
  let rest ← mark? '-' rest
  let (day, rest) ← digits? 2 1 31 rest
  if day ≤ daysInMonth year month then return (⟨year, month, day⟩, rest) else none

/-- Digits of a second after its point; those past the ninth are dropped. -/
def nanosOf (ds : List Char) : Nat :=
  let kept := ds.take 9
  decimal kept * Nat.pow 10 (9 - kept.length)

/-- A point without a digit after it does not belong to the time. -/
def secondFraction (cs : List Char) : Nat × List Char :=
  match cs with
  | '.' :: rest =>
    match rest.span Char.isDigit with
    | ([], _) => (0, cs)
    | (ds, rest) => (nanosOf ds, rest)
  | _ => (0, cs)

/-- A minute may have a leap second. -/
def time? (cs : List Char) : Option (Time × List Char) := do
  let (hour, rest) ← digits? 2 0 23 cs
  let rest ← mark? ':' rest
  let (minute, rest) ← digits? 2 0 59 rest
  let rest ← mark? ':' rest
  let (second, rest) ← digits? 2 0 60 rest
  let (nanos, rest) := secondFraction rest
  return (⟨hour, minute, second, nanos⟩, rest)

def offset? (cs : List Char) : Option (Option Offset × List Char) :=
  let numeric (sign : Int) (rest : List Char) : Option (Option Offset × List Char) := do
    let (hour, rest) ← digits? 2 0 23 rest
    let rest ← mark? ':' rest
    let (minute, rest) ← digits? 2 0 59 rest
    return (some (.minutes (sign * (hour * 60 + minute : Nat))), rest)
  match cs with
  | 'Z' :: rest => some (some .utc, rest)
  | 'z' :: rest => some (some .utc, rest)
  | '+' :: rest => numeric 1 rest
  | '-' :: rest => numeric (-1) rest
  | _ => some (none, cs)

def startsTime (cs : List Char) : Bool :=
  match digits? 2 0 23 cs with
  | some (_, ':' :: _) => true
  | _ => false

def startsDate (cs : List Char) : Bool :=
  match digits? 4 0 9999 cs with
  | some (_, '-' :: _) => true
  | _ => false

/-- A date, with a time if one follows after a `T` or a blank. -/
def dated? (cs : List Char) : Option (DateTime × List Char) := do
  let (date, rest) ← date? cs
  match rest with
  | c :: after =>
    if (c = 'T' ∨ c = 't' ∨ c = ' ') ∧ startsTime after then do
      let (time, rest) ← time? after
      let (offset, rest) ← offset? rest
      return (⟨some date, some time, offset⟩, rest)
    else return (⟨some date, none, none⟩, rest)
  | [] => return (⟨some date, none, none⟩, [])

def timeOfDay? (cs : List Char) : Option (DateTime × List Char) := do
  let (time, rest) ← time? cs
  return (⟨none, some time, none⟩, rest)

open Text (paddedDecimal fractionText)

def Date.text (d : Date) : String :=
  paddedDecimal 4 d.year ++ "-" ++ paddedDecimal 2 d.month ++ "-" ++ paddedDecimal 2 d.day

def Time.text (t : Time) : String :=
  paddedDecimal 2 t.hour ++ ":" ++ paddedDecimal 2 t.minute ++ ":" ++ paddedDecimal 2 t.second ++
    fractionText t.nanos 9

def Offset.text : Offset → String
  | .utc => "Z"
  | .minutes m =>
    (if m < 0 then "-" else "+") ++ paddedDecimal 2 (m.natAbs / 60) ++ ":" ++
      paddedDecimal 2 (m.natAbs % 60)

def DateTime.text (d : DateTime) : String :=
  let date := (d.date.map Date.text).getD ""
  let time := (d.time.map Time.text).getD ""
  let between := if d.date.isSome && d.time.isSome then "T" else ""
  date ++ between ++ time ++ (d.offset.map Offset.text).getD ""

end BrokerPolicy.Toml
