import BrokerPolicy.Log
import BrokerPolicy.Log.Pattern
import BrokerPolicy.Text.Characters

set_option autoImplicit false

/-!
Log directives: how much is shown of what. A directive is a level, a target, or a target with a
level after an equals sign. In brackets it may ask for a span by name and, in braces, for a field
by name and value.
-/

namespace BrokerPolicy.Log

abbrev Threshold := Option Level

namespace Threshold

def verbosity : Threshold → Nat
  | none => 0
  | some level => level.verbosity

def shows (t : Threshold) (level : Level) : Bool := level.verbosity ≤ t.verbosity

def louder (s t : Threshold) : Threshold := if s.verbosity < t.verbosity then t else s

def name : Threshold → String
  | none => "off"
  | some .error => "error"
  | some .warn => "warn"
  | some .info => "info"
  | some .debug => "debug"
  | some .trace => "trace"

/-- From the least talkative to the most; the place of each is its number. -/
def all : List Threshold :=
  [none, some .error, some .warn, some .info, some .debug, some .trace]

def number? (s : String) : Option Nat :=
  let digits :=
    match s.toList with
    | '+' :: rest => rest
    | cs => cs
  if digits ≠ [] ∧ digits.all Char.isDigit then
    some (digits.foldl (fun n c => 10 * n + (c.toNat - '0'.toNat)) 0)
  else none

/-- A number from 0 to 5 or a name in letters of any case. -/
def ofText? (s : String) : Option Threshold :=
  match number? s with
  | some n => all[n]?
  | none => all.find? (·.name = Text.lowerAscii s)

end Threshold

structure FieldQuery where
  name : String
  asksValue : Bool
deriving DecidableEq

structure Directive where
  /-- What a target has to begin with; any target without it. -/
  target : Option String
  span : Option String
  field : Option FieldQuery
  threshold : Threshold
deriving DecidableEq

inductive DirectiveFault where
  | form
  | level
  | field (fault : PatternFault)
deriving DecidableEq

def DirectiveFault.message : DirectiveFault → String
  | .form => "invalid filter directive"
  | .level =>
    "error parsing level filter: expected one of \"off\", \"error\", \"warn\", " ++
      "\"info\", \"debug\", \"trace\", or a number 0-5"
  | .field fault => "invalid field filter: " ++ fault.message

/-- What follows the name up to a second equals sign is a pattern for the value. -/
def FieldQuery.read (s : String) : Except DirectiveFault FieldQuery :=
  if s = "" then .error .form
  else
    match s.splitOn "=" with
    | name :: value :: _ =>
      match Pattern.fault? value with
      | none => .ok ⟨name, true⟩
      | some fault => .error (.field fault)
    | _ => .ok ⟨s, false⟩

namespace Directive

def byteCount (cs : List Char) : Nat := cs.foldl (fun n c => n + c.utf8Size) 0

def dropBytes : Nat → List Char → List Char
  | _, [] => []
  | 0, cs => cs
  | n + 1, c :: rest => dropBytes (n + 1 - c.utf8Size) rest

def takeBytes : Nat → List Char → List Char
  | _, [] => []
  | 0, _ => []
  | n + 1, c :: rest => c :: takeBytes (n + 1 - c.utf8Size) rest

/-- A text while a directive is read off it. Its form is that of the text without blanks at the
ends. The parts are cut out of the whole text, at the places where they stand in the trimmed one:
blanks in front therefore move every part, and blanks at the end belong to the last one. -/
structure Cursor where
  whole : List Char
  place : Nat
  rest : List Char

namespace Cursor

def upTo (stop : Char → Bool) (k : Cursor) : String × Cursor :=
  let part := k.rest.takeWhile fun c => !stop c
  let n := byteCount part
  (String.ofList (takeBytes n (dropBytes k.place k.whole)),
    { k with place := k.place + n, rest := k.rest.dropWhile fun c => !stop c })

def next (k : Cursor) : Cursor :=
  match k.rest with
  | [] => k
  | c :: rest => { k with place := k.place + c.utf8Size, rest := rest }

def remainder (k : Cursor) : String := String.ofList (dropBytes k.place k.whole)

end Cursor

structure Scope where
  target : Option String
  span : Option String
  field : Option FieldQuery

def Scope.at (s : Scope) (t : Threshold) : Directive := ⟨s.target, s.span, s.field, t⟩

/-- The level after an equals sign. Without a text everything is shown. -/
def readLevel (s : Scope) (k : Cursor) : Except DirectiveFault Directive :=
  if k.remainder = "" then .ok (s.at (some .trace))
  else
    match Threshold.ofText? k.remainder with
    | some t => .ok (s.at t)
    | none => .error .level

def readEnd (s : Scope) (k : Cursor) : Except DirectiveFault Directive :=
  match k.rest with
  | [] => .ok (s.at (some .trace))
  | c :: _ => if c = '=' then readLevel s k.next else .error .form

def readField (target span : Option String) (k : Cursor) : Except DirectiveFault Directive := do
  let (text, k) := k.upTo (· = '\x7d')
  if k.rest = [] then throw .form
  let field ← FieldQuery.read text
  let k := k.next
  match k.rest with
  | ']' :: _ => readEnd ⟨target, span, some field⟩ k.next
  | _ => throw .form

/-- The name of a span, perhaps with a field, after the opening bracket. A name that is left out
asks for a span without a name, unless a field is asked for. -/
def readSpan (target : Option String) (k : Cursor) : Except DirectiveFault Directive :=
  let (name, k) := k.upTo fun c => c = ']' || c = '\x7b'
  match k.rest with
  | [] => .error .form
  | c :: _ =>
    if c = ']' then readEnd ⟨target, some name, none⟩ k.next
    else readField target (if name = "" then none else some name) k.next

/-- Targets begin with a letter, a digit, or one of three signs. -/
def opens (c : Char) : Bool := Text.isAlphanumeric c || c == '-' || c == ':' || c == '_'

def read (s : String) : Except DirectiveFault Directive :=
  let k : Cursor := ⟨s.toList, 0, Text.trimBlanks s.toList⟩
  match k.rest with
  | [] => .error .form
  | c :: _ =>
    if c = '[' then readSpan none k.next
    else if !opens c then .error .form
    else
      let (target, k) := k.upTo fun c => c = '=' || c = '['
      match k.rest with
      | [] =>
        match Threshold.ofText? s with
        | some t => .ok ⟨none, none, none, t⟩
        | none => .ok ⟨some s, none, none, some .trace⟩
      | c :: _ =>
        if c = '[' then readSpan (some target) k.next
        else readLevel ⟨some target, none, none⟩ k.next

end Directive

end BrokerPolicy.Log
