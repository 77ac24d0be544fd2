import BrokerPolicy.Numeral.Layout
import BrokerPolicy.Text.Quoted
import BrokerPolicy.Document

set_option autoImplicit false

/-!
Reading typed content off a draft. Problems are found in the order of the text, and the first one
is reported: a part that does not fit, or the fault at which the text stops.
-/

namespace BrokerPolicy.Schema

inductive Found where
  | null
  | boolean (b : Bool)
  | integer (i : Int)
  | real (x : Binary64)
  | text (s : String)
  | array
  | table
deriving DecidableEq

inductive Wanted where
  | seconds
  | boolean
  | array
  | text
  | table
  | observability
  | file
deriving DecidableEq

inductive Problem where
  | unknownField (name : String) (known : List String)
  | duplicateField (name : String)
  | invalidType (found : Found) (wanted : Wanted)
  | negative (i : Int)
  | noFieldValue
deriving DecidableEq

inductive ReadError where
  | syntaxFault
  | schema (p : Problem)
deriving DecidableEq

structure Format where
  /-- How a float is shown in a problem. -/
  floats : Binary64.Layout
  /-- Whether items past the last field of a positional reading are left alone. -/
  ignoresSurplus : Bool

def jsonFormat : Format := ⟨Binary64.json, false⟩

def tomlFormat : Format := ⟨Binary64.pointed, true⟩

def Found.describe (format : Format) : Found → String
  | .null => "null"
  | .boolean b => "boolean `" ++ toString b ++ "`"
  | .integer i => "integer `" ++ toString i ++ "`"
  | .real x => "floating point `" ++ format.floats.write x ++ "`"
  | .text s => "string " ++ Text.structuralQuoted s
  | .array => "sequence"
  | .table => "map"

def Wanted.name : Wanted → String
  | .seconds => "u64"
  | .boolean => "a boolean"
  | .array => "a sequence"
  | .text => "a string"
  | .table => "a map"
  | .observability => "struct ObservabilityConfig"
  | .file => "struct PolicyFile"

def knownText (known : List String) : String :=
  match known with
  | [name] => "`" ++ name ++ "`"
  | _ => "one of " ++ ", ".intercalate (known.map fun n => "`" ++ n ++ "`")

def Problem.message (format : Format) : Problem → String
  | .unknownField name known => "unknown field `" ++ name ++ "`, expected " ++ knownText known
  | .duplicateField name => "duplicate field `" ++ name ++ "`"
  | .invalidType found wanted =>
    "invalid type: " ++ found.describe format ++ ", expected " ++ wanted.name
  | .negative i => "invalid value: integer `" ++ toString i ++ "`, expected " ++ Wanted.seconds.name
  | .noFieldValue => "data did not match any variant of untagged enum FieldValue"

/-- The error of a draft that does not fit: its kind is not the wanted one, or it is a fault. -/
def mismatch (wanted : Wanted) : Draft → ReadError
  | .fault => .syntaxFault
  | .null => .schema (.invalidType .null wanted)
  | .boolean b => .schema (.invalidType (.boolean b) wanted)
  | .integer i => .schema (.invalidType (.integer i) wanted)
  | .real x => .schema (.invalidType (.real x) wanted)
  | .text s => .schema (.invalidType (.text s) wanted)
  | .array _ _ => .schema (.invalidType .array wanted)
  | .table _ _ => .schema (.invalidType .table wanted)

def optional {α : Type} (read : Draft → Except ReadError α) : Draft → Except ReadError (Option α)
  | .null => .ok none
  | d => (read d).map some

def seconds : Draft → Except ReadError UInt64
  | .integer i => if i < 0 then .error (.schema (.negative i)) else .ok (UInt64.ofNat i.toNat)
  | d => .error (mismatch .seconds d)

def boolean : Draft → Except ReadError Bool
  | .boolean b => .ok b
  | d => .error (mismatch .boolean d)

def text : Draft → Except ReadError String
  | .text s => .ok s
  | d => .error (mismatch .text d)

def finish {α : Type} (closed : Bool) (a : α) : Except ReadError α :=
  if closed then .ok a else .error .syntaxFault

def texts : Draft → Except ReadError (List String)
  | .array items closed => do
    let names ← items.mapM text
    finish closed names
  | d => .error (mismatch .array d)

/-- Items after those that a positional reading takes. -/
def surplus (format : Format) (items : List Draft) (closed : Bool) : Except ReadError Unit :=
  if items.isEmpty ∨ format.ignoresSurplus then finish closed () else .error .syntaxFault

end BrokerPolicy.Schema
