import BrokerPolicy.Document
import BrokerPolicy.Numeral.Layout
import BrokerPolicy.Text.Quoted

set_option autoImplicit false

/-!
JSON texts of a document, on one line and indented. JSON has no text for NaN and the infinities:
they are written as null.
-/

namespace BrokerPolicy.Json

def numberText (x : Binary64) : String :=
  if x.isFinite then Binary64.json.write x else "null"

def memberText (name value : String) : String := Text.jsonQuoted name ++ ":" ++ value

mutual

def compact : Document → String
  | .null => "null"
  | .boolean b => toString b
  | .integer i => toString i
  | .real x => numberText x
  | .text s => Text.jsonQuoted s
  | .array items => "[" ++ ",".intercalate (compactItems items) ++ "]"
  | .table entries => "\x7b" ++ ",".intercalate (compactEntries entries) ++ "\x7d"

def compactItems : List Document → List String
  | [] => []
  | d :: rest => compact d :: compactItems rest

def compactEntries : List (String × Document) → List String
  | [] => []
  | (name, d) :: rest => memberText name (compact d) :: compactEntries rest

end

def lineBreak (level : Nat) : String := "\n".pushn ' ' (2 * level)

def enclose (opening closing : String) (level : Nat) (parts : List String) : String :=
  if parts.isEmpty then opening ++ closing
  else
    opening ++ lineBreak (level + 1) ++ ("," ++ lineBreak (level + 1)).intercalate parts ++
      lineBreak level ++ closing

mutual

def prettyAt (level : Nat) : Document → String
  | .null => "null"
  | .boolean b => toString b
  | .integer i => toString i
  | .real x => numberText x
  | .text s => Text.jsonQuoted s
  | .array items => enclose "[" "]" level (prettyItems (level + 1) items)
  | .table entries => enclose "\x7b" "\x7d" level (prettyEntries (level + 1) entries)

def prettyItems (level : Nat) : List Document → List String
  | [] => []
  | d :: rest => prettyAt level d :: prettyItems level rest

def prettyEntries (level : Nat) : List (String × Document) → List String
  | [] => []
  | (name, d) :: rest =>
    (Text.jsonQuoted name ++ ": " ++ prettyAt level d) :: prettyEntries level rest

end

def pretty (d : Document) : String := prettyAt 0 d

end BrokerPolicy.Json
