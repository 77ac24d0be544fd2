import BrokerPolicy.Text.Characters
import BrokerPolicy.Text.Printable

set_option autoImplicit false

/-!
Text in quotes, and structural text around it. Structural text names the common controls and writes
every other character that is not printable by its number; JSON text escapes only what its grammar
forbids.
-/

namespace BrokerPolicy.Text

def structuralChar (c : Char) : List Char :=
  match c with
  | '\x00' => ['\\', '0']
  | '\t' => ['\\', 't']
  | '\r' => ['\\', 'r']
  | '\n' => ['\\', 'n']
  | '"' => ['\\', '"']
  | '\\' => ['\\', '\\']
  | _ =>
    if isPrintable c then [c]
    else ['\\', 'u', '\x7b'] ++ hexDigits c.toNat ++ ['\x7d']

def structuralQuoted (s : String) : String :=
  String.ofList ('"' :: s.toList.flatMap structuralChar ++ ['"'])

def jsonChar (c : Char) : List Char :=
  match c with
  | '"' => ['\\', '"']
  | '\\' => ['\\', '\\']
  | '\x08' => ['\\', 'b']
  | '\x0c' => ['\\', 'f']
  | '\n' => ['\\', 'n']
  | '\r' => ['\\', 'r']
  | '\t' => ['\\', 't']
  | _ =>
    if c.toNat < 0x20 then ['\\', 'u'] ++ padZeros 4 (hexDigits c.toNat) else [c]

def jsonQuoted (s : String) : String :=
  String.ofList ('"' :: s.toList.flatMap jsonChar ++ ['"'])

def bracketed (parts : List String) : String := "[" ++ ", ".intercalate parts ++ "]"

def braced (parts : List String) : String := "\x7b" ++ ", ".intercalate parts ++ "\x7d"

def tagged (kind content : String) : String := kind ++ "(" ++ content ++ ")"

def recordText (name : String) (fields : List (String × String)) : String :=
  name ++ " \x7b " ++ ", ".intercalate (fields.map fun f => f.1 ++ ": " ++ f.2) ++ " \x7d"

def optionText (content : Option String) : String :=
  match content with
  | none => "None"
  | some s => tagged "Some" s

end BrokerPolicy.Text
