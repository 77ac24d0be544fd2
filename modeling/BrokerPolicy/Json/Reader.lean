import BrokerPolicy.Json.Number
import BrokerPolicy.Text.Characters

set_option autoImplicit false

/-!
Reading JSON text into a draft. A reader returns what it read together with the rest of the text,
or with nothing if it met a fault; arrays and objects nest at most 127 deep.
-/

namespace BrokerPolicy.Json

def isBlank (c : Char) : Bool := c = ' ' || c = '\n' || c = '\t' || c = '\r'

def skipBlanks (cs : List Char) : List Char := cs.dropWhile isBlank

def codeUnit? : List Char → Option (Nat × List Char)
  | a :: b :: c :: d :: rest => do
    let a ← Text.hexValue? a
    let b ← Text.hexValue? b
    let c ← Text.hexValue? c
    let d ← Text.hexValue? d
    return (((a * 16 + b) * 16 + c) * 16 + d, rest)
  | _ => none

def isLeadingSurrogate (n : Nat) : Bool := 0xd800 ≤ n && n < 0xdc00

def isTrailingSurrogate (n : Nat) : Bool := 0xdc00 ≤ n && n < 0xe000

/-- The character of a numbered escape. A leading surrogate needs a trailing one after it. -/
def numberedEscape? (cs : List Char) : Option (Char × List Char) := do
  let (n, rest) ← codeUnit? cs
  if isTrailingSurrogate n then none
  else if isLeadingSurrogate n then
    match rest with
    | '\\' :: 'u' :: rest =>
      let (m, rest) ← codeUnit? rest
      if isTrailingSurrogate m then
        return (Char.ofNat (0x10000 + (n - 0xd800) * 0x400 + (m - 0xdc00)), rest)
      else none
    | _ => none
  else return (Char.ofNat n, rest)

def escape? : List Char → Option (Char × List Char)
  | '"' :: rest => some ('"', rest)
  | '\\' :: rest => some ('\\', rest)
  | '/' :: rest => some ('/', rest)
  | 'b' :: rest => some ('\x08', rest)
  | 'f' :: rest => some ('\x0c', rest)
  | 'n' :: rest => some ('\n', rest)
  | 'r' :: rest => some ('\r', rest)
  | 't' :: rest => some ('\t', rest)
  | 'u' :: rest => numberedEscape? rest
  | _ => none

/-- The characters up to the closing quote. The first argument bounds their number. -/
def stringBody : Nat → List Char → Option (List Char × List Char)
  | 0, _ => none
  | _ + 1, [] => none
  | n + 1, c :: rest =>
    if c = '"' then some ([], rest)
    else if c = '\\' then do
      let (x, rest) ← escape? rest
      let (xs, rest) ← stringBody n rest
      return (x :: xs, rest)
    else if c.toNat < 0x20 then none
    else do
      let (xs, rest) ← stringBody n rest
      return (c :: xs, rest)

def string? (cs : List Char) : Option (String × List Char) :=
  (stringBody cs.length cs).map fun (xs, rest) => (String.ofList xs, rest)

/-- What a reader made of the front of a text, and the rest unless it met a fault. -/
abbrev Reading (α : Type) := α × Option (List Char)

def items (item : List Char → Reading Draft) : Nat → List Char → Reading (List Draft)
  | 0, _ => ([.fault], none)
  | n + 1, cs =>
    match item cs with
    | (d, none) => ([d], none)
    | (d, some rest) =>
      match skipBlanks rest with
      | ',' :: rest =>
        let (ds, rest) := items item n rest
        (d :: ds, rest)
      | ']' :: rest => ([d], some rest)
      | _ => ([d], none)

def memberName? (cs : List Char) : Option (String × List Char) :=
  match skipBlanks cs with
  | '"' :: rest => string? rest
  | _ => none

def memberValue (item : List Char → Reading Draft) (cs : List Char) : Reading Draft :=
  match skipBlanks cs with
  | ':' :: rest => item rest
  | _ => (.fault, none)

def members (item : List Char → Reading Draft) :
    Nat → List Char → Reading (List (String × Draft))
  | 0, _ => ([], none)
  | n + 1, cs =>
    match memberName? cs with
    | none => ([], none)
    | some (name, rest) =>
      match memberValue item rest with
      | (d, none) => ([(name, d)], none)
      | (d, some rest) =>
        match skipBlanks rest with
        | ',' :: rest =>
          let (ds, rest) := members item n rest
          ((name, d) :: ds, rest)
        | '\x7d' :: rest => ([(name, d)], some rest)
        | _ => ([(name, d)], none)

def array (item : List Char → Reading Draft) (cs : List Char) : Reading Draft :=
  match skipBlanks cs with
  | ']' :: rest => (.array [] true, some rest)
  | _ =>
    let (ds, rest) := items item cs.length cs
    (.array ds rest.isSome, rest)

def object (item : List Char → Reading Draft) (cs : List Char) : Reading Draft :=
  match skipBlanks cs with
  | '\x7d' :: rest => (.table [] true, some rest)
  | _ =>
    let (ds, rest) := members item cs.length cs
    (.table ds rest.isSome, rest)

def faulty : Reading Draft := (.fault, none)

def atom (part : Option (Draft × List Char)) : Reading Draft :=
  match part with
  | some (.fault, _) => faulty
  | some (d, rest) => (d, some rest)
  | none => faulty

/-- A value within which arrays and objects nest at most `depth` deep. -/
def value : Nat → List Char → Reading Draft
  | depth, cs =>
    match skipBlanks cs with
    | 'n' :: 'u' :: 'l' :: 'l' :: rest => (.null, some rest)
    | 't' :: 'r' :: 'u' :: 'e' :: rest => (.boolean true, some rest)
    | 'f' :: 'a' :: 'l' :: 's' :: 'e' :: rest => (.boolean false, some rest)
    | '"' :: rest => atom ((string? rest).map fun (s, r) => (.text s, r))
    | '[' :: rest =>
      match depth with
      | 0 => faulty
      | d + 1 => array (value d) rest
    | '\x7b' :: rest =>
      match depth with
      | 0 => faulty
      | d + 1 => object (value d) rest
    | rest => atom (number rest)

def maxDepth : Nat := 127

structure Source where
  draft : Draft
  complete : Bool

def read (text : String) : Source :=
  match value maxDepth text.toList with
  | (d, some rest) => ⟨d, (skipBlanks rest).isEmpty⟩
  | (d, none) => ⟨d, false⟩

def document? (text : String) : Option Document :=
  let s := read text
  if s.complete then s.draft.document? else none

end BrokerPolicy.Json
