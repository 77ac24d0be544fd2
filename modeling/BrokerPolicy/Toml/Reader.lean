import BrokerPolicy.Toml.Assembly
import BrokerPolicy.Toml.DateTime
import BrokerPolicy.Toml.Number

set_option autoImplicit false

/-!
Reading TOML 1.0 text into a document. The text is read as a whole: a fault anywhere leaves no
document. Arrays and inline tables nest at most 79 deep.
-/

namespace BrokerPolicy.Toml

/-- The name under which a date-time stands in a document, with its canonical text. -/
def dateTimeName : String := "$__toml_private_datetime"

def dateTimeDocument (d : DateTime) : Document := .table [(dateTimeName, .text d.text)]

def numeric? (cs : List Char) : Option (Document × List Char) :=
  if startsDate cs then (dated? cs).map fun (d, rest) => (dateTimeDocument d, rest)
  else if startsTime cs then (timeOfDay? cs).map fun (d, rest) => (dateTimeDocument d, rest)
  else number? cs

/-- The values of an array with the closing bracket; a comma may stand after the last one. -/
def elements? (value : List Char → Option (Document × List Char)) :
    Nat → List Char → Option (List Document × List Char)
  | 0, _ => none
  | n + 1, cs => do
    let cs ← skipSpace? cs
    match cs with
    | ']' :: rest => return ([], rest)
    | _ => do
      let (d, rest) ← value cs
      match ← skipSpace? rest with
      | ',' :: rest => do
        let (ds, rest) ← elements? value n rest
        return (d :: ds, rest)
      | ']' :: rest => return ([d], rest)
      | _ => none

def pairs? (value : List Char → Option (Document × List Char)) :
    Nat → Entries → List Char → Option (Entries × List Char)
  | 0, _, _ => none
  | n + 1, es, cs => do
    let (key, rest) ← key? cs
    let rest ← mark? '=' rest
    let (d, rest) ← value (skipBlanks rest)
    let es ← addEntry key (.value d) .declared es
    match skipBlanks rest with
    | ',' :: rest => pairs? value n es rest
    | '\x7d' :: rest => return (es, rest)
    | _ => none

def inlineTable? (value : List Char → Option (Document × List Char)) (cs : List Char) :
    Option (Document × List Char) :=
  match skipBlanks cs with
  | '\x7d' :: rest => some (.table [], rest)
  | _ => do
    let (es, rest) ← pairs? value cs.length [] cs
    return (.table (documentEntries es), rest)

/-- A value within which arrays and inline tables nest at most `depth` deep. -/
def value? : Nat → List Char → Option (Document × List Char)
  | depth, cs =>
    match cs with
    | 't' :: 'r' :: 'u' :: 'e' :: rest => some (.boolean true, rest)
    | 'f' :: 'a' :: 'l' :: 's' :: 'e' :: rest => some (.boolean false, rest)
    | '[' :: rest =>
      match depth with
      | 0 => none
      | d + 1 => (elements? (value? d) rest.length rest).map fun (ds, r) => (.array ds, r)
    | '\x7b' :: rest =>
      match depth with
      | 0 => none
      | d + 1 => inlineTable? (value? d) rest
    | '"' :: _ => (string? cs).map fun (s, r) => (.text s, r)
    | '\'' :: _ => (string? cs).map fun (s, r) => (.text s, r)
    | _ => numeric? cs

def maxDepth : Nat := 79

structure Progress where
  root : Entries
  header : List String

def header? (p : Progress) (cs : List Char) : Option (Progress × List Char) :=
  match cs with
  | '[' :: '[' :: rest => do
    let (key, rest) ← key? rest
    match rest with
    | ']' :: ']' :: rest => do
      let rest ← lineEnd? rest
      return (⟨← openElement key p.root, key.parents ++ [key.last]⟩, rest)
    | _ => none
  | '[' :: rest => do
    let (key, rest) ← key? rest
    let rest ← mark? ']' rest
    let rest ← lineEnd? rest
    return (⟨← openTable key p.root, key.parents ++ [key.last]⟩, rest)
  | _ => none

def entry? (p : Progress) (cs : List Char) : Option (Progress × List Char) := do
  let (key, rest) ← key? cs
  let rest ← mark? '=' rest
  let (d, rest) ← value? maxDepth (skipBlanks rest)
  let rest ← lineEnd? rest
  return (⟨← addBelow p.header key (.value d) p.root, p.header⟩, rest)

/-- The lines of a document; the first argument bounds their number. -/
def lines : Nat → Progress → List Char → Option Entries
  | 0, p, cs => if (skipBlanks cs).isEmpty then some p.root else none
  | n + 1, p, cs =>
    match skipBlanks cs with
    | [] => some p.root
    | c :: rest => do
      let (p, rest) ←
        if c = '[' then header? p (c :: rest)
        else if c = '#' ∨ c = '\n' ∨ c = '\r' then (lineEnd? (c :: rest)).map fun r => (p, r)
        else entry? p (c :: rest)
      lines n p rest

/-- The entries of the document of a text, after a byte order mark if there is one. -/
def entries? (text : String) : Option (List (String × Document)) :=
  let cs :=
    match text.toList with
    | '\ufeff' :: rest => rest
    | cs => cs
  (lines cs.length ⟨[], []⟩ cs).map documentEntries

end BrokerPolicy.Toml
