import BrokerPolicy.Json.Reader

set_option autoImplicit false

/-!
The words of a TOML text: blanks, line ends, comments, strings and keys. Readers fail by `none`,
and otherwise return the rest of the text.
-/

namespace BrokerPolicy.Toml

def isBlank (c : Char) : Bool := c = ' ' || c = '\t'

def skipBlanks (cs : List Char) : List Char := cs.dropWhile isBlank

def isPlain (c : Char) : Bool := c = '\t' || (0x20 ≤ c.toNat && c.toNat ≠ 0x7f)

def newline? : List Char → Option (List Char)
  | '\n' :: rest => some rest
  | '\r' :: '\n' :: rest => some rest
  | _ => none

def skipComment : List Char → List Char
  | '#' :: rest => rest.dropWhile isPlain
  | cs => cs

/-- The rest of a line after its content: blanks, a comment, and the end of the line or text. -/
def lineEnd? (cs : List Char) : Option (List Char) :=
  match skipComment (skipBlanks cs) with
  | [] => some []
  | rest => newline? rest

def skipLines : Nat → List Char → Option (List Char)
  | 0, cs => some cs
  | n + 1, cs =>
    match skipBlanks cs with
    | '#' :: rest =>
      match newline? (rest.dropWhile isPlain) with
      | some rest => skipLines n rest
      | none => none
    | '\n' :: rest => skipLines n rest
    | '\r' :: rest =>
      match rest with
      | '\n' :: rest => skipLines n rest
      | _ => none
    | rest => some rest

def skipSpace? (cs : List Char) : Option (List Char) := skipLines cs.length cs

def hexNumber? : Nat → Nat → List Char → Option (Nat × List Char)
  | 0, n, cs => some (n, cs)
  | count + 1, n, c :: rest => do
    let v ← Text.hexValue? c
    hexNumber? count (n * 16 + v) rest
  | _ + 1, _, [] => none

/-- A character by its number; surrogates and what is past the last one are none. -/
def scalar? (n : Nat) : Option Char :=
  if n.isValidChar then some (Char.ofNat n) else none

def escape? : List Char → Option (Char × List Char)
  | 'b' :: rest => some ('\x08', rest)
  | 't' :: rest => some ('\t', rest)
  | 'n' :: rest => some ('\n', rest)
  | 'f' :: rest => some ('\x0c', rest)
  | 'r' :: rest => some ('\r', rest)
  | '"' :: rest => some ('"', rest)
  | '\\' :: rest => some ('\\', rest)
  | 'u' :: rest => do
    let (n, rest) ← hexNumber? 4 0 rest
    return (← scalar? n, rest)
  | 'U' :: rest => do
    let (n, rest) ← hexNumber? 8 0 rest
    return (← scalar? n, rest)
  | _ => none

def basicBody : Nat → List Char → Option (List Char × List Char)
  | 0, _ => none
  | _ + 1, [] => none
  | n + 1, c :: rest =>
    if c = '"' then some ([], rest)
    else if c = '\\' then do
      let (x, rest) ← escape? rest
      let (xs, rest) ← basicBody n rest
      return (x :: xs, rest)
    else if isPlain c then do
      let (xs, rest) ← basicBody n rest
      return (c :: xs, rest)
    else none

def literalBody : List Char → Option (List Char × List Char)
  | [] => none
  | c :: rest =>
    if c = '\'' then some ([], rest)
    else if isPlain c then do
      let (xs, rest) ← literalBody rest
      return (c :: xs, rest)
    else none

def skipBlankLines : List Char → List Char
  | [] => []
  | c :: rest =>
    if c = '\r' then
      match rest with
      | '\n' :: _ => skipBlankLines rest
      | _ => c :: rest
    else if isBlank c || c = '\n' then skipBlankLines rest
    else c :: rest

/-- After a backslash: if nothing but blanks stands before the end of the line, everything up to
the next character that is neither blank nor line end is skipped. -/
def continuation? (cs : List Char) : Option (List Char) :=
  (newline? (skipBlanks cs)).map skipBlankLines

def countQuotes (quote : Char) (cs : List Char) : Nat := (cs.takeWhile (· = quote)).length

/-- What a run of quotes means in a string over lines. One or two belong to the text. Three close
it, and one or two more before them belong to the text. -/
def quoteRun (count : Nat) : Option (Nat × Bool) :=
  if count < 3 then some (count, false)
  else if count ≤ 5 then some (count - 3, true)
  else none

/-- The characters of a string over lines up to the closing quotes. Every line end is read as a
line feed. -/
def linesBody (quote : Char) (escapes : Bool) : Nat → List Char → Option (List Char × List Char)
  | 0, _ => none
  | _ + 1, [] => none
  | n + 1, c :: rest =>
    if c = quote then
      let count := countQuotes quote (c :: rest)
      match quoteRun count with
      | none => none
      | some (own, true) => some (List.replicate own quote, rest.drop (count - 1))
      | some (own, false) => do
        let (xs, rest) ← linesBody quote escapes n (rest.drop (count - 1))
        return (List.replicate own quote ++ xs, rest)
    else if escapes ∧ c = '\\' then
      match continuation? rest with
      | some rest => linesBody quote escapes n rest
      | none => do
        let (x, rest) ← escape? rest
        let (xs, rest) ← linesBody quote escapes n rest
        return (x :: xs, rest)
    else
      match newline? (c :: rest) with
      | some rest => do
        let (xs, rest) ← linesBody quote escapes n rest
        return ('\n' :: xs, rest)
      | none =>
        if isPlain c then do
          let (xs, rest) ← linesBody quote escapes n rest
          return (c :: xs, rest)
        else none

/-- A string over lines after its opening quotes; a line end right after them is dropped. -/
def lines? (quote : Char) (escapes : Bool) (cs : List Char) : Option (List Char × List Char) :=
  let cs := (newline? cs).getD cs
  linesBody quote escapes cs.length cs

def string? (cs : List Char) : Option (String × List Char) :=
  let body :=
    match cs with
    | '"' :: '"' :: '"' :: rest => lines? '"' true rest
    | '"' :: rest => basicBody rest.length rest
    | '\'' :: '\'' :: '\'' :: rest => lines? '\'' false rest
    | '\'' :: rest => literalBody rest
    | _ => none
  body.map fun (xs, rest) => (String.ofList xs, rest)

def isBareKey (c : Char) : Bool := c.isAlphanum || c = '_' || c = '-'

def keyPart? (cs : List Char) : Option (String × List Char) :=
  match cs with
  | '"' :: rest => (basicBody rest.length rest).map fun (xs, rest) => (String.ofList xs, rest)
  | '\'' :: rest => (literalBody rest).map fun (xs, rest) => (String.ofList xs, rest)
  | _ =>
    match cs.span isBareKey with
    | ([], _) => none
    | (xs, rest) => some (String.ofList xs, rest)

structure Key where
  parents : List String
  last : String

/-- A key with the blanks around its parts; the first argument bounds their number. -/
def keyParts : Nat → List Char → Option (Key × List Char)
  | 0, _ => none
  | n + 1, cs => do
    let (part, rest) ← keyPart? (skipBlanks cs)
    match skipBlanks rest with
    | '.' :: rest => do
      let (k, rest) ← keyParts n rest
      return (⟨part :: k.parents, k.last⟩, rest)
    | rest => return (⟨[], part⟩, rest)

def maxKeyParts : Nat := 79

def key? (cs : List Char) : Option (Key × List Char) := keyParts maxKeyParts cs

end BrokerPolicy.Toml
