import BrokerPolicy.Log.Pattern.Basic
import BrokerPolicy.Text.Characters

set_option autoImplicit false

/-!
Reading a regular expression. The texts in question hold no closing brace, so nothing in braces is
ever complete. Open groups and open brackets are kept on a list, innermost first.
-/

namespace BrokerPolicy.Log.Pattern

/-- Drops blanks and comments; the first argument tells whether a comment has begun. -/
def dropBlanks : Bool → List Char → List Char
  | _, [] => []
  | true, c :: rest => dropBlanks (c ≠ '\n') rest
  | false, c :: rest =>
    if Text.isBlank c then dropBlanks false rest
    else if c = '#' then dropBlanks true rest
    else c :: rest

def Mode.skip (m : Mode) (cs : List Char) : List Char :=
  if m.verbose then dropBlanks false cs else cs

def hexNumber? (m : Mode) : Nat → Nat → List Char → Option (Nat × List Char)
  | 0, n, cs => some (n, cs)
  | k + 1, n, cs =>
    match m.skip cs with
    | [] => none
    | c :: rest => do hexNumber? m k (16 * n + (← Text.hexValue? c)) rest

def numbered? (m : Mode) (count : Nat) (cs : List Char) : Option (Char × List Char) := do
  let (n, rest) ← hexNumber? m count 0 cs
  if n.isValidChar then return (Char.ofNat n, rest) else none

/-- Reads an escape after its backslash. Properties of characters are not known. -/
def escape? (m : Mode) : List Char → Option (Atom × List Char)
  | [] => none
  | c :: rest =>
    match c with
    | 'x' => (numbered? m 2 rest).map fun (c, rest) => (.byte c, rest)
    | 'u' => (numbered? m 4 rest).map fun (c, rest) => (.literal c, rest)
    | 'U' => (numbered? m 8 rest).map fun (c, rest) => (.literal c, rest)
    | 'a' => some (.literal '\x07', rest)
    | 'f' => some (.literal '\x0c', rest)
    | 't' => some (.literal '\t', rest)
    | 'n' => some (.literal '\n', rest)
    | 'r' => some (.literal '\r', rest)
    | 'v' => some (.literal '\x0b', rest)
    | 'A' | 'z' => some (.textBoundary, rest)
    | 'b' | 'B' | '<' | '>' => some (.wordBoundary, rest)
    | 'd' | 's' | 'w' => some (.shorthand false, rest)
    | 'D' | 'S' | 'W' => some (.shorthand true, rest)
    | _ => if c.isAlphanum || !isAscii c then none else some (.literal c, rest)

def classNames : List String :=
  ["alnum", "alpha", "ascii", "blank", "cntrl", "digit", "graph", "lower", "print", "punct",
   "space", "upper", "word", "xdigit"]

def namedClass? : List Char → Option (ClassSet × List Char)
  | ':' :: rest =>
    let (negated, rest) :=
      match rest with
      | '^' :: rest => (true, rest)
      | rest => (false, rest)
    let name := rest.takeWhile (· ≠ ':')
    match rest.dropWhile (· ≠ ':') with
    | ':' :: ']' :: rest =>
      if String.ofList name ∈ classNames then some (.named negated, rest) else none
    | _ => none
  | _ => none

def member? (m : Mode) (c : Char) (rest : List Char) : Option (ClassSet × List Char) :=
  if c = '\\' then
    match escape? m rest with
    | some (.literal c, rest) => some (.literal c, rest)
    | some (.byte c, rest) => some (.literal c, rest)
    | some (.shorthand negated, rest) => some (.shorthand negated, rest)
    | _ => none
  else some (.literal c, rest)

/-- Whether a dash stands for itself because of what comes after it, which may be told apart only
by the first character of a comment. -/
def dashAlone (m : Mode) (rest : List Char) : Bool :=
  let ahead :=
    if m.verbose then
      match rest.dropWhile Text.isBlank with
      | '#' :: rest => rest.dropWhile Text.isBlank
      | rest => rest
    else rest
  ahead.head?.any fun c => c = ']' || c = '-'

def memberOrRange? (m : Mode) (c : Char) (rest : List Char) :
    Option (ClassSet × List Char) := do
  let (first, rest) ← member? m c rest
  match m.skip rest with
  | '-' :: after =>
    if dashAlone m after then return (first, '-' :: after)
    else
      match m.skip after with
      | [] => none
      | d :: rest => do
        let (last, rest) ← member? m d rest
        match first, last with
        | .literal a, .literal b => if a ≤ b then some (.range a b, rest) else none
        | _, _ => none
  | rest => return (first, rest)

/-- The second character of an operation on classes is the first one again. -/
def operator? (c : Char) : List Char → Option (List Char)
  | d :: rest => if d = c ∧ c ∈ ['&', '-', '~'] then some rest else none
  | [] => none

structure Bracket where
  negated : Bool
  /-- Whether nothing but dashes has been read, which stand for themselves there. -/
  fresh : Bool
  left : Option ClassSet
  members : List ClassSet

namespace Bracket

def set (b : Bracket) : ClassSet :=
  let right : ClassSet :=
    match b.members with
    | [s] => s
    | members => .union members.reverse
  match b.left with
  | none => right
  | some left => .operation left right

def add (s : ClassSet) (b : Bracket) : Bracket :=
  { b with fresh := false, members := s :: b.members }

def operate (b : Bracket) : Bracket := ⟨b.negated, false, some b.set, []⟩

def opened (m : Mode) (cs : List Char) : Bracket × List Char :=
  match m.skip cs with
  | '^' :: rest => (⟨true, true, none, []⟩, rest)
  | rest => (⟨false, true, none, []⟩, rest)

end Bracket

/-- Reads on in a bracket that stands in others, to the end of the outermost; the first argument
bounds the length of the text. A closing bracket that nothing stands before is a member. -/
def bracketed? (m : Mode) : Nat → Bracket → List Bracket → List Char → Option (Atom × List Char)
  | 0, _, _, _ => none
  | n + 1, b, outer, cs =>
    match m.skip cs with
    | [] => none
    | c :: rest =>
      if b.fresh ∧ c = '-' then
        bracketed? m n { b with members := .literal '-' :: b.members } outer rest
      else if b.fresh ∧ b.members.isEmpty ∧ c = ']' then
        bracketed? m n (b.add (.literal ']')) outer rest
      else if c = ']' then
        match outer with
        | [] => some (.bracketed b.negated b.set, rest)
        | o :: outer => bracketed? m n (o.add (.bracketed b.negated b.set)) outer rest
      else if c = '[' then
        match namedClass? rest with
        | some (s, rest) => bracketed? m n (b.add s) outer rest
        | none =>
          let (inner, rest) := Bracket.opened m rest
          bracketed? m n inner (b :: outer) rest
      else
        match operator? c rest with
        | some rest => bracketed? m n b.operate outer rest
        | none => do
          let (s, rest) ← memberOrRange? m c rest
          bracketed? m n (b.add s) outer rest

/-- The letters of flags: each once, with one sign of negation that some flag follows. -/
def flagsWellFormed (letters : List Char) : Bool :=
  letters.all (· ∈ ['i', 'm', 's', 'U', 'u', 'R', 'x', '-']) && letters.eraseDups == letters &&
    letters.getLast? != some '-'

/-- A flag is set before the sign of negation and cleared after it. -/
def flagValue (flag : Char) (letters : List Char) (old : Bool) : Bool :=
  if flag ∈ letters.takeWhile (· ≠ '-') then true
  else if flag ∈ letters then false
  else old

def Mode.change (letters : List Char) (m : Mode) : Mode :=
  ⟨flagValue 'i' letters m.ignoresCase, flagValue 'u' letters m.unicode,
    flagValue 'x' letters m.verbose⟩

def nameWellFormed : List Char → Bool
  | [] => false
  | c :: rest =>
    (c = '_' || Text.isAlphabetic c) &&
      rest.all fun c => c ∈ ['_', '.', '[', ']'] || Text.isAlphanumeric c

/-- What has been read of a group, or of the whole expression. -/
structure Level where
  mode : Mode
  branches : List Expression
  items : List Expression

namespace Level

def ofMode (m : Mode) : Level := ⟨m, [], []⟩

def branch (l : Level) : Expression :=
  match l.items with
  | [e] => e
  | items => .sequence items.reverse

def expression (l : Level) : Expression :=
  match l.branches with
  | [] => l.branch
  | branches => .choice (l.branch :: branches).reverse

def add (e : Expression) (l : Level) : Level := { l with items := e :: l.items }

def addAtom (a : Atom) (l : Level) : Level := l.add (.atom l.mode a)

def repeatLast? (l : Level) : Option Level :=
  match l.items with
  | [] => none
  | .setting :: _ => none
  | e :: items => some { l with items := .repetition e :: items }

end Level

structure Progress where
  here : Level
  outer : List Level
  names : List (List Char)

namespace Progress

def initial : Progress := ⟨Level.ofMode Mode.initial, [], []⟩

def openGroup (m : Mode) (p : Progress) : Progress :=
  { p with here := Level.ofMode m, outer := p.here :: p.outer }

def closeGroup? (p : Progress) : Option Progress :=
  match p.outer with
  | [] => none
  | l :: outer => some { p with here := l.add (.group p.here.expression), outer }

def finish? (p : Progress) : Option Expression :=
  match p.outer with
  | [] => some p.here.expression
  | _ => none

def openNamed? (p : Progress) (cs : List Char) : Option (Progress × List Char) :=
  let name := cs.takeWhile (· ≠ '>')
  match cs.dropWhile (· ≠ '>') with
  | [] => none
  | _ :: rest =>
    if nameWellFormed name ∧ name ∉ p.names then
      some ({ p.openGroup p.here.mode with names := name :: p.names }, rest)
    else none

/-- Flags that hold for a group, or from here to the end of the group around them. -/
def flagged? (p : Progress) (cs : List Char) : Option (Progress × List Char) :=
  let letters := cs.takeWhile fun c => c ≠ ':' ∧ c ≠ ')'
  let mode := p.here.mode.change letters
  match cs.dropWhile fun c => c ≠ ':' ∧ c ≠ ')' with
  | [] => none
  | c :: rest =>
    if !flagsWellFormed letters then none
    else if c = ':' then some (p.openGroup mode, rest)
    else if letters = [] then none
    else some ({ p with here := { p.here.add .setting with mode } }, rest)

def parenthesis? (p : Progress) (cs : List Char) : Option (Progress × List Char) :=
  match p.here.mode.skip cs with
  | '?' :: 'P' :: '<' :: rest => p.openNamed? rest
  | '?' :: '<' :: rest => p.openNamed? rest
  | '?' :: rest => p.flagged? rest
  | rest => some (p.openGroup p.here.mode, rest)

def addAtom (a : Atom) (p : Progress) : Progress := { p with here := p.here.addAtom a }

def step? (p : Progress) (c : Char) (rest : List Char) : Option (Progress × List Char) :=
  match c with
  | '(' => p.parenthesis? rest
  | ')' => p.closeGroup?.map fun p => (p, rest)
  | '|' =>
    let l := p.here
    some ({ p with here := ⟨l.mode, l.branch :: l.branches, []⟩ }, rest)
  | '[' => do
    let (b, rest) := Bracket.opened p.here.mode rest
    let (a, rest) ← bracketed? p.here.mode rest.length b [] rest
    return (p.addAtom a, rest)
  | '?' | '*' | '+' => do
    let here ← p.here.repeatLast?
    match rest with
    | '?' :: rest => return ({ p with here }, rest)
    | rest => return ({ p with here }, rest)
  | '\x7b' => none
  | '\\' => (escape? p.here.mode rest).map fun (a, rest) => (p.addAtom a, rest)
  | '.' => some (p.addAtom .any, rest)
  | '^' | '$' => some (p.addAtom .textBoundary, rest)
  | _ => some (p.addAtom (.literal c), rest)

/-- Reads on to the end; the first argument bounds the length of the text. -/
def run : Nat → Progress → List Char → Option Expression
  | n, p, cs =>
    match n, p.here.mode.skip cs with
    | _, [] => p.finish?
    | 0, _ => none
    | n + 1, c :: rest => do
      let (p, rest) ← p.step? c rest
      run n p rest

end Progress

namespace Expression

def read? (cs : List Char) : Option Expression := Progress.initial.run cs.length cs

end Expression

end BrokerPolicy.Log.Pattern
