set_option autoImplicit false

/-!
Regular expressions as the patterns of field values. Every part of an expression stands in a mode,
and not every part means something in every mode: there are no tables about characters past ASCII,
so that cases and kinds of characters are known for bytes only, and bytes must not go past ASCII.
Expressions nest at most 250 deep.
-/

namespace BrokerPolicy.Log.Pattern

structure Mode where
  ignoresCase : Bool
  /-- Whether it is about characters. Otherwise it is about bytes. -/
  unicode : Bool
  verbose : Bool
deriving DecidableEq

def Mode.initial : Mode := ⟨false, true, false⟩

inductive ClassSet where
  | literal (c : Char)
  | range (first last : Char)
  | named (negated : Bool)
  /-- Digits, blanks or word characters by their letter. -/
  | shorthand (negated : Bool)
  | union (members : List ClassSet)
  /-- An intersection or a difference, of either kind. -/
  | operation (left right : ClassSet)
  | bracketed (negated : Bool) (set : ClassSet)

inductive Atom where
  | literal (c : Char)
  | byte (c : Char)
  | any
  | textBoundary
  | wordBoundary
  | shorthand (negated : Bool)
  | bracketed (negated : Bool) (set : ClassSet)

inductive Expression where
  | atom (mode : Mode) (a : Atom)
  | setting
  | repetition (e : Expression)
  | group (e : Expression)
  | sequence (es : List Expression)
  | choice (es : List Expression)

def isAscii (c : Char) : Bool := c.toNat < 128

namespace ClassSet

mutual

def fits (m : Mode) : ClassSet → Bool
  | literal c => if m.unicode then !m.ignoresCase else isAscii c
  | range first last => if m.unicode then !m.ignoresCase else isAscii first && isAscii last
  | named negated => if m.unicode then !m.ignoresCase else !negated
  | shorthand negated => !m.unicode && !negated
  | union members => allFit m members
  | operation left right => fits m left && fits m right
  | bracketed negated set => (m.unicode || !negated) && fits m set

def allFit (m : Mode) : List ClassSet → Bool
  | [] => true
  | s :: rest => fits m s && allFit m rest

end

mutual

def depth : ClassSet → Nat
  | literal _ => 0
  | range _ _ => 0
  | named _ => 0
  | shorthand _ => 0
  | union [] => 0
  | union (s :: rest) => max (depth s) (greatestDepth rest) + 1
  | operation left right => max (depth left) (depth right) + 1
  | bracketed _ set => depth set + 1

def greatestDepth : List ClassSet → Nat
  | [] => 0
  | s :: rest => max (depth s) (greatestDepth rest)

end

end ClassSet

namespace Atom

def fits (m : Mode) : Atom → Bool
  | literal _ => !(m.unicode && m.ignoresCase)
  | byte c => if m.unicode then !m.ignoresCase else isAscii c
  | any => m.unicode
  | textBoundary => true
  | wordBoundary => true
  | shorthand negated => (ClassSet.shorthand negated).fits m
  | bracketed negated set => (ClassSet.bracketed negated set).fits m

def depth : Atom → Nat
  | bracketed negated set => (ClassSet.bracketed negated set).depth
  | _ => 0

end Atom

namespace Expression

mutual

def fits : Expression → Bool
  | atom m a => a.fits m
  | setting => true
  | repetition e => fits e
  | group e => fits e
  | sequence es => allFit es
  | choice es => allFit es

def allFit : List Expression → Bool
  | [] => true
  | e :: rest => fits e && allFit rest

end

mutual

def depth : Expression → Nat
  | atom _ a => a.depth
  | setting => 0
  | repetition e => depth e + 1
  | group e => depth e + 1
  | sequence [] => 0
  | sequence (e :: rest) => max (depth e) (greatestDepth rest) + 1
  | choice es => greatestDepth es + 1

def greatestDepth : List Expression → Nat
  | [] => 0
  | e :: rest => max (depth e) (greatestDepth rest)

end

mutual

def asksWords : Expression → Bool
  | atom m .wordBoundary => m.unicode
  | atom _ _ => false
  | setting => false
  | repetition e => asksWords e
  | group e => asksWords e
  | sequence es => anyAsksWords es
  | choice es => anyAsksWords es

def anyAsksWords : List Expression → Bool
  | [] => false
  | e :: rest => asksWords e || anyAsksWords rest

end

def maxDepth : Nat := 250

end Expression

end BrokerPolicy.Log.Pattern
