import BrokerPolicy.Json.Number
import Mathlib.Data.List.TakeDrop
import Mathlib.Tactic.SplitIfs

set_option autoImplicit false

/-!
Number literals as data, and what the reader makes of their texts. A literal ends where the text
goes on with a character that no literal can go on with, so the rest of the text is left as it is.
-/

namespace BrokerPolicy.Json

structure Numerals where
  chars : List Char
  ne_nil : chars ≠ []
  isDigit : ∀ c ∈ chars, c.isDigit = true

/-- A literal; its exponent has a sign, negative or not. -/
structure Literal where
  negative : Bool
  whole : Numerals
  fraction : Option Numerals
  exponent : Option (Bool × Numerals)
  lone_zero : whole.chars.head? = some '0' → whole.chars = ['0']

namespace Literal

def signText (l : Literal) : List Char := if l.negative then ['-'] else []

def fractionText : Option Numerals → List Char
  | none => []
  | some ds => '.' :: ds.chars

def exponentText : Option (Bool × Numerals) → List Char
  | none => []
  | some (negative, ds) => 'e' :: (if negative then '-' else '+') :: ds.chars

def body (l : Literal) : List Char :=
  l.whole.chars ++ (fractionText l.fraction ++ exponentText l.exponent)

def text (l : Literal) : List Char := l.signText ++ l.body

def exponentValue : Option (Bool × Numerals) → Int
  | none => 0
  | some (negative, ds) =>
    let n : Int := ds.chars.foldl (fun n c => n * 10 + digitValue c) 0
    if negative then -n else n

def isReal (l : Literal) : Bool := l.fraction.isSome || l.exponent.isSome

def digits (l : Literal) : Digits :=
  let whole := integerDigits ⟨0, 0⟩ l.whole.chars
  let d := fractionDigits whole ((l.fraction.map Numerals.chars).getD [])
  ⟨d.significand, d.exponent + exponentValue l.exponent⟩

def draft (l : Literal) : Draft :=
  if l.isReal then realDraft l.negative l.digits
  else integerDraft l.negative (integerDigits ⟨0, 0⟩ l.whole.chars)

end Literal

theorem realDraft_cases (negative : Bool) (d : Digits) :
    realDraft negative d = .fault ∨ ∃ x, realDraft negative d = .real x := by
  rw [realDraft]
  cases d.real? negative with
  | none => exact .inl rfl
  | some x => exact .inr ⟨x, rfl⟩

theorem Literal.draft_of_isReal {l : Literal} (h : l.isReal = true) :
    l.draft = .fault ∨ ∃ y, l.draft = .real y := by
  rw [draft, if_pos h]
  exact realDraft_cases l.negative l.digits

def Stops (cs : List Char) : Prop :=
  ∀ c ∈ cs.head?, c.isDigit = false ∧ c ≠ '.' ∧ c ≠ 'e' ∧ c ≠ 'E'

theorem stops_nil : Stops [] := by
  intro c hc
  cases hc

theorem stops_cons {c : Char} (cs : List Char)
    (hc : c.isDigit = false ∧ c ≠ '.' ∧ c ≠ 'e' ∧ c ≠ 'E') : Stops (c :: cs) := by
  intro x hx
  cases hx
  exact hc

theorem spanDigits_append {ds rest : List Char} (hds : ∀ c ∈ ds, c.isDigit = true)
    (hrest : ∀ c ∈ rest.head?, c.isDigit = false) : spanDigits (ds ++ rest) = (ds, rest) := by
  have hstop : rest.takeWhile Char.isDigit = [] ∧ rest.dropWhile Char.isDigit = rest := by
    cases rest with
    | nil => exact ⟨rfl, rfl⟩
    | cons c cs =>
      have hc : ¬ c.isDigit = true := by simp [hrest c rfl]
      exact ⟨List.takeWhile_cons_of_neg hc, List.dropWhile_cons_of_neg hc⟩
  rw [spanDigits, List.span_eq_takeWhile_dropWhile, List.takeWhile_append_of_pos hds,
    List.dropWhile_append_of_pos hds, hstop.1, hstop.2, List.append_nil]

theorem fraction?_of_ne {cs : List Char} (h : cs.head? ≠ some '.') :
    fraction? cs = some (none, cs) := by
  unfold fraction?
  split
  · exact absurd rfl h
  · rfl

theorem fraction?_point (ds : Numerals) {rest : List Char}
    (hrest : ∀ c ∈ rest.head?, c.isDigit = false) :
    fraction? ('.' :: (ds.chars ++ rest)) = some (some ds.chars, rest) := by
  have hspan := spanDigits_append ds.isDigit hrest
  obtain ⟨c, cs, hcs⟩ := List.exists_cons_of_ne_nil ds.ne_nil
  rw [hcs] at hspan ⊢
  simp only [fraction?, hspan]

theorem exponent?_of_stops {rest : List Char} (h : Stops rest) :
    exponent? rest = some (none, rest) := by
  cases rest with
  | nil => rfl
  | cons c cs =>
    obtain ⟨-, -, he, hE⟩ := h c rfl
    simp [exponent?, he, hE]

/-- The ways to write an exponent: the mark is a letter of either case, and a plus sign may be left
out. -/
inductive SpellsExponent : Option (Bool × Numerals) → List Char → Prop
  | absent : SpellsExponent none []
  | unsigned {mark : Char} (hmark : mark = 'e' ∨ mark = 'E') (ds : Numerals) :
    SpellsExponent (some (false, ds)) (mark :: ds.chars)
  | plus {mark : Char} (hmark : mark = 'e' ∨ mark = 'E') (ds : Numerals) :
    SpellsExponent (some (false, ds)) (mark :: '+' :: ds.chars)
  | minus {mark : Char} (hmark : mark = 'e' ∨ mark = 'E') (ds : Numerals) :
    SpellsExponent (some (true, ds)) (mark :: '-' :: ds.chars)

theorem spellsExponent_exponentText (e : Option (Bool × Numerals)) :
    SpellsExponent e (Literal.exponentText e) := by
  match e with
  | none => exact .absent
  | some (false, ds) => exact .plus (.inl rfl) ds
  | some (true, ds) => exact .minus (.inl rfl) ds

theorem SpellsExponent.exponent? {e : Option (Bool × Numerals)} {cs : List Char}
    (h : SpellsExponent e cs) {rest : List Char} (hrest : Stops rest) :
    exponent? (cs ++ rest) = some (e.map fun e => Literal.exponentValue (some e), rest) := by
  have hdigit : ∀ c ∈ rest.head?, c.isDigit = false := fun c hc => (hrest c hc).1
  have hspan (ds : Numerals) := spanDigits_append ds.isDigit hdigit
  cases h with
  | absent => exact exponent?_of_stops hrest
  | @unsigned mark hmark ds =>
    have hds := hspan ds
    obtain ⟨c, cs, hcs⟩ := List.exists_cons_of_ne_nil ds.ne_nil
    have hc : c.isDigit = true := ds.isDigit c (hcs ▸ List.mem_cons_self)
    have hplus : c ≠ '+' := by
      rintro rfl
      cases hc
    have hminus : c ≠ '-' := by
      rintro rfl
      cases hc
    rw [Option.map_some, Literal.exponentValue]
    rw [hcs] at hds ⊢
    rw [List.cons_append] at hds
    simp [Json.exponent?, hmark, hplus, hminus, hds]
  | plus hmark ds | minus hmark ds =>
    have hds := hspan ds
    obtain ⟨c, cs, hcs⟩ := List.exists_cons_of_ne_nil ds.ne_nil
    rw [Option.map_some, Literal.exponentValue]
    rw [hcs] at hds ⊢
    rw [List.cons_append] at hds
    simp [Json.exponent?, hmark, hds]

theorem SpellsExponent.head {e : Option (Bool × Numerals)} {cs : List Char}
    (h : SpellsExponent e cs) {rest : List Char} (hrest : Stops rest) :
    ∀ c ∈ (cs ++ rest).head?, c.isDigit = false ∧ c ≠ '.' := by
  cases h with
  | absent => exact fun c hc => ⟨(hrest c hc).1, (hrest c hc).2.1⟩
  | unsigned hmark ds | plus hmark ds | minus hmark ds =>
    rintro c ⟨⟩
    rcases hmark with rfl | rfl <;> decide

theorem unsignedNumber_whole (negative : Bool) {ds : Numerals} {cs : List Char}
    (hzero : ds.chars.head? = some '0' → ds.chars = ['0'])
    (hcs : ∀ c ∈ cs.head?, c.isDigit = false) :
    unsignedNumber negative (ds.chars ++ cs) = (do
      let (frac, rest) ← fraction? cs
      let (exp, rest) ← exponent? rest
      match frac, exp with
      | none, none => return (integerDraft negative (integerDigits ⟨0, 0⟩ ds.chars), rest)
      | _, _ =>
        let d := fractionDigits (integerDigits ⟨0, 0⟩ ds.chars) (frac.getD [])
        return (realDraft negative ⟨d.significand, d.exponent + exp.getD 0⟩, rest)) := by
  have hspan := spanDigits_append ds.isDigit hcs
  rw [unsignedNumber, hspan]
  split
  · next h =>
    have hnil : ds.chars = [] := congrArg Prod.fst h
    exact absurd hnil ds.ne_nil
  · next h =>
    have hlead : ds.chars = '0' :: _ :: _ := congrArg Prod.fst h
    have hlone := hzero (by rw [hlead]; rfl)
    rw [hlead] at hlone
    cases hlone
  · next h =>
    cases h
    rfl

namespace Literal

theorem stops_of_head {mark : Char} {cs : List Char} (h : mark.isDigit = false) :
    ∀ c ∈ (mark :: cs).head?, c.isDigit = false := by
  intro c hc
  cases hc
  exact h

def Spells (l : Literal) (cs : List Char) : Prop :=
  ∃ ex, SpellsExponent l.exponent ex ∧
    cs = l.signText ++ (l.whole.chars ++ (fractionText l.fraction ++ ex))

theorem spells_text (l : Literal) : l.Spells l.text :=
  ⟨exponentText l.exponent, spellsExponent_exponentText l.exponent, rfl⟩

theorem unsignedNumber_spelled (l : Literal) {ex : List Char} (hex : SpellsExponent l.exponent ex)
    {rest : List Char} (hrest : Stops rest) :
    unsignedNumber l.negative
      (l.whole.chars ++ (fractionText l.fraction ++ (ex ++ rest))) = some (l.draft, rest) := by
  have hexp := hex.exponent? hrest
  have hdigit : ∀ c ∈ (ex ++ rest).head?, c.isDigit = false := fun c hc => (hex.head hrest c hc).1
  have hpoint : (ex ++ rest).head? ≠ some '.' := fun h => (hex.head hrest '.' h).2 rfl
  cases hfraction : l.fraction with
  | none =>
    change unsignedNumber l.negative (l.whole.chars ++ (ex ++ rest)) = _
    rw [unsignedNumber_whole _ l.lone_zero hdigit, fraction?_of_ne hpoint]
    cases hexponent : l.exponent <;>
      simp [hexp, draft, isReal, digits, exponentValue, hexponent, hfraction]
  | some ds =>
    change unsignedNumber l.negative (l.whole.chars ++ ('.' :: (ds.chars ++ (ex ++ rest)))) = _
    rw [unsignedNumber_whole _ l.lone_zero (stops_of_head rfl), fraction?_point ds hdigit]
    cases hexponent : l.exponent <;>
      simp [hexp, draft, isReal, digits, exponentValue, hexponent, hfraction]

theorem Spells.number {l : Literal} {cs : List Char} (h : l.Spells cs) {rest : List Char}
    (hrest : Stops rest) : number (cs ++ rest) = some (l.draft, rest) := by
  obtain ⟨ex, hex, rfl⟩ := h
  have hunsigned := l.unsignedNumber_spelled hex hrest
  rw [List.append_assoc, List.append_assoc, List.append_assoc, signText]
  cases hnegative : l.negative with
  | true =>
    rw [hnegative] at hunsigned
    exact hunsigned
  | false =>
    rw [hnegative] at hunsigned
    obtain ⟨c, cs, hcs⟩ := List.exists_cons_of_ne_nil l.whole.ne_nil
    have hdigit : c.isDigit = true := l.whole.isDigit c (by rw [hcs]; exact List.mem_cons_self)
    rw [hcs] at hunsigned ⊢
    unfold Json.number
    split
    · next h =>
      cases h
      cases hdigit
    · exact hunsigned

theorem number_append (l : Literal) {rest : List Char} (hrest : Stops rest) :
    number (l.text ++ rest) = some (l.draft, rest) :=
  l.spells_text.number hrest

end Literal

end BrokerPolicy.Json
