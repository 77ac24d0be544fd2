import BrokerPolicy.Proofs.Json.Literal
import BrokerPolicy.Proofs.Json.Quoted
import Mathlib.Data.List.Forall2

set_option autoImplicit false

/-!
How the readers of arrays and objects follow their texts. A text is read as a draft whatever blanks
stand before it and whatever follows it that a literal cannot go on into; parts with this property,
joined by commas and put in brackets, have it again.
-/

namespace BrokerPolicy.Json

def Blank (cs : List Char) : Prop := ∀ c ∈ cs, isBlank c = true

theorem blank_nil : Blank [] := by
  intro c hc
  cases hc

theorem skipBlanks_append {lead : List Char} (h : Blank lead) (cs : List Char) :
    skipBlanks (lead ++ cs) = skipBlanks cs :=
  List.dropWhile_append_of_pos h

theorem skipBlanks_cons {c : Char} (h : isBlank c = false) (cs : List Char) :
    skipBlanks (c :: cs) = c :: cs :=
  List.dropWhile_cons_of_neg (by simp [h])

theorem skipBlanks_eq {lead : List Char} {c : Char} (hlead : Blank lead) (hc : isBlank c = false)
    (cs : List Char) : skipBlanks (lead ++ c :: cs) = c :: cs := by
  rw [skipBlanks_append hlead, skipBlanks_cons hc]

theorem stops_append {trail cs : List Char} (htrail : Blank trail) (hcs : Stops cs) :
    Stops (trail ++ cs) := by
  cases trail with
  | nil => exact hcs
  | cons c rest =>
    have hblank : isBlank c = true := htrail c List.mem_cons_self
    refine stops_cons _ ?_
    simp only [isBlank, Bool.or_eq_true, decide_eq_true_eq] at hblank
    rcases hblank with ((rfl | rfl) | rfl) | rfl <;> decide

/-- A text is read as a draft wherever it stands. -/
structure Reads (item : List Char → Reading Draft) (cs : List Char) (d : Draft) : Prop where
  starts : ∃ c tail, cs = c :: tail ∧ isBlank c = false ∧ c ≠ ']'
  read : ∀ {lead rest : List Char}, Blank lead → Stops rest →
    item (lead ++ (cs ++ rest)) = (d, some rest)

structure ReadsMember (item : List Char → Reading Draft) (cs : List Char)
    (entry : String × Draft) : Prop where
  starts : ∃ tail, cs = '"' :: tail
  read : ∀ {lead rest : List Char}, Blank lead → Stops rest →
    ∃ after, memberName? (lead ++ (cs ++ rest)) = some (entry.1, after) ∧
      memberValue item after = (entry.2, some rest)

theorem memberName?_spelled {lead : List Char} (hlead : Blank lead) {name : String}
    {cs : List Char} (h : SpellsText name cs) (rest : List Char) :
    memberName? (lead ++ (cs ++ rest)) = some (name, rest) := by
  obtain ⟨tail, rfl, hstring⟩ := h.string?
  rw [List.cons_append, memberName?, skipBlanks_eq hlead rfl]
  exact hstring rest

theorem reads_member {item : List Char → Reading Draft} {cs gap trail nameText : List Char}
    {d : Draft} {name : String} (hname : SpellsText name nameText) (htrail : Blank trail)
    (hgap : Blank gap) (h : Reads item cs d) :
    ReadsMember item (nameText ++ (trail ++ ':' :: (gap ++ cs))) (name, d) := by
  refine ⟨?_, ?_⟩
  · obtain ⟨tail, rfl, -⟩ := hname.string?
    exact ⟨_, rfl⟩
  · intro lead rest hlead hrest
    refine ⟨trail ++ ':' :: (gap ++ (cs ++ rest)), ?_, ?_⟩
    · simp only [List.append_assoc, List.cons_append]
      exact memberName?_spelled hlead hname _
    · rw [memberValue, skipBlanks_eq htrail rfl]
      exact h.read hgap hrest

theorem length_le_intercalate (mark : Char) (gap : List Char) (parts : List (List Char)) :
    parts.length ≤ ((mark :: gap).intercalate parts).length + 1 := by
  induction parts with
  | nil => exact Nat.zero_le _
  | cons part others ih =>
    cases others with
    | nil => exact Nat.succ_le_succ (Nat.zero_le _)
    | cons next rest =>
      rw [List.intercalate_cons_cons]
      simp only [List.length_append, List.length_cons] at ih ⊢
      omega

theorem length_le_enclosed (lead gap trail : List Char) (parts : List (List Char)) (close : Char)
    (rest : List Char) : parts.length ≤
      (lead ++ ((',' :: gap).intercalate parts ++ (trail ++ close :: rest))).length := by
  have hlength := length_le_intercalate ',' gap parts
  simp only [List.length_append, List.length_cons]
  omega

theorem starts_intercalate {part tail : List Char} {c : Char} (h : part = c :: tail)
    (sep : List Char) (others : List (List Char)) (rest : List Char) :
    ∃ tail', sep.intercalate (part :: others) ++ rest = c :: tail' := by
  subst h
  cases others with
  | nil => exact ⟨_, by rw [List.intercalate_singleton]; rfl⟩
  | cons next others => exact ⟨_, by rw [List.intercalate_cons_cons]; rfl⟩

theorem skipBlanks_intercalate {lead part tail : List Char} {c : Char} (hlead : Blank lead)
    (h : part = c :: tail) (hc : isBlank c = false) (sep : List Char) (others : List (List Char))
    (rest : List Char) :
    ∃ tail', skipBlanks (lead ++ (sep.intercalate (part :: others) ++ rest)) = c :: tail' := by
  obtain ⟨tail', hstart⟩ := starts_intercalate h sep others rest
  exact ⟨tail', by rw [hstart, skipBlanks_eq hlead hc]⟩

/-- How a reader of parts goes on after one part: past a comma to the others, and to its end past
the closing character. -/
structure ReadsParts {β : Type} (run : Nat → List Char → Reading (List β)) (close : Char)
    (part : List Char → β → Prop) : Prop where
  next : ∀ {n : Nat} {lead cs trail : List Char} {b : β} (rest : List Char), part cs b →
    Blank lead → Blank trail → run (n + 1) (lead ++ (cs ++ (trail ++ ',' :: rest))) =
      (b :: (run n rest).1, (run n rest).2)
  last : ∀ {n : Nat} {lead cs trail : List Char} {b : β} (rest : List Char), part cs b →
    Blank lead → Blank trail →
      run (n + 1) (lead ++ (cs ++ (trail ++ close :: rest))) = ([b], some rest)

theorem ReadsParts.intercalate {β : Type} {run : Nat → List Char → Reading (List β)} {close : Char}
    {part : List Char → β → Prop} (hrun : ReadsParts run close part) {gap trail : List Char}
    (hgap : Blank gap) (htrail : Blank trail) {parts : List (List Char)} {bs : List β}
    (h : List.Forall₂ part parts bs) (hne : parts ≠ []) {n : Nat} (hn : parts.length ≤ n)
    {lead : List Char} (hlead : Blank lead) (rest : List Char) :
    run n (lead ++ ((',' :: gap).intercalate parts ++ (trail ++ close :: rest))) =
      (bs, some rest) := by
  -- the blanks before the next part are those after the comma
  induction h generalizing n lead with
  | nil => exact absurd rfl hne
  | @cons cs b others bs hpart hothers ih =>
    obtain ⟨m, rfl⟩ := Nat.exists_eq_succ_of_ne_zero (Nat.ne_of_gt (Nat.zero_lt_of_lt hn))
    cases hothers with
    | nil =>
      rw [List.intercalate_singleton]
      exact hrun.last rest hpart hlead htrail
    | @cons next e others es hnext hothers =>
      have htail := ih (by simp) (Nat.le_of_succ_le_succ hn) hgap
      rw [List.intercalate_cons_cons]
      simp only [List.append_assoc, List.cons_append]
      have hcomma := hrun.next (n := m) (gap ++ ((',' :: gap).intercalate (next :: others) ++
        (trail ++ close :: rest))) hpart hlead blank_nil
      rw [List.nil_append, htail] at hcomma
      exact hcomma

section Parts
variable {item : List Char → Reading Draft} {gap lead trail : List Char} {parts : List (List Char)}

theorem readsParts_items (item : List Char → Reading Draft) :
    ReadsParts (items item) ']' (Reads item) where
  next := by
    intro n lead cs trail d rest hpart hlead htrail
    have hstops : Stops (trail ++ ',' :: rest) := stops_append htrail (stops_cons rest (by decide))
    rw [items, hpart.read hlead hstops]
    simp only [skipBlanks_eq htrail (show isBlank ',' = false from rfl)]
  last := by
    intro n lead cs trail d rest hpart hlead htrail
    have hstops : Stops (trail ++ ']' :: rest) := stops_append htrail (stops_cons rest (by decide))
    rw [items, hpart.read hlead hstops]
    simp only [skipBlanks_eq htrail (show isBlank ']' = false from rfl)]

theorem readsParts_members (item : List Char → Reading Draft) :
    ReadsParts (members item) '\x7d' (ReadsMember item) where
  next := by
    intro n lead cs trail entry rest hpart hlead htrail
    have hstops : Stops (trail ++ ',' :: rest) := stops_append htrail (stops_cons rest (by decide))
    obtain ⟨after, hname, hvalue⟩ := hpart.read hlead hstops
    rw [members, hname]
    simp only [hvalue, skipBlanks_eq htrail (show isBlank ',' = false from rfl)]
  last := by
    intro n lead cs trail entry rest hpart hlead htrail
    have hstops : Stops (trail ++ '\x7d' :: rest) :=
      stops_append htrail (stops_cons rest (by decide))
    obtain ⟨after, hname, hvalue⟩ := hpart.read hlead hstops
    rw [members, hname]
    simp only [hvalue, skipBlanks_eq htrail (show isBlank '\x7d' = false from rfl)]

theorem array_intercalate (hgap : Blank gap) (htrail : Blank trail) {ds : List Draft}
    (h : List.Forall₂ (Reads item) parts ds) (hlead : Blank lead) (rest : List Char) :
    array item (lead ++ ((',' :: gap).intercalate parts ++ (trail ++ ']' :: rest))) =
      (.array ds true, some rest) := by
  cases h with
  | nil =>
    have hclose : skipBlanks (lead ++ ([] ++ (trail ++ ']' :: rest))) = ']' :: rest := by
      rw [skipBlanks_append hlead, List.nil_append, skipBlanks_eq htrail rfl]
    rw [List.intercalate_nil, array, hclose]
    rfl
  | @cons part d others es hpart hothers =>
    obtain ⟨c, tail, hcs, hblank, hbracket⟩ := hpart.starts
    obtain ⟨tail', hskip⟩ := skipBlanks_intercalate hlead hcs hblank (',' :: gap) others
      (trail ++ ']' :: rest)
    have hitems := (readsParts_items item).intercalate hgap htrail (.cons hpart hothers) (by simp)
      (length_le_enclosed lead gap trail (part :: others) ']' rest) hlead rest
    unfold array
    rw [hskip, hitems]
    split
    · next heq => cases heq; exact absurd rfl hbracket
    · rfl

theorem object_intercalate (hgap : Blank gap) (htrail : Blank trail)
    {entries : List (String × Draft)} (h : List.Forall₂ (ReadsMember item) parts entries)
    (hlead : Blank lead) (rest : List Char) :
    object item (lead ++ ((',' :: gap).intercalate parts ++ (trail ++ '\x7d' :: rest))) =
      (.table entries true, some rest) := by
  cases h with
  | nil =>
    have hclose : skipBlanks (lead ++ ([] ++ (trail ++ '\x7d' :: rest))) = '\x7d' :: rest := by
      rw [skipBlanks_append hlead, List.nil_append, skipBlanks_eq htrail rfl]
    rw [List.intercalate_nil, object, hclose]
    rfl
  | @cons part entry others es hpart hothers =>
    obtain ⟨tail, hcs⟩ := hpart.starts
    obtain ⟨tail', hskip⟩ := skipBlanks_intercalate hlead hcs rfl (',' :: gap) others
      (trail ++ '\x7d' :: rest)
    have hmembers := (readsParts_members item).intercalate hgap htrail (.cons hpart hothers)
      (by simp) (length_le_enclosed lead gap trail (part :: others) '\x7d' rest) hlead rest
    unfold object
    rw [hskip, hmembers]
    split
    · next heq => cases heq
    · rfl

end Parts

theorem value_literal {depth : Nat} {cs tail : List Char} {c : Char}
    (hskip : skipBlanks cs = c :: tail) (hc : c.isDigit = true ∨ c = '-') :
    value depth cs = atom (number (c :: tail)) := by
  have hnone : ∀ d : Char, d.isDigit = false → d ≠ '-' → c ≠ d := by
    rintro d hdigit hminus rfl
    rcases hc with hc | hc
    · rw [hdigit] at hc
      cases hc
    · exact hminus hc
  rw [value, hskip]
  split
  · next heq => exact absurd (List.head_eq_of_cons_eq heq) (hnone 'n' rfl (by decide))
  · next heq => exact absurd (List.head_eq_of_cons_eq heq) (hnone 't' rfl (by decide))
  · next heq => exact absurd (List.head_eq_of_cons_eq heq) (hnone 'f' rfl (by decide))
  · next heq => exact absurd (List.head_eq_of_cons_eq heq) (hnone '"' rfl (by decide))
  · next heq => exact absurd (List.head_eq_of_cons_eq heq) (hnone '[' rfl (by decide))
  · next heq => exact absurd (List.head_eq_of_cons_eq heq) (hnone '\x7b' rfl (by decide))
  · rfl

theorem value_array {depth : Nat} {cs rest : List Char} (hskip : skipBlanks cs = '[' :: rest) :
    value (depth + 1) cs = array (value depth) rest := by
  rw [value, hskip]
  rfl

theorem value_object {depth : Nat} {cs rest : List Char}
    (hskip : skipBlanks cs = '\x7b' :: rest) :
    value (depth + 1) cs = object (value depth) rest := by
  rw [value, hskip]
  rfl

theorem value_text {depth : Nat} {cs rest : List Char} (hskip : skipBlanks cs = '"' :: rest) :
    value depth cs = atom ((string? rest).map fun (s, r) => (.text s, r)) := by
  rw [value, hskip]
  rfl

end BrokerPolicy.Json
