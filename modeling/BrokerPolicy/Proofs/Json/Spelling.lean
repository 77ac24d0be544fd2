import BrokerPolicy.Proofs.Json.Reread

set_option autoImplicit false

/-!
JSON texts by their grammar. A tree is what a text says: number literals are kept as such, and the
members of an object as they are written, also those of one name. Every tree has texts, and each of
them is read as the tree if it nests no deeper than the reader goes and no number is out of range.
-/

namespace BrokerPolicy.Json

inductive Tree where
  | null
  | boolean (b : Bool)
  | number (l : Literal)
  | text (s : String)
  | array (items : List Tree)
  | object (members : List (String × Tree))

@[elab_as_elim]
theorem Tree.induction {p : Tree → Prop} (null : p .null) (boolean : ∀ b, p (.boolean b))
    (number : ∀ l, p (.number l)) (text : ∀ s, p (.text s))
    (array : ∀ items, (∀ t ∈ items, p t) → p (.array items))
    (object : ∀ members : List (String × Tree), (∀ m ∈ members, p m.2) → p (.object members))
    (t : Tree) : p t := by
  refine @Tree.rec p (fun items => ∀ t ∈ items, p t) (fun members => ∀ m ∈ members, p m.2)
    (fun m => p m.2) null boolean number text array object ?_ ?_ ?_ ?_ ?_ t
  · exact fun t ht => absurd ht List.not_mem_nil
  · exact fun t ts ht hts => List.forall_mem_cons.2 ⟨ht, hts⟩
  · exact fun m hm => absurd hm List.not_mem_nil
  · exact fun m ms hm hms => List.forall_mem_cons.2 ⟨hm, hms⟩
  · exact fun _ _ ht => ht

/-- One part or more with commas between them, up to the closing character. -/
inductive SpellsParts {α : Type} (part : α → List Char → Prop) (close : Char) :
    List α → List Char → Prop
  | last {a : α} {lead cs trail : List Char} (hlead : Blank lead) (h : part a cs)
    (htrail : Blank trail) : SpellsParts part close [a] (lead ++ (cs ++ (trail ++ [close])))
  | more {a : α} {others : List α} {lead cs trail rest : List Char} (hlead : Blank lead)
    (h : part a cs) (htrail : Blank trail) (hrest : SpellsParts part close others rest) :
    SpellsParts part close (a :: others) (lead ++ (cs ++ (trail ++ ',' :: rest)))

inductive SpellsMember (value : Tree → List Char → Prop) : String × Tree → List Char → Prop
  | colon {name : String} {t : Tree} {nameText trail gap cs : List Char}
    (hname : SpellsText name nameText) (htrail : Blank trail) (hgap : Blank gap)
    (h : value t cs) : SpellsMember value (name, t) (nameText ++ (trail ++ ':' :: (gap ++ cs)))

inductive Spells : Tree → List Char → Prop
  | null : Spells .null "null".toList
  | boolean (b : Bool) : Spells (.boolean b) (toString b).toList
  | number {l : Literal} {cs : List Char} (h : l.Spells cs) : Spells (.number l) cs
  | text {s : String} {cs : List Char} (h : SpellsText s cs) : Spells (.text s) cs
  | noItems {gap : List Char} (h : Blank gap) : Spells (.array []) ('[' :: (gap ++ [']']))
  | items {items : List Tree} {cs : List Char} (h : SpellsParts Spells ']' items cs) :
    Spells (.array items) ('[' :: cs)
  | noMembers {gap : List Char} (h : Blank gap) :
    Spells (.object []) ('\x7b' :: (gap ++ ['\x7d']))
  | members {members : List (String × Tree)} {cs : List Char}
    (h : SpellsParts (SpellsMember Spells) '\x7d' members cs) :
    Spells (.object members) ('\x7b' :: cs)

def Tree.SpelledBy (t : Tree) (text : String) : Prop :=
  ∃ lead cs trail, Blank lead ∧ Spells t cs ∧ Blank trail ∧ text.toList = lead ++ (cs ++ trail)

section Parts

variable {α : Type} {part : α → List Char → Prop} {close : Char}

theorem exists_spellsParts {as : List α} (hne : as ≠ []) (h : ∀ a ∈ as, ∃ cs, part a cs) :
    ∃ cs, SpellsParts part close as cs := by
  induction as with
  | nil => exact absurd rfl hne
  | cons a others ih =>
    rw [List.forall_mem_cons] at h
    obtain ⟨⟨cs, hcs⟩, hothers⟩ := h
    cases others with
    | nil => exact ⟨_, .last blank_nil hcs blank_nil⟩
    | cons b others =>
      obtain ⟨rest, hrest⟩ := ih (List.cons_ne_nil b others) hothers
      exact ⟨_, .more blank_nil hcs blank_nil hrest⟩

theorem SpellsParts.length_le {as : List α} {cs : List Char} (h : SpellsParts part close as cs) :
    as.length ≤ cs.length := by
  induction h with
  | last =>
    simp only [List.length_append, List.length_cons, List.length_nil]
    omega
  | more _ _ _ _ ih =>
    simp only [List.length_append, List.length_cons]
    omega

theorem SpellsParts.skipBlanks {as : List α} {cs : List Char} (h : SpellsParts part close as cs)
    {p : Char → Prop}
    (hpart : ∀ a ∈ as, ∀ cs, part a cs → ∃ c tail, cs = c :: tail ∧ isBlank c = false ∧ p c)
    (rest : List Char) : ∃ c tail, skipBlanks (cs ++ rest) = c :: tail ∧ p c := by
  cases h with
  | last hlead h | more hlead h =>
    obtain ⟨c, tail, rfl, hblank, hc⟩ := hpart _ List.mem_cons_self _ h
    rw [List.append_assoc, List.append_assoc, List.cons_append, skipBlanks_eq hlead hblank]
    exact ⟨c, _, rfl, hc⟩

theorem ReadsParts.spelled {β : Type} {run : Nat → List Char → Reading (List β)}
    {reads : List Char → β → Prop} (hrun : ReadsParts run close reads) {f : α → β} {as : List α}
    {cs : List Char} (h : SpellsParts part close as cs)
    (hpart : ∀ a ∈ as, ∀ cs, part a cs → reads cs (f a)) {n : Nat} (hn : as.length ≤ n)
    (rest : List Char) : run n (cs ++ rest) = (as.map f, some rest) := by
  induction h generalizing n with
  | last hlead h htrail =>
    obtain ⟨m, rfl⟩ := Nat.exists_eq_succ_of_ne_zero (Nat.ne_of_gt hn)
    rw [List.append_assoc, List.append_assoc, List.append_assoc]
    exact hrun.last rest (hpart _ List.mem_cons_self _ h) hlead htrail
  | more hlead h htrail hrest ih =>
    obtain ⟨m, rfl⟩ := Nat.exists_eq_succ_of_ne_zero (Nat.ne_of_gt (Nat.zero_lt_of_lt hn))
    rw [List.forall_mem_cons] at hpart
    rw [List.append_assoc, List.append_assoc, List.append_assoc, List.cons_append,
      hrun.next _ (hpart.1 _ h) hlead htrail, ih hpart.2 (Nat.le_of_succ_le_succ hn)]
    rfl

end Parts

theorem Tree.exists_spelledBy (t : Tree) : ∃ text, t.SpelledBy text := by
  have hspells : ∃ cs, Spells t cs := by
    induction t using Tree.induction with
    | null => exact ⟨_, .null⟩
    | boolean b => exact ⟨_, .boolean b⟩
    | number l => exact ⟨_, .number l.spells_text⟩
    | text s => exact ⟨_, .text (spellsText_jsonQuoted s)⟩
    | array items ih =>
      by_cases hnil : items = []
      · subst hnil
        exact ⟨_, .noItems blank_nil⟩
      · obtain ⟨cs, hcs⟩ := exists_spellsParts hnil ih
        exact ⟨_, .items hcs⟩
    | object members ih =>
      by_cases hnil : members = []
      · subst hnil
        exact ⟨_, .noMembers blank_nil⟩
      · have hmembers : ∀ m ∈ members, ∃ cs, SpellsMember Spells m cs := by
          intro m hm
          obtain ⟨cs, hcs⟩ := ih m hm
          exact ⟨_, .colon (spellsText_jsonQuoted m.1) blank_nil blank_nil hcs⟩
        obtain ⟨cs, hcs⟩ := exists_spellsParts hnil hmembers
        exact ⟨_, .members hcs⟩
  obtain ⟨cs, hcs⟩ := hspells
  exact ⟨String.ofList cs, [], cs, [], blank_nil, hcs, blank_nil, by simp⟩

/-- The reader takes the literal for a number. -/
def Literal.InRange (l : Literal) : Prop := l.draft ≠ .fault

/-- A tree that nests at most so deep, with its numbers in range. -/
inductive Tree.Fits : Nat → Tree → Prop
  | null {n : Nat} : Fits n .null
  | boolean {n : Nat} {b : Bool} : Fits n (.boolean b)
  | number {n : Nat} {l : Literal} (h : l.InRange) : Fits n (.number l)
  | text {n : Nat} {s : String} : Fits n (.text s)
  | array {n : Nat} {items : List Tree} (h : ∀ t ∈ items, Fits n t) : Fits (n + 1) (.array items)
  | object {n : Nat} {members : List (String × Tree)} (h : ∀ m ∈ members, Fits n m.2) :
    Fits (n + 1) (.object members)

def Literal.document (l : Literal) : Document :=
  match l.draft with
  | .integer i => .integer i
  | .real x => .real x
  | _ => .null

mutual

def Tree.document : Tree → Document
  | .null => .null
  | .boolean b => .boolean b
  | .number l => l.document
  | .text s => .text s
  | .array items => .array (Tree.documentItems items)
  | .object members => .table (Tree.documentMembers members)

def Tree.documentItems : List Tree → List Document
  | [] => []
  | t :: rest => t.document :: Tree.documentItems rest

def Tree.documentMembers : List (String × Tree) → List (String × Document)
  | [] => []
  | (name, t) :: rest => (name, t.document) :: Tree.documentMembers rest

end

theorem Tree.draftItems_documentItems (items : List Tree) :
    Document.draftItems (documentItems items) = items.map fun t => t.document.draft := by
  induction items with
  | nil => rfl
  | cons t rest ih => rw [documentItems, Document.draftItems, ih, List.map_cons]

theorem Tree.draftEntries_documentMembers (members : List (String × Tree)) :
    Document.draftEntries (documentMembers members) =
      members.map fun m => (m.1, m.2.document.draft) := by
  induction members with
  | nil => rfl
  | cons m rest ih => rw [documentMembers, Document.draftEntries, ih, List.map_cons]

theorem Literal.draft_cases (l : Literal) :
    l.draft = .fault ∨ (∃ i, l.draft = .integer i) ∨ ∃ x, l.draft = .real x := by
  by_cases hreal : l.isReal = true
  · exact (l.draft_of_isReal hreal).imp_right .inr
  · rw [draft, if_neg hreal, integerDraft]
    by_cases hwide : (integerDigits ⟨0, 0⟩ l.whole.chars).exponent ≠ 0 ∨ (l.negative = true ∧
        ((integerDigits ⟨0, 0⟩ l.whole.chars).significand = 0 ∨
          Nat.pow 2 63 < (integerDigits ⟨0, 0⟩ l.whole.chars).significand))
    · rw [if_pos hwide]
      exact (realDraft_cases _ _).imp_right .inr
    · rw [if_neg hwide]
      exact .inr (.inl ⟨_, rfl⟩)

theorem Literal.draft_document {l : Literal} (h : l.InRange) : l.document.draft = l.draft := by
  rcases l.draft_cases with hfault | ⟨i, hi⟩ | ⟨x, hx⟩
  · exact absurd hfault h
  · rw [document, hi]
    rfl
  · rw [document, hx]
    rfl

section Brackets

variable {item : List Char → Reading Draft} {cs : List Char}

theorem array_spelled {part : Tree → List Char → Prop} {items : List Tree} {f : Tree → Draft}
    (h : SpellsParts part ']' items cs)
    (hpart : ∀ t ∈ items, ∀ cs, part t cs → Reads item cs (f t)) (rest : List Char) :
    array item (cs ++ rest) = (.array (items.map f) true, some rest) := by
  obtain ⟨c, tail, hskip, hbracket⟩ := h.skipBlanks (fun t ht cs hcs => (hpart t ht cs hcs).starts)
    rest
  have hlength : items.length ≤ (cs ++ rest).length := by
    rw [List.length_append]
    exact h.length_le.trans (Nat.le_add_right _ _)
  have hitems := (readsParts_items item).spelled h hpart hlength rest
  unfold array
  rw [hskip, hitems]
  split
  · next heq => cases heq; exact absurd rfl hbracket
  · rfl

theorem object_spelled {part : String × Tree → List Char → Prop} {members : List (String × Tree)}
    {f : String × Tree → String × Draft} (h : SpellsParts part '\x7d' members cs)
    (hpart : ∀ m ∈ members, ∀ cs, part m cs → ReadsMember item cs (f m)) (rest : List Char) :
    object item (cs ++ rest) = (.table (members.map f) true, some rest) := by
  have hstarts : ∀ m ∈ members, ∀ cs, part m cs →
      ∃ c tail, cs = c :: tail ∧ isBlank c = false ∧ c ≠ '\x7d' := by
    intro m hm cs hcs
    obtain ⟨tail, htext⟩ := (hpart m hm cs hcs).starts
    exact ⟨_, tail, htext, rfl, by decide⟩
  obtain ⟨c, tail, hskip, hbrace⟩ := h.skipBlanks hstarts rest
  have hlength : members.length ≤ (cs ++ rest).length := by
    rw [List.length_append]
    exact h.length_le.trans (Nat.le_add_right _ _)
  have hmembers := (readsParts_members item).spelled h hpart hlength rest
  unfold object
  rw [hskip, hmembers]
  split
  · next heq => cases heq; exact absurd rfl hbrace
  · rfl

end Brackets

theorem reads_spelled {t : Tree} {n : Nat} (ht : t.Fits n) {cs : List Char} (h : Spells t cs) :
    Reads (value n) cs t.document.draft := by
  induction t using Tree.induction generalizing n cs with
  | null =>
    cases h
    exact reads_null n
  | boolean b =>
    cases h
    exact reads_boolean n b
  | number l =>
    cases h with
    | number h =>
    cases ht with
    | number hrange =>
    rw [Tree.document, Literal.draft_document hrange]
    exact reads_literal n h hrange
  | text s =>
    cases h with
    | text h => exact reads_text n h
  | array items ih =>
    cases ht with
    | @array n _ hitems =>
    rw [Tree.document, Document.draft, Tree.draftItems_documentItems]
    cases h with
    | noItems h => exact reads_array blank_nil h blank_nil .nil
    | @items _ cs h =>
      refine ⟨⟨_, _, rfl, rfl, by decide⟩, fun {lead rest} hlead _ => ?_⟩
      -- the blanks in front are skipped once, and the bracket chooses the reader
      have hskip := skipBlanks_eq hlead (show isBlank '[' = false from rfl) (cs ++ rest)
      rw [List.cons_append, value_array hskip]
      exact array_spelled h (fun t ht cs hcs => ih t ht (hitems t ht) hcs) rest
  | object members ih =>
    cases ht with
    | @object n _ hmembers =>
    rw [Tree.document, Document.draft, Tree.draftEntries_documentMembers]
    cases h with
    | noMembers h => exact reads_table blank_nil h blank_nil .nil
    | @members _ cs h =>
      refine ⟨⟨_, _, rfl, rfl, by decide⟩, fun {lead rest} hlead _ => ?_⟩
      have hskip := skipBlanks_eq hlead (show isBlank '\x7b' = false from rfl) (cs ++ rest)
      rw [List.cons_append, value_object hskip]
      refine object_spelled h (fun m hm cs hcs => ?_) rest
      obtain ⟨hname, htrail, hgap, hvalue⟩ := hcs
      exact reads_member hname htrail hgap (ih _ hm (hmembers _ hm) hvalue)

theorem read_spelledBy {t : Tree} (ht : t.Fits maxDepth) {text : String} (h : t.SpelledBy text) :
    read text = ⟨t.document.draft, true⟩ := by
  obtain ⟨lead, cs, trail, hlead, hcs, htrail, htext⟩ := h
  have hstops : Stops (trail ++ []) := stops_append htrail stops_nil
  have hvalue := (reads_spelled ht hcs).read hlead hstops
  have hend : skipBlanks (trail ++ []) = [] := by
    rw [skipBlanks_append htrail]
    rfl
  rw [List.append_nil] at hvalue hend
  rw [read, htext, hvalue]
  change Source.mk _ (skipBlanks trail).isEmpty = _
  rw [hend]
  rfl

end BrokerPolicy.Json
