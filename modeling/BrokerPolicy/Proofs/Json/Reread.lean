import BrokerPolicy.Proofs.Document
import BrokerPolicy.Proofs.Json.NumberText
import BrokerPolicy.Proofs.Json.Reader

set_option autoImplicit false

/-!
What the text of a document denotes. Everything but the doubles is kept: a finite double is what
its number text reads as, and the others become null.
-/

namespace BrokerPolicy

def Json.readBack? (x : Binary64) : Option Binary64 :=
  match Json.number (Json.numberText x).toList with
  | some (.real y, []) => some y
  | _ => none

/-- The text of a finite double is that of a double. -/
def Json.Legible (x : Binary64) : Prop := x.isFinite = true → (Json.readBack? x).isSome = true

namespace Document

mutual

/-- The document that the text of a document denotes. -/
def reread : Document → Document
  | .real x =>
    match Json.readBack? x with
    | some y => .real y
    | none => .null
  | .array items => .array (rereadItems items)
  | .table entries => .table (rereadEntries entries)
  | d => d

def rereadItems : List Document → List Document
  | [] => []
  | d :: rest => reread d :: rereadItems rest

def rereadEntries : List (String × Document) → List (String × Document)
  | [] => []
  | (name, d) :: rest => (name, reread d) :: rereadEntries rest

end

end Document

namespace Document

mutual

theorem reread_eq_self {d : Document} (h : d.NumbersIn fun x => Json.readBack? x = some x) :
    d.reread = d := by
  match d with
  | .null | .boolean _ | .integer _ | .text _ => rfl
  | .real x =>
    change Json.readBack? x = some x at h
    rw [reread, h]
  | .array items => exact congrArg Document.array (rereadItems_eq_self h)
  | .table entries => exact congrArg Document.table (rereadEntries_eq_self h)

theorem rereadItems_eq_self {items : List Document}
    (h : NumbersInItems (fun x => Json.readBack? x = some x) items) :
    rereadItems items = items := by
  match items with
  | [] => rfl
  | d :: rest => exact congrArg₂ List.cons (reread_eq_self h.1) (rereadItems_eq_self h.2)

theorem rereadEntries_eq_self {entries : List (String × Document)}
    (h : NumbersInEntries (fun x => Json.readBack? x = some x) entries) :
    rereadEntries entries = entries := by
  match entries with
  | [] => rfl
  | (name, d) :: rest =>
    exact congrArg₂ (fun t es => (name, t) :: es) (reread_eq_self h.1) (rereadEntries_eq_self h.2)

end

end Document

namespace Json

theorem readBack?_of_not_isFinite {x : Binary64} (hx : x.isFinite = false) :
    readBack? x = none := by
  have hword : "null".toList = ['n', 'u', 'l', 'l'] := by simp
  have hnumber : number ['n', 'u', 'l', 'l'] = none := rfl
  rw [readBack?, numberText, if_neg (by simp [hx]), hword, hnumber]

theorem atom_of_ne_fault {d : Draft} (h : d ≠ .fault) (rest : List Char) :
    atom (some (d, rest)) = (d, some rest) := by
  cases d with
  | fault => exact absurd rfl h
  | _ => rfl

theorem reads_word {depth : Nat} {word : List Char} {d : Draft} {c : Char} {tail : List Char}
    (hword : word = c :: tail) (hblank : isBlank c = false) (hbracket : c ≠ ']')
    (h : ∀ cs rest, skipBlanks cs = word ++ rest → value depth cs = (d, some rest)) :
    Reads (value depth) word d where
  starts := ⟨c, tail, hword, hblank, hbracket⟩
  read := by
    intro lead rest hlead _
    refine h _ rest ?_
    rw [hword]
    exact skipBlanks_eq hlead hblank _

theorem reads_null (depth : Nat) : Reads (value depth) "null".toList .null := by
  refine reads_word (c := 'n') rfl rfl (by decide) ?_
  intro cs rest hskip
  rw [value, hskip]
  rfl

theorem reads_boolean (depth : Nat) (b : Bool) :
    Reads (value depth) (toString b).toList (.boolean b) := by
  cases b with
  | true =>
    refine reads_word (c := 't') rfl rfl (by decide) ?_
    intro cs rest hskip
    rw [value, hskip]
    rfl
  | false =>
    refine reads_word (c := 'f') rfl rfl (by decide) ?_
    intro cs rest hskip
    rw [value, hskip]
    rfl

theorem reads_text (depth : Nat) {s : String} {cs : List Char} (h : SpellsText s cs) :
    Reads (value depth) cs (.text s) := by
  obtain ⟨tail, rfl, hstring⟩ := h.string?
  refine reads_word rfl rfl (by decide) ?_
  intro cs rest hskip
  rw [List.cons_append] at hskip
  rw [value_text hskip, hstring]
  rfl

theorem Literal.Spells.starts {l : Literal} {cs : List Char} (h : l.Spells cs) :
    ∃ c tail, cs = c :: tail ∧ (c.isDigit = true ∨ c = '-') := by
  obtain ⟨ex, -, rfl⟩ := h
  rw [signText]
  cases hnegative : l.negative with
  | true => exact ⟨'-', _, rfl, .inr rfl⟩
  | false =>
    obtain ⟨c, cs, hcs⟩ := List.exists_cons_of_ne_nil l.whole.ne_nil
    refine ⟨c, _, by rw [hcs]; rfl, .inl ?_⟩
    exact l.whole.isDigit c (by rw [hcs]; exact List.mem_cons_self)

theorem not_blank_of_literal {c : Char} (h : c.isDigit = true ∨ c = '-') :
    isBlank c = false ∧ c ≠ ']' := by
  rcases h with h | rfl
  · refine ⟨?_, ?_⟩
    · rw [← Bool.not_eq_true]
      intro hblank
      simp only [isBlank, Bool.or_eq_true, decide_eq_true_eq] at hblank
      rcases hblank with ((rfl | rfl) | rfl) | rfl <;> cases h
    · rintro rfl
      cases h
  · exact ⟨by decide, by decide⟩

theorem value_literal_append (depth : Nat) {l : Literal} {cs : List Char} (h : l.Spells cs)
    {lead rest : List Char} (hlead : Blank lead) (hrest : Stops rest) :
    value depth (lead ++ (cs ++ rest)) = atom (some (l.draft, rest)) := by
  have hnumber := h.number hrest
  obtain ⟨c, tail, rfl, hc⟩ := h.starts
  have hskip : skipBlanks (lead ++ (c :: tail ++ rest)) = c :: (tail ++ rest) :=
    skipBlanks_eq hlead (not_blank_of_literal hc).1 _
  rw [value_literal hskip hc, ← List.cons_append, hnumber]

theorem reads_literal (depth : Nat) {l : Literal} {cs : List Char} (hcs : l.Spells cs)
    (h : l.draft ≠ .fault) : Reads (value depth) cs l.draft := by
  obtain ⟨c, tail, htext, hc⟩ := hcs.starts
  refine ⟨⟨c, tail, htext, not_blank_of_literal hc⟩, ?_⟩
  intro lead rest hlead hrest
  rw [value_literal_append depth hcs hlead hrest]
  exact atom_of_ne_fault h rest

theorem reads_integer (depth : Nat) {i : Int} (hlow : -2 ^ 63 ≤ i) (hhigh : i < 2 ^ 64) :
    Reads (value depth) (toString i).toList (.integer i) := by
  have hdraft := Literal.draft_ofInt hlow hhigh
  rw [toList_toString_int, ← hdraft]
  exact reads_literal depth (Literal.spells_text _) (by rw [hdraft]; simp)

theorem reads_real (depth : Nat) {x y : Binary64} (hfinite : x.isFinite = true)
    (h : readBack? x = some y) : Reads (value depth) (numberText x).toList (.real y) := by
  obtain ⟨l, -, htext⟩ := exists_literal_of_isFinite hfinite
  have hnumber := l.number_append stops_nil
  rw [List.append_nil] at hnumber
  have hdraft : l.draft = .real y := by
    rw [readBack?, ← htext, hnumber] at h
    split at h
    · next heq =>
      cases h
      exact congrArg Prod.fst (Option.some.inj heq)
    · cases h
  rw [← htext, ← hdraft]
  exact reads_literal depth (Literal.spells_text _) (by rw [hdraft]; simp)

theorem reads_array {depth : Nat} {gap lead trail : List Char} (hgap : Blank gap)
    (hlead : Blank lead) (htrail : Blank trail) {parts : List (List Char)} {ds : List Draft}
    (h : List.Forall₂ (Reads (value depth)) parts ds) :
    Reads (value (depth + 1))
      ('[' :: (lead ++ ((',' :: gap).intercalate parts ++ (trail ++ [']'])))) (.array ds true) where
  starts := ⟨_, _, rfl, rfl, by decide⟩
  read := by
    intro before rest hbefore _
    have hskip := skipBlanks_eq hbefore (show isBlank '[' = false from rfl)
      (lead ++ ((',' :: gap).intercalate parts ++ (trail ++ ']' :: rest)))
    simp only [List.cons_append, List.append_assoc, List.nil_append]
    rw [value_array hskip, array_intercalate hgap htrail h hlead]

theorem reads_table {depth : Nat} {gap lead trail : List Char} (hgap : Blank gap)
    (hlead : Blank lead) (htrail : Blank trail) {parts : List (List Char)}
    {entries : List (String × Draft)}
    (h : List.Forall₂ (ReadsMember (value depth)) parts entries) :
    Reads (value (depth + 1))
      ('\x7b' :: (lead ++ ((',' :: gap).intercalate parts ++ (trail ++ ['\x7d']))))
      (.table entries true) where
  starts := ⟨_, _, rfl, rfl, by decide⟩
  read := by
    intro before rest hbefore _
    have hskip := skipBlanks_eq hbefore (show isBlank '\x7b' = false from rfl)
      (lead ++ ((',' :: gap).intercalate parts ++ (trail ++ '\x7d' :: rest)))
    simp only [List.cons_append, List.append_assoc, List.nil_append]
    rw [value_object hskip, object_intercalate hgap htrail h hlead]

theorem toList_memberText (name value : String) :
    (memberText name value).toList =
      (Text.jsonQuoted name).toList ++ ([] ++ ':' :: ([] ++ value.toList)) := by
  simp [memberText, String.toList_append]

mutual

theorem reads_compact (d : Document) {depth : Nat} (hdepth : d.depth ≤ depth)
    (hd : d.NumbersIn Legible) :
    Reads (value depth) (compact d).toList d.reread.draft := by
  match d with
  | .null => exact reads_null depth
  | .boolean b => exact reads_boolean depth b
  | .integer i => exact reads_integer depth hd.1 hd.2
  | .text s => exact reads_text depth (spellsText_jsonQuoted s)
  | .real x =>
    rw [compact, Document.reread]
    -- a double without a text of its own is written as null
    cases hback : readBack? x with
    | some y =>
      refine reads_real depth ?_ hback
      by_contra hx
      rw [readBack?_of_not_isFinite (by simpa using hx)] at hback
      cases hback
    | none =>
      have hx : x.isFinite = false := by
        by_contra hx
        have hsome := hd (by simpa using hx)
        rw [hback] at hsome
        cases hsome
      rw [numberText, hx]
      exact reads_null depth
  | .array items =>
    obtain ⟨n, rfl⟩ := Nat.exists_eq_succ_of_ne_zero (Nat.ne_of_gt (Nat.zero_lt_of_lt hdepth))
    have hitems := reads_compactItems items (Nat.le_of_succ_le_succ hdepth) hd
    have htext := reads_array blank_nil blank_nil blank_nil hitems
    change Reads _ _ (.array (Document.draftItems (Document.rereadItems items)) true)
    simpa [compact, String.toList_append, String.toList_intercalate] using htext
  | .table entries =>
    obtain ⟨n, rfl⟩ := Nat.exists_eq_succ_of_ne_zero (Nat.ne_of_gt (Nat.zero_lt_of_lt hdepth))
    have hentries := reads_compactEntries entries (Nat.le_of_succ_le_succ hdepth) hd
    have htext := reads_table blank_nil blank_nil blank_nil hentries
    change Reads _ _ (.table (Document.draftEntries (Document.rereadEntries entries)) true)
    simpa [compact, String.toList_append, String.toList_intercalate] using htext

theorem reads_compactItems (items : List Document) {depth : Nat}
    (hdepth : Document.depthItems items ≤ depth) (hd : Document.NumbersInItems Legible items) :
    List.Forall₂ (Reads (value depth)) ((compactItems items).map String.toList)
      (Document.draftItems (Document.rereadItems items)) := by
  match items with
  | [] => exact .nil
  | d :: rest =>
    have hmax := Nat.max_le.mp hdepth
    exact .cons (reads_compact d hmax.1 hd.1) (reads_compactItems rest hmax.2 hd.2)

theorem reads_compactEntries (entries : List (String × Document)) {depth : Nat}
    (hdepth : Document.depthEntries entries ≤ depth)
    (hd : Document.NumbersInEntries Legible entries) :
    List.Forall₂ (ReadsMember (value depth)) ((compactEntries entries).map String.toList)
      (Document.draftEntries (Document.rereadEntries entries)) := by
  match entries with
  | [] => exact .nil
  | (name, d) :: rest =>
    have hmax := Nat.max_le.mp hdepth
    have hmember := reads_member (spellsText_jsonQuoted name) blank_nil blank_nil
      (reads_compact d hmax.1 hd.1)
    rw [← toList_memberText] at hmember
    exact .cons hmember (reads_compactEntries rest hmax.2 hd.2)

end

theorem read_of_reads {text : String} {d : Draft} (h : Reads (value maxDepth) text.toList d) :
    read text = ⟨d, true⟩ := by
  have hvalue := h.read blank_nil stops_nil
  rw [List.nil_append, List.append_nil] at hvalue
  rw [read, hvalue]
  rfl

theorem read_compact {d : Document} (hdepth : d.depth ≤ maxDepth) (hd : d.NumbersIn Legible) :
    read (compact d) = ⟨d.reread.draft, true⟩ :=
  read_of_reads (reads_compact d hdepth hd)

end Json

end BrokerPolicy
