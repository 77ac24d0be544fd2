import BrokerPolicy.Proofs.Json.Reread

set_option autoImplicit false

/-!
The compact text of any document, also of one that nests too deep or has a number that no reader
takes. A reader may meet a fault in it; if not, it stops right behind the text, and it has read the
names of a table as they are written.
-/

namespace BrokerPolicy.Json

/-- A reader that meets no fault in a text stops right behind it, with a draft as wanted. -/
structure Spans (item : List Char → Reading Draft) (cs : List Char) (wanted : Draft → Prop) :
    Prop where
  starts : ∃ c tail, cs = c :: tail ∧ isBlank c = false ∧ c ≠ ']'
  read : ∀ {rest after : List Char} {d : Draft}, Stops rest → item (cs ++ rest) = (d, some after) →
    after = rest ∧ wanted d

structure SpansMember (item : List Char → Reading Draft) (cs : List Char)
    (wanted : String × Draft → Prop) : Prop where
  starts : ∃ tail, cs = '"' :: tail
  read : ∀ {rest : List Char}, Stops rest → ∃ name value,
    memberName? (cs ++ rest) = some (name, value) ∧
      ∀ {after : List Char} {d : Draft}, memberValue item value = (d, some after) →
        after = rest ∧ wanted (name, d)

theorem Spans.mono {item : List Char → Reading Draft} {cs : List Char} {p q : Draft → Prop}
    (h : Spans item cs p) (hpq : ∀ d, p d → q d) : Spans item cs q where
  starts := h.starts
  read := fun hrest hread => (h.read hrest hread).imp_right (hpq _)

theorem Reads.spans {item : List Char → Reading Draft} {cs : List Char} {d : Draft}
    (h : Reads item cs d) : Spans item cs (· = d) where
  starts := h.starts
  read := by
    intro rest after e hrest hread
    have hall := h.read blank_nil hrest
    rw [List.nil_append, hread] at hall
    cases hall
    exact ⟨rfl, rfl⟩

theorem Spans.member {item : List Char → Reading Draft} {cs : List Char} {p : Draft → Prop}
    (h : Spans item cs p) (name : String) :
    SpansMember item ((Text.jsonQuoted name).toList ++ ':' :: cs)
      fun e => e.1 = name ∧ p e.2 where
  starts := ⟨_, by rw [toList_jsonQuoted]; rfl⟩
  read := by
    intro rest hrest
    refine ⟨name, ':' :: (cs ++ rest), ?_, ?_⟩
    · rw [List.append_assoc]
      exact memberName?_spelled blank_nil (spellsText_jsonQuoted name) _
    · intro after d hvalue
      rw [memberValue, skipBlanks_cons rfl] at hvalue
      exact (h.read hrest hvalue).imp_right fun hd => ⟨rfl, hd⟩

/-- How a reader of parts that meets no fault goes past one part. -/
structure SpansParts {β : Type} (run : Nat → List Char → Reading (List β)) (close : Char)
    (part : List Char → (β → Prop) → Prop) : Prop where
  fault : ∀ cs, (run 0 cs).2 = none
  next : ∀ {n : Nat} {cs rest after : List Char} {p : β → Prop} {bs : List β}, part cs p →
    run (n + 1) (cs ++ ',' :: rest) = (bs, some after) →
      ∃ b bs', bs = b :: bs' ∧ p b ∧ run n rest = (bs', some after)
  last : ∀ {n : Nat} {cs rest after : List Char} {p : β → Prop} {bs : List β}, part cs p →
    run (n + 1) (cs ++ close :: rest) = (bs, some after) →
      after = rest ∧ ∃ b, bs = [b] ∧ p b

theorem SpansParts.intercalate {β : Type} {run : Nat → List Char → Reading (List β)} {close : Char}
    {part : List Char → (β → Prop) → Prop} (hrun : SpansParts run close part)
    {parts : List (List Char)} {ps : List (β → Prop)} (h : List.Forall₂ part parts ps)
    (hne : parts ≠ []) {n : Nat} {rest after : List Char} {bs : List β}
    (hread : run n ([','].intercalate parts ++ close :: rest) = (bs, some after)) :
    after = rest ∧ List.Forall₂ (fun p b => p b) ps bs := by
  induction h generalizing n bs with
  | nil => exact absurd rfl hne
  | @cons cs p others ps hpart hothers ih =>
    cases n with
    | zero =>
      have hfault := hrun.fault ([','].intercalate (cs :: others) ++ close :: rest)
      rw [hread] at hfault
      cases hfault
    | succ n =>
      cases hothers with
      | nil =>
        rw [List.intercalate_singleton] at hread
        obtain ⟨hafter, b, rfl, hb⟩ := hrun.last hpart hread
        exact ⟨hafter, .cons hb .nil⟩
      | @cons next q others qs hnext hothers =>
        rw [List.intercalate_cons_cons] at hread
        simp only [List.append_assoc, List.cons_append, List.nil_append] at hread
        obtain ⟨b, bs, rfl, hb, hlater⟩ := hrun.next hpart hread
        obtain ⟨hafter, hbs⟩ := ih (by simp) hlater
        exact ⟨hafter, .cons hb hbs⟩

theorem items_eq_some {item : List Char → Reading Draft} {n : Nat} {cs after : List Char}
    {ds : List Draft} (h : items item (n + 1) cs = (ds, some after)) :
    ∃ d rest, item cs = (d, some rest) ∧
      ((∃ rest' ds', skipBlanks rest = ',' :: rest' ∧ ds = d :: ds' ∧
          items item n rest' = (ds', some after)) ∨
        skipBlanks rest = ']' :: after ∧ ds = [d]) := by
  rw [items] at h
  split at h
  · cases h
  · next d rest hitem =>
    refine ⟨d, rest, hitem, ?_⟩
    split at h
    · next rest' hcomma =>
      obtain ⟨hds, hafter⟩ := Prod.ext_iff.1 h
      exact .inl ⟨rest', _, hcomma, hds.symm, Prod.ext rfl hafter⟩
    · next rest' hclose =>
      cases h
      exact .inr ⟨hclose, rfl⟩
    · cases h

theorem members_eq_some {item : List Char → Reading Draft} {n : Nat} {cs after : List Char}
    {es : List (String × Draft)} (h : members item (n + 1) cs = (es, some after)) :
    ∃ name value d rest, memberName? cs = some (name, value) ∧
      memberValue item value = (d, some rest) ∧
        ((∃ rest' es', skipBlanks rest = ',' :: rest' ∧ es = (name, d) :: es' ∧
            members item n rest' = (es', some after)) ∨
          skipBlanks rest = '\x7d' :: after ∧ es = [(name, d)]) := by
  rw [members] at h
  split at h
  · cases h
  · next name value hname =>
    split at h
    · cases h
    · next d rest hvalue =>
      refine ⟨name, value, d, rest, hname, hvalue, ?_⟩
      split at h
      · next rest' hcomma =>
        obtain ⟨hes, hafter⟩ := Prod.ext_iff.1 h
        exact .inl ⟨rest', _, hcomma, hes.symm, Prod.ext rfl hafter⟩
      · next rest' hclose =>
        cases h
        exact .inr ⟨hclose, rfl⟩
      · cases h

theorem spansParts_items (item : List Char → Reading Draft) :
    SpansParts (items item) ']' (Spans item) where
  fault := fun _ => rfl
  next := by
    intro n cs rest after p ds hpart hread
    obtain ⟨d, end', hitem, hnext⟩ := items_eq_some hread
    obtain ⟨rfl, hd⟩ := hpart.read (stops_cons rest (by decide)) hitem
    rw [skipBlanks_cons rfl] at hnext
    rcases hnext with ⟨rest', ds', hcomma, rfl, hlater⟩ | ⟨hclose, -⟩
    · cases hcomma
      exact ⟨d, ds', rfl, hd, hlater⟩
    · cases hclose
  last := by
    intro n cs rest after p ds hpart hread
    obtain ⟨d, end', hitem, hnext⟩ := items_eq_some hread
    obtain ⟨rfl, hd⟩ := hpart.read (stops_cons rest (by decide)) hitem
    rw [skipBlanks_cons rfl] at hnext
    rcases hnext with ⟨rest', ds', hcomma, -, -⟩ | ⟨hclose, rfl⟩
    · cases hcomma
    · cases hclose
      exact ⟨rfl, d, rfl, hd⟩

theorem spansParts_members (item : List Char → Reading Draft) :
    SpansParts (members item) '\x7d' (SpansMember item) where
  fault := fun _ => rfl
  next := by
    intro n cs rest after p es hpart hread
    obtain ⟨name, value, d, end', hname, hvalue, hnext⟩ := members_eq_some hread
    have hstops : Stops (',' :: rest) := stops_cons rest (by decide)
    obtain ⟨name', value', hname', hread'⟩ := hpart.read hstops
    cases hname.symm.trans hname'
    obtain ⟨rfl, hd⟩ := hread' hvalue
    rw [skipBlanks_cons rfl] at hnext
    rcases hnext with ⟨rest', es', hcomma, rfl, hlater⟩ | ⟨hclose, -⟩
    · cases hcomma
      exact ⟨(name, d), es', rfl, hd, hlater⟩
    · cases hclose
  last := by
    intro n cs rest after p es hpart hread
    obtain ⟨name, value, d, end', hname, hvalue, hnext⟩ := members_eq_some hread
    have hstops : Stops ('\x7d' :: rest) := stops_cons rest (by decide)
    obtain ⟨name', value', hname', hread'⟩ := hpart.read hstops
    cases hname.symm.trans hname'
    obtain ⟨rfl, hd⟩ := hread' hvalue
    rw [skipBlanks_cons rfl] at hnext
    rcases hnext with ⟨rest', es', hcomma, -, -⟩ | ⟨hclose, rfl⟩
    · cases hcomma
    · cases hclose
      exact ⟨rfl, (name, d), rfl, hd⟩

section Parts
variable {item : List Char → Reading Draft} {parts : List (List Char)} {rest after : List Char}
  {d : Draft}

theorem array_eq_some {ps : List (Draft → Prop)} (h : List.Forall₂ (Spans item) parts ps)
    (hread : array item ([','].intercalate parts ++ ']' :: rest) = (d, some after)) :
    after = rest := by
  unfold array at hread
  cases h with
  | nil =>
    rw [List.intercalate_nil, List.nil_append, skipBlanks_cons rfl] at hread
    cases hread
    rfl
  | @cons part p others ps hpart hothers =>
    obtain ⟨c, tail, hcs, hblank, hbracket⟩ := hpart.starts
    obtain ⟨tail', hskip⟩ := skipBlanks_intercalate blank_nil hcs hblank [','] others (']' :: rest)
    rw [List.nil_append] at hskip
    rw [hskip] at hread
    split at hread
    · next heq =>
      cases heq
      exact absurd rfl hbracket
    · obtain ⟨-, hafter⟩ := Prod.ext_iff.1 hread
      exact ((spansParts_items item).intercalate (.cons hpart hothers) (by simp)
        (Prod.ext rfl hafter)).1

theorem object_eq_some {ps : List (String × Draft → Prop)}
    (h : List.Forall₂ (SpansMember item) parts ps)
    (hread : object item ([','].intercalate parts ++ '\x7d' :: rest) = (d, some after)) :
    after = rest ∧ ∃ es, d = .table es true ∧ List.Forall₂ (fun p e => p e) ps es := by
  unfold object at hread
  cases h with
  | nil =>
    rw [List.intercalate_nil, List.nil_append, skipBlanks_cons rfl] at hread
    cases hread
    exact ⟨rfl, [], rfl, .nil⟩
  | @cons part p others ps hpart hothers =>
    obtain ⟨tail, hcs⟩ := hpart.starts
    obtain ⟨tail', hskip⟩ := skipBlanks_intercalate blank_nil hcs rfl [','] others ('\x7d' :: rest)
    rw [List.nil_append] at hskip
    rw [hskip] at hread
    split at hread
    · next heq => cases heq
    · obtain ⟨hd, hafter⟩ := Prod.ext_iff.1 hread
      obtain ⟨rfl, hes⟩ := (spansParts_members item).intercalate (.cons hpart hothers) (by simp)
        (Prod.ext rfl hafter)
      dsimp only at hd hafter
      rw [hafter] at hd
      exact ⟨rfl, _, hd.symm, hes⟩

end Parts

theorem spans_of_value_zero {c : Char} {tail : List Char} {p : Draft → Prop}
    (hblank : isBlank c = false) (hbracket : c ≠ ']')
    (hfault : ∀ rest, value 0 (c :: rest) = faulty) : Spans (value 0) (c :: tail) p where
  starts := ⟨c, tail, rfl, hblank, hbracket⟩
  read := by
    intro rest after d _ hread
    rw [List.cons_append, hfault] at hread
    cases hread

theorem spans_array {depth : Nat} {parts : List (List Char)} {ps : List (Draft → Prop)}
    (h : List.Forall₂ (Spans (value depth)) parts ps) :
    Spans (value (depth + 1)) ('[' :: ([','].intercalate parts ++ [']'])) fun _ => True where
  starts := ⟨_, _, rfl, rfl, by decide⟩
  read := by
    intro rest after d _ hread
    simp only [List.cons_append, List.append_assoc, List.nil_append] at hread
    rw [value_array (skipBlanks_cons rfl _)] at hread
    exact ⟨array_eq_some h hread, trivial⟩

theorem spans_table {depth : Nat} {parts : List (List Char)} {ps : List (String × Draft → Prop)}
    (h : List.Forall₂ (SpansMember (value depth)) parts ps) :
    Spans (value (depth + 1)) ('\x7b' :: ([','].intercalate parts ++ ['\x7d']))
      fun d => ∃ es, d = .table es true ∧ List.Forall₂ (fun p e => p e) ps es where
  starts := ⟨_, _, rfl, rfl, by decide⟩
  read := by
    intro rest after d _ hread
    simp only [List.cons_append, List.append_assoc, List.nil_append] at hread
    rw [value_object (skipBlanks_cons rfl _)] at hread
    exact object_eq_some h hread

theorem spans_literal (depth : Nat) (l : Literal) :
    Spans (value depth) l.text fun _ => True where
  starts := by
    obtain ⟨c, tail, htext, hc⟩ := l.spells_text.starts
    exact ⟨c, tail, htext, not_blank_of_literal hc⟩
  read := by
    intro rest after d hrest hread
    have hvalue := value_literal_append depth l.spells_text blank_nil hrest
    rw [List.nil_append, hread] at hvalue
    -- A literal that is too large for a double is a fault.
    by_cases hfault : l.draft = .fault
    · rw [hfault] at hvalue
      cases hvalue
    · rw [atom_of_ne_fault hfault] at hvalue
      cases hvalue
      exact ⟨rfl, trivial⟩

theorem spans_number (depth : Nat) (x : Binary64) :
    Spans (value depth) (numberText x).toList fun _ => True := by
  cases hx : x.isFinite with
  | true =>
    obtain ⟨l, -, htext⟩ := exists_literal_of_isFinite hx
    rw [← htext]
    exact spans_literal depth l
  | false =>
    rw [numberText, hx]
    exact (reads_null depth).spans.mono fun _ _ => trivial

def SameNames (d : Document) (x : Draft) : Prop :=
  ∀ entries, d = .table entries →
    ∃ es, x = .table es true ∧ es.map Prod.fst = entries.map Prod.fst

/-- A draft of a table has its names, and those of the tables right in it. -/
def Outlines (entries : List (String × Document)) (x : Draft) : Prop :=
  ∃ es, x = .table es true ∧
    List.Forall₂ (fun e y => y.1 = e.1 ∧ SameNames e.2 y.2) entries es

theorem Outlines.exists_entries {entries : List (String × Document)} {x : Draft}
    (h : Outlines entries x) :
    ∃ es, x = .table es true ∧ es.map Prod.fst = entries.map Prod.fst ∧
      ∀ e ∈ entries, ∃ y ∈ es, y.1 = e.1 ∧ SameNames e.2 y.2 := by
  obtain ⟨es, rfl, hes⟩ := h
  refine ⟨es, rfl, ?_⟩
  induction hes with
  | nil => exact ⟨rfl, by simp⟩
  | @cons e y entries es hhead _ ih =>
    obtain ⟨hnames, hparts⟩ := ih
    refine ⟨congrArg₂ List.cons hhead.1 hnames, ?_⟩
    rw [List.forall_mem_cons]
    refine ⟨⟨y, List.mem_cons_self, hhead⟩, fun e' he' => ?_⟩
    obtain ⟨y', hy', hsame⟩ := hparts e' he'
    exact ⟨y', List.mem_cons_of_mem y hy', hsame⟩

theorem Outlines.sameNames {entries : List (String × Document)} {x : Draft}
    (h : Outlines entries x) : SameNames (.table entries) x := by
  rintro entries' heq
  cases heq
  obtain ⟨es, hx, hnames, -⟩ := h.exists_entries
  exact ⟨es, hx, hnames⟩

theorem Spans.sameNames {depth : Nat} {cs : List Char} {p : Draft → Prop}
    (h : Spans (value depth) cs p) {d : Document} (hd : ∀ entries, d ≠ .table entries) :
    Spans (value depth) cs (SameNames d) :=
  h.mono fun _ _ entries heq => absurd heq (hd entries)

theorem spans_compact_table {entries : List (String × Document)} {depth : Nat}
    (h : List.Forall₂ (SpansMember (value depth)) ((compactEntries entries).map String.toList)
      (entries.map fun e y => y.1 = e.1 ∧ SameNames e.2 y.2)) :
    Spans (value (depth + 1)) (compact (.table entries)).toList (Outlines entries) := by
  have htext := (spans_table h).mono (q := Outlines entries) ?_
  · simpa [compact, String.toList_append, String.toList_intercalate] using htext
  · rintro x ⟨es, rfl, hes⟩
    exact ⟨es, rfl, List.forall₂_map_left_iff.1 hes⟩

mutual

theorem spans_compact (d : Document) (depth : Nat) :
    Spans (value depth) (compact d).toList (SameNames d) := by
  match d, depth with
  | .null, depth => exact (reads_null depth).spans.sameNames (by simp)
  | .boolean b, depth => exact (reads_boolean depth b).spans.sameNames (by simp)
  | .text s, depth => exact (reads_text depth (spellsText_jsonQuoted s)).spans.sameNames (by simp)
  | .real x, depth => exact (spans_number depth x).sameNames (by simp)
  | .integer i, depth =>
    rw [compact, toList_toString_int]
    exact (spans_literal depth _).sameNames (by simp)
  | .array items, 0 =>
    simp only [compact, String.toList_append]
    exact spans_of_value_zero rfl (by decide) fun _ => rfl
  | .table entries, 0 =>
    simp only [compact, String.toList_append]
    exact spans_of_value_zero rfl (by decide) fun _ => rfl
  | .array items, depth + 1 =>
    have htext := (spans_array (spans_compactItems items depth)).sameNames
      (d := .array items) (by simp)
    simpa [compact, String.toList_append, String.toList_intercalate] using htext
  | .table entries, depth + 1 =>
    exact (spans_compact_table (spans_compactEntries entries depth)).mono fun _ h => h.sameNames

theorem spans_compactItems (items : List Document) (depth : Nat) :
    List.Forall₂ (Spans (value depth)) ((compactItems items).map String.toList)
      (items.map SameNames) := by
  match items with
  | [] => exact .nil
  | d :: rest => exact .cons (spans_compact d depth) (spans_compactItems rest depth)

theorem spans_compactEntries (entries : List (String × Document)) (depth : Nat) :
    List.Forall₂ (SpansMember (value depth)) ((compactEntries entries).map String.toList)
      (entries.map fun e y => y.1 = e.1 ∧ SameNames e.2 y.2) := by
  match entries with
  | [] => exact .nil
  | (name, d) :: rest =>
    have hmember := (spans_compact d depth).member name
    have htext : (memberText name (compact d)).toList =
        (Text.jsonQuoted name).toList ++ ':' :: (compact d).toList := toList_memberText name _
    rw [← htext] at hmember
    exact .cons hmember (spans_compactEntries rest depth)

end

theorem outlines_of_complete {entries : List (String × Document)}
    (h : (read (compact (.table entries))).complete = true) :
    Outlines entries (read (compact (.table entries))).draft := by
  have hspans : Spans (value maxDepth) (compact (.table entries)).toList (Outlines entries) :=
    spans_compact_table (spans_compactEntries entries 126)
  rw [read, ← List.append_nil (compact (.table entries)).toList] at h ⊢
  cases hvalue : value maxDepth ((compact (.table entries)).toList ++ []) with
  | mk d end? =>
    rw [hvalue] at h
    cases end? with
    | none => cases h
    | some rest => exact (hspans.read stops_nil hvalue).2

end BrokerPolicy.Json
