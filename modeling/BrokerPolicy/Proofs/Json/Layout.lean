import BrokerPolicy.Proofs.Json.Pretty

set_option autoImplicit false

/-!
The indented text of a document line by line. What stands between brackets is two blanks further
in, an empty pair of brackets stays on its line, and a comma ends every part but the last.
-/

namespace BrokerPolicy.Json

def deeper (lines : List String) : List String := lines.map ("  " ++ ·)

def commaEnded : List String → List String
  | [] => []
  | [line] => [line ++ ","]
  | line :: next :: rest => line :: commaEnded (next :: rest)

def separated : List (List String) → List String
  | [] => []
  | [part] => part
  | part :: next :: rest => commaEnded part ++ separated (next :: rest)

def bracketed (opening closing : String) (parts : List (List String)) : List String :=
  if parts.isEmpty then [opening ++ closing]
  else opening :: (deeper (separated parts) ++ [closing])

def named (name : String) : List String → List String
  | [] => []
  | line :: rest => (Text.jsonQuoted name ++ ": " ++ line) :: rest

mutual

def lines : Document → List String
  | .array items => bracketed "[" "]" (linesItems items)
  | .table entries => bracketed "\x7b" "\x7d" (linesEntries entries)
  | d => [compact d]

def linesItems : List Document → List (List String)
  | [] => []
  | d :: rest => lines d :: linesItems rest

def linesEntries : List (String × Document) → List (List String)
  | [] => []
  | (name, d) :: rest => named name (lines d) :: linesEntries rest

end

theorem intercalate_cons {sep line : String} {rest : List String} (h : rest ≠ []) :
    sep.intercalate (line :: rest) = line ++ (sep ++ sep.intercalate rest) := by
  rw [String.intercalate_cons_of_ne_nil h, String.append_assoc]

theorem commaEnded_ne_nil {part : List String} (h : part ≠ []) : commaEnded part ≠ [] := by
  cases part with
  | nil => exact absurd rfl h
  | cons line rest => cases rest <;> simp [commaEnded]

theorem intercalate_commaEnded (sep : String) {part : List String} (h : part ≠ []) :
    sep.intercalate (commaEnded part) = sep.intercalate part ++ "," := by
  induction part with
  | nil => exact absurd rfl h
  | cons line rest ih =>
    cases rest with
    | nil => simp [commaEnded]
    | cons next rest =>
      rw [commaEnded, intercalate_cons (commaEnded_ne_nil (List.cons_ne_nil _ _)),
        ih (List.cons_ne_nil _ _), intercalate_cons (List.cons_ne_nil _ _)]
      simp only [String.append_assoc]

theorem separated_ne_nil {parts : List (List String)} (h : parts ≠ [])
    (hparts : ∀ part ∈ parts, part ≠ []) : separated parts ≠ [] := by
  match parts with
  | [] => exact absurd rfl h
  | [part] => exact hparts part List.mem_cons_self
  | part :: next :: rest =>
    rw [separated]
    exact List.append_ne_nil_of_left_ne_nil
      (commaEnded_ne_nil (hparts part List.mem_cons_self)) _

theorem intercalate_separated (sep : String) {parts : List (List String)}
    (hparts : ∀ part ∈ parts, part ≠ []) :
    sep.intercalate (separated parts) = ("," ++ sep).intercalate (parts.map sep.intercalate) := by
  induction parts with
  | nil => rfl
  | cons part rest ih =>
    rw [List.forall_mem_cons] at hparts
    cases rest with
    | nil => simp [separated]
    | cons next rest =>
      have hright : ("," ++ sep).intercalate ((part :: next :: rest).map sep.intercalate) =
          sep.intercalate part ++
            ("," ++ sep ++ ("," ++ sep).intercalate ((next :: rest).map sep.intercalate)) :=
        intercalate_cons (by simp)
      rw [separated, String.intercalate_append_of_ne_nil (commaEnded_ne_nil hparts.1)
        (separated_ne_nil (List.cons_ne_nil _ _) hparts.2), intercalate_commaEnded sep hparts.1,
        ih hparts.2, hright]
      simp only [String.append_assoc]

theorem lineBreak_succ (level : Nat) : lineBreak (level + 1) = lineBreak level ++ "  " := by
  refine String.toList_injective ?_
  rw [String.toList_append, toList_lineBreak, toList_lineBreak, Nat.mul_succ,
    ← List.replicate_append_replicate]
  rfl

theorem append_intercalate_deeper (sep : String) {part : List String} (h : part ≠ []) :
    sep ++ sep.intercalate (deeper part) = sep ++ "  " ++ (sep ++ "  ").intercalate part := by
  induction part with
  | nil => exact absurd rfl h
  | cons line rest ih =>
    cases rest with
    | nil => simp [deeper, String.append_assoc]
    | cons next rest =>
      have hnext := ih (List.cons_ne_nil _ _)
      rw [deeper, List.map_cons, intercalate_cons (by simp), intercalate_cons (List.cons_ne_nil _ _)]
      rw [deeper] at hnext
      rw [hnext]
      simp only [String.append_assoc]

theorem intercalate_bracketed (opening closing : String) (level : Nat)
    {parts : List (List String)} (hparts : ∀ part ∈ parts, part ≠ []) :
    (lineBreak level).intercalate (bracketed opening closing parts) =
      enclose opening closing level (parts.map (lineBreak (level + 1)).intercalate) := by
  cases parts with
  | nil => simp [bracketed, enclose]
  | cons part rest =>
    have hne := separated_ne_nil (List.cons_ne_nil part rest) hparts
    have hdeeper : deeper (separated (part :: rest)) ≠ [] := by simpa [deeper] using hne
    rw [bracketed, if_neg (by simp), enclose, if_neg (by simp), intercalate_cons (by simp),
      String.intercalate_append_of_ne_nil hdeeper (by simp), String.intercalate_singleton]
    have hinner := append_intercalate_deeper (lineBreak level) hne
    rw [← lineBreak_succ, intercalate_separated _ hparts] at hinner
    have houter := congrArg (opening ++ · ++ lineBreak level ++ closing) hinner
    simpa only [String.append_assoc] using houter

theorem intercalate_named (sep name : String) {part : List String} (h : part ≠ []) :
    sep.intercalate (named name part) = Text.jsonQuoted name ++ ": " ++ sep.intercalate part := by
  cases part with
  | nil => exact absurd rfl h
  | cons line rest => rw [named, String.intercalate_cons_append]

theorem lines_ne_nil (d : Document) : lines d ≠ [] := by
  have hbracketed (opening closing : String) (parts : List (List String)) :
      bracketed opening closing parts ≠ [] := by
    rw [bracketed]
    split_ifs <;> simp
  cases d with
  | array items => exact hbracketed _ _ _
  | table entries => exact hbracketed _ _ _
  | _ => simp [lines]

theorem forall_linesItems (items : List Document) : ∀ part ∈ linesItems items, part ≠ [] := by
  induction items with
  | nil => simp [linesItems]
  | cons d rest ih => exact List.forall_mem_cons.2 ⟨lines_ne_nil d, ih⟩

theorem forall_linesEntries (entries : List (String × Document)) :
    ∀ part ∈ linesEntries entries, part ≠ [] := by
  induction entries with
  | nil => simp [linesEntries]
  | cons e rest ih =>
    refine List.forall_mem_cons.2 ⟨?_, ih⟩
    have hne := lines_ne_nil e.2
    generalize lines e.2 = part at hne
    cases part with
    | nil => exact absurd rfl hne
    | cons line others => simp [named]

mutual

theorem prettyAt_eq_lines (d : Document) (level : Nat) :
    prettyAt level d = (lineBreak level).intercalate (lines d) := by
  match d with
  | .null | .boolean _ | .integer _ | .real _ | .text _ => exact String.intercalate_singleton.symm
  | .array items =>
    rw [prettyAt, lines, intercalate_bracketed _ _ _ (forall_linesItems items),
      prettyItems_eq_lines items (level + 1)]
  | .table entries =>
    rw [prettyAt, lines, intercalate_bracketed _ _ _ (forall_linesEntries entries),
      prettyEntries_eq_lines entries (level + 1)]

theorem prettyItems_eq_lines (items : List Document) (level : Nat) :
    prettyItems level items = (linesItems items).map (lineBreak level).intercalate := by
  match items with
  | [] => rfl
  | d :: rest =>
    exact congrArg₂ List.cons (prettyAt_eq_lines d level) (prettyItems_eq_lines rest level)

theorem prettyEntries_eq_lines (entries : List (String × Document)) (level : Nat) :
    prettyEntries level entries = (linesEntries entries).map (lineBreak level).intercalate := by
  match entries with
  | [] => rfl
  | (name, d) :: rest =>
    rw [prettyEntries, linesEntries, List.map_cons, intercalate_named _ _ (lines_ne_nil d),
      prettyAt_eq_lines d level, prettyEntries_eq_lines rest level]

end

theorem pretty_eq_lines (d : Document) : pretty d = "\n".intercalate (lines d) :=
  prettyAt_eq_lines d 0

/-- Each bracket that is not empty stands at the end of a line, its end at the front of one. -/
example : lines (.table [("a", .array []), ("b", .array [.table [], .boolean true])]) =
    ["\x7b", "  \"a\": [],", "  \"b\": [", "    \x7b\x7d,", "    true", "  ]", "\x7d"] := by
  decide

end BrokerPolicy.Json
