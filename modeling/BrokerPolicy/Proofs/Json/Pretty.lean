import BrokerPolicy.Proofs.Json.Legible

set_option autoImplicit false

/-!
The indented text of a document denotes the same tree as its compact text. Indentation only puts
blanks around brackets, commas and colons, so parts that are read on one level are read on all.
-/

namespace BrokerPolicy.Json

theorem toList_lineBreak (level : Nat) :
    (lineBreak level).toList = '\n' :: List.replicate (2 * level) ' ' := by
  rw [lineBreak, toList_pushn]
  simp

theorem blank_lineBreak (level : Nat) : Blank (lineBreak level).toList := by
  rw [toList_lineBreak]
  intro c hc
  rcases List.mem_cons.1 hc with rfl | hc
  · rfl
  · rw [List.eq_of_mem_replicate hc]
    rfl

theorem toList_enclose_nil (opening closing : String) (level : Nat) :
    (enclose opening closing level []).toList = opening.toList ++ closing.toList :=
  String.toList_append

theorem toList_enclose_cons (opening closing : String) (level : Nat) (part : String)
    (others : List String) :
    (enclose opening closing level (part :: others)).toList =
      opening.toList ++ ((lineBreak (level + 1)).toList ++
        ((',' :: (lineBreak (level + 1)).toList).intercalate ((part :: others).map String.toList) ++
          ((lineBreak level).toList ++ closing.toList))) := by
  rw [enclose, if_neg (by simp)]
  simp [String.toList_append, String.toList_intercalate]

theorem exists_blanks_enclose (opening closing : String) (level : Nat) (parts : List String) :
    ∃ lead gap trail : List Char, Blank lead ∧ Blank gap ∧ Blank trail ∧
      (enclose opening closing level parts).toList =
        opening.toList ++ (lead ++ ((',' :: gap).intercalate (parts.map String.toList) ++
          (trail ++ closing.toList))) := by
  cases parts with
  | nil => exact ⟨[], [], [], blank_nil, blank_nil, blank_nil, toList_enclose_nil _ _ _⟩
  | cons part others =>
    exact ⟨_, _, _, blank_lineBreak _, blank_lineBreak _, blank_lineBreak _,
      toList_enclose_cons _ _ _ _ _⟩

theorem toList_prettyMember (name value : String) :
    (Text.jsonQuoted name ++ ": " ++ value).toList =
      (Text.jsonQuoted name).toList ++ ([] ++ ':' :: ([' '] ++ value.toList)) := by
  simp [String.toList_append]

theorem blank_space : Blank [' '] := by
  intro c hc
  rw [List.mem_singleton.1 hc]
  rfl

mutual

theorem reads_prettyAt (d : Document) (level : Nat) {depth : Nat} (hdepth : d.depth ≤ depth)
    (hd : d.NumbersIn Legible) :
    Reads (value depth) (prettyAt level d).toList d.reread.draft := by
  match d with
  -- a leaf has one text, whatever the level
  | .null => exact reads_compact .null hdepth hd
  | .boolean b => exact reads_compact (.boolean b) hdepth hd
  | .integer i => exact reads_compact (.integer i) hdepth hd
  | .text s => exact reads_compact (.text s) hdepth hd
  | .real x => exact reads_compact (.real x) hdepth hd
  | .array items =>
    obtain ⟨n, rfl⟩ := Nat.exists_eq_succ_of_ne_zero (Nat.ne_of_gt (Nat.zero_lt_of_lt hdepth))
    have hitems := reads_prettyItems items (level + 1) (Nat.le_of_succ_le_succ hdepth) hd
    obtain ⟨lead, gap, trail, hlead, hgap, htrail, htext⟩ :=
      exists_blanks_enclose "[" "]" level (prettyItems (level + 1) items)
    rw [prettyAt, htext]
    exact reads_array hgap hlead htrail hitems
  | .table entries =>
    obtain ⟨n, rfl⟩ := Nat.exists_eq_succ_of_ne_zero (Nat.ne_of_gt (Nat.zero_lt_of_lt hdepth))
    have hentries := reads_prettyEntries entries (level + 1) (Nat.le_of_succ_le_succ hdepth) hd
    obtain ⟨lead, gap, trail, hlead, hgap, htrail, htext⟩ :=
      exists_blanks_enclose "\x7b" "\x7d" level (prettyEntries (level + 1) entries)
    rw [prettyAt, htext]
    exact reads_table hgap hlead htrail hentries

theorem reads_prettyItems (items : List Document) (level : Nat) {depth : Nat}
    (hdepth : Document.depthItems items ≤ depth) (hd : Document.NumbersInItems Legible items) :
    List.Forall₂ (Reads (value depth)) ((prettyItems level items).map String.toList)
      (Document.draftItems (Document.rereadItems items)) := by
  match items with
  | [] => exact .nil
  | d :: rest =>
    have hmax := Nat.max_le.mp hdepth
    exact .cons (reads_prettyAt d level hmax.1 hd.1) (reads_prettyItems rest level hmax.2 hd.2)

theorem reads_prettyEntries (entries : List (String × Document)) (level : Nat) {depth : Nat}
    (hdepth : Document.depthEntries entries ≤ depth)
    (hd : Document.NumbersInEntries Legible entries) :
    List.Forall₂ (ReadsMember (value depth)) ((prettyEntries level entries).map String.toList)
      (Document.draftEntries (Document.rereadEntries entries)) := by
  match entries with
  | [] => exact .nil
  | (name, d) :: rest =>
    have hmax := Nat.max_le.mp hdepth
    have hmember := reads_member (spellsText_jsonQuoted name) blank_nil blank_space
      (reads_prettyAt d level hmax.1 hd.1)
    rw [← toList_prettyMember] at hmember
    exact .cons hmember (reads_prettyEntries rest level hmax.2 hd.2)

end

/-- A text that a reader of a given depth takes for a whole tree. -/
def Denotes (depth : Nat) (text : String) (tree : Document) : Prop :=
  value depth text.toList = (tree.draft, some [])

theorem denotes_of_reads {depth : Nat} {text : String} {tree : Document}
    (h : Reads (value depth) text.toList tree.draft) : Denotes depth text tree := by
  have hvalue := h.read blank_nil stops_nil
  rw [List.nil_append, List.append_nil] at hvalue
  exact hvalue

theorem Denotes.unique {depth : Nat} {text : String} {s t : Document} (hs : Denotes depth text s)
    (ht : Denotes depth text t) : s = t := by
  have hdraft : s.draft = t.draft := congrArg Prod.fst (hs.symm.trans ht)
  have hsome : some s = some t := by
    rw [← Draft.document?_draft s, hdraft, Draft.document?_draft]
  exact Option.some.inj hsome

theorem Denotes.document? {text : String} {tree : Document} (h : Denotes maxDepth text tree) :
    Json.document? text = some tree := by
  have hread : read text = ⟨tree.draft, true⟩ := by
    rw [read, h]
    rfl
  rw [Json.document?, hread]
  exact Draft.document?_draft tree

section Document

variable (d : Document) (hd : d.NumbersIn fun _ => True) {depth : Nat} (hdepth : d.depth ≤ depth)
include hd hdepth

theorem denotes_pretty : Denotes depth (pretty d) d.reread :=
  denotes_of_reads (reads_prettyAt d 0 hdepth (hd.mono fun x _ => legible x))

theorem denotes_compact : Denotes depth (compact d) d.reread :=
  denotes_of_reads (reads_compact d hdepth (hd.mono fun x _ => legible x))

end Document

/-- Empty containers have no line of their own. -/
example : pretty (.table [("a", .array []), ("b", .array [.table [], .boolean true])]) =
    "\x7b\n  \"a\": [],\n  \"b\": [\n    \x7b\x7d,\n    true\n  ]\n\x7d" := by
  decide +kernel

end BrokerPolicy.Json
