import BrokerPolicy.Field.Reader
import BrokerPolicy.Proofs.Field.Document
import BrokerPolicy.Proofs.Toml.Tree
import Mathlib.Data.List.Forall2

set_option autoImplicit false

/-!
Field values read off TOML trees. Every such tree has a value, of its own kind at every depth: a
tree says what it is, so nothing is dropped or taken for something else.
-/

namespace BrokerPolicy

/-- A document says a value. The entries of a table may stand in any order in the document. -/
inductive Document.Says : Document → FieldValue → Prop
  | bool (b : Bool) : Says (.boolean b) (.bool b)
  | int (i : Int64) : Says (.integer i.toInt) (.int i)
  | float (x : Binary64) : Says (.real x) (.float x)
  | string (s : String) : Says (.text s) (.string s)
  | array {ds : List Document} {vs : List FieldValue} (items : List.Forall₂ Says ds vs) :
    Says (.array ds) (.array vs)
  | table {ds : List (String × Document)} {t : FieldTable} (sorted : t.Sorted)
    (names : ∀ name, name ∈ t.names ↔ name ∈ ds.map Prod.fst)
    (entries : ∀ e ∈ ds, ∀ v, t.find? e.1 = some v → Says e.2 v) : Says (.table ds) (.table t)

namespace FieldValue

open Toml (IsTree)

theorem says_ofList {ds : List (String × Document)} {es : List (String × FieldValue)}
    (distinct : (ds.map Prod.fst).Nodup) (names : es.map Prod.fst = ds.map Prod.fst)
    (entries : ∀ e ∈ ds, ∃ v, (e.1, v) ∈ es ∧ e.2.Says v) :
    (Document.table ds).Says (.table (OrderedTable.ofList es)) := by
  refine .table (OrderedTable.sorted_ofList es) ?_ ?_
  · intro name
    rw [OrderedTable.mem_names_ofList, names]
  · intro e he v hv
    obtain ⟨w, hw, hsays⟩ := entries e he
    have hlast : OrderedTable.lastOf es e.1 = some w :=
      OrderedTable.lastOf_of_nodup (names ▸ distinct) hw
    -- The entry is the only one of its name, so the table holds its value.
    rw [OrderedTable.find?_ofList, hlast] at hv
    cases hv
    exact hsays

mutual

theorem exists_says {d : Document} (h : IsTree d) : ∃ v, ofDocument? d = some v ∧ d.Says v := by
  match d, h with
  | .boolean b, _ => exact ⟨.bool b, rfl, .bool b⟩
  | .integer i, .integer low high =>
    have hint : (Int64.ofInt i).toInt = i := by
      rw [Int64.toInt_maxValue] at high
      exact Int64.toInt_ofInt_of_le low (by omega)
    have hvalue : ofInteger i = .int (Int64.ofInt i) := if_pos ⟨low, high⟩
    have hsays : (Document.integer (Int64.ofInt i).toInt).Says (.int (Int64.ofInt i)) :=
      .int (Int64.ofInt i)
    rw [hint] at hsays
    exact ⟨.int (Int64.ofInt i), congrArg some hvalue, hsays⟩
  | .real x, _ => exact ⟨.float x, rfl, .float x⟩
  | .text s, _ => exact ⟨.string s, rfl, .string s⟩
  | .array items, .array parts =>
    obtain ⟨vs, hvs, hsays⟩ := exists_saysItems parts
    exact ⟨.array vs, by rw [ofDocument?, hvs, Option.map_some], .array hsays⟩
  | .table entries, .table distinct parts =>
    obtain ⟨es, hes, hnames, hsays⟩ := exists_saysEntries parts
    exact ⟨_, by rw [ofDocument?, hes, Option.map_some], says_ofList distinct hnames hsays⟩

theorem exists_saysItems {items : List Document} (h : ∀ d ∈ items, IsTree d) :
    ∃ vs, ofItems? items = some vs ∧ List.Forall₂ Document.Says items vs := by
  match items with
  | [] => exact ⟨[], rfl, .nil⟩
  | d :: rest =>
    rw [List.forall_mem_cons] at h
    obtain ⟨v, hv, hsays⟩ := exists_says h.1
    obtain ⟨vs, hvs, hrest⟩ := exists_saysItems h.2
    exact ⟨v :: vs, by rw [ofItems?, hv, hvs]; rfl, .cons hsays hrest⟩

theorem exists_saysEntries {entries : List (String × Document)} (h : ∀ e ∈ entries, IsTree e.2) :
    ∃ es, ofEntries? entries = some es ∧ es.map Prod.fst = entries.map Prod.fst ∧
      ∀ e ∈ entries, ∃ v, (e.1, v) ∈ es ∧ e.2.Says v := by
  match entries with
  | [] => exact ⟨[], rfl, rfl, by simp⟩
  | (name, d) :: rest =>
    rw [List.forall_mem_cons] at h
    obtain ⟨v, hv, hsays⟩ := exists_says h.1
    obtain ⟨es, hes, hnames, hrest⟩ := exists_saysEntries h.2
    refine ⟨(name, v) :: es, by rw [ofEntries?, hv, hes]; rfl, by simp [hnames], ?_⟩
    rw [List.forall_mem_cons]
    refine ⟨⟨v, List.mem_cons_self, hsays⟩, fun e he => ?_⟩
    obtain ⟨w, hw, hsays⟩ := hrest e he
    exact ⟨w, List.mem_cons_of_mem _ hw, hsays⟩

end

theorem ofDraft_draft {d : Document} {v : FieldValue} (h : ofDocument? d = some v) :
    ofDraft d.draft = .ok v := by
  rw [ofDraft, Draft.document?_draft]
  simp only [h]

theorem entriesOfDraft_draft {entries : List (String × Document)}
    {es : List (String × FieldValue)} (h : ofEntries? entries = some es) :
    entriesOfDraft (Document.draftEntries entries) = .ok es := by
  induction entries generalizing es with
  | nil =>
    cases h
    rfl
  | cons e rest ih =>
    obtain ⟨v, hv, others, hothers, rfl⟩ :
        ∃ v, ofDocument? e.2 = some v ∧
          ∃ others, ofEntries? rest = some others ∧ (e.1, v) :: others = es := by
      simpa [ofEntries?, Option.bind_eq_some_iff] using h
    rw [Document.draftEntries, entriesOfDraft, ofDraft_draft hv, ih hothers]
    rfl

theorem tableOfDraft_table {entries : List (String × Document)} (h : IsTree (.table entries)) :
    ∃ t, tableOfDraft (Document.table entries).draft = .ok t ∧
      (Document.table entries).Says (.table t) := by
  cases h with
  | table distinct parts =>
    obtain ⟨es, hes, hnames, hsays⟩ := exists_saysEntries parts
    refine ⟨OrderedTable.ofList es, ?_, says_ofList distinct hnames hsays⟩
    rw [Document.draft, tableOfDraft, entriesOfDraft_draft hes]
    rfl

end FieldValue

end BrokerPolicy
