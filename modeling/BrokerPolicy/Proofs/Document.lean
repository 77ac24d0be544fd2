import BrokerPolicy.Document
import Mathlib.Order.Lattice
import Mathlib.Algebra.Order.Group.Int

set_option autoImplicit false

/-!
Measures of a document, and the documents of drafts. What holds of a list of parts is stated of its
members, so that an argument about one part carries over to arrays and tables.
-/

namespace BrokerPolicy

namespace Document

mutual

def depth : Document → Nat
  | .array items => depthItems items + 1
  | .table entries => depthEntries entries + 1
  | _ => 0

def depthItems : List Document → Nat
  | [] => 0
  | d :: rest => max (depth d) (depthItems rest)

def depthEntries : List (String × Document) → Nat
  | [] => 0
  | (_, d) :: rest => max (depth d) (depthEntries rest)

end

mutual

/-- Every integer is one that a JSON text keeps as an integer, and every double is as wanted. -/
def NumbersIn (p : Binary64 → Prop) : Document → Prop
  | .integer i => -2 ^ 63 ≤ i ∧ i < 2 ^ 64
  | .real x => p x
  | .array items => NumbersInItems p items
  | .table entries => NumbersInEntries p entries
  | _ => True

def NumbersInItems (p : Binary64 → Prop) : List Document → Prop
  | [] => True
  | d :: rest => NumbersIn p d ∧ NumbersInItems p rest

def NumbersInEntries (p : Binary64 → Prop) : List (String × Document) → Prop
  | [] => True
  | (_, d) :: rest => NumbersIn p d ∧ NumbersInEntries p rest

end

mutual

def HasNull : Document → Prop
  | .null => True
  | .array items => HasNullItems items
  | .table entries => HasNullEntries entries
  | _ => False

def HasNullItems : List Document → Prop
  | [] => False
  | d :: rest => HasNull d ∨ HasNullItems rest

def HasNullEntries : List (String × Document) → Prop
  | [] => False
  | (_, d) :: rest => HasNull d ∨ HasNullEntries rest

end

@[elab_as_elim]
theorem induction {p : Document → Prop} (null : p .null) (boolean : ∀ b, p (.boolean b))
    (integer : ∀ i, p (.integer i)) (real : ∀ x, p (.real x)) (text : ∀ s, p (.text s))
    (array : ∀ items, (∀ d ∈ items, p d) → p (.array items))
    (table : ∀ entries : List (String × Document), (∀ e ∈ entries, p e.2) → p (.table entries))
    (d : Document) : p d := by
  refine @Document.rec p (fun items => ∀ d ∈ items, p d) (fun entries => ∀ e ∈ entries, p e.2)
    (fun e => p e.2) null boolean integer real text array table ?_ ?_ ?_ ?_ ?_ d
  · exact fun d hd => absurd hd List.not_mem_nil
  · exact fun d ds hd hds => List.forall_mem_cons.2 ⟨hd, hds⟩
  · exact fun e he => absurd he List.not_mem_nil
  · exact fun e es he hes => List.forall_mem_cons.2 ⟨he, hes⟩
  · exact fun _ _ hd => hd

theorem depthItems_le_iff (items : List Document) (n : Nat) :
    depthItems items ≤ n ↔ ∀ d ∈ items, d.depth ≤ n := by
  induction items with
  | nil => simp [depthItems]
  | cons d rest ih => rw [depthItems, Nat.max_le, ih, List.forall_mem_cons]

theorem depthEntries_le_iff (entries : List (String × Document)) (n : Nat) :
    depthEntries entries ≤ n ↔ ∀ e ∈ entries, e.2.depth ≤ n := by
  induction entries with
  | nil => simp [depthEntries]
  | cons e rest ih => rw [depthEntries, Nat.max_le, ih, List.forall_mem_cons]

theorem numbersInItems_iff (p : Binary64 → Prop) (items : List Document) :
    NumbersInItems p items ↔ ∀ d ∈ items, d.NumbersIn p := by
  induction items with
  | nil => simp [NumbersInItems]
  | cons d rest ih => rw [NumbersInItems, ih, List.forall_mem_cons]

theorem numbersInEntries_iff (p : Binary64 → Prop) (entries : List (String × Document)) :
    NumbersInEntries p entries ↔ ∀ e ∈ entries, e.2.NumbersIn p := by
  induction entries with
  | nil => simp [NumbersInEntries]
  | cons e rest ih => rw [NumbersInEntries, ih, List.forall_mem_cons]

mutual

theorem NumbersIn.mono {p q : Binary64 → Prop} {d : Document} (h : d.NumbersIn p)
    (hpq : ∀ x, p x → q x) : d.NumbersIn q := by
  match d with
  | .null | .boolean _ | .text _ => trivial
  | .integer i => exact h
  | .real x => exact hpq x h
  | .array items => exact NumbersInItems.mono h hpq
  | .table entries => exact NumbersInEntries.mono h hpq

theorem NumbersInItems.mono {p q : Binary64 → Prop} {items : List Document}
    (h : NumbersInItems p items) (hpq : ∀ x, p x → q x) : NumbersInItems q items := by
  match items with
  | [] => trivial
  | d :: rest => exact ⟨h.1.mono hpq, NumbersInItems.mono h.2 hpq⟩

theorem NumbersInEntries.mono {p q : Binary64 → Prop} {entries : List (String × Document)}
    (h : NumbersInEntries p entries) (hpq : ∀ x, p x → q x) : NumbersInEntries q entries := by
  match entries with
  | [] => trivial
  | (_, d) :: rest => exact ⟨h.1.mono hpq, NumbersInEntries.mono h.2 hpq⟩

end

end Document

namespace Draft

mutual

@[simp]
theorem document?_draft (d : Document) : d.draft.document? = some d := by
  match d with
  | .null | .boolean _ | .integer _ | .real _ | .text _ => rfl
  | .array items =>
    change (documentItems? (Document.draftItems items)).map Document.array = _
    rw [documentItems?_draftItems, Option.map_some]
  | .table entries =>
    change (documentEntries? (Document.draftEntries entries)).map Document.table = _
    rw [documentEntries?_draftEntries, Option.map_some]

theorem documentItems?_draftItems (items : List Document) :
    documentItems? (Document.draftItems items) = some items := by
  match items with
  | [] => rfl
  | d :: rest =>
    rw [Document.draftItems, documentItems?, document?_draft, documentItems?_draftItems rest]
    rfl

theorem documentEntries?_draftEntries (entries : List (String × Document)) :
    documentEntries? (Document.draftEntries entries) = some entries := by
  match entries with
  | [] => rfl
  | (name, d) :: rest =>
    rw [Document.draftEntries, documentEntries?, document?_draft,
      documentEntries?_draftEntries rest]
    rfl

end

def Yields (p : Document → Prop) (draft : Draft) : Prop :=
  ∀ d, draft.document? = some d → p d

theorem yields_fault (p : Document → Prop) : Yields p .fault := by
  intro d hd
  cases hd

theorem yields_items {p : Document → Prop} {ds : List Draft} (h : ∀ d ∈ ds, Yields p d)
    {items : List Document} (hitems : documentItems? ds = some items) : ∀ d ∈ items, p d := by
  induction ds generalizing items with
  | nil =>
    cases hitems
    simp
  | cons d rest ih =>
    obtain ⟨first, hfirst, others, hothers, rfl⟩ :
        ∃ first, d.document? = some first ∧
          ∃ others, documentItems? rest = some others ∧ first :: others = items := by
      simpa [documentItems?, Option.bind_eq_some_iff] using hitems
    rw [List.forall_mem_cons] at h ⊢
    exact ⟨h.1 first hfirst, ih h.2 hothers⟩

theorem yields_entries {p : Document → Prop} {ds : List (String × Draft)}
    (h : ∀ e ∈ ds, Yields p e.2) {entries : List (String × Document)}
    (hentries : documentEntries? ds = some entries) : ∀ e ∈ entries, p e.2 := by
  induction ds generalizing entries with
  | nil =>
    cases hentries
    simp
  | cons e rest ih =>
    obtain ⟨first, hfirst, others, hothers, rfl⟩ :
        ∃ first, e.2.document? = some first ∧
          ∃ others, documentEntries? rest = some others ∧ (e.1, first) :: others = entries := by
      simpa [documentEntries?, Option.bind_eq_some_iff] using hentries
    rw [List.forall_mem_cons] at h ⊢
    exact ⟨h.1 first hfirst, ih h.2 hothers⟩

end Draft

end BrokerPolicy
