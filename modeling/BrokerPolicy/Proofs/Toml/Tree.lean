import BrokerPolicy.Toml.Assembly
import BrokerPolicy.Proofs.OrderedTable
import Mathlib.Data.List.Nodup

set_option autoImplicit false

/-!
The trees that TOML texts denote, and the tables that are built up while one is read. A name is
given to a table once, whichever way the table is entered.
-/

namespace BrokerPolicy.Toml

/-- Nothing is null, integers have 64 bits, and the names in a table are distinct. -/
inductive IsTree : Document → Prop
  | boolean (b : Bool) : IsTree (.boolean b)
  | integer {i : Int} (low : Int64.minValue.toInt ≤ i) (high : i ≤ Int64.maxValue.toInt) :
    IsTree (.integer i)
  | real (x : Binary64) : IsTree (.real x)
  | text (s : String) : IsTree (.text s)
  | array {items : List Document} (parts : ∀ d ∈ items, IsTree d) : IsTree (.array items)
  | table {entries : List (String × Document)} (distinct : (entries.map Prod.fst).Nodup)
    (parts : ∀ e ∈ entries, IsTree e.2) : IsTree (.table entries)

inductive Node.IsTree : Node → Prop
  | value {d : Document} (whole : Toml.IsTree d) : IsTree (.value d)
  | table {origin : Origin} {es : Entries} (distinct : (es.map Prod.fst).Nodup)
    (parts : ∀ e ∈ es, IsTree e.2) : IsTree (.table origin es)
  | tables {elements : List Entries} (distinct : ∀ es ∈ elements, (es.map Prod.fst).Nodup)
    (parts : ∀ es ∈ elements, ∀ e ∈ es, IsTree e.2) : IsTree (.tables elements)

structure AreTree (es : Entries) : Prop where
  distinct : (es.map Prod.fst).Nodup
  parts : ∀ e ∈ es, e.2.IsTree

theorem areTree_nil : AreTree [] := ⟨List.nodup_nil, by simp⟩

theorem isTree_table {origin : Origin} {es : Entries} (h : AreTree es) :
    (Node.table origin es).IsTree := .table h.distinct h.parts

theorem isTree_tables {elements : List Entries} (h : ∀ es ∈ elements, AreTree es) :
    (Node.tables elements).IsTree :=
  .tables (fun es hes => (h es hes).distinct) fun es hes => (h es hes).parts

theorem AreTree.of_table {origin : Origin} {es : Entries} (h : (Node.table origin es).IsTree) :
    AreTree es := by
  cases h with
  | table distinct parts => exact ⟨distinct, parts⟩

theorem AreTree.of_tables {elements : List Entries} (h : (Node.tables elements).IsTree) :
    ∀ es ∈ elements, AreTree es := by
  cases h with
  | tables distinct parts => exact fun es hes => ⟨distinct es hes, parts es hes⟩

theorem AreTree.of_lookup {es : Entries} (h : AreTree es) {name : String} {n : Node}
    (hn : es.lookup name = some n) : n.IsTree := by
  obtain ⟨before, after, rfl, _⟩ := List.lookup_eq_some_iff.1 hn
  exact h.parts (name, n) (by simp)

theorem AreTree.concat {es : Entries} (h : AreTree es) {name : String} {n : Node}
    (hname : es.lookup name = none) (hn : n.IsTree) : AreTree (es ++ [(name, n)]) where
  distinct := by
    have hfresh : name ∉ es.map Prod.fst := (OrderedTable.find?_eq_none_iff es name).1 hname
    have hnames : (es ++ [(name, n)]).map Prod.fst = (es.map Prod.fst).concat name := by simp
    rw [hnames]
    exact h.distinct.concat hfresh
  parts := by
    rw [List.forall_mem_append, List.forall_mem_singleton]
    exact ⟨h.parts, hn⟩

theorem map_fst_replace (name : String) (n : Node) (es : Entries) :
    (replace name n es).map Prod.fst = es.map Prod.fst := by
  induction es with
  | nil => rfl
  | cons e rest ih =>
    obtain ⟨m, x⟩ := e
    rw [replace]
    split_ifs
    · rfl
    · exact congrArg (m :: ·) ih

theorem AreTree.replace {es : Entries} (h : AreTree es) (name : String) {n : Node}
    (hn : n.IsTree) : AreTree (replace name n es) where
  distinct := by
    rw [map_fst_replace]
    exact h.distinct
  parts := by
    have hparts := h.parts
    clear h
    induction es with
    | nil => simp [Toml.replace]
    | cons e rest ih =>
      obtain ⟨m, x⟩ := e
      rw [List.forall_mem_cons] at hparts
      rw [Toml.replace]
      split_ifs
      · exact List.forall_mem_cons.2 ⟨hn, hparts.2⟩
      · exact List.forall_mem_cons.2 ⟨hparts.1, ih hparts.2⟩

theorem AreTree.filter {es : Entries} (h : AreTree es) (p : String × Node → Bool) :
    AreTree (es.filter p) where
  distinct := h.distinct.sublist (List.filter_sublist.map Prod.fst)
  parts := fun e he => h.parts e (List.mem_of_mem_filter he)

/-- A change that makes tables of distinct names into such tables. -/
def Keeps (change : Entries → Option Entries) : Prop :=
  ∀ es es', AreTree es → change es = some es' → AreTree es'

theorem keeps_changeAt {change : Origin → Entries → Option Entries}
    (hchange : ∀ origin, Keeps (change origin)) (made : Origin) (path : List String)
    (origin : Origin) : Keeps (changeAt made change path origin) := by
  -- Along the path: the table that is entered at each step is a part of the one before.
  induction path generalizing origin with
  | nil => exact hchange origin
  | cons name path ih =>
    intro es es' h hes
    cases hl : es.lookup name with
    | none =>
      obtain ⟨inner, hinner, rfl⟩ : ∃ inner, changeAt made change path made [] = some inner ∧
          es ++ [(name, .table made inner)] = es' := by
        simpa [changeAt, hl, Option.bind_eq_some_iff] using hes
      exact h.concat hl (isTree_table (ih made [] inner areTree_nil hinner))
    | some n =>
      have hn := h.of_lookup hl
      cases n with
      | value d => simp [changeAt, hl] at hes
      | table entered inner =>
        obtain ⟨_, inner', hinner, rfl⟩ : ¬ (made = .dotted ∧ entered = .declared) ∧
            ∃ inner', changeAt made change path entered inner = some inner' ∧
              replace name (.table entered inner') es = es' := by
          simpa [changeAt, hl, Option.bind_eq_some_iff] using hes
        exact h.replace name (isTree_table (ih entered inner inner' (.of_table hn) hinner))
      | tables elements =>
        cases elements with
        | nil => simp [changeAt, hl] at hes
        | cons last others =>
          obtain ⟨last', hlast, rfl⟩ : ∃ last', changeAt made change path .declared last =
              some last' ∧ replace name (.tables (last' :: others)) es = es' := by
            simpa [changeAt, hl, Option.bind_eq_some_iff] using hes
          have helements := List.forall_mem_cons.1 (AreTree.of_tables hn)
          apply h.replace name
          apply isTree_tables
          exact List.forall_mem_cons.2 ⟨ih .declared last last' helements.1 hlast, helements.2⟩

theorem keeps_addEntry (key : Key) {n : Node} (hn : n.IsTree) (origin : Origin) :
    Keeps (addEntry key n origin) := by
  apply keeps_changeAt
  intro entered es es' h hes
  dsimp only at hes
  split_ifs at hes with _ hname
  rw [← Option.some.inj hes]
  exact h.concat (Option.not_isSome_iff_eq_none.1 hname) hn

theorem keeps_openTable (key : Key) : Keeps (openTable key) := by
  apply keeps_changeAt
  intro _ es es' h hes
  cases hl : es.lookup key.last with
  | none =>
    have hes' : es ++ [(key.last, .table .declared [])] = es' := by simpa [hl] using hes
    exact hes' ▸ h.concat hl (isTree_table areTree_nil)
  | some n =>
    have hn := h.of_lookup hl
    cases n with
    | value d => simp [hl] at hes
    | tables elements => simp [hl] at hes
    | table origin inner =>
      cases origin with
      | declared => simp [hl] at hes
      | dotted => simp [hl] at hes
      | implied =>
        have hes' : es.filter (·.1 ≠ key.last) ++ [(key.last, .table .declared inner)] = es' := by
          simpa [hl] using hes
        have hgone : (es.filter (·.1 ≠ key.last)).lookup key.last = none := by
          rw [List.lookup_eq_none_iff]
          intro e he
          have hne : e.1 ≠ key.last := of_decide_eq_true (List.mem_filter.1 he).2
          exact bne_iff_ne.2 hne.symm
        exact hes' ▸ (h.filter _).concat hgone (isTree_table (.of_table hn))

theorem keeps_openElement (key : Key) : Keeps (openElement key) := by
  apply keeps_changeAt
  intro _ es es' h hes
  cases hl : es.lookup key.last with
  | none =>
    have hes' : es ++ [(key.last, .tables [[]])] = es' := by simpa [hl] using hes
    exact hes' ▸ h.concat hl (isTree_tables (List.forall_mem_singleton.2 areTree_nil))
  | some n =>
    have hn := h.of_lookup hl
    cases n with
    | value d => simp [hl] at hes
    | table origin inner => simp [hl] at hes
    | tables elements =>
      have hes' : replace key.last (.tables ([] :: elements)) es = es' := by simpa [hl] using hes
      have helements := List.forall_mem_cons.2 ⟨areTree_nil, AreTree.of_tables hn⟩
      exact hes' ▸ h.replace key.last (isTree_tables helements)

theorem keeps_addBelow (header : List String) (key : Key) {n : Node} (hn : n.IsTree) :
    Keeps (addBelow header key n) :=
  keeps_changeAt (keeps_addEntry key hn) .implied header .declared

theorem map_fst_documentEntries (es : Entries) :
    (documentEntries es).map Prod.fst = es.map Prod.fst := by
  induction es with
  | nil => rfl
  | cons e rest ih => exact congrArg (e.1 :: ·) ih

theorem isTree_of_documentEntries {es : Entries} (h : (es.map Prod.fst).Nodup)
    (hparts : ∀ e ∈ documentEntries es, IsTree e.2) : IsTree (.table (documentEntries es)) := by
  refine .table ?_ hparts
  rw [map_fst_documentEntries]
  exact h

mutual

theorem isTree_document {n : Node} (h : n.IsTree) : IsTree n.document := by
  match n with
  | .value d =>
    cases h with
    | value whole => exact whole
  | .table origin es =>
    have hes := AreTree.of_table h
    exact isTree_of_documentEntries hes.distinct (isTree_documentEntries hes.parts)
  | .tables elements =>
    refine .array fun d hd => ?_
    exact isTree_documentElements (AreTree.of_tables h) d (List.mem_reverse.1 hd)

theorem isTree_documentEntries {es : List (String × Node)} (h : ∀ e ∈ es, e.2.IsTree) :
    ∀ e ∈ documentEntries es, IsTree e.2 := by
  match es with
  | [] => simp [documentEntries]
  | (name, n) :: rest =>
    rw [List.forall_mem_cons] at h
    exact List.forall_mem_cons.2 ⟨isTree_document h.1, isTree_documentEntries h.2⟩

theorem isTree_documentElements {elements : List (List (String × Node))}
    (h : ∀ es ∈ elements, AreTree es) : ∀ d ∈ documentElements elements, IsTree d := by
  match elements with
  | [] => simp [documentElements]
  | es :: rest =>
    rw [List.forall_mem_cons] at h
    have hes := isTree_of_documentEntries h.1.distinct (isTree_documentEntries h.1.parts)
    exact List.forall_mem_cons.2 ⟨hes, isTree_documentElements h.2⟩

end

theorem AreTree.isTree {es : Entries} (h : AreTree es) : IsTree (.table (documentEntries es)) :=
  isTree_of_documentEntries h.distinct (isTree_documentEntries h.parts)

end BrokerPolicy.Toml
