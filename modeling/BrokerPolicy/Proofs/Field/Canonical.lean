import BrokerPolicy.Field.Reader
import BrokerPolicy.Proofs.Field.Document
import BrokerPolicy.Proofs.Schema
import BrokerPolicy.Proofs.Text.ByteOrder
import Mathlib.Data.List.Forall2

set_option autoImplicit false

/-!
Values with all their tables in order, and the documents they are read off. A reader puts every table
in order, at any depth, so documents that differ only in the order of their entries and in entries
that are overridden are read as one value.
-/

namespace BrokerPolicy

/-- Documents that differ at most in the order of entries and in entries that a later one of the
same name overrides, at any depth. -/
inductive Document.Alike : Document → Document → Prop
  | refl (d : Document) : Alike d d
  | array {items items' : List Document} (h : List.Forall₂ Alike items items') :
    Alike (.array items) (.array items')
  | table {entries entries' : List (String × Document)}
    (h : ∀ name, Option.Rel Alike (OrderedTable.lastOf entries name)
      (OrderedTable.lastOf entries' name)) : Alike (.table entries) (.table entries')

namespace FieldValue

mutual

def tables : FieldValue → List FieldTable
  | .array items => tablesItems items
  | .table entries => entries :: tablesEntries entries
  | _ => []

def tablesItems : List FieldValue → List FieldTable
  | [] => []
  | v :: rest => tables v ++ tablesItems rest

def tablesEntries : List (String × FieldValue) → List FieldTable
  | [] => []
  | (_, v) :: rest => tables v ++ tablesEntries rest

end

theorem forall_tablesItems_iff (p : FieldTable → Prop) (items : List FieldValue) :
    (∀ t ∈ tablesItems items, p t) ↔ ∀ v ∈ items, ∀ t ∈ v.tables, p t := by
  induction items with
  | nil => simp [tablesItems]
  | cons v rest ih => rw [tablesItems, List.forall_mem_append, ih, List.forall_mem_cons]

theorem forall_tablesEntries_iff (p : FieldTable → Prop) (entries : List (String × FieldValue)) :
    (∀ t ∈ tablesEntries entries, p t) ↔ ∀ e ∈ entries, ∀ t ∈ e.2.tables, p t := by
  induction entries with
  | nil => simp [tablesEntries]
  | cons e rest ih => rw [tablesEntries, List.forall_mem_append, ih, List.forall_mem_cons]

/-- Every table in the value, at any depth, goes through its names in strictly ascending order of
their bytes. -/
def Ascending (v : FieldValue) : Prop :=
  ∀ t ∈ v.tables, t.names.Pairwise fun m n => Text.bytes m < Text.bytes n

theorem forall_tables_sorted_iff (v : FieldValue) :
    (∀ t ∈ v.tables, OrderedTable.Sorted t) ↔ v.Canonical := by
  induction v using FieldValue.induction with
  | bool _ | int _ | float _ | string _ => exact iff_of_true (by simp [tables]) trivial
  | array items ih =>
    rw [tables, Canonical, forall_tablesItems_iff, canonicalItems_iff]
    exact forall₂_congr ih
  | table entries ih =>
    rw [tables, Canonical, List.forall_mem_cons, forall_tablesEntries_iff, canonicalEntries_iff]
    exact and_congr_right fun _ => forall₂_congr ih

theorem ascending_iff_canonical (v : FieldValue) : v.Ascending ↔ v.Canonical := by
  rw [← forall_tables_sorted_iff]
  exact forall₂_congr fun t _ => List.Pairwise.iff fun m n => (Text.lt_iff_bytes_lt m n).symm

theorem forall₂_of_ofItems? {items : List Document} {vs : List FieldValue}
    (h : ofItems? items = some vs) :
    List.Forall₂ (fun d v => ofDocument? d = some v) items vs := by
  induction items generalizing vs with
  | nil =>
    cases h
    exact .nil
  | cons d rest ih =>
    obtain ⟨first, hfirst, hrest⟩ := Option.bind_eq_some_iff.1 h
    obtain ⟨others, hothers, hlist⟩ := Option.bind_eq_some_iff.1 hrest
    cases hlist
    exact .cons hfirst (ih hothers)

theorem forall₂_of_ofEntries? {entries : List (String × Document)}
    {es : List (String × FieldValue)} (h : ofEntries? entries = some es) :
    List.Forall₂ (fun d e => d.1 = e.1 ∧ ofDocument? d.2 = some e.2) entries es := by
  induction entries generalizing es with
  | nil =>
    cases h
    exact .nil
  | cons d rest ih =>
    obtain ⟨first, hfirst, hrest⟩ := Option.bind_eq_some_iff.1 h
    obtain ⟨others, hothers, hlist⟩ := Option.bind_eq_some_iff.1 hrest
    cases hlist
    exact .cons ⟨rfl, hfirst⟩ (ih hothers)

theorem rel_lastOf_of_ofEntries? {entries : List (String × Document)}
    {es : List (String × FieldValue)} (h : ofEntries? entries = some es) (name : String) :
    Option.Rel (fun d v => ofDocument? d = some v) (OrderedTable.lastOf entries name)
      (OrderedTable.lastOf es name) :=
  OrderedTable.rel_lastOf (forall₂_of_ofEntries? h) name

theorem forall_mem_of_forall₂ {α β : Type} {r : α → β → Prop} {p : β → Prop} {as : List α}
    {bs : List β} (h : List.Forall₂ r as bs) (hp : ∀ a ∈ as, ∀ b, r a b → p b) :
    ∀ b ∈ bs, p b := by
  induction h with
  | nil => exact fun b hb => absurd hb List.not_mem_nil
  | cons hab _ ih =>
    rw [List.forall_mem_cons] at hp ⊢
    exact ⟨hp.1 _ hab, ih hp.2⟩

theorem canonical_ofList {entries : List (String × FieldValue)}
    (h : ∀ e ∈ entries, e.2.Canonical) : (table (OrderedTable.ofList entries)).Canonical :=
  ⟨OrderedTable.sorted_ofList entries,
    (canonicalEntries_iff _).2 fun e he => h e (OrderedTable.mem_ofList he)⟩

theorem canonical_of_ofDocument? {d : Document} {v : FieldValue} (h : ofDocument? d = some v) :
    v.Canonical := by
  induction d using Document.induction generalizing v with
  | null => cases h
  | boolean _ | real _ | text _ =>
    cases h
    trivial
  | integer i =>
    cases h
    unfold ofInteger
    split_ifs <;> trivial
  | array items ih =>
    obtain ⟨vs, hvs, rfl⟩ := Option.map_eq_some_iff.1 h
    exact (canonicalItems_iff vs).2
      (forall_mem_of_forall₂ (forall₂_of_ofItems? hvs) fun d hd v hv => ih d hd hv)
  | table entries ih =>
    obtain ⟨es, hes, rfl⟩ := Option.map_eq_some_iff.1 h
    exact canonical_ofList
      (forall_mem_of_forall₂ (forall₂_of_ofEntries? hes) fun d hd e he => ih d hd he.2)

theorem exists_of_ofDraft {d : Draft} {v : FieldValue} (h : ofDraft d = .ok v) :
    ∃ tree, d.document? = some tree ∧ ofDocument? tree = some v := by
  rw [ofDraft] at h
  split at h
  · cases h
  · next tree htree =>
    split at h
    · cases h
    · next w hw =>
      cases h
      exact ⟨tree, htree, hw⟩

theorem exists_of_entriesOfDraft {ds : List (String × Draft)} {es : List (String × FieldValue)}
    (h : entriesOfDraft ds = .ok es) :
    ∃ entries, Draft.documentEntries? ds = some entries ∧ ofEntries? entries = some es := by
  induction ds generalizing es with
  | nil =>
    cases h
    exact ⟨[], rfl, rfl⟩
  | cons e rest ih =>
    obtain ⟨v, hv, hrest⟩ := Schema.exists_of_bind_eq_ok h
    obtain ⟨others, hothers, rfl⟩ := Schema.exists_of_map_eq_ok hrest
    obtain ⟨tree, htree, hvalue⟩ := exists_of_ofDraft hv
    obtain ⟨entries, hentries, hvalues⟩ := ih hothers
    refine ⟨(e.1, tree) :: entries, ?_, ?_⟩
    · rw [Draft.documentEntries?, htree, hentries]
      rfl
    · rw [ofEntries?, hvalue, hvalues]
      rfl

theorem exists_of_tableOfDraft {d : Draft} {t : FieldTable} (h : tableOfDraft d = .ok t) :
    ∃ tree, d.document? = some tree ∧ ofDocument? tree = some (.table t) := by
  cases d with
  | table ds closed =>
    obtain ⟨es, hes, hfinish⟩ := Schema.exists_of_bind_eq_ok h
    obtain ⟨hclosed, rfl⟩ := (Schema.finish_eq_ok_iff _ _ t).1 hfinish
    obtain ⟨entries, hentries, hvalues⟩ := exists_of_entriesOfDraft hes
    refine ⟨.table entries, ?_, ?_⟩
    · rw [Draft.document?, if_pos hclosed, hentries, Option.map_some]
    · rw [ofDocument?, hvalues, Option.map_some]
  | _ => cases h

theorem canonical_of_tableOfDraft {d : Draft} {t : FieldTable} (h : tableOfDraft d = .ok t) :
    (FieldValue.table t).Canonical := by
  obtain ⟨tree, -, hvalue⟩ := exists_of_tableOfDraft h
  exact canonical_of_ofDocument? hvalue

theorem exists_of_tableOfToml {source : String} {t : FieldTable} (h : tableOfToml source = .ok t) :
    ∃ entries, Toml.entries? source = some entries ∧
      ofDocument? (.table entries) = some (.table t) := by
  rw [tableOfToml] at h
  split at h
  · cases h
  · next entries hentries =>
    obtain ⟨tree, htree, hvalue⟩ := exists_of_tableOfDraft h
    rw [Draft.document?_draft] at htree
    cases htree
    exact ⟨entries, hentries, hvalue⟩

/-- A document that is alike is read as the same value, if both are read. -/
def DecidedByLast (d : Document) : Prop :=
  ∀ d', d.Alike d' → ∀ v v', ofDocument? d = some v → ofDocument? d' = some v' → v = v'

theorem items_eq_of_alike {items items' : List Document} (ih : ∀ d ∈ items, DecidedByLast d)
    (h : List.Forall₂ Document.Alike items items') {vs vs' : List FieldValue}
    (hvs : ofItems? items = some vs) (hvs' : ofItems? items' = some vs') : vs = vs' := by
  have hleft := forall₂_of_ofItems? hvs
  have hright := forall₂_of_ofItems? hvs'
  clear hvs hvs'
  induction h generalizing vs vs' with
  | nil =>
    cases hleft
    cases hright
    rfl
  | cons halike _ ihrest =>
    cases hleft with
    | cons hv hvs =>
    cases hright with
    | cons hv' hvs' =>
    rw [List.forall_mem_cons] at ih
    rw [ih.1 _ halike _ _ hv hv', ihrest ih.2 hvs hvs']

theorem lastOf_eq_of_alike {entries entries' : List (String × Document)} {name : String}
    (ih : ∀ e ∈ entries, DecidedByLast e.2)
    (h : Option.Rel Document.Alike (OrderedTable.lastOf entries name)
      (OrderedTable.lastOf entries' name)) {es es' : List (String × FieldValue)}
    (hes : ofEntries? entries = some es) (hes' : ofEntries? entries' = some es') :
    OrderedTable.lastOf es name = OrderedTable.lastOf es' name := by
  have hleft := rel_lastOf_of_ofEntries? hes name
  have hright := rel_lastOf_of_ofEntries? hes' name
  have hmem : ∀ d, OrderedTable.lastOf entries name = some d → (name, d) ∈ entries :=
    fun d => OrderedTable.mem_of_lastOf_eq
  -- Only what is found counts from here on, and the cases of the three relations have to agree.
  generalize OrderedTable.lastOf entries name = last at h hleft hmem
  generalize OrderedTable.lastOf entries' name = last' at h hright
  generalize OrderedTable.lastOf es name = value at hleft ⊢
  generalize OrderedTable.lastOf es' name = value' at hright ⊢
  cases h with
  | none =>
    cases hleft
    cases hright
    rfl
  | some halike =>
    cases hleft with
    | some hv =>
    cases hright with
    | some hv' => rw [ih _ (hmem _ rfl) _ halike _ _ hv hv']

theorem decidedByLast (d : Document) : DecidedByLast d := by
  induction d using Document.induction with
  | null | boolean _ | integer _ | real _ | text _ =>
    intro d' h v v' hv hv'
    cases h
    exact Option.some.inj (hv.symm.trans hv')
  | array items ih =>
    intro d' h v v' hv hv'
    cases h with
    | refl => exact Option.some.inj (hv.symm.trans hv')
    | array hitems =>
      obtain ⟨vs, hvs, rfl⟩ := Option.map_eq_some_iff.1 hv
      obtain ⟨vs', hvs', rfl⟩ := Option.map_eq_some_iff.1 hv'
      rw [items_eq_of_alike ih hitems hvs hvs']
  | table entries ih =>
    intro d' h v v' hv hv'
    cases h with
    | refl => exact Option.some.inj (hv.symm.trans hv')
    | table hentries =>
      obtain ⟨es, hes, rfl⟩ := Option.map_eq_some_iff.1 hv
      obtain ⟨es', hes', rfl⟩ := Option.map_eq_some_iff.1 hv'
      have htable : OrderedTable.ofList es = OrderedTable.ofList es' :=
        OrderedTable.ofList_eq_ofList_iff.2 fun name =>
          lastOf_eq_of_alike ih (hentries name) hes hes'
      rw [htable]

end FieldValue

end BrokerPolicy
