import BrokerPolicy.Field.Document
import BrokerPolicy.Proofs.Document
import BrokerPolicy.Proofs.OrderedTable

set_option autoImplicit false

/-!
Field values and their documents. A value whose tables are in order is read back from its document
as it is, and a document has a value unless there is a null in it.
-/

namespace BrokerPolicy.FieldValue

mutual

def depth : FieldValue → Nat
  | .array items => depthItems items + 1
  | .table entries => depthEntries entries + 1
  | _ => 0

def depthItems : List FieldValue → Nat
  | [] => 0
  | v :: rest => max (depth v) (depthItems rest)

def depthEntries : List (String × FieldValue) → Nat
  | [] => 0
  | (_, v) :: rest => max (depth v) (depthEntries rest)

end

mutual

def floats : FieldValue → List Binary64
  | .float x => [x]
  | .array items => floatsItems items
  | .table entries => floatsEntries entries
  | _ => []

def floatsItems : List FieldValue → List Binary64
  | [] => []
  | v :: rest => floats v ++ floatsItems rest

def floatsEntries : List (String × FieldValue) → List Binary64
  | [] => []
  | (_, v) :: rest => floats v ++ floatsEntries rest

end

@[elab_as_elim]
theorem induction {p : FieldValue → Prop} (bool : ∀ b, p (.bool b)) (int : ∀ i, p (.int i))
    (float : ∀ x, p (.float x)) (string : ∀ s, p (.string s))
    (array : ∀ items, (∀ v ∈ items, p v) → p (.array items))
    (table : ∀ entries : List (String × FieldValue), (∀ e ∈ entries, p e.2) → p (.table entries))
    (v : FieldValue) : p v := by
  refine @FieldValue.rec p (fun items => ∀ v ∈ items, p v) (fun entries => ∀ e ∈ entries, p e.2)
    (fun e => p e.2) bool int float string array table ?_ ?_ ?_ ?_ ?_ v
  · exact fun v hv => absurd hv List.not_mem_nil
  · exact fun v vs hv hvs => List.forall_mem_cons.2 ⟨hv, hvs⟩
  · exact fun e he => absurd he List.not_mem_nil
  · exact fun e es he hes => List.forall_mem_cons.2 ⟨he, hes⟩
  · exact fun _ _ hv => hv

theorem canonicalItems_iff (items : List FieldValue) :
    CanonicalItems items ↔ ∀ v ∈ items, v.Canonical := by
  induction items with
  | nil => simp [CanonicalItems]
  | cons v rest ih => rw [CanonicalItems, ih, List.forall_mem_cons]

theorem canonicalEntries_iff (entries : List (String × FieldValue)) :
    CanonicalEntries entries ↔ ∀ e ∈ entries, e.2.Canonical := by
  induction entries with
  | nil => simp [CanonicalEntries]
  | cons e rest ih => rw [CanonicalEntries, ih, List.forall_mem_cons]

theorem depthItems_le_iff (items : List FieldValue) (n : Nat) :
    depthItems items ≤ n ↔ ∀ v ∈ items, v.depth ≤ n := by
  induction items with
  | nil => simp [depthItems]
  | cons v rest ih => rw [depthItems, Nat.max_le, ih, List.forall_mem_cons]

theorem depthEntries_le_iff (entries : List (String × FieldValue)) (n : Nat) :
    depthEntries entries ≤ n ↔ ∀ e ∈ entries, e.2.depth ≤ n := by
  induction entries with
  | nil => simp [depthEntries]
  | cons e rest ih => rw [depthEntries, Nat.max_le, ih, List.forall_mem_cons]

theorem forall_floatsItems_iff (p : Binary64 → Prop) (items : List FieldValue) :
    (∀ x ∈ floatsItems items, p x) ↔ ∀ v ∈ items, ∀ x ∈ v.floats, p x := by
  induction items with
  | nil => simp [floatsItems]
  | cons v rest ih => rw [floatsItems, List.forall_mem_append, ih, List.forall_mem_cons]

theorem forall_floatsEntries_iff (p : Binary64 → Prop) (entries : List (String × FieldValue)) :
    (∀ x ∈ floatsEntries entries, p x) ↔ ∀ e ∈ entries, ∀ x ∈ e.2.floats, p x := by
  induction entries with
  | nil => simp [floatsEntries]
  | cons e rest ih => rw [floatsEntries, List.forall_mem_append, ih, List.forall_mem_cons]

mutual

theorem depth_document (v : FieldValue) : v.document.depth = v.depth := by
  match v with
  | .bool _ | .int _ | .float _ | .string _ => rfl
  | .array items => exact congrArg (· + 1) (depthItems_document items)
  | .table entries => exact congrArg (· + 1) (depthEntries_document entries)

theorem depthItems_document (items : List FieldValue) :
    Document.depthItems (documentItems items) = depthItems items := by
  match items with
  | [] => rfl
  | v :: rest => exact congrArg₂ max (depth_document v) (depthItems_document rest)

theorem depthEntries_document (entries : List (String × FieldValue)) :
    Document.depthEntries (documentEntries entries) = depthEntries entries := by
  match entries with
  | [] => rfl
  | (_, v) :: rest => exact congrArg₂ max (depth_document v) (depthEntries_document rest)

end

mutual

theorem numbersIn_document (p : Binary64 → Prop) (v : FieldValue) :
    v.document.NumbersIn p ↔ ∀ x ∈ v.floats, p x := by
  match v with
  | .bool _ | .string _ => exact iff_of_true trivial (by simp [floats])
  | .int i =>
    have hlow := i.le_toInt
    have hhigh := i.toInt_lt
    refine iff_of_true ?_ (by simp [floats])
    change -2 ^ 63 ≤ i.toInt ∧ i.toInt < 2 ^ 64
    omega
  | .float x => exact (List.forall_mem_singleton (p := p)).symm
  | .array items => exact numbersInItems_document p items
  | .table entries => exact numbersInEntries_document p entries

theorem numbersInItems_document (p : Binary64 → Prop) (items : List FieldValue) :
    Document.NumbersInItems p (documentItems items) ↔ ∀ x ∈ floatsItems items, p x := by
  match items with
  | [] => exact iff_of_true trivial (by simp [floatsItems])
  | v :: rest =>
    rw [floatsItems, List.forall_mem_append]
    exact and_congr (numbersIn_document p v) (numbersInItems_document p rest)

theorem numbersInEntries_document (p : Binary64 → Prop) (entries : List (String × FieldValue)) :
    Document.NumbersInEntries p (documentEntries entries) ↔ ∀ x ∈ floatsEntries entries, p x := by
  match entries with
  | [] => exact iff_of_true trivial (by simp [floatsEntries])
  | (_, v) :: rest =>
    rw [floatsEntries, List.forall_mem_append]
    exact and_congr (numbersIn_document p v) (numbersInEntries_document p rest)

end

theorem ofInteger_toInt (i : Int64) : ofInteger i.toInt = .int i := by
  have hlow := i.minValue_le_toInt
  have hhigh := i.toInt_le
  rw [ofInteger, if_pos ⟨hlow, hhigh⟩, Int64.ofInt_toInt]

mutual

theorem ofDocument?_document {v : FieldValue} (hv : v.Canonical) :
    ofDocument? v.document = some v := by
  match v with
  | .bool _ | .float _ | .string _ => rfl
  | .int i => exact congrArg some (ofInteger_toInt i)
  | .array items =>
    rw [document, ofDocument?, ofItems?_document hv, Option.map_some]
  | .table entries =>
    rw [document, ofDocument?, ofEntries?_document hv.2, Option.map_some,
      OrderedTable.ofList_of_sorted hv.1]

theorem ofItems?_document {items : List FieldValue} (hitems : CanonicalItems items) :
    ofItems? (documentItems items) = some items := by
  match items with
  | [] => rfl
  | v :: rest =>
    rw [documentItems, ofItems?, ofDocument?_document hitems.1, ofItems?_document hitems.2]
    rfl

theorem ofEntries?_document {entries : List (String × FieldValue)}
    (hentries : CanonicalEntries entries) :
    ofEntries? (documentEntries entries) = some entries := by
  match entries with
  | [] => rfl
  | (name, v) :: rest =>
    rw [documentEntries, ofEntries?, ofDocument?_document hentries.1,
      ofEntries?_document hentries.2]
    rfl

end

mutual

theorem ofDocument?_eq_none_iff (d : Document) : ofDocument? d = none ↔ d.HasNull := by
  match d with
  | .null => exact iff_of_true rfl trivial
  | .boolean _ | .integer _ | .real _ | .text _ => exact iff_of_false (by simp [ofDocument?]) id
  | .array items =>
    rw [ofDocument?, Option.map_eq_none_iff]
    exact ofItems?_eq_none_iff items
  | .table entries =>
    rw [ofDocument?, Option.map_eq_none_iff]
    exact ofEntries?_eq_none_iff entries

theorem ofItems?_eq_none_iff (items : List Document) :
    ofItems? items = none ↔ Document.HasNullItems items := by
  match items with
  | [] => exact iff_of_false (by simp [ofItems?]) id
  | d :: rest =>
    rw [Document.HasNullItems, ← ofDocument?_eq_none_iff d, ← ofItems?_eq_none_iff rest]
    cases hfirst : ofDocument? d <;> cases hothers : ofItems? rest <;>
      simp [ofItems?, hfirst, hothers]

theorem ofEntries?_eq_none_iff (entries : List (String × Document)) :
    ofEntries? entries = none ↔ Document.HasNullEntries entries := by
  match entries with
  | [] => exact iff_of_false (by simp [ofEntries?]) id
  | (_, d) :: rest =>
    rw [Document.HasNullEntries, ← ofDocument?_eq_none_iff d, ← ofEntries?_eq_none_iff rest]
    cases hfirst : ofDocument? d <;> cases hothers : ofEntries? rest <;>
      simp [ofEntries?, hfirst, hothers]

end

def asBool : Document → Option FieldValue
  | .boolean b => some (.bool b)
  | _ => none

def asInt : Document → Option FieldValue
  | .integer i =>
    if Int64.minValue.toInt ≤ i ∧ i ≤ Int64.maxValue.toInt then some (.int (Int64.ofInt i))
    else none
  | _ => none

/-- Any number, so that the integers must come first. -/
def asFloat : Document → Option FieldValue
  | .integer i => some (.float (Binary64.ofQuotient (i < 0) i.natAbs 1))
  | .real x => some (.float x)
  | _ => none

def asString : Document → Option FieldValue
  | .text s => some (.string s)
  | _ => none

def asArray : Document → Option FieldValue
  | .array items => (items.mapM ofDocument?).map .array
  | _ => none

def asTable : Document → Option FieldValue
  | .table entries =>
    (entries.mapM fun e => (ofDocument? e.2).map fun v => (e.1, v)).map fun es =>
      .table (OrderedTable.ofList es)
  | _ => none

def kinds : List (Document → Option FieldValue) :=
  [asBool, asInt, asFloat, asString, asArray, asTable]

theorem ofItems?_eq_mapM (items : List Document) : ofItems? items = items.mapM ofDocument? := by
  induction items with
  | nil => rfl
  | cons d rest ih => rw [ofItems?, ih, List.mapM_cons]

theorem ofEntries?_eq_mapM (entries : List (String × Document)) :
    ofEntries? entries =
      entries.mapM fun e => (ofDocument? e.2).map fun v => (e.1, v) := by
  induction entries with
  | nil => rfl
  | cons e rest ih =>
    rw [ofEntries?, ih, List.mapM_cons]
    cases ofDocument? e.2 <;> rfl

theorem ofDocument?_eq_findSome? (d : Document) :
    ofDocument? d = kinds.findSome? fun kind => kind d := by
  rw [kinds]
  cases d with
  | null | boolean _ | real _ | text _ => rfl
  | integer i =>
    rw [ofDocument?, ofInteger]
    simp only [List.findSome?_cons, asBool, asInt, asFloat]
    split_ifs <;> rfl
  | array items =>
    rw [ofDocument?, ofItems?_eq_mapM]
    simp only [List.findSome?_cons, asBool, asInt, asFloat, asString, asArray, asTable]
    cases items.mapM ofDocument? <;> rfl
  | table entries =>
    rw [ofDocument?, ofEntries?_eq_mapM]
    simp only [List.findSome?_cons, asBool, asInt, asFloat, asString, asArray, asTable]
    cases entries.mapM fun e => (ofDocument? e.2).map fun v => (e.1, v) <;> rfl

end BrokerPolicy.FieldValue
