import BrokerPolicy.Field.Value
import BrokerPolicy.Numeral.Rounding

set_option autoImplicit false

/-!
Field values and documents. A value carries no mark of its kind in a document, so the kind is read
off the tree alone: only a null has none.
-/

namespace BrokerPolicy.FieldValue

/-- An integer outside the 64-bit range becomes the nearest double. -/
def ofInteger (i : Int) : FieldValue :=
  if Int64.minValue.toInt ≤ i ∧ i ≤ Int64.maxValue.toInt then .int (Int64.ofInt i)
  else .float (Binary64.ofQuotient (i < 0) i.natAbs 1)

mutual

/-- Fails on a null at any depth. Of entries with one name the last is kept, but all are read. -/
def ofDocument? : Document → Option FieldValue
  | .null => none
  | .boolean b => some (.bool b)
  | .integer i => some (ofInteger i)
  | .real x => some (.float x)
  | .text s => some (.string s)
  | .array items => (ofItems? items).map .array
  | .table entries => (ofEntries? entries).map fun es => .table (OrderedTable.ofList es)

def ofItems? : List Document → Option (List FieldValue)
  | [] => some []
  | d :: rest => do
    let first ← ofDocument? d
    let others ← ofItems? rest
    return first :: others

def ofEntries? : List (String × Document) → Option (List (String × FieldValue))
  | [] => some []
  | (name, d) :: rest => do
    let first ← ofDocument? d
    let others ← ofEntries? rest
    return (name, first) :: others

end

mutual

def document : FieldValue → Document
  | .bool b => .boolean b
  | .int i => .integer i.toInt
  | .float x => .real x
  | .string s => .text s
  | .array items => .array (documentItems items)
  | .table entries => .table (documentEntries entries)

def documentItems : List FieldValue → List Document
  | [] => []
  | v :: rest => document v :: documentItems rest

def documentEntries : List (String × FieldValue) → List (String × Document)
  | [] => []
  | (name, v) :: rest => (name, document v) :: documentEntries rest

end

mutual

theorem document_inj {v w : FieldValue} (h : v.document = w.document) : v = w := by
  match v with
  | .bool _ | .float _ | .string _ => cases w <;> simp_all [document]
  | .int _ => cases w <;> simp_all [document, Int64.toInt_inj]
  | .array items =>
    cases w <;> simp only [document, reduceCtorEq, Document.array.injEq] at h
    rw [documentItems_inj h]
  | .table entries =>
    cases w <;> simp only [document, reduceCtorEq, Document.table.injEq] at h
    rw [documentEntries_inj h]

theorem documentItems_inj {vs ws : List FieldValue} (h : documentItems vs = documentItems ws) :
    vs = ws := by
  match vs, ws with
  | [], [] => rfl
  | [], _ :: _ | _ :: _, [] => simp [documentItems] at h
  | v :: rest, w :: others =>
    simp only [documentItems, List.cons.injEq] at h
    rw [document_inj h.1, documentItems_inj h.2]

theorem documentEntries_inj {vs ws : List (String × FieldValue)}
    (h : documentEntries vs = documentEntries ws) : vs = ws := by
  match vs, ws with
  | [], [] => rfl
  | [], _ :: _ | _ :: _, [] => simp [documentEntries] at h
  | (m, v) :: rest, (n, w) :: others =>
    simp only [documentEntries, List.cons.injEq, Prod.mk.injEq] at h
    rw [h.1.1, document_inj h.1.2, documentEntries_inj h.2]

end

instance : DecidableEq FieldValue := fun v w =>
  decidable_of_iff (v.document = w.document) ⟨document_inj, congrArg document⟩

end BrokerPolicy.FieldValue
