import BrokerPolicy.Field.Document
import BrokerPolicy.Json.Reader
import BrokerPolicy.Schema
import BrokerPolicy.Toml.Reader

set_option autoImplicit false

namespace BrokerPolicy.FieldValue

open Schema (ReadError finish mismatch)

/-- A property value is read as a whole, so a fault anywhere in it comes first. -/
def ofDraft (d : Draft) : Except ReadError FieldValue :=
  match d.document? with
  | none => .error .syntaxFault
  | some tree =>
    match ofDocument? tree with
    | none => .error (.schema .noFieldValue)
    | some v => .ok v

def entriesOfDraft : List (String × Draft) → Except ReadError (List (String × FieldValue))
  | [] => .ok []
  | (name, d) :: rest => do
    let v ← ofDraft d
    let others ← entriesOfDraft rest
    return (name, v) :: others

def tableOfDraft : Draft → Except ReadError FieldTable
  | .table entries closed => do
    let es ← entriesOfDraft entries
    finish closed (OrderedTable.ofList es)
  | d => .error (mismatch .table d)

def ofJson (source : String) : Except ReadError FieldValue := do
  let s := Json.read source
  let v ← ofDraft s.draft
  finish s.complete v

def tableOfToml (source : String) : Except ReadError FieldTable :=
  match Toml.entries? source with
  | none => .error .syntaxFault
  | some entries => tableOfDraft (Document.table entries).draft

end BrokerPolicy.FieldValue
