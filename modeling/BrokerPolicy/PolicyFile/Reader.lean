import BrokerPolicy.Field.Reader
import BrokerPolicy.PolicyFile.Basic

set_option autoImplicit false

namespace BrokerPolicy.PolicyFile

open Schema

def logLevelEntries (level : Option String) :
    List (String × Draft) → Except ReadError (Option String)
  | [] => .ok level
  | (name, d) :: rest =>
    if name = logLevelName then
      if level.isSome then .error (.schema (.duplicateField name))
      else do
        let s ← text d
        logLevelEntries (some s) rest
    else .error (.schema (.unknownField name [logLevelName]))

def observability (format : Format) : Draft → Except ReadError String
  | .table entries closed => do
    let level ← logLevelEntries none entries
    finish closed (level.getD defaultLogLevel)
  | .array [] closed => finish closed defaultLogLevel
  | .array (d :: rest) closed => do
    let s ← text d
    surplus format rest closed
    return s
  | d => .error (mismatch .observability d)

def readField (format : Format) (f : PolicyFile) (field : Field) (d : Draft) :
    Except ReadError PolicyFile :=
  match field with
  | .timeout => do return { f with timeoutSeconds := ← optional seconds d }
  | .threshold => do return { f with thresholdSeconds := ← optional seconds d }
  | .shuffle => do return { f with shuffle := ← optional boolean d }
  | .tunables => do return { f with tunables := ← texts d }
  | .properties => do return { f with properties := ← FieldValue.tableOfDraft d }
  | .observability => do return { f with logLevel := ← observability format d }

def namedFields (format : Format) (f : PolicyFile) (seen : List Field) :
    List (String × Draft) → Except ReadError PolicyFile
  | [] => .ok f
  | (name, d) :: rest =>
    match Field.ofName? name with
    | none => .error (.schema (.unknownField name (Field.all.map Field.name)))
    | some field =>
      if field ∈ seen then .error (.schema (.duplicateField name))
      else do
        let f ← readField format f field d
        namedFields format f (field :: seen) rest

def positionalFields (format : Format) (f : PolicyFile) :
    List Field → List Draft → Except ReadError (PolicyFile × List Draft)
  | [], items => .ok (f, items)
  | _, [] => .ok (f, [])
  | field :: fields, d :: items => do
    let f ← readField format f field d
    positionalFields format f fields items

/-- A file is a table of its fields or a list of them; what is left out has its default. -/
def ofDraft (format : Format) : Draft → Except ReadError PolicyFile
  | .table entries closed => do
    let f ← namedFields format PolicyFile.empty [] entries
    finish closed f
  | .array items closed => do
    let (f, rest) ← positionalFields format PolicyFile.empty Field.all items
    surplus format rest closed
    return f
  | d => .error (mismatch .file d)

def ofJson (source : String) : Except ReadError PolicyFile := do
  let s := Json.read source
  let f ← ofDraft jsonFormat s.draft
  finish s.complete f

def ofTomlEntries (entries : List (String × Document)) : Except ReadError PolicyFile :=
  ofDraft tomlFormat (Document.table entries).draft

def ofToml (source : String) : Except ReadError PolicyFile :=
  match Toml.entries? source with
  | none => .error .syntaxFault
  | some entries => ofTomlEntries entries

end BrokerPolicy.PolicyFile
