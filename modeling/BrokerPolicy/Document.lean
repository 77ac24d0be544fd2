import BrokerPolicy.Numeral.Binary64

set_option autoImplicit false

/-!
The trees that configuration texts denote, whatever their format. A `Document` is a whole tree. A
`Draft` is what a reader has when it may have to stop: the tree up to the first fault of the text,
so that problems of content can be reported when they come before it.
-/

namespace BrokerPolicy

inductive Document where
  | null
  | boolean (b : Bool)
  | integer (i : Int)
  | real (x : Binary64)
  | text (s : String)
  | array (items : List Document)
  | table (entries : List (String × Document))

inductive Draft where
  /-- The text stops being well formed here. -/
  | fault
  | null
  | boolean (b : Bool)
  | integer (i : Int)
  | real (x : Binary64)
  | text (s : String)
  /-- `closed` tells whether the text goes on well formed to the end of the array. -/
  | array (items : List Draft) (closed : Bool)
  | table (entries : List (String × Draft)) (closed : Bool)
deriving Inhabited

namespace Document

mutual

def equal : Document → Document → Bool
  | .null, .null => true
  | .boolean a, .boolean b => a == b
  | .integer a, .integer b => a == b
  | .real a, .real b => a == b
  | .text a, .text b => a == b
  | .array a, .array b => equalItems a b
  | .table a, .table b => equalEntries a b
  | _, _ => false

def equalItems : List Document → List Document → Bool
  | [], [] => true
  | a :: as, b :: bs => equal a b && equalItems as bs
  | _, _ => false

def equalEntries : List (String × Document) → List (String × Document) → Bool
  | [], [] => true
  | (m, a) :: as, (n, b) :: bs => m == n && equal a b && equalEntries as bs
  | _, _ => false

end

mutual

theorem equal_iff (a b : Document) : a.equal b = true ↔ a = b := by
  match a with
  | .null | .boolean _ | .integer _ | .real _ | .text _ => cases b <;> simp [equal]
  | .array items => cases b <;> simp [equal, equalItems_iff items]
  | .table entries => cases b <;> simp [equal, equalEntries_iff entries]

theorem equalItems_iff (as bs : List Document) : equalItems as bs = true ↔ as = bs := by
  match as with
  | [] => cases bs <;> simp [equalItems]
  | a :: rest => cases bs <;> simp [equalItems, equal_iff a, equalItems_iff rest]

theorem equalEntries_iff (as bs : List (String × Document)) :
    equalEntries as bs = true ↔ as = bs := by
  match as with
  | [] => cases bs <;> simp [equalEntries]
  | (_, a) :: rest =>
    cases bs <;> simp [equalEntries, equal_iff a, equalEntries_iff rest, Prod.ext_iff]

end

instance : DecidableEq Document := fun a b => decidable_of_iff _ (equal_iff a b)

end Document

mutual

def Document.draft : Document → Draft
  | .null => .null
  | .boolean b => .boolean b
  | .integer i => .integer i
  | .real x => .real x
  | .text s => .text s
  | .array items => .array (Document.draftItems items) true
  | .table entries => .table (Document.draftEntries entries) true

def Document.draftItems : List Document → List Draft
  | [] => []
  | d :: rest => d.draft :: Document.draftItems rest

def Document.draftEntries : List (String × Document) → List (String × Draft)
  | [] => []
  | (name, d) :: rest => (name, d.draft) :: Document.draftEntries rest

end

mutual

def Draft.document? : Draft → Option Document
  | .fault => none
  | .null => some .null
  | .boolean b => some (.boolean b)
  | .integer i => some (.integer i)
  | .real x => some (.real x)
  | .text s => some (.text s)
  | .array items closed =>
    if closed then (Draft.documentItems? items).map .array else none
  | .table entries closed =>
    if closed then (Draft.documentEntries? entries).map .table else none

def Draft.documentItems? : List Draft → Option (List Document)
  | [] => some []
  | d :: rest => do
    let first ← d.document?
    let others ← Draft.documentItems? rest
    return first :: others

def Draft.documentEntries? : List (String × Draft) → Option (List (String × Document))
  | [] => some []
  | (name, d) :: rest => do
    let first ← d.document?
    let others ← Draft.documentEntries? rest
    return (name, first) :: others

end

end BrokerPolicy
