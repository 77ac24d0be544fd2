import BrokerPolicy.Document
import BrokerPolicy.Toml.Text

set_option autoImplicit false

/-!
The tables of a document while it is being read. A header opens a table, a point in a key opens
one by the way, and each may be opened in one manner only. Entries keep the order in which they
came; a header for a table so far only implied moves it to the end.
-/

namespace BrokerPolicy.Toml

inductive Origin where
  | declared
  | implied
  | dotted
deriving DecidableEq

inductive Node where
  | value (d : Document)
  | table (origin : Origin) (entries : List (String × Node))
  /-- Tables of one name in double brackets, the last one first. -/
  | tables (elements : List (List (String × Node)))

abbrev Entries := List (String × Node)

def replace (name : String) (node : Node) : Entries → Entries
  | [] => []
  | (n, x) :: rest => if n = name then (n, node) :: rest else (n, x) :: replace name node rest

/-- Changes the table at the end of a path. Missing tables on the way are made with the given
origin, and of tables of one name the last is entered. The tables of headers cannot be entered
through the key of an entry. -/
def changeAt (made : Origin) (change : Origin → Entries → Option Entries) :
    List String → Origin → Entries → Option Entries
  | [], origin, es => change origin es
  | name :: path, _, es =>
    match es.lookup name with
    | none => do
      let inner ← changeAt made change path made []
      return es ++ [(name, .table made inner)]
    | some (.value _) => none
    | some (.tables []) => none
    | some (.tables (last :: others)) => do
      let last ← changeAt made change path .declared last
      return replace name (.tables (last :: others)) es
    | some (.table origin inner) =>
      if made = .dotted ∧ origin = .declared then none
      else do
        let inner ← changeAt made change path origin inner
        return replace name (.table origin inner) es

/-- Adds an entry to the table that its key leads to. That table must be the current one itself,
or one that keys alone have opened. -/
def addEntry (key : Key) (node : Node) (origin : Origin) (es : Entries) : Option Entries :=
  changeAt .dotted
    (fun origin es =>
      if (origin == .dotted) == key.parents.isEmpty then none
      else if (es.lookup key.last).isSome then none
      else some (es ++ [(key.last, node)]))
    key.parents origin es

def openTable (key : Key) (root : Entries) : Option Entries :=
  changeAt .implied
    (fun _ es =>
      match es.lookup key.last with
      | none => some (es ++ [(key.last, .table .declared [])])
      | some (.table .implied inner) =>
        some (es.filter (·.1 ≠ key.last) ++ [(key.last, .table .declared inner)])
      | some _ => none)
    key.parents .declared root

def openElement (key : Key) (root : Entries) : Option Entries :=
  changeAt .implied
    (fun _ es =>
      match es.lookup key.last with
      | none => some (es ++ [(key.last, .tables [[]])])
      | some (.tables elements) => some (replace key.last (.tables ([] :: elements)) es)
      | some _ => none)
    key.parents .declared root

def addBelow (header : List String) (key : Key) (node : Node) (root : Entries) : Option Entries :=
  changeAt .implied (addEntry key node) header .declared root

mutual

def Node.document : Node → Document
  | .value d => d
  | .table _ entries => .table (documentEntries entries)
  | .tables elements => .array (documentElements elements).reverse

def documentEntries : List (String × Node) → List (String × Document)
  | [] => []
  | (name, n) :: rest => (name, n.document) :: documentEntries rest

def documentElements : List (List (String × Node)) → List Document
  | [] => []
  | es :: rest => .table (documentEntries es) :: documentElements rest

end

end BrokerPolicy.Toml
