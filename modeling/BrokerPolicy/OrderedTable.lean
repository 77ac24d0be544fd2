set_option autoImplicit false

/-!
Tables of named entries kept in strictly ascending order of their names. Names are ordered by code
points, which is the order of their UTF-8 bytes.
-/

namespace BrokerPolicy

abbrev OrderedTable (α : Type) := List (String × α)

namespace OrderedTable

variable {α : Type}

def find? (t : OrderedTable α) (name : String) : Option α := List.lookup name t

def contains (t : OrderedTable α) (name : String) : Bool := (t.find? name).isSome

def names (t : OrderedTable α) : List String := t.map Prod.fst

def insert (name : String) (value : α) : OrderedTable α → OrderedTable α
  | [] => [(name, value)]
  | (n, v) :: rest =>
    if name < n then (name, value) :: (n, v) :: rest
    else if name = n then (name, value) :: rest
    else (n, v) :: insert name value rest

def erase (t : OrderedTable α) (name : String) : OrderedTable α := t.filter (·.1 ≠ name)

/-- The table of a list of entries; the last of several with one name counts. -/
def ofList (entries : List (String × α)) : OrderedTable α :=
  entries.foldl (fun t e => insert e.1 e.2 t) []

def insertName (name : String) : List String → List String
  | [] => [name]
  | n :: rest =>
    if name < n then name :: n :: rest
    else if name = n then n :: rest
    else n :: insertName name rest

def Sorted (t : OrderedTable α) : Prop := t.names.Pairwise (· < ·)

end OrderedTable

end BrokerPolicy
