import BrokerPolicy.Document
import BrokerPolicy.OrderedTable

set_option autoImplicit false

namespace BrokerPolicy

inductive FieldValue where
  | bool (b : Bool)
  | int (i : Int64)
  | float (x : Binary64)
  | string (s : String)
  | array (items : List FieldValue)
  | table (entries : List (String × FieldValue))
deriving Inhabited

abbrev FieldTable := OrderedTable FieldValue

namespace FieldValue

def string? : FieldValue → Option String
  | .string s => some s
  | _ => none

def int? : FieldValue → Option Int64
  | .int i => some i
  | _ => none

mutual

/-- Equality of values with numeric equality of floats. -/
def same : FieldValue → FieldValue → Bool
  | .bool a, .bool b => a == b
  | .int a, .int b => a == b
  | .float a, .float b => a.same b
  | .string a, .string b => a == b
  | .array a, .array b => sameItems a b
  | .table a, .table b => sameEntries a b
  | _, _ => false

def sameItems : List FieldValue → List FieldValue → Bool
  | [], [] => true
  | a :: as, b :: bs => same a b && sameItems as bs
  | _, _ => false

def sameEntries : List (String × FieldValue) → List (String × FieldValue) → Bool
  | [], [] => true
  | (m, a) :: as, (n, b) :: bs => m == n && same a b && sameEntries as bs
  | _, _ => false

end

mutual

/-- Every table in the value, at any depth, is in order. -/
def Canonical : FieldValue → Prop
  | .array items => CanonicalItems items
  | .table entries => OrderedTable.Sorted entries ∧ CanonicalEntries entries
  | _ => True

def CanonicalItems : List FieldValue → Prop
  | [] => True
  | v :: rest => Canonical v ∧ CanonicalItems rest

def CanonicalEntries : List (String × FieldValue) → Prop
  | [] => True
  | (_, v) :: rest => Canonical v ∧ CanonicalEntries rest

end

end FieldValue

end BrokerPolicy
