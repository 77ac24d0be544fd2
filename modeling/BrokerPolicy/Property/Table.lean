import BrokerPolicy.Property.Host
import BrokerPolicy.Property.Key

set_option autoImplicit false

namespace BrokerPolicy

structure ClientProperties where
  table : FieldTable

namespace ClientProperties

def empty : ClientProperties := ⟨[]⟩

def ofHost (h : Host) : ClientProperties := ⟨OrderedTable.ofList h.properties⟩

/-- The class of a name that is set, or why it is refused, with the properties as the call leaves
them. -/
def set (p : ClientProperties) (name : String) (value : FieldValue) :
    Except PolicyError Property.KeyClass × ClientProperties :=
  match Property.checkName name with
  | .error e => (.error e, p)
  | .ok c => (.ok c, ⟨OrderedTable.insert name value p.table⟩)

def get? (p : ClientProperties) (name : String) : Option FieldValue := p.table.find? name

def contains (p : ClientProperties) (name : String) : Bool := p.table.contains name

def size (p : ClientProperties) : Nat := p.table.length

def structural (p : ClientProperties) : String :=
  Text.recordText "ClientProperties" [("table", FieldValue.structuralTable p.table)]

end ClientProperties

end BrokerPolicy
