set_option autoImplicit false

/-!
Names of client properties. The connection layer owns some of them, the host fills in some as
defaults, and all others are free. A name is sent as a short string, of 1 to 255 bytes.
-/

namespace BrokerPolicy

inductive NameFault where
  | empty
  | tooLong
deriving DecidableEq

inductive PolicyError where
  | reservedProperty (name : String)
  | invalidPropertyName (name : String) (fault : NameFault)
  | executorUnavailable
deriving DecidableEq

def NameFault.reason : NameFault → String
  | .empty => "name is empty"
  | .tooLong => "name exceeds 255 bytes"

def PolicyError.message : PolicyError → String
  | .reservedProperty name =>
    "client property `" ++ name ++ "` is reserved and cannot be overridden"
  | .invalidPropertyName name fault =>
    "invalid client property name `" ++ name ++ "`: " ++ fault.reason
  | .executorUnavailable => "execution resource is not accepting work"

namespace Property

inductive KeyClass where
  | reserved
  | defaulted
  | custom
deriving DecidableEq

def KeyClass.text : KeyClass → String
  | .reserved => "Reserved"
  | .defaulted => "Defaulted"
  | .custom => "Custom"

/-- Names that the connection layer fills in at the handshake. -/
def reservedNames : List String :=
  ["capabilities", "platform", "product", "version", "connection_name"]

/-- Names that the host fills in and a caller may overwrite. -/
def defaultedNames : List String := ["task", "pid", "os", "os_version", "os_patch"]

def maxNameBytes : Nat := 255

def classify (name : String) : KeyClass :=
  if name ∈ reservedNames then .reserved
  else if name ∈ defaultedNames then .defaulted
  else .custom

def checkName (name : String) : Except PolicyError KeyClass :=
  if name = "" then .error (.invalidPropertyName name .empty)
  else if maxNameBytes < name.utf8ByteSize then .error (.invalidPropertyName name .tooLong)
  else
    match classify name with
    | .reserved => .error (.reservedProperty name)
    | c => .ok c

/-- The names that a caller may set, said without the check. -/
def Acceptable (name : String) : Prop :=
  name ≠ "" ∧ name.utf8ByteSize ≤ maxNameBytes ∧ name ∉ reservedNames

end Property

end BrokerPolicy
