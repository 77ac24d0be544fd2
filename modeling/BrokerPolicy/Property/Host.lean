import BrokerPolicy.Field.Text

set_option autoImplicit false

namespace BrokerPolicy

structure Host where
  task : String
  pid : UInt32
  os : String
  osVersion : String
  osPatch : String
deriving DecidableEq

namespace Host

def properties (h : Host) : List (String × FieldValue) :=
  [("task", .string h.task),
   ("pid", .int (Int64.ofNat h.pid.toNat)),
   ("os", .string h.os),
   ("os_version", .string h.osVersion),
   ("os_patch", .string h.osPatch)]

def structural (h : Host) : String :=
  Text.recordText "HostIdentity"
    [("task", Text.structuralQuoted h.task),
     ("pid", toString h.pid.toNat),
     ("os", Text.structuralQuoted h.os),
     ("os_version", Text.structuralQuoted h.osVersion),
     ("os_patch", Text.structuralQuoted h.osPatch)]

end Host

end BrokerPolicy
