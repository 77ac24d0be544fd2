import BrokerPolicy.Duration
import BrokerPolicy.Text.Quoted

set_option autoImplicit false

namespace BrokerPolicy

inductive Callback where
  | disabled
  | handler (name : String)
deriving DecidableEq

namespace Callback

def isEnabled : Callback → Bool
  | .disabled => false
  | .handler _ => true

def handler? : Callback → Option String
  | .disabled => none
  | .handler name => some name

def structural : Callback → String
  | .disabled => "Disabled"
  | .handler _ => "Handler(..)"

end Callback

structure HungMessage where
  connectionName : String
  queue : String
  consumerTag : String
  deliveryTag : UInt64
  outstandingFor : Duration
deriving DecidableEq

def HungMessage.structural (m : HungMessage) : String :=
  Text.recordText "HungMessage"
    [("connection_name", Text.structuralQuoted m.connectionName),
     ("queue", Text.structuralQuoted m.queue),
     ("consumer_tag", Text.structuralQuoted m.consumerTag),
     ("delivery_tag", toString m.deliveryTag.toNat),
     ("outstanding_for", m.outstandingFor.text)]

end BrokerPolicy
