import BrokerPolicy.Field.Text

set_option autoImplicit false

namespace BrokerPolicy

structure Delivery where
  queue : String
  exchange : String
  routingKey : String
  consumerTag : String
  deliveryTag : UInt64
  vhost : String
  headers : FieldTable

structure Publish where
  exchange : String
  routingKey : String
  vhost : String
deriving DecidableEq

inductive Confirm where
  | ack
  | reject
  | returned
deriving DecidableEq

inductive Tracer where
  | span
  | own (name : String)
deriving DecidableEq

def Confirm.text : Confirm → String
  | .ack => "Ack"
  | .reject => "Reject"
  | .returned => "Return"

def Delivery.structural (d : Delivery) : String :=
  Text.recordText "DeliveryInfo"
    [("queue", Text.structuralQuoted d.queue),
     ("exchange", Text.structuralQuoted d.exchange),
     ("routing_key", Text.structuralQuoted d.routingKey),
     ("consumer_tag", Text.structuralQuoted d.consumerTag),
     ("delivery_tag", toString d.deliveryTag.toNat),
     ("vhost", Text.structuralQuoted d.vhost),
     ("headers", FieldValue.structuralTable d.headers)]

def Publish.structural (p : Publish) : String :=
  Text.recordText "PublishInfo"
    [("exchange", Text.structuralQuoted p.exchange),
     ("routing_key", Text.structuralQuoted p.routingKey),
     ("vhost", Text.structuralQuoted p.vhost)]

end BrokerPolicy
