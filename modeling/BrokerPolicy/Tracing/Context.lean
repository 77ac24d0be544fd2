import BrokerPolicy.Event
import BrokerPolicy.OrderedTable

set_option autoImplicit false

/-!
Tracing contexts. A tracer opens a context around the processing of a delivery, or around a publish
up to its confirm. The log's contexts are spans, which are seen to open and close; a tracer of the
caller is told what happens and sees no end.
-/

namespace BrokerPolicy

def Tracer.traceHeader : String := "trace"

def Tracer.extendHeaders (t : Tracer) (headers : FieldTable) : FieldTable :=
  match t with
  | .span => headers
  | .own name => OrderedTable.insert traceHeader (.string name) headers

/-- What a tracer has open: a span, or a matter of the caller's tracer. -/
inductive Context where
  | span (s : Span)
  | own (tracer : String)
deriving DecidableEq

namespace Context

def spans : Context → List Span
  | span s => [s]
  | own _ => []

def openDelivery (c : Context) (d : Delivery) : List Event :=
  match c with
  | span s =>
    [.spanOpened s .info
      [("queue", .shown d.queue),
       ("exchange", .shown d.exchange),
       ("routing_key", .shown d.routingKey),
       ("consumer_tag", .shown d.consumerTag),
       ("delivery_tag", .number d.deliveryTag.toNat),
       ("vhost", .shown d.vhost)]]
  | own name => [.deliveryTraced name d]

def openPublish (c : Context) (p : Publish) : List Event :=
  match c with
  | span s =>
    [.spanOpened s .info
      [("exchange", .shown p.exchange),
       ("routing_key", .shown p.routingKey),
       ("vhost", .shown p.vhost)]]
  | own name => [.publishTraced name p]

def respond (c : Context) (confirm : Confirm) : List Event :=
  match c with
  | own name => [.responseTraced name confirm]
  | span s =>
    [.spanRecorded s [("confirm", .shown confirm.text)],
     .spanEntered s,
     if confirm = .ack then .log .debug Log.tracingTarget "Publish confirmed" []
     else
      .log .warn Log.tracingTarget "Publish not accepted by broker"
        [("confirm", .shown confirm.text)],
     .spanExited s]

def close : Context → List Event
  | span s => [.spanClosed s]
  | own _ => []

end Context

/-- What a context is opened for: a delivery or a publish. -/
inductive ContextKind where
  | consuming
  | producing
deriving DecidableEq

def ContextKind.spanName : ContextKind → String
  | consuming => "amqp.consume"
  | producing => "amqp.publish"

structure Contexts where
  spansMade : Nat
  consuming : OrderedTable Context
  producing : OrderedTable Context

namespace Contexts

def empty : Contexts := ⟨0, [], []⟩

def of (x : Contexts) : ContextKind → OrderedTable Context
  | .consuming => x.consuming
  | .producing => x.producing

def put (x : Contexts) (kind : ContextKind) (t : OrderedTable Context) : Contexts :=
  match kind with
  | .consuming => { x with consuming := t }
  | .producing => { x with producing := t }

def made (x : Contexts) (kind : ContextKind) : Tracer → Context
  | .span => .span ⟨x.spansMade, kind.spanName⟩
  | .own name => .own name

/-- Keeps a new context, which takes its name over from one that is open. -/
def keep (x : Contexts) (kind : ContextKind) (name : String) (c : Context) : Contexts :=
  { x.put kind (OrderedTable.insert name c (x.of kind)) with
    spansMade := x.spansMade + c.spans.length }

def remove (x : Contexts) (kind : ContextKind) (name : String) : Contexts :=
  x.put kind ((x.of kind).erase name)

def closing (x : Contexts) (kind : ContextKind) (name : String) : List Event :=
  ((x.of kind).find? name).elim [] Context.close

/-- A context of a consumer hides one of a producer under the same name. -/
def kindOf (x : Contexts) (name : String) : ContextKind :=
  if x.consuming.contains name then .consuming else .producing

end Contexts

end BrokerPolicy
