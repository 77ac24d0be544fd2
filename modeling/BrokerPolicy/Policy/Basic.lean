import BrokerPolicy.Executor
import BrokerPolicy.Metrics
import BrokerPolicy.Notification
import BrokerPolicy.Property.Table
import BrokerPolicy.Tracing

set_option autoImplicit false

/-!
The policy under which a messaging context runs, and the two decisions it takes about elapsed time.
-/

namespace BrokerPolicy

structure Policy where
  resource : ExecutionResource
  metrics : MetricsSink
  onError : Callback
  onSuccess : Callback
  onHung : Callback
  properties : ClientProperties
  /-- How long a message may be processed before it counts as hung. -/
  timeout : Duration
  /-- How long connecting may fail before the failure is escalated; never, without it. -/
  threshold : Option Duration
  tunables : List String
  consumerTracer : Option Tracer
  producerTracer : Option Tracer
  shuffle : Option Bool

namespace Policy

def standardTimeout : Duration := Duration.ofSeconds 60

def ofProperties (properties : ClientProperties) : Policy where
  resource := ExecutionResource.standard
  metrics := .disabled
  onError := .disabled
  onSuccess := .disabled
  onHung := .disabled
  properties := properties
  timeout := standardTimeout
  threshold := none
  tunables := []
  consumerTracer := none
  producerTracer := none
  shuffle := none

def ofHost (h : Host) : Policy := ofProperties (ClientProperties.ofHost h)

def isTunableSet (p : Policy) (name : String) : Bool := name ∈ p.tunables

def isMessageHung (p : Policy) (elapsed : Duration) : Bool := elapsed.reaches p.timeout

def shouldEscalate (p : Policy) (sinceSuccess : Duration) : Bool :=
  match p.threshold with
  | none => false
  | some t => sinceSuccess.reaches t

def structural (p : Policy) : String :=
  Text.recordText "ContextPolicy"
    [("execution_resource", p.resource.structural),
     ("metrics_sink", p.metrics.structural),
     ("error_callback", p.onError.structural),
     ("success_callback", p.onSuccess.structural),
     ("hung_message_callback", p.onHung.structural),
     ("client_properties", p.properties.structural),
     ("message_processing_timeout", p.timeout.text),
     ("connection_error_threshold", Text.optionText (p.threshold.map Duration.text)),
     ("tunables", Text.braced (p.tunables.map Text.structuralQuoted)),
     ("consumer_tracing", toString p.consumerTracer.isSome),
     ("producer_tracing", toString p.producerTracer.isSome),
     ("shuffle_connection_endpoints", Text.optionText (p.shuffle.map toString))]

end Policy

end BrokerPolicy
