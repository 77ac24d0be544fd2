import BrokerPolicy.Field.Document
import BrokerPolicy.Json.Printer
import BrokerPolicy.Policy.Basic

set_option autoImplicit false

/-!
A policy as far as it can be written down: values as they are, and whether each slot for code is
filled.
-/

namespace BrokerPolicy

structure Summary where
  resource : String
  metrics : Bool
  onError : Bool
  onSuccess : Bool
  onHung : Bool
  properties : FieldTable
  timeoutMillis : Nat
  thresholdMillis : Option Nat
  tunables : List String
  consumerTracing : Bool
  producerTracing : Bool
  shuffle : Option Bool

def Policy.summary (p : Policy) : Summary where
  resource := p.resource.description
  metrics := p.metrics.isEnabled
  onError := p.onError.isEnabled
  onSuccess := p.onSuccess.isEnabled
  onHung := p.onHung.isEnabled
  properties := p.properties.table
  timeoutMillis := p.timeout.millis
  thresholdMillis := p.threshold.map Duration.millis
  tunables := p.tunables
  consumerTracing := p.consumerTracer.isSome
  producerTracing := p.producerTracer.isSome
  shuffle := p.shuffle

def Document.ofOption {α : Type} (f : α → Document) : Option α → Document
  | none => .null
  | some x => f x

namespace Summary

def document (s : Summary) : Document :=
  .table
    [("execution_resource", .text s.resource),
     ("metrics_enabled", .boolean s.metrics),
     ("error_callback", .boolean s.onError),
     ("success_callback", .boolean s.onSuccess),
     ("hung_message_callback", .boolean s.onHung),
     ("client_properties", .table (FieldValue.documentEntries s.properties)),
     ("message_processing_timeout_ms", .integer s.timeoutMillis),
     ("connection_error_threshold_ms",
       Document.ofOption (fun n : Nat => .integer n) s.thresholdMillis),
     ("tunables", .array (s.tunables.map .text)),
     ("consumer_tracing", .boolean s.consumerTracing),
     ("producer_tracing", .boolean s.producerTracing),
     ("shuffle_connection_endpoints", Document.ofOption .boolean s.shuffle)]

def text (s : Summary) : String := Json.pretty s.document

end Summary

end BrokerPolicy
