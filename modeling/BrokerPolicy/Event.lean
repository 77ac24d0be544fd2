import BrokerPolicy.Log
import BrokerPolicy.Metrics
import BrokerPolicy.Notification
import BrokerPolicy.Tracing

set_option autoImplicit false

namespace BrokerPolicy

/-- A span of the log. Its number tells it apart from others of the same name. -/
structure Span where
  serial : Nat
  name : String
deriving DecidableEq

inductive Event where
  | logged (r : Log.Record)
  | spanOpened (span : Span) (level : Log.Level) (fields : Log.Fields)
  | spanRecorded (span : Span) (fields : Log.Fields)
  | spanEntered (span : Span)
  | spanExited (span : Span)
  | spanClosed (span : Span)
  | measured (publisher : String) (m : Measurement)
  | recorderCalled (call : RecorderCall)
  /-- The last holder of a publisher has let go of it. -/
  | publisherReleased (name : String)
  | errorNotified (handler text : String) (code : Int)
  | successNotified (handler : String)
  | hungNotified (handler : String) (messages : List HungMessage)
  | deliveryTraced (tracer : String) (d : Delivery)
  | publishTraced (tracer : String) (p : Publish)
  | responseTraced (tracer : String) (c : Confirm)

def Event.log (level : Log.Level) (target message : String) (fields : Log.Fields) : Event :=
  .logged ⟨level, target, message, fields⟩

def MetricsSink.publish (sink : MetricsSink) (m : Measurement) : List Event :=
  match sink with
  | .disabled => []
  | .publisher (.recorder word) => [.recorderCalled (m.recorderCall word)]
  | .publisher (.own _ name) => [.measured name m]

namespace Callback

def notifyError (c : Callback) (text : String) (code : Int) : List Event :=
  match c with
  | .disabled => []
  | .handler name => [.errorNotified name text code]

def notifySuccess (c : Callback) : List Event :=
  match c with
  | .disabled => []
  | .handler name => [.successNotified name]

def notifyHung (c : Callback) (messages : List HungMessage) : List Event :=
  match c with
  | .disabled => []
  | .handler name => [.hungNotified name messages]

end Callback

end BrokerPolicy
