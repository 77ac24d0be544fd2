import BrokerPolicy.Field.Document
import BrokerPolicy.Json.Printer
import BrokerPolicy.Policy.Summary

set_option autoImplicit false

/-!
The content of a policy file. Everything is optional, so that a file names only what it changes.
-/

namespace BrokerPolicy

structure PolicyFile where
  timeoutSeconds : Option UInt64
  thresholdSeconds : Option UInt64
  shuffle : Option Bool
  tunables : List String
  properties : FieldTable
  logLevel : String
deriving DecidableEq

namespace PolicyFile

def defaultLogLevel : String := "info"

def empty : PolicyFile := ⟨none, none, none, [], [], defaultLogLevel⟩

inductive Field where
  | timeout
  | threshold
  | shuffle
  | tunables
  | properties
  | observability
deriving DecidableEq

def Field.name : Field → String
  | .timeout => "message_processing_timeout_secs"
  | .threshold => "connection_error_threshold_secs"
  | .shuffle => "shuffle_connection_endpoints"
  | .tunables => "tunables"
  | .properties => "client_properties"
  | .observability => "observability"

def Field.all : List Field :=
  [.timeout, .threshold, .shuffle, .tunables, .properties, .observability]

def Field.ofName? (name : String) : Option Field := Field.all.find? (·.name = name)

def logLevelName : String := "log_level"

def secondsDocument (s : UInt64) : Document := .integer s.toNat

def Field.document (f : PolicyFile) : Field → Document
  | .timeout => Document.ofOption secondsDocument f.timeoutSeconds
  | .threshold => Document.ofOption secondsDocument f.thresholdSeconds
  | .shuffle => Document.ofOption .boolean f.shuffle
  | .tunables => .array (f.tunables.map .text)
  | .properties => .table (FieldValue.documentEntries f.properties)
  | .observability => .table [(logLevelName, .text f.logLevel)]

def document (f : PolicyFile) : Document :=
  .table (Field.all.map fun field => (field.name, field.document f))

def json (f : PolicyFile) : String := Json.compact f.document

def same (f g : PolicyFile) : Bool :=
  f.timeoutSeconds == g.timeoutSeconds && f.thresholdSeconds == g.thresholdSeconds &&
    f.shuffle == g.shuffle && f.tunables == g.tunables &&
    FieldValue.sameEntries f.properties g.properties && f.logLevel == g.logLevel

end PolicyFile

end BrokerPolicy
