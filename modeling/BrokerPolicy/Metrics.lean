import BrokerPolicy.Numeral.Binary64

set_option autoImplicit false

namespace BrokerPolicy

inductive MetricKind where
  | counter
  | gauge
  | summary
  | distribution
deriving DecidableEq

structure Measurement where
  kind : MetricKind
  name : String
  value : Binary64
  tags : List (String × String)
deriving DecidableEq

inductive Instrument where
  | increment (steps : Nat)
  | set (value : Binary64)
  | record (value : Binary64)
deriving DecidableEq

structure RecorderCall where
  instrument : Instrument
  key : String
  labels : List (String × String)
deriving DecidableEq

inductive Publisher where
  /-- Passes measurements on to the recorder under keys that begin with a common word. -/
  | recorder (namespaceWord : String)
  /-- A publisher of the caller, told apart from others of its name by a serial number. -/
  | own (serial : Nat) (name : String)
deriving DecidableEq

inductive MetricsSink where
  | disabled
  | publisher (p : Publisher)
deriving DecidableEq

namespace MetricsSink

def isEnabled : MetricsSink → Bool
  | .disabled => false
  | .publisher _ => true

def publisher? : MetricsSink → Option Publisher
  | .disabled => none
  | .publisher p => some p

def structural : MetricsSink → String
  | .disabled => "Disabled"
  | .publisher _ => "Publisher(..)"

end MetricsSink

def defaultNamespaceWord : String := "rmq"

/-- The key of a name: joined to the common word by an underscore, or alone without such a word. -/
def recorderKey (namespaceWord name : String) : String :=
  if namespaceWord = "" then name else namespaceWord ++ "_" ++ name

/-- Counters advance by whole steps; summaries and distributions are recorded alike. -/
def Measurement.instrument (m : Measurement) : Instrument :=
  match m.kind with
  | .counter => .increment m.value.counterStep
  | .gauge => .set m.value
  | .summary => .record m.value
  | .distribution => .record m.value

def Measurement.recorderCall (namespaceWord : String) (m : Measurement) : RecorderCall :=
  ⟨m.instrument, recorderKey namespaceWord m.name, m.tags⟩

end BrokerPolicy
