import BrokerPolicy.Policy.Builder
import BrokerPolicy.Tracing.Context

set_option autoImplicit false

namespace BrokerPolicy

structure Session where
  edition : Edition
  builders : OrderedTable Builder
  policies : OrderedTable Policy
  /-- The executors that do not accept jobs. All others do. -/
  refusing : List String
  completed : OrderedTable Nat
  publishersMade : Nat
  /-- A handle on a publisher of the caller for each place that holds one. -/
  handles : List (Nat × String)
  contexts : Contexts

inductive Holder where
  | policy (p : Policy)
  | builder (b : Builder)

namespace Holder

def current : Holder → Policy
  | .policy p => p
  | .builder b => b.policy

def structural : Holder → String
  | .policy p => p.structural
  | .builder b => b.structural

end Holder

def MetricsSink.ownPublisher? : MetricsSink → Option (Nat × String)
  | .publisher (.own serial name) => some (serial, name)
  | _ => none

namespace Session

def start (edition : Edition) (name : String) (b : Builder) : Session where
  edition := edition
  builders := [(name, b)]
  policies := []
  refusing := []
  completed := []
  publishersMade := 0
  handles := b.policy.metrics.ownPublisher?.toList
  contexts := .empty

/-- A finished policy hides a builder of the same name. -/
def holder? (s : Session) (name : String) : Option Holder :=
  match s.policies.find? name with
  | some p => some (.policy p)
  | none => (s.builders.find? name).map .builder

/-- A place comes to hold one sink instead of another. The new handle is there before the old one
is dropped, and with the last handle its publisher is let go. -/
def exchange (s : Session) (new old : Option MetricsSink) : Session × List (Nat × String) :=
  let handles := (new.bind MetricsSink.ownPublisher?).toList ++ s.handles
  let dropped := old.bind MetricsSink.ownPublisher?
  let rest := dropped.elim handles handles.erase
  ({ s with handles := rest }, (dropped.filter (· ∉ rest)).toList)

def putBuilder (s : Session) (name : String) (b : Builder) : Session × List (Nat × String) :=
  { s with builders := OrderedTable.insert name b s.builders }.exchange (some b.policy.metrics)
    ((s.builders.find? name).map fun b : Builder => b.policy.metrics)

def putPolicy (s : Session) (name : String) (p : Policy) : Session × List (Nat × String) :=
  { s with policies := OrderedTable.insert name p s.policies }.exchange (some p.metrics)
    ((s.policies.find? name).map Policy.metrics)

def drop (s : Session) (name : String) : Session × List (Nat × String) :=
  match s.policies.find? name with
  | some p => { s with policies := s.policies.erase name }.exchange none (some p.metrics)
  | none =>
    { s with builders := s.builders.erase name }.exchange none
      ((s.builders.find? name).map fun b : Builder => b.policy.metrics)

def accepts (s : Session) : Executor → Bool
  | .named name => name ∉ s.refusing
  | .runtime => true

def setAccepting (s : Session) (name : String) (accepting : Bool) : Session :=
  let others := s.refusing.filter (· ≠ name)
  { s with refusing := if accepting then others else name :: others }

def completedJobs (s : Session) (name : String) : Nat := (s.completed.find? name).getD 0

def complete (s : Session) (e : Executor) (jobs : Nat) : Session :=
  match e with
  | .runtime => s
  | .named name =>
    { s with completed := OrderedTable.insert name (s.completedJobs name + jobs) s.completed }

end Session

end BrokerPolicy
