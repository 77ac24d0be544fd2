import BrokerPolicy.Event
import BrokerPolicy.Policy.Basic

set_option autoImplicit false

namespace BrokerPolicy

/-- What the program was made with. Only the experimental edition knows tunables. -/
inductive Edition where
  | standard
  | experimental
deriving DecidableEq

structure Builder where
  policy : Policy

inductive Setting where
  | resource (e : Executor)
  | metrics (sink : MetricsSink)
  | onError (c : Callback)
  | onSuccess (c : Callback)
  | onHung (c : Callback)
  | property (name : String) (value : FieldValue)
  | timeout (d : Duration)
  | threshold (d : Option Duration)
  | consumerTracer (t : Tracer)
  | producerTracer (t : Tracer)
  | shuffle (b : Bool)
  | tunable (name : String)
  /-- A choice of field value encoding; there is one encoding only, so it has no effect. -/
  | fieldEncoding (b : Bool)

def Setting.availableIn (edition : Edition) : Setting → Bool
  | .tunable _ => edition == .experimental
  | _ => true

namespace Builder

/-- What settings leave of a builder, the error they ended with, and what was seen meanwhile. -/
structure Made where
  builder : Builder
  error : Option PolicyError
  events : List Event

def ofHost (h : Host) : Builder := ⟨Policy.ofHost h⟩

/-- Sets a client property. Overwriting a default and refusing a name are logged. -/
def setProperty (b : Builder) (name : String) (value : FieldValue) : Made :=
  let (answer, properties) := b.policy.properties.set name value
  let builder : Builder := ⟨{ b.policy with properties }⟩
  match answer with
  | .error e =>
    ⟨builder, some e,
      [.log .warn Log.builderTarget "Client property rejected"
        [("property", .text name), ("error", .shown e.message)]]⟩
  | .ok c =>
    ⟨builder, none,
      if c = .defaulted then
        [.log .debug Log.builderTarget "Overriding default client property"
          [("property", .text name)]]
      else []⟩

def set (b : Builder) (s : Setting) : Made :=
  let p := b.policy
  match s with
  | .resource e => ⟨⟨{ p with resource := .borrowed e }⟩, none, []⟩
  | .metrics sink => ⟨⟨{ p with metrics := sink }⟩, none, []⟩
  | .onError c => ⟨⟨{ p with onError := c }⟩, none, []⟩
  | .onSuccess c => ⟨⟨{ p with onSuccess := c }⟩, none, []⟩
  | .onHung c => ⟨⟨{ p with onHung := c }⟩, none, []⟩
  | .property name value => b.setProperty name value
  | .timeout d => ⟨⟨{ p with timeout := d }⟩, none, []⟩
  | .threshold d => ⟨⟨{ p with threshold := d }⟩, none, []⟩
  | .consumerTracer t => ⟨⟨{ p with consumerTracer := some t }⟩, none, []⟩
  | .producerTracer t => ⟨⟨{ p with producerTracer := some t }⟩, none, []⟩
  | .shuffle x => ⟨⟨{ p with shuffle := some x }⟩, none, []⟩
  | .tunable name =>
    ⟨⟨{ p with tunables := OrderedTable.insertName name p.tunables }⟩, none, []⟩
  | .fieldEncoding _ => ⟨b, none, []⟩

def setAll (b : Builder) : List Setting → Made
  | [] => ⟨b, none, []⟩
  | s :: rest =>
    let made := b.set s
    match made.error with
    | some _ => made
    | none =>
      let later := made.builder.setAll rest
      { later with events := made.events ++ later.events }

def snapshot (b : Builder) : Policy := b.policy

def builtFields (p : Policy) : Log.Fields :=
  [("borrowed_executor", .flag p.resource.isBorrowed),
   ("metrics", .flag p.metrics.isEnabled),
   ("message_processing_timeout_ms", .number p.timeout.millis),
   ("connection_error_threshold", .shown (Text.optionText (p.threshold.map Duration.text))),
   ("client_properties", .number p.properties.size)]

/-- Hands off the policy if its executor, when it has one, accepts jobs now. -/
def build (accepts : Executor → Bool) (b : Builder) : Except PolicyError Policy × List Event :=
  let p := b.policy
  if p.resource.executor?.all accepts then
    (.ok b.snapshot,
      (if p.timeout.isZero then
        [.log .warn Log.builderTarget
          ("Message processing timeout is zero; every outstanding message will be " ++
            "reported as hung") []]
      else []) ++
      [.log .debug Log.builderTarget "Context policy built" (builtFields p)])
  else
    (.error .executorUnavailable,
      [.log .warn Log.builderTarget "Borrowed execution resource is not accepting work" []])

def structural (b : Builder) : String :=
  Text.recordText "ContextPolicyBuilder" [("policy", b.policy.structural)]

end Builder

end BrokerPolicy
