import BrokerPolicy.Session.Request

set_option autoImplicit false

/-!
One request after the other. A step gives the session after it, the answer, and what was seen
meanwhile; publishers that lost their last holder are seen last.
-/

namespace BrokerPolicy.Session

structure Outcome where
  session : Session
  reply : Reply
  events : List Event
  gone : List (Nat × String)

def unchanged (s : Session) (reply : Reply) (events : List Event) : Outcome :=
  ⟨s, reply, events, []⟩

def keepBuilder (s : Session) (name : String) (made : Builder.Made) : Outcome :=
  let (s', gone) := s.putBuilder name made.builder
  ⟨s', made.error.elim (.policy made.builder.policy) .refused, made.events, gone⟩

def keepPolicy (s : Session) (name : String) (p : Policy) (reply : Reply) (events : List Event) :
    Outcome :=
  let (s', gone) := s.putPolicy name p
  ⟨s', reply, events, gone⟩

def setOn (s : Session) (name : String) (b : Builder) (setting : Setting) : Outcome :=
  if setting.availableIn s.edition then
    s.keepBuilder name (b.set setting)
  else s.unchanged .notAvailable []

/-- Every publisher of the caller has a serial number of its own. -/
def makeSink (s : Session) : SinkChoice → MetricsSink × Session
  | .disabled => (.disabled, s)
  | .recorder word => (.publisher (.recorder word), s)
  | .own name =>
    (.publisher (.own s.publishersMade name), { s with publishersMade := s.publishersMade + 1 })

def applyFile (s : Session) (name : String) (b : Builder) (f : PolicyFile) : Outcome :=
  s.keepBuilder name (f.apply s.edition b)

def runJobs (s : Session) (p : Policy) (jobs : Nat) : Outcome :=
  match p.resource.executor? with
  | none => s.unchanged .noExecutor []
  | some e =>
    if s.accepts e then
      ⟨s.complete e jobs, .executed true (List.replicate jobs (.ok ())) jobs, [], []⟩
    else
      s.unchanged (.executed false (List.replicate jobs (.error e.refusal)) 0) []

/-- A context that was open under the name ends once the new one is open. -/
def consumeWith (s : Session) (p : Policy) (name : String) (d : Delivery) : Outcome :=
  match p.consumerTracer with
  | none => s.unchanged (.answered false) []
  | some t =>
    let c := s.contexts.made .consuming t
    ⟨{ s with contexts := s.contexts.keep .consuming name c }, .answered true,
      c.openDelivery d ++ s.contexts.closing .consuming name, []⟩

def produceWith (s : Session) (p : Policy) (name : String) (m : Publish) (headers : FieldTable) :
    Outcome :=
  match p.producerTracer with
  | none => s.unchanged (.produced false headers) []
  | some t =>
    let c := s.contexts.made .producing t
    ⟨{ s with contexts := s.contexts.keep .producing name c },
      .produced true (t.extendHeaders headers),
      c.openPublish m ++ s.contexts.closing .producing name, []⟩

def respondTo (s : Session) (context : String) (confirm : Confirm) : Outcome :=
  match s.contexts.producing.find? context with
  | none => s.unchanged .noContext []
  | some c => s.unchanged .done (c.respond confirm)

def endOf (s : Session) (context : String) : Outcome :=
  let kind := s.contexts.kindOf context
  ⟨{ s with contexts := s.contexts.remove kind context },
    .answered ((s.contexts.of kind).contains context),
    s.contexts.closing kind context, []⟩

def remove (s : Session) (name : String) : Outcome :=
  let (s', gone) := s.drop name
  ⟨s', .answered (s.policies.contains name || s.builders.contains name), [], gone⟩

/-- What a request brings about, but for publishers. None if it names something unknown. -/
def perform (s : Session) : Request → Option Outcome
  | .set name setting => do
    let b ← s.builders.find? name
    return s.setOn name b setting
  | .setSink name choice => do
    let b ← s.builders.find? name
    let (sink, s) := s.makeSink choice
    return s.setOn name b (.metrics sink)
  | .applyToml name source => do
    let b ← s.builders.find? name
    return match PolicyFile.parse s.edition source with
      | .error e => s.unchanged (.rejectedFile e) []
      | .ok f => s.applyFile name b f
  | .applyJson name source => do
    let b ← s.builders.find? name
    return match PolicyFile.ofJson source with
      | .error e => s.unchanged (.unreadable e) []
      | .ok f => s.applyFile name b f
  | .build name result => do
    let b ← s.builders.find? name
    return match b.build s.accepts with
      | (.ok p, events) => s.keepPolicy result p (.policy p) events
      | (.error e, events) => s.unchanged (.refused e) events
  | .snapshot name result => do
    let b ← s.builders.find? name
    return s.keepPolicy result b.snapshot (.policy b.snapshot) []
  | .copyPolicy name result => do
    let h ← s.holder? name
    return s.keepPolicy result h.current .done []
  | .copyBuilder name result => do
    let b ← s.builders.find? name
    let (s', gone) := s.putBuilder result b
    return ⟨s', .done, [], gone⟩
  | .drop name => some (s.remove name)
  | .setAccepting name accepting => some ⟨s.setAccepting name accepting, .done, [], []⟩
  | .completedJobs name => some (s.unchanged (.counted (s.completedJobs name)) [])
  | .execute name jobs => do
    let h ← s.holder? name
    return s.runJobs h.current jobs
  | .look name => do
    let h ← s.holder? name
    return s.unchanged (.held h) []
  | .notifyError name text code => do
    let h ← s.holder? name
    return s.unchanged .done (h.current.onError.notifyError text code)
  | .notifySuccess name => do
    let h ← s.holder? name
    return s.unchanged .done h.current.onSuccess.notifySuccess
  | .notifyHung name messages => do
    let h ← s.holder? name
    return s.unchanged .done (h.current.onHung.notifyHung messages)
  | .publish name m => do
    let h ← s.holder? name
    return s.unchanged .done (h.current.metrics.publish m)
  | .consume name result d => do
    let h ← s.holder? name
    return s.consumeWith h.current result d
  | .produce name result m headers => do
    let h ← s.holder? name
    return s.produceWith h.current result m headers
  | .respond context confirm => some (s.respondTo context confirm)
  | .endContext context => some (s.endOf context)

def step (s : Session) (r : Request) : Option Outcome := do
  let outcome ← s.perform r
  let releases := outcome.gone.map fun p => Event.publisherReleased p.2
  return { outcome with events := outcome.events ++ releases }

end BrokerPolicy.Session
