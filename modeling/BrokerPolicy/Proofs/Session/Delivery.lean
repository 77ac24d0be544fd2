import BrokerPolicy.Proofs.Session.Records

set_option autoImplicit false

/-!
Measurements and notifications on the way to the handler that an object holds. A call is seen by
that handler once and as it was made; no other request is seen by any handler.
-/

namespace BrokerPolicy

inductive Call where
  | publish (m : Measurement)
  | error (text : String) (code : Int)
  | success
  | hung (messages : List HungMessage)

def Publisher.taking (m : Measurement) : Publisher → Event
  | .recorder word => .recorderCalled ⟨m.instrument, recorderKey word m.name, m.tags⟩
  | .own _ name => .measured name m

namespace Call

def slot : Call → Slot
  | .publish _ => .metrics
  | .error _ _ => .onError
  | .success => .onSuccess
  | .hung _ => .onHung

/-- What is seen of a call where a slot holds some handler, or holds none. -/
def reaching : (c : Call) → c.slot.Value → List Event
  | .publish m, sink => ((MetricsSink.publisher? sink).map (Publisher.taking m)).toList
  | .error text code, c => ((Callback.handler? c).map (.errorNotified · text code)).toList
  | .success, c => ((Callback.handler? c).map .successNotified).toList
  | .hung messages, c => ((Callback.handler? c).map (.hungNotified · messages)).toList

end Call

def Request.call? : Request → Option (String × Call)
  | .publish holder m => some (holder, .publish m)
  | .notifyError holder text code => some (holder, .error text code)
  | .notifySuccess holder => some (holder, .success)
  | .notifyHung holder messages => some (holder, .hung messages)
  | _ => none

/-- What a call should come to, given the settings that went into each object: the handler that was
installed last takes it. -/
def Request.due (told : Shelf (List Setting)) (r : Request) : List Event :=
  match r.call? with
  | none => []
  | some (holder, c) =>
    (((told.find? holder).bind (lastWrite c.slot)).map c.reaching).getD []

theorem Request.due_of_call {r : Request} {holder : String} {c : Call}
    (h : r.call? = some (holder, c)) (told : Shelf (List Setting)) :
    r.due told = (((told.find? holder).bind (lastWrite c.slot)).map c.reaching).getD [] := by
  rw [due, h]

namespace Event

@[simp]
def isDelivery : Event → Bool
  | .measured _ _ | .recorderCalled _ | .errorNotified _ _ _ | .successNotified _
  | .hungNotified _ _ => true
  | _ => false

@[simp]
def released? : Event → Option String
  | .publisherReleased name => some name
  | _ => none

@[simp]
def IsQuiet (e : Event) : Prop := e.isDelivery = false ∧ e.released? = none

theorem filter_isDelivery_of_quiet {es : List Event} (h : ∀ e ∈ es, e.IsQuiet) :
    es.filter isDelivery = [] := by
  rw [List.filter_eq_nil_iff]
  intro e he
  rw [(h e he).1]
  exact Bool.false_ne_true

theorem filterMap_released?_of_quiet {es : List Event} (h : ∀ e ∈ es, e.IsQuiet) :
    es.filterMap released? = [] :=
  List.filterMap_eq_nil_iff.2 fun e he => (h e he).2

end Event

namespace Call

theorem reaching_isDelivery (c : Call) (v : c.slot.Value) :
    ∀ e ∈ c.reaching v, e.isDelivery = true ∧ e.released? = none := by
  intro e he
  cases c with
  | publish m =>
    obtain ⟨p, _, rfl⟩ := Option.map_eq_some_iff.1 (Option.mem_toList.1 he)
    cases p <;> exact ⟨rfl, rfl⟩
  | error text code =>
    obtain ⟨name, _, rfl⟩ := Option.map_eq_some_iff.1 (Option.mem_toList.1 he)
    exact ⟨rfl, rfl⟩
  | success =>
    obtain ⟨name, _, rfl⟩ := Option.map_eq_some_iff.1 (Option.mem_toList.1 he)
    exact ⟨rfl, rfl⟩
  | hung messages =>
    obtain ⟨name, _, rfl⟩ := Option.map_eq_some_iff.1 (Option.mem_toList.1 he)
    exact ⟨rfl, rfl⟩

end Call

theorem MetricsSink.publish_eq (sink : MetricsSink) (m : Measurement) :
    sink.publish m = (sink.publisher?.map (Publisher.taking m)).toList := by
  cases sink with
  | disabled => rfl
  | publisher p => cases p <;> rfl

theorem MetricsSink.eq_of_publisher? {sink : MetricsSink} {p : Publisher}
    (h : sink.publisher? = some p) : sink = .publisher p := by
  cases sink with
  | disabled => exact absurd h (by simp [publisher?])
  | publisher q => exact congrArg MetricsSink.publisher (Option.some.inj h)

namespace Callback

variable (c : Callback)

theorem notifyError_eq (text : String) (code : Int) :
    c.notifyError text code = (c.handler?.map (.errorNotified · text code)).toList := by
  cases c <;> rfl

theorem notifySuccess_eq : c.notifySuccess = (c.handler?.map .successNotified).toList := by
  cases c <;> rfl

theorem notifyHung_eq (messages : List HungMessage) :
    c.notifyHung messages = (c.handler?.map (.hungNotified · messages)).toList := by
  cases c <;> rfl

end Callback

namespace Context

theorem openDelivery_quiet (c : Context) (d : Delivery) : ∀ e ∈ c.openDelivery d, e.IsQuiet := by
  cases c <;> simp [openDelivery]

theorem openPublish_quiet (c : Context) (m : Publish) : ∀ e ∈ c.openPublish m, e.IsQuiet := by
  cases c <;> simp [openPublish]

theorem respond_quiet (c : Context) (confirm : Confirm) : ∀ e ∈ c.respond confirm, e.IsQuiet := by
  cases c <;> cases confirm <;> simp [respond, Event.log]

theorem close_quiet (c : Context) : ∀ e ∈ c.close, e.IsQuiet := by
  cases c <;> simp [close]

end Context

theorem Contexts.closing_quiet (x : Contexts) (kind : ContextKind) (name : String) :
    ∀ e ∈ x.closing kind name, e.IsQuiet := by
  rw [closing]
  cases (x.of kind).find? name with
  | none => exact fun e he => absurd he List.not_mem_nil
  | some c => exact c.close_quiet

namespace Session

theorem consumeWith_quiet (s : Session) (p : Policy) (name : String) (d : Delivery) :
    ∀ e ∈ (s.consumeWith p name d).events, e.IsQuiet := by
  rw [consumeWith]
  cases p.consumerTracer with
  | none => simp [unchanged]
  | some t =>
    exact List.forall_mem_append.2
      ⟨(s.contexts.made .consuming t).openDelivery_quiet d, s.contexts.closing_quiet _ _⟩

theorem produceWith_quiet (s : Session) (p : Policy) (name : String) (m : Publish)
    (headers : FieldTable) : ∀ e ∈ (s.produceWith p name m headers).events, e.IsQuiet := by
  rw [produceWith]
  cases p.producerTracer with
  | none => simp [unchanged]
  | some t =>
    exact List.forall_mem_append.2
      ⟨(s.contexts.made .producing t).openPublish_quiet m, s.contexts.closing_quiet _ _⟩

theorem respondTo_quiet (s : Session) (context : String) (confirm : Confirm) :
    ∀ e ∈ (s.respondTo context confirm).events, e.IsQuiet := by
  rw [respondTo]
  cases s.contexts.producing.find? context with
  | none => simp [unchanged]
  | some c => exact c.respond_quiet confirm

theorem endOf_quiet (s : Session) (context : String) :
    ∀ e ∈ (s.endOf context).events, e.IsQuiet := s.contexts.closing_quiet _ _

theorem performed_of_call {r : Request} {holder : String} {c : Call}
    (h : r.call? = some (holder, c)) (s : Session) :
    s.performed r = ((s.objects.find? holder).map fun p => c.reaching (c.slot.read p)).getD [] := by
  rw [find?_objects, performed]
  cases r with
  | publish name m =>
    cases h
    rw [perform]
    cases s.holder? holder with
    | none => rfl
    | some held => exact MetricsSink.publish_eq held.current.metrics m
  | notifyError name text code =>
    cases h
    rw [perform]
    cases s.holder? holder with
    | none => rfl
    | some held => exact Callback.notifyError_eq held.current.onError text code
  | notifySuccess name =>
    cases h
    rw [perform]
    cases s.holder? holder with
    | none => rfl
    | some held => exact Callback.notifySuccess_eq held.current.onSuccess
  | notifyHung name messages =>
    cases h
    rw [perform]
    cases s.holder? holder with
    | none => rfl
    | some held => exact Callback.notifyHung_eq held.current.onHung messages
  | _ => simp [Request.call?] at h

theorem performed_quiet {r : Request} (h : r.call? = none) (s : Session) :
    ∀ e ∈ s.performed r, e.IsQuiet := by
  cases hlogs : r.onlyLogs with
  | true => exact forall_performed (fun _ _ _ _ => ⟨rfl, rfl⟩) hlogs s
  | false =>
    rw [performed]
    cases r with
    | consume name result d =>
      cases hb : s.holder? name with
      | none => simp [perform, hb]
      | some held => simpa [perform, hb] using s.consumeWith_quiet held.current result d
    | produce name result m headers =>
      cases hb : s.holder? name with
      | none => simp [perform, hb]
      | some held => simpa [perform, hb] using s.produceWith_quiet held.current result m headers
    | respond context c => exact s.respondTo_quiet context c
    | endContext context => exact s.endOf_quiet context
    | publish name m | notifyError name text code | notifySuccess name
    | notifyHung name messages => cases h
    | _ => cases hlogs

theorem performed_filterMap_released? (s : Session) (r : Request) :
    (s.performed r).filterMap Event.released? = [] := by
  cases h : r.call? with
  | none => exact Event.filterMap_released?_of_quiet (performed_quiet h s)
  | some call =>
    obtain ⟨holder, c⟩ := call
    rw [performed_of_call h, List.filterMap_eq_nil_iff]
    cases s.objects.find? holder with
    | none => simp
    | some p => exact fun e he => (c.reaching_isDelivery _ e he).2

theorem seen_filterMap_released? (s : Session) (r : Request) :
    (s.seen r).filterMap Event.released? = (s.gone r).map Prod.snd := by
  rw [seen_eq, List.filterMap_append, performed_filterMap_released?, List.nil_append,
    List.filterMap_map]
  exact congrFun List.filterMap_eq_map _

theorem seen_filter_isDelivery (s : Session) (r : Request) :
    (s.seen r).filter Event.isDelivery = (s.performed r).filter Event.isDelivery := by
  have hreleases : ((s.gone r).map fun p => Event.publisherReleased p.2).filter
      Event.isDelivery = [] := by
    rw [List.filter_map, List.map_eq_nil_iff, List.filter_eq_nil_iff]
    exact fun p _ => Bool.false_ne_true
  rw [seen_eq, List.filter_append, hreleases, List.append_nil]

end Session

theorem Call.reaching_ofHost (c : Call) (host : Host) :
    c.reaching (c.slot.read (Policy.ofHost host)) = [] := by
  cases c <;> rfl

namespace Session

variable (edition : Edition) (name : String) (host : Host)

/-- Whatever is delivered with a request is due, and the other way round. -/
theorem seen_eq_due (past : List Request) (r : Request) :
    (((start edition name (Builder.ofHost host)).after past).seen r).filter Event.isDelivery =
      r.due (told edition name (Builder.ofHost host) past) := by
  rw [seen_filter_isDelivery]
  cases h : r.call? with
  | none =>
    rw [Event.filter_isDelivery_of_quiet (performed_quiet h _), Request.due, h]
  | some call =>
    obtain ⟨holder, c⟩ := call
    rw [performed_of_call h, after_objects_eq_told, Shelf.find?_map, Request.due_of_call h]
    cases (told edition name (Builder.ofHost host) past).find? holder with
    | none => rfl
    | some ws =>
      change (c.reaching (c.slot.read (ws.foldl Policy.write (Policy.ofHost host)))).filter
        Event.isDelivery = ((lastWrite c.slot ws).map c.reaching).getD []
      rw [Slot.read_foldl_write, List.filter_eq_self.2 fun e he =>
        (c.reaching_isDelivery _ e he).1]
      cases lastWrite c.slot ws with
      | none => exact c.reaching_ofHost host
      | some v => rfl

theorem watch_eq_due (rs : List Request) :
    ((start edition name (Builder.ofHost host)).watch rs).filter Event.isDelivery =
      rs.zipIdx.flatMap fun x =>
        x.1.due (told edition name (Builder.ofHost host) (rs.take x.2)) := by
  rw [watch, filter_collect, collect_eq_flatMap]
  simp only [seen_eq_due]

end Session

end BrokerPolicy
