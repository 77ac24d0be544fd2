import BrokerPolicy.Proofs.Session.Delivery
import BrokerPolicy.Proofs.Tracing.Balance

set_option autoImplicit false

/-!
Spans of a session with a recorder beside it, which hears everything that is seen. Whatever requests
come, in whatever order, the recorder can make sense of it, and its spans and the open contexts stay
in balance.
-/

namespace BrokerPolicy

theorem Event.span?_of_isDelivery {e : Event} (h : e.isDelivery = true) : e.span? = none := by
  cases e <;> first | rfl | cases h

namespace Session

section Requests

variable {s : Session} {r : Request} {o : Outcome}

theorem leavesContexts_of_reaching (reply : Reply) {events : List Event} {c : Call}
    {v : c.slot.Value} (h : events = c.reaching v) :
    (s.unchanged reply events).LeavesContexts (fun e => e.span? = none) s := by
  subst h
  exact ⟨fun e he => Event.span?_of_isDelivery (c.reaching_isDelivery v e he).1, rfl⟩

theorem leavesContexts_of_call {call : String × Call} (h : r.call? = some call)
    (ho : s.perform r = some o) : o.LeavesContexts (fun e => e.span? = none) s := by
  cases r with
  | publish name m =>
    obtain ⟨held, -, rfl⟩ := exists_of_lookup ho
    exact leavesContexts_of_reaching (c := .publish m) _ (MetricsSink.publish_eq _ m)
  | notifyError name text code =>
    obtain ⟨held, -, rfl⟩ := exists_of_lookup ho
    exact leavesContexts_of_reaching (c := .error text code) _ (Callback.notifyError_eq _ _ _)
  | notifySuccess name =>
    obtain ⟨held, -, rfl⟩ := exists_of_lookup ho
    exact leavesContexts_of_reaching (c := .success) _ (Callback.notifySuccess_eq _)
  | notifyHung name messages =>
    obtain ⟨held, -, rfl⟩ := exists_of_lookup ho
    exact leavesContexts_of_reaching (c := .hung messages) _ (Callback.notifyHung_eq _ messages)
  | _ => cases h

theorem next_of_perform (ho : s.perform r = some o) : s.next r = o.session := by
  rw [next_eq, ho]
  rfl

theorem seen_of_perform (ho : s.perform r = some o) (hgone : o.gone = []) :
    s.seen r = o.events := by
  rw [seen_eq, performed, gone, ho]
  change o.events ++ o.gone.map _ = o.events
  rw [hgone]
  exact List.append_nil _

theorem step_of_none (ho : s.perform r = none) :
    s.contexts.Step (s.seen r) (s.next r).contexts := by
  rw [seen, next, step, ho]
  exact .quiet fun e he => absurd he List.not_mem_nil

theorem step_of_leaving
    (h : ∀ o, s.perform r = some o → o.LeavesContexts (fun e => e.span? = none) s) :
    s.contexts.Step (s.seen r) (s.next r).contexts := by
  cases ho : s.perform r with
  | none => exact step_of_none ho
  | some o =>
    obtain ⟨hevents, hcontexts⟩ := h o ho
    rw [next_of_perform ho, hcontexts, seen_eq, performed, ho]
    refine .quiet (List.forall_mem_append.2 ⟨hevents, fun e he => ?_⟩)
    obtain ⟨p, -, rfl⟩ := List.mem_map.1 he
    rfl

theorem step_of_perform (ho : s.perform r = some o) (hgone : o.gone = [])
    (h : s.contexts.Step o.events o.session.contexts) :
    s.contexts.Step (s.seen r) (s.next r).contexts := by
  rwa [next_of_perform ho, seen_of_perform ho hgone]

end Requests

section Create

variable {s : Session} {holder : String} {held : Holder} (h : s.holder? holder = some held)
  (result : String)
include h

theorem perform_consume (d : Delivery) :
    s.perform (.consume holder result d) = some (s.consumeWith held.current result d) := by
  rw [perform, h]
  rfl

theorem perform_produce (m : Publish) (headers : FieldTable) :
    s.perform (.produce holder result m headers) =
      some (s.produceWith held.current result m headers) := by
  rw [perform, h]
  rfl

end Create

theorem gone_consumeWith (s : Session) (p : Policy) (name : String) (d : Delivery) :
    (s.consumeWith p name d).gone = [] := by
  rw [consumeWith]
  cases p.consumerTracer <;> rfl

theorem gone_produceWith (s : Session) (p : Policy) (name : String) (m : Publish)
    (headers : FieldTable) : (s.produceWith p name m headers).gone = [] := by
  rw [produceWith]
  cases p.producerTracer <;> rfl

theorem gone_respondTo (s : Session) (context : String) (confirm : Confirm) :
    (s.respondTo context confirm).gone = [] := by
  rw [respondTo]
  cases s.contexts.producing.find? context <;> rfl

/-- Everything that a request can do to the open contexts. -/
theorem step_contexts (s : Session) (r : Request) :
    s.contexts.Step (s.seen r) (s.next r).contexts := by
  cases r with
  | consume holder result d =>
    cases hheld : s.holder? holder with
    | none => exact step_of_none (by rw [perform, hheld]; rfl)
    | some held =>
      refine step_of_perform (perform_consume hheld result d) (gone_consumeWith s _ _ _) ?_
      rw [consumeWith]
      cases held.current.consumerTracer with
      | none => exact .quiet fun e he => absurd he List.not_mem_nil
      | some t => exact .consume result t d
  | produce holder result m headers =>
    cases hheld : s.holder? holder with
    | none => exact step_of_none (by rw [perform, hheld]; rfl)
    | some held =>
      refine step_of_perform (perform_produce hheld result m headers)
        (gone_produceWith s _ _ _ _) ?_
      rw [produceWith]
      cases held.current.producerTracer with
      | none => exact .quiet fun e he => absurd he List.not_mem_nil
      | some t => exact .produce result t m
  | respond context confirm =>
    refine step_of_perform (o := s.respondTo context confirm) rfl
      (s.gone_respondTo context confirm) ?_
    rw [respondTo]
    cases hfound : s.contexts.producing.find? context with
    | none => exact .quiet fun e he => absurd he List.not_mem_nil
    | some c => exact .respond hfound confirm
  | endContext context =>
    exact step_of_perform (o := s.endOf context) rfl rfl
      (.finish (s.contexts.kindOf context) context)
  | publish _ _ | notifyError _ _ _ | notifySuccess _ | notifyHung _ _ =>
    exact step_of_leaving fun o ho => leavesContexts_of_call rfl ho
  | _ => exact step_of_leaving fun o ho => leavesContexts_perform (fun _ _ _ _ => rfl) rfl ho

def spanOf (s : Session) (kind : ContextKind) (name : String) : Option Span :=
  Contexts.spanAt (s.contexts.of kind) name

section Single

variable {s : Session} {holder : String} {held : Holder} (h : s.holder? holder = some held)
  (result : String)
include h

theorem seen_consume (htracer : held.current.consumerTracer = some .span) (d : Delivery) :
    s.seen (.consume holder result d) =
        .spanOpened ⟨s.contexts.spansMade, "amqp.consume"⟩ .info d.spanFields ::
          ((s.spanOf .consuming result).map .spanClosed).toList ∧
      (s.next (.consume holder result d)).spanOf .consuming result =
        some ⟨s.contexts.spansMade, "amqp.consume"⟩ := by
  have ho := perform_consume h result d
  rw [next_of_perform ho, seen_of_perform ho (gone_consumeWith s _ _ _), consumeWith,
    htracer, spanOf, spanOf, ← Contexts.closing_eq]
  refine ⟨rfl, ?_⟩
  change Contexts.spanAt ((s.contexts.keep .consuming result _).of .consuming) result = _
  rw [Contexts.of_keep, if_pos rfl, Contexts.spanAt_insert, if_pos rfl]
  rfl

theorem seen_produce (htracer : held.current.producerTracer = some .span) (m : Publish)
    (headers : FieldTable) :
    s.seen (.produce holder result m headers) =
        .spanOpened ⟨s.contexts.spansMade, "amqp.publish"⟩ .info m.spanFields ::
          ((s.spanOf .producing result).map .spanClosed).toList ∧
      (s.next (.produce holder result m headers)).spanOf .producing result =
        some ⟨s.contexts.spansMade, "amqp.publish"⟩ ∧
      (s.step (.produce holder result m headers)).map Outcome.reply =
        some (.produced true headers) := by
  have ho := perform_produce h result m headers
  rw [next_of_perform ho, seen_of_perform ho (gone_produceWith s _ _ _ _), step, ho,
    produceWith, htracer, spanOf, spanOf, ← Contexts.closing_eq]
  refine ⟨rfl, ?_, rfl⟩
  change Contexts.spanAt ((s.contexts.keep .producing result _).of .producing) result = _
  rw [Contexts.of_keep, if_pos rfl, Contexts.spanAt_insert, if_pos rfl]
  rfl

end Single

theorem seen_respond {s : Session} {context : String} {span : Span}
    (hs : s.spanOf .producing context = some span) (confirm : Confirm) :
    s.seen (.respond context confirm) = (Context.span span).respond confirm := by
  obtain ⟨c, hfound, hspan⟩ := Option.bind_eq_some_iff.1 hs
  change s.contexts.producing.find? context = some c at hfound
  rw [seen_of_perform (o := s.respondTo context confirm) rfl
    (s.gone_respondTo context confirm), respondTo, hfound]
  cases c with
  | span t =>
    obtain rfl : t = span := Option.some.inj hspan
    rfl
  | own owner => cases hspan

theorem seen_endContext {s : Session} {context : String} {span : Span}
    (hs : s.spanOf (s.contexts.kindOf context) context = some span) :
    s.seen (.endContext context) = [.spanClosed span] ∧
      (s.next (.endContext context)).spanOf (s.contexts.kindOf context) context = none := by
  have ho : s.perform (.endContext context) = some (s.endOf context) := rfl
  rw [next_of_perform ho, seen_of_perform ho rfl]
  refine ⟨Contexts.closing_of_spanAt_eq _ _ _ hs, ?_⟩
  change Contexts.spanAt ((s.contexts.remove _ context).of _) context = none
  rw [Contexts.of_remove, if_pos rfl, Contexts.spanAt_erase, if_pos rfl]

section Runs

variable {outer : List Span} {k : Recorder}

theorem balanced_after {s : Session} (h : s.contexts.Balanced outer k) (rs : List Request) :
    k.WellFormed (s.watch rs) ∧ (s.after rs).contexts.Balanced outer (k.hearAll (s.watch rs)) := by
  induction rs using List.reverseRecOn with
  | nil => exact ⟨trivial, h⟩
  | append_singleton rs r ih =>
    obtain ⟨hwatch, hbalanced⟩ := ih
    obtain ⟨hseen, hnext⟩ := hbalanced.step ((s.after rs).step_contexts r)
    rw [watch, collect_concat, Recorder.wellFormed_append, Recorder.hearAll_append, after_concat]
    exact ⟨⟨hwatch, hseen⟩, hnext⟩

/-- Before any context is opened, whatever the recorder has heard from others. -/
theorem balanced_start {made : Nat} (houter : ∀ span ∈ outer, span.serial < made) :
    (Contexts.mk made [] []).Balanced outer ⟨made, [], outer⟩ where
  made := rfl
  sorted kind := by cases kind <;> exact OrderedTable.sorted_nil
  named kind s hs := by cases kind <;> cases hs
  spans := List.Perm.refl _
  sound := ⟨List.nodup_nil, fun s hs => absurd hs List.not_mem_nil⟩
  entered := rfl
  given := houter
  apart s hs := absurd hs List.not_mem_nil

end Runs

/-- What requests about contexts come to for a recorder, where `outer` was entered before. -/
structure Proper (outer : List Span) (k : Recorder) (s : Session) : Prop where
  named : ∀ {kind name span}, s.spanOf kind name = some span →
    span.name = kind.spanName ∧ span ∈ k.spans
  distinct : ∀ {kind kind' name name' span}, s.spanOf kind name = some span →
    s.spanOf kind' name' = some span → kind = kind' ∧ name = name'
  /-- A context has one span up to the end of that span. -/
  kept : ∀ {kind name span}, s.spanOf kind name = some span → ∀ r,
    (s.next r).spanOf kind name = some span ∨ .spanClosed span ∈ s.seen r
  /-- A delivery opens one span, new to the recorder. A context that was open under the name
  before ends. -/
  consume : ∀ {holder result d held}, s.holder? holder = some held →
    held.current.consumerTracer = some .span →
    s.seen (.consume holder result d) =
        .spanOpened ⟨k.made, "amqp.consume"⟩ .info d.spanFields ::
          ((s.spanOf .consuming result).map .spanClosed).toList ∧
      (s.next (.consume holder result d)).spanOf .consuming result =
        some ⟨k.made, "amqp.consume"⟩
  /-- A publish opens one span, and its headers stay as they are. -/
  produce : ∀ {holder result m headers held}, s.holder? holder = some held →
    held.current.producerTracer = some .span →
    s.seen (.produce holder result m headers) =
        .spanOpened ⟨k.made, "amqp.publish"⟩ .info m.spanFields ::
          ((s.spanOf .producing result).map .spanClosed).toList ∧
      (s.next (.produce holder result m headers)).spanOf .producing result =
        some ⟨k.made, "amqp.publish"⟩ ∧
      (s.step (.produce holder result m headers)).map Outcome.reply =
        some (.produced true headers)
  /-- An answer is recorded on the span of its context and logged inside it. -/
  respond : ∀ {context span}, s.spanOf .producing context = some span → ∀ confirm,
    k.listen (s.seen (.respond context confirm)) =
      [⟨.spanRecorded span [("confirm", .shown confirm.text)], outer.head?⟩,
        ⟨.spanEntered span, outer.head?⟩, ⟨Context.outcome confirm, some span⟩,
        ⟨.spanExited span, some span⟩]
  /-- The end of a context closes its span and no other. -/
  finish : ∀ {context span}, s.spanOf (s.contexts.kindOf context) context = some span →
    s.seen (.endContext context) = [.spanClosed span] ∧
      (s.next (.endContext context)).spanOf (s.contexts.kindOf context) context = none

theorem proper_of_balanced {outer : List Span} {k : Recorder} {s : Session}
    (h : s.contexts.Balanced outer k) : s.Proper outer k where
  named hs := ⟨(h.open_of_spanAt_eq hs).1, (h.open_of_spanAt_eq hs).2.1⟩
  distinct hs hs' := h.spanAt_inj hs hs'
  kept hs r := (s.step_contexts r).spanAt_or_closed hs
  consume hheld htracer := by
    rw [h.made]
    exact seen_consume hheld _ htracer _
  produce hheld htracer := by
    rw [h.made]
    exact seen_produce hheld _ htracer _ _
  respond hs confirm := by
    rw [seen_respond hs, Recorder.listen_respond, h.entered]
  finish hs := seen_endContext hs

/-- Whatever a session is asked to do, its span tracing is well formed. What is seen of it makes
sense to a recorder, to which nothing comes of a span that is closed; what was entered before is
entered after, and as many spans of a name are open as contexts of their kind. -/
theorem span_traces_well_formed (edition : Edition) (name : String) (b : Builder) (made : Nat)
    (outer : List Span) (houter : ∀ span ∈ outer, span.serial < made) (rs : List Request) :
    let s := { start edition name b with contexts := ⟨made, [], []⟩ }
    let k : Recorder := ⟨made, [], outer⟩
    let now := s.after rs
    let heard := k.hearAll (s.watch rs)
    k.WellFormed (s.watch rs) ∧
      (∀ before after span, s.watch rs = before ++ .spanClosed span :: after →
        ∀ x ∈ (k.hearAll (before ++ [.spanClosed span])).listen after, ¬x.Concerns span) ∧
      heard.entered = outer ∧
      (∀ kind, heard.spans.countP (·.name = kind.spanName) =
        (now.contexts.of kind).countP fun e => e.2.span?.isSome) ∧
      now.Proper outer heard := by
  intro s k now heard
  have hstart : s.contexts.Balanced outer k := balanced_start houter
  obtain ⟨hwatch, hnow⟩ := balanced_after hstart rs
  refine ⟨hwatch, ?_, hnow.entered, hnow.countP_spans, proper_of_balanced hnow⟩
  intro before after span hsplit
  rw [hsplit] at hwatch
  exact hstart.sound.silent_after_close hwatch

def tracingBuilder : Builder :=
  ⟨{ Policy.ofHost ⟨"worker", 7, "Linux", "6.1.0", "#1 SMP"⟩ with
    consumerTracer := some .span, producerTracer := some .span }⟩

def tracingSession : Session :=
  { start .standard "main" tracingBuilder with contexts := ⟨1, [], []⟩ }

/-- A delivery and two publishes overlap. One publish is answered twice, the other ends without an
answer. -/
def overlappingRequests : List Request :=
  [.consume "main" "c" ⟨"orders", "", "orders", "ctag-1", 1, "/", []⟩,
    .produce "main" "p" ⟨"events", "order.created", "/"⟩ [],
    .produce "main" "q" ⟨"events", "order.created", "/"⟩ [],
    .respond "q" .reject, .respond "q" .ack, .endContext "p"]

/-- All of it happens inside a span of the caller. -/
theorem span_traces_well_formed_overlapping :
    let k : Recorder := ⟨1, [], [⟨0, "work"⟩]⟩
    let trace := tracingSession.watch overlappingRequests
    trace =
        [.spanOpened ⟨1, "amqp.consume"⟩ .info
            [("queue", .shown "orders"), ("exchange", .shown ""), ("routing_key", .shown "orders"),
              ("consumer_tag", .shown "ctag-1"), ("delivery_tag", .number 1),
              ("vhost", .shown "/")],
          .spanOpened ⟨2, "amqp.publish"⟩ .info
            [("exchange", .shown "events"), ("routing_key", .shown "order.created"),
              ("vhost", .shown "/")],
          .spanOpened ⟨3, "amqp.publish"⟩ .info
            [("exchange", .shown "events"), ("routing_key", .shown "order.created"),
              ("vhost", .shown "/")],
          .spanRecorded ⟨3, "amqp.publish"⟩ [("confirm", .shown "Reject")],
          .spanEntered ⟨3, "amqp.publish"⟩,
          .log .warn Log.tracingTarget "Publish not accepted by broker"
            [("confirm", .shown "Reject")],
          .spanExited ⟨3, "amqp.publish"⟩,
          .spanRecorded ⟨3, "amqp.publish"⟩ [("confirm", .shown "Ack")],
          .spanEntered ⟨3, "amqp.publish"⟩,
          .log .debug Log.tracingTarget "Publish confirmed" [],
          .spanExited ⟨3, "amqp.publish"⟩,
          .spanClosed ⟨2, "amqp.publish"⟩] ∧
      k.WellFormed trace ∧ (k.hearAll trace).entered = [⟨0, "work"⟩] ∧
      (k.hearAll trace).spans.countP (·.name = "amqp.publish") = 1 := by
  have houter : ∀ span ∈ [(⟨0, "work"⟩ : Span)], span.serial < 1 := by simp
  obtain ⟨hwatch, -, hentered, hopen, -⟩ :=
    span_traces_well_formed .standard "main" tracingBuilder 1 [⟨0, "work"⟩] houter
      overlappingRequests
  exact ⟨rfl, hwatch, hentered, (hopen .producing).trans rfl⟩

end Session

end BrokerPolicy
