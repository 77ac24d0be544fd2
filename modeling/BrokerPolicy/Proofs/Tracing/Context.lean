import BrokerPolicy.Proofs.OrderedTable
import BrokerPolicy.Proofs.Tracing.Recorder
import BrokerPolicy.Tracing.Context

set_option autoImplicit false

/-!
What a recorder hears of a single context: its span opens, is entered for as long as an answer is
logged, and closes.
-/

namespace BrokerPolicy

def Delivery.spanFields (d : Delivery) : Log.Fields :=
  [("queue", .shown d.queue), ("exchange", .shown d.exchange),
    ("routing_key", .shown d.routingKey), ("consumer_tag", .shown d.consumerTag),
    ("delivery_tag", .number d.deliveryTag.toNat), ("vhost", .shown d.vhost)]

/-- The fields under which the span of a publish is opened. A confirm is not among them. -/
def Publish.spanFields (m : Publish) : Log.Fields :=
  [("exchange", .shown m.exchange), ("routing_key", .shown m.routingKey),
    ("vhost", .shown m.vhost)]

namespace ContextKind

def other : ContextKind → ContextKind
  | consuming => producing
  | producing => consuming

theorem other_ne (kind : ContextKind) : kind.other ≠ kind := by
  cases kind <;> decide

theorem spanName_inj {a b : ContextKind} (h : a.spanName = b.spanName) : a = b := by
  cases a <;> cases b <;> first | rfl | exact absurd h (by decide)

end ContextKind

namespace Context

def span? : Context → Option Span
  | span s => some s
  | own _ => none

theorem toList_span? (c : Context) : c.span?.toList = c.spans := by
  cases c <;> rfl

def outcome (confirm : Confirm) : Event :=
  if confirm = .ack then .log .debug Log.tracingTarget "Publish confirmed" []
  else
    .log .warn Log.tracingTarget "Publish not accepted by broker"
      [("confirm", .shown confirm.text)]

theorem span?_outcome (confirm : Confirm) : (outcome confirm).span? = none := by
  cases confirm <;> rfl

theorem respond_span (s : Span) (confirm : Confirm) :
    (span s).respond confirm =
      [.spanRecorded s [("confirm", .shown confirm.text)], .spanEntered s, outcome confirm,
        .spanExited s] := rfl

end Context

namespace Recorder

def withOpened (k : Recorder) (c : Context) : Recorder :=
  { k with made := k.made + c.spans.length, spans := c.spans ++ k.spans }

/-- Events that open the span of a context, if it has one, and do nothing else to spans. -/
structure HearsOpening (k : Recorder) (c : Context) (opening : List Event) : Prop where
  heard : k.hearAll opening = k.withOpened c
  wellFormed : (∀ s ∈ c.spans, s.serial = k.made) → k.WellFormed opening

variable (k : Recorder)

theorem hearsOpening_delivery (c : Context) (d : Delivery) :
    k.HearsOpening c (c.openDelivery d) := by
  cases c with
  | span s => exact ⟨rfl, fun h => ⟨h s (List.mem_singleton.2 rfl), trivial⟩⟩
  | own name => exact ⟨rfl, fun _ => ⟨trivial, trivial⟩⟩

theorem hearsOpening_publish (c : Context) (m : Publish) :
    k.HearsOpening c (c.openPublish m) := by
  cases c with
  | span s => exact ⟨rfl, fun h => ⟨h s (List.mem_singleton.2 rfl), trivial⟩⟩
  | own name => exact ⟨rfl, fun _ => ⟨trivial, trivial⟩⟩

theorem hearAll_respond (c : Context) (confirm : Confirm) : k.hearAll (c.respond confirm) = k := by
  cases c with
  | own name => rfl
  | span s =>
    rw [Context.respond_span]
    change ((((k.hear _).hear (.spanEntered s)).hear (Context.outcome confirm)).hear
      (.spanExited s)) = k
    rw [hear_of_no_span (Context.span?_outcome confirm)]
    change { k with entered := (s :: k.entered).erase s } = k
    rw [List.erase_cons_head]

theorem wellFormed_respond {c : Context} (h : ∀ s ∈ c.spans, s ∈ k.spans) (confirm : Confirm) :
    k.WellFormed (c.respond confirm) := by
  cases c with
  | own name => exact ⟨trivial, trivial⟩
  | span s =>
    have hs := h s (List.mem_singleton.2 rfl)
    cases confirm <;> exact ⟨hs, hs, trivial, rfl, trivial⟩

theorem listen_respond (s : Span) (confirm : Confirm) :
    k.listen ((Context.span s).respond confirm) =
      [⟨.spanRecorded s [("confirm", .shown confirm.text)], k.entered.head?⟩,
        ⟨.spanEntered s, k.entered.head?⟩, ⟨Context.outcome confirm, some s⟩,
        ⟨.spanExited s, some s⟩] := by
  cases confirm <;> rfl

theorem hearAll_close (c : Context) :
    k.hearAll c.close = { k with spans := k.spans.diff c.spans } := by
  cases c with
  | own name => rfl
  | span s =>
    change { k with spans := k.spans.erase s } = { k with spans := k.spans.diff [s] }
    rw [List.diff_cons, List.diff_nil]

theorem wellFormed_close {c : Context} (h : ∀ s ∈ c.spans, s ∈ k.spans ∧ s ∉ k.entered) :
    k.WellFormed c.close := by
  cases c with
  | own name => trivial
  | span s => exact ⟨h s (List.mem_singleton.2 rfl), trivial⟩

end Recorder

end BrokerPolicy
