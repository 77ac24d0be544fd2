import BrokerPolicy.Event
import Mathlib.Data.List.Nodup

set_option autoImplicit false

/-!
A recorder of spans, which hears the events of a session. It gives every span that is opened the
next serial number, keeps the open ones, and remembers which ones are entered, the innermost first.
A trace is well formed if each event is one that the recorder can make sense of when it comes.
-/

namespace BrokerPolicy

/-- The span that an event is about. What is logged is about none, wherever it is logged. -/
def Event.span? : Event → Option Span
  | .spanOpened span _ _ | .spanRecorded span _ | .spanEntered span | .spanExited span
  | .spanClosed span => some span
  | _ => none

structure Recorder where
  /-- The serial number of the next span. -/
  made : Nat
  spans : List Span
  entered : List Span

structure Heard where
  event : Event
  inside : Option Span

def Heard.Concerns (h : Heard) (span : Span) : Prop :=
  h.event.span? = some span ∨ h.inside = some span

namespace Recorder

def hear (k : Recorder) : Event → Recorder
  | .spanOpened span _ _ => { k with made := k.made + 1, spans := span :: k.spans }
  | .spanEntered span => { k with entered := span :: k.entered }
  | .spanExited span => { k with entered := k.entered.erase span }
  | .spanClosed span => { k with spans := k.spans.erase span }
  | _ => k

def hearAll (k : Recorder) (trace : List Event) : Recorder := trace.foldl hear k

def listen (k : Recorder) : List Event → List Heard
  | [] => []
  | e :: rest => ⟨e, k.entered.head?⟩ :: listen (k.hear e) rest

/-- An event that makes sense: about an open span, left only as the innermost one and closed only
when it is not entered. -/
def Allows (k : Recorder) : Event → Prop
  | .spanOpened span _ _ => span.serial = k.made
  | .spanRecorded span _ | .spanEntered span => span ∈ k.spans
  | .spanExited span => k.entered.head? = some span
  | .spanClosed span => span ∈ k.spans ∧ span ∉ k.entered
  | _ => True

def WellFormed (k : Recorder) : List Event → Prop
  | [] => True
  | e :: rest => k.Allows e ∧ WellFormed (k.hear e) rest

theorem hearAll_append (k : Recorder) (earlier later : List Event) :
    k.hearAll (earlier ++ later) = (k.hearAll earlier).hearAll later := List.foldl_append

theorem wellFormed_append (k : Recorder) (earlier later : List Event) :
    k.WellFormed (earlier ++ later) ↔
      k.WellFormed earlier ∧ (k.hearAll earlier).WellFormed later := by
  induction earlier generalizing k with
  | nil => exact (and_iff_right trivial).symm
  | cons e rest ih =>
    change k.Allows e ∧ (k.hear e).WellFormed (rest ++ later) ↔
      (k.Allows e ∧ (k.hear e).WellFormed rest) ∧ ((k.hear e).hearAll rest).WellFormed later
    rw [ih, and_assoc]

section NoSpan

variable {k : Recorder}

theorem hear_of_no_span {e : Event} (h : e.span? = none) : k.hear e = k := by
  cases e <;> first | rfl | cases h

theorem allows_of_no_span {e : Event} (h : e.span? = none) : k.Allows e := by
  cases e <;> trivial

theorem hearAll_of_no_span {trace : List Event} (h : ∀ e ∈ trace, e.span? = none) :
    k.hearAll trace = k := by
  induction trace with
  | nil => rfl
  | cons e rest ih =>
    rw [List.forall_mem_cons] at h
    change (k.hear e).hearAll rest = k
    rw [hear_of_no_span h.1, ih h.2]

theorem wellFormed_of_no_span {trace : List Event} (h : ∀ e ∈ trace, e.span? = none) :
    k.WellFormed trace := by
  induction trace with
  | nil => trivial
  | cons e rest ih =>
    rw [List.forall_mem_cons] at h
    rw [WellFormed, hear_of_no_span h.1]
    exact ⟨allows_of_no_span h.1, ih h.2⟩

end NoSpan

/-- What holds of the open spans of a recorder: they are told apart by numbers it has given. -/
structure Sound (k : Recorder) : Prop where
  nodup : k.spans.Nodup
  given : ∀ span ∈ k.spans, span.serial < k.made

/-- A span that was closed and can be met in no event any more. -/
structure Over (k : Recorder) (span : Span) : Prop where
  given : span.serial < k.made
  closed : span ∉ k.spans
  left : span ∉ k.entered

variable {k : Recorder}

theorem Sound.hear (h : k.Sound) {e : Event} (he : k.Allows e) : (k.hear e).Sound := by
  cases e with
  | spanOpened span level fields =>
    have hserial : span.serial = k.made := he
    have hfresh : span ∉ k.spans := fun hmem => Nat.ne_of_lt (h.given span hmem) hserial
    refine ⟨List.nodup_cons.2 ⟨hfresh, h.nodup⟩, ?_⟩
    intro other hother
    rcases List.mem_cons.1 hother with rfl | hother
    · exact hserial ▸ Nat.lt_succ_self _
    · exact Nat.lt_succ_of_lt (h.given other hother)
  | spanClosed span =>
    exact ⟨h.nodup.erase span, fun other hother => h.given other (List.mem_of_mem_erase hother)⟩
  | _ => exact ⟨h.nodup, h.given⟩

theorem Over.span?_ne {span : Span} (h : k.Over span) {e : Event} (he : k.Allows e) :
    e.span? ≠ some span := by
  intro hspan
  cases e with
  | spanOpened other level fields =>
    obtain rfl : other = span := Option.some.inj hspan
    exact Nat.ne_of_lt h.given he
  | spanRecorded other fields | spanEntered other =>
    obtain rfl : other = span := Option.some.inj hspan
    exact h.closed he
  | spanExited other =>
    obtain rfl : other = span := Option.some.inj hspan
    exact h.left (List.mem_of_head? he)
  | spanClosed other =>
    obtain rfl : other = span := Option.some.inj hspan
    exact h.closed he.1
  | _ => cases hspan

theorem Over.hear {span : Span} (h : k.Over span) {e : Event} (he : k.Allows e) :
    (k.hear e).Over span := by
  have hne := h.span?_ne he
  cases e with
  | spanOpened other level fields =>
    refine ⟨Nat.lt_succ_of_lt h.given, ?_, h.left⟩
    rw [Recorder.hear, List.mem_cons]
    exact fun hmem => hmem.elim (fun heq => hne (congrArg some heq.symm)) h.closed
  | spanEntered other =>
    refine ⟨h.given, h.closed, ?_⟩
    rw [Recorder.hear, List.mem_cons]
    exact fun hmem => hmem.elim (fun heq => hne (congrArg some heq.symm)) h.left
  | spanExited other =>
    exact ⟨h.given, h.closed, fun hmem => h.left (List.mem_of_mem_erase hmem)⟩
  | spanClosed other =>
    exact ⟨h.given, fun hmem => h.closed (List.mem_of_mem_erase hmem), h.left⟩
  | _ => exact h

theorem Over.not_concerns {span : Span} (h : k.Over span) {trace : List Event}
    (htrace : k.WellFormed trace) : ∀ x ∈ k.listen trace, ¬x.Concerns span := by
  induction trace generalizing k with
  | nil => exact fun x hx => absurd hx List.not_mem_nil
  | cons e rest ih =>
    obtain ⟨he, hrest⟩ := htrace
    have hfirst : ¬(Heard.mk e k.entered.head?).Concerns span := by
      rintro (habout | hinside)
      · exact h.span?_ne he habout
      · exact h.left (List.mem_of_head? hinside)
    exact List.forall_mem_cons.2 ⟨hfirst, ih (h.hear he) hrest⟩

theorem Sound.hearAll (h : k.Sound) {trace : List Event} (htrace : k.WellFormed trace) :
    (k.hearAll trace).Sound := by
  induction trace generalizing k with
  | nil => exact h
  | cons e rest ih => exact ih (h.hear htrace.1) htrace.2

/-- In a well-formed trace nothing comes of a span after it is closed. -/
theorem Sound.silent_after_close (h : k.Sound) {before after : List Event} {span : Span}
    (htrace : k.WellFormed (before ++ .spanClosed span :: after)) :
    ∀ x ∈ (k.hearAll (before ++ [.spanClosed span])).listen after, ¬x.Concerns span := by
  obtain ⟨hbefore, hclosed, hafter⟩ := (k.wellFormed_append _ _).1 htrace
  have hsound := h.hearAll hbefore
  have hover : ((k.hearAll before).hear (.spanClosed span)).Over span :=
    ⟨hsound.given span hclosed.1, fun hmem => (hsound.nodup.mem_erase_iff.1 hmem).1 rfl, hclosed.2⟩
  rw [hearAll_append]
  exact hover.not_concerns hafter

end Recorder

end BrokerPolicy
