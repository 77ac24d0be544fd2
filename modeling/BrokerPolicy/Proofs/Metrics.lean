import BrokerPolicy.Event
import BrokerPolicy.Proofs.Numeral.CounterStep
import Mathlib.Data.List.Forall2
import Mathlib.Data.String.Basic

set_option autoImplicit false

/-!
Measurements passed on to the recorder. Each of them comes to one call there, under a key that tells
its name, with its tags and its value; only counters round, and over any number of measurements they
lose less than one step for each.
-/

namespace BrokerPolicy

theorem recorderKey_empty (name : String) : recorderKey "" name = name := if_pos rfl

theorem recorderKey_of_ne {word : String} (h : word ≠ "") (name : String) :
    recorderKey word name = word ++ "_" ++ name := if_neg h

theorem length_recorderKey {word : String} (h : word ≠ "") (name : String) :
    (recorderKey word name).length = word.length + 1 + name.length := by
  rw [recorderKey_of_ne h, String.length_append, String.length_append]
  rfl

theorem recorderKey_eq_name_iff (word name : String) :
    recorderKey word name = name ↔ word = "" := by
  refine ⟨fun h => ?_, fun h => by rw [h, recorderKey_empty]⟩
  by_contra hne
  have hlength := length_recorderKey hne name
  rw [h] at hlength
  omega

theorem recorderKey_inj {word m n : String} (h : recorderKey word m = recorderKey word n) :
    m = n := by
  by_cases hempty : word = ""
  · rwa [hempty, recorderKey_empty, recorderKey_empty] at h
  · rw [recorderKey_of_ne hempty, recorderKey_of_ne hempty, ← String.toList_inj] at h
    simp only [String.toList_append] at h
    exact String.toList_inj.1 (List.append_cancel_left h)

def MetricsSink.publishAll (sink : MetricsSink) (ms : List Measurement) : List Event :=
  ms.flatMap sink.publish

def Event.steps? : Event → Option Nat
  | .recorderCalled ⟨.increment n, _, _⟩ => some n
  | _ => none

namespace Measurement

def CarriedBy (kind : MetricKind) (x : Binary64) (i : Instrument) : Prop :=
  match kind with
  | .counter => ∃ n, i = .increment n ∧ x.StepsTo n
  | .gauge => i = .set x
  | .summary | .distribution => i = .record x

structure PassedOn (word : String) (m : Measurement) (c : RecorderCall) : Prop where
  key : c.key = if word = "" then m.name else word ++ "_" ++ m.name
  labels : c.labels = m.tags
  value : CarriedBy m.kind m.value c.instrument

theorem passedOn_recorderCall (word : String) (m : Measurement) :
    m.PassedOn word (m.recorderCall word) := by
  obtain ⟨kind, name, x, tags⟩ := m
  refine ⟨rfl, rfl, ?_⟩
  cases kind with
  | counter => exact ⟨x.counterStep, rfl, x.stepsTo_counterStep⟩
  | gauge | summary | distribution => rfl

theorem steps?_recorderCall {m : Measurement} (h : m.kind = .counter) (word : String) :
    (Event.recorderCalled (m.recorderCall word)).steps? = some m.value.counterStep := by
  obtain ⟨kind, name, x, tags⟩ := m
  obtain rfl : kind = .counter := h
  rfl

end Measurement

section Recorder

variable (word : String)

theorem publishAll_recorder (ms : List Measurement) :
    (MetricsSink.publisher (.recorder word)).publishAll ms =
      (ms.map fun m => m.recorderCall word).map .recorderCalled := by
  induction ms with
  | nil => rfl
  | cons m ms ih => exact congrArg (Event.recorderCalled (m.recorderCall word) :: ·) ih

theorem passedOn_all (ms : List Measurement) :
    List.Forall₂ (Measurement.PassedOn word) ms (ms.map fun m => m.recorderCall word) := by
  induction ms with
  | nil => exact .nil
  | cons m ms ih => exact .cons (m.passedOn_recorderCall word) ih

theorem steps_publishAll {ms : List Measurement} (h : ∀ m ∈ ms, m.kind = .counter) :
    ((MetricsSink.publisher (.recorder word)).publishAll ms).filterMap Event.steps? =
      (ms.map Measurement.value).map Binary64.counterStep := by
  rw [publishAll_recorder]
  induction ms with
  | nil => rfl
  | cons m ms ih =>
    rw [List.forall_mem_cons] at h
    rw [List.map_cons, List.map_cons, List.filterMap_cons_some (m.steps?_recorderCall h.1 word),
      ih h.2]
    rfl

end Recorder

/-- Whatever is published is passed on to the recorder call by call, in order: under its name after
the common word, or its bare name if and only if there is no such word, so that names keep apart;
with its tags as they are; and with its value as it is, but for counters, which advance by the number
rounded down, by nothing for what is negative or no number, and by `2 ^ 64 - 1` at most. Of values
below that limit the steps never make up more than the positive ones, and less than one is lost for
each. -/
theorem recorder_receives_what_is_published (word : String) :
    let sink := MetricsSink.publisher (.recorder word)
    (∀ ms : List Measurement, ∃ calls : List RecorderCall,
      sink.publishAll ms = calls.map .recorderCalled ∧
        List.Forall₂ (Measurement.PassedOn word) ms calls) ∧
    (∀ (m : Measurement) (c : RecorderCall), m.PassedOn word c →
      (c.key = m.name ↔ word = "") ∧
      ∀ (n : Measurement) (d : RecorderCall), n.PassedOn word d → m.name ≠ n.name →
        c.key ≠ d.key) ∧
    ∀ ms : List Measurement, ms ≠ [] → (∀ m ∈ ms, m.kind = .counter ∧ m.value.Below) →
      let steps : Nat := ((sink.publishAll ms).filterMap Event.steps?).sum
      let positives : ℚ := ((ms.map Measurement.value).filterMap Binary64.positive?).sum
      steps ≤ positives ∧ positives - steps < ms.length := by
  refine ⟨?_, ?_, ?_⟩
  · intro ms
    exact ⟨_, publishAll_recorder word ms, passedOn_all word ms⟩
  · intro m c hm
    have hkey : c.key = recorderKey word m.name := hm.key
    rw [hkey]
    refine ⟨recorderKey_eq_name_iff word m.name, ?_⟩
    intro n d hn hne hsame
    have hother : d.key = recorderKey word n.name := hn.key
    exact hne (recorderKey_inj (hsame.trans hother))
  · intro ms hne hms
    have hbelow : ∀ x ∈ ms.map Measurement.value, x.Below := by
      rw [List.forall_mem_map]
      exact fun m hm => (hms m hm).2
    have hsome : ms.map Measurement.value ≠ [] := by simpa using hne
    have hlow := (Binary64.counterSteps_bounds hbelow).1
    have hlost := Binary64.positiveSum_lt hsome hbelow
    rw [List.length_map] at hlost
    dsimp only
    rw [steps_publishAll word fun m hm => (hms m hm).1]
    exact ⟨hlow, sub_lt_iff_lt_add'.2 hlost⟩

/-- Two and a half, the greatest number below one, minus one and no number at all take a counter two
steps on. -/
theorem recorder_receives_what_is_published_rounded :
    let sink := MetricsSink.publisher (.recorder "rmq")
    let ms : List Measurement :=
      [⟨.counter, "returned", ⟨0x4004000000000000⟩, [("queue", "a"), ("queue", "a")]⟩,
        ⟨.counter, "returned", ⟨0x3fefffffffffffff⟩, []⟩,
        ⟨.counter, "rejected", ⟨0xbff0000000000000⟩, []⟩,
        ⟨.counter, "rejected", ⟨0x7ff8000000000000⟩, []⟩]
    let positives : ℚ := ((ms.map Measurement.value).filterMap Binary64.positive?).sum
    ((sink.publishAll ms).filterMap Event.steps?).sum = 2 ∧ 2 ≤ positives ∧ positives - 2 < 4 := by
  intro sink ms positives
  have hbelow : ∀ m ∈ ms, m.kind = .counter ∧ m.value.Below := by
    have hkinds : ∀ m ∈ ms, m.kind = .counter := by decide
    have hvalues : ∀ m ∈ ms, m.value.isNaN = true ∨ m.value.isInfinite = false ∧
        m.value.magnitude < 2 ^ 64 * Binary64.unitsPerOne := by decide +kernel
    intro m hm
    rcases hvalues m hm with hnan | ⟨hinfinite, hmagnitude⟩
    · exact ⟨hkinds m hm, Binary64.below_of_isNaN hnan⟩
    · exact ⟨hkinds m hm, Binary64.below_of_magnitude_lt hinfinite hmagnitude⟩
  have hsteps : ((sink.publishAll ms).filterMap Event.steps?).sum = 2 := by decide +kernel
  obtain ⟨-, -, hsums⟩ := recorder_receives_what_is_published "rmq"
  have hbounds := hsums ms (List.cons_ne_nil _ _) hbelow
  dsimp only at hbounds
  rw [hsteps] at hbounds
  exact ⟨hsteps, hbounds⟩

end BrokerPolicy
