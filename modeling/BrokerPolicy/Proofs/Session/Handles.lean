import BrokerPolicy.Proofs.Session.Run

set_option autoImplicit false

/-!
Handles of publishers, counted. There is one for each builder and each policy that sends to a
publisher of the caller, whatever is requested, and the publisher goes with the last of them.
-/

namespace BrokerPolicy

theorem MetricsSink.ownPublisher?_eq_some_iff (sink : MetricsSink) (p : Nat × String) :
    sink.ownPublisher? = some p ↔ sink = .publisher (.own p.1 p.2) := by
  obtain ⟨serial, name⟩ := p
  cases sink with
  | disabled => simp [ownPublisher?]
  | publisher q => cases q <;> simp [ownPublisher?]

namespace Shelf

def publishersIn (t : OrderedTable Policy) : List (Nat × String) :=
  t.gather fun q => q.metrics.ownPublisher?.toList

/-- The publishers of the caller, each as often as it is held. -/
def publishers (o : Shelf Policy) : List (Nat × String) :=
  publishersIn o.builders ++ publishersIn o.policies

section

variable {t : OrderedTable Policy} (h : t.Sorted) (name : String)
include h

theorem perm_publishersIn :
    (publishersIn t).Perm
      (((t.find? name).bind fun q => q.metrics.ownPublisher?).toList ++
        publishersIn (t.erase name)) := by
  have hperm := OrderedTable.perm_gather (fun q : Policy => q.metrics.ownPublisher?.toList) h name
  cases hfound : t.find? name <;> simpa [hfound, publishersIn] using hperm

theorem perm_publishersIn_insert (q : Policy) :
    (publishersIn (OrderedTable.insert name q t)).Perm
      (q.metrics.ownPublisher?.toList ++ publishersIn (t.erase name)) :=
  OrderedTable.perm_gather_insert (fun q : Policy => q.metrics.ownPublisher?.toList) h name q

end

def withoutBuilder (o : Shelf Policy) (name : String) : Shelf Policy :=
  { o with builders := o.builders.erase name }

def withoutPolicy (o : Shelf Policy) (name : String) : Shelf Policy :=
  { o with policies := o.policies.erase name }

section

variable {o : Shelf Policy} (h : o.Sorted) (name : String)
include h

theorem perm_withoutBuilder : o.publishers.Perm
    (((o.builders.find? name).bind fun q => q.metrics.ownPublisher?).toList ++
      (o.withoutBuilder name).publishers) :=
  ((perm_publishersIn h.builders name).append_right _).trans (.of_eq (List.append_assoc _ _ _))

theorem perm_withoutPolicy : o.publishers.Perm
    (((o.policies.find? name).bind fun q => q.metrics.ownPublisher?).toList ++
      (o.withoutPolicy name).publishers) :=
  ((perm_publishersIn h.policies name).append_left _).trans (List.perm_append_comm_assoc _ _ _)

theorem perm_putBuilder (q : Policy) : (o.putBuilder name (some q)).publishers.Perm
    (q.metrics.ownPublisher?.toList ++ (o.withoutBuilder name).publishers) :=
  ((perm_publishersIn_insert h.builders name q).append_right _).trans
    (.of_eq (List.append_assoc _ _ _))

theorem perm_putPolicy (q : Policy) : (o.putPolicy name (some q)).publishers.Perm
    (q.metrics.ownPublisher?.toList ++ (o.withoutPolicy name).publishers) :=
  ((perm_publishersIn_insert h.policies name q).append_left _).trans
    (List.perm_append_comm_assoc _ _ _)

end

end Shelf

namespace Session

def Counted (s : Session) : Prop := s.handles.Perm s.objects.publishers

theorem counted_start (edition : Edition) (name : String) (b : Builder) :
    (start edition name b).Counted := by
  simp [Counted, start, objects, Shelf.publishers, Shelf.publishersIn, OrderedTable.gather,
    OrderedTable.mapValues]

theorem exchange_self_fst (s : Session) (sink : Option MetricsSink) :
    (s.exchange sink sink).1 = s := by
  rw [exchange]
  cases sink.bind MetricsSink.ownPublisher? with
  | none => rfl
  | some p => simp

theorem exchange_self_snd {s : Session} {sink : Option MetricsSink}
    (h : ∀ p, sink.bind MetricsSink.ownPublisher? = some p → p ∈ s.handles) :
    (s.exchange sink sink).2 = [] := by
  have hgone : (s.exchange sink sink).2 = ((sink.bind MetricsSink.ownPublisher?).filter
      (· ∉ (s.exchange sink sink).1.handles)).toList := rfl
  rw [hgone, exchange_self_fst]
  cases hown : sink.bind MetricsSink.ownPublisher? with
  | none => rfl
  | some p => simp [h p hown]

section exchange

variable {s : Session} {old : Option MetricsSink} {others : List (Nat × String)}
  (h : s.handles.Perm ((old.bind MetricsSink.ownPublisher?).toList ++ others))
  (new : Option MetricsSink)
include h

theorem perm_exchange : (s.exchange new old).1.handles.Perm
    ((new.bind MetricsSink.ownPublisher?).toList ++ others) := by
  rw [exchange]
  cases hold : old.bind MetricsSink.ownPublisher? with
  | none =>
    rw [hold] at h
    exact h.append_left _
  | some p =>
    rw [hold] at h
    -- the handle that is dropped is one of those that were there before
    have hretained := (h.append_left (new.bind MetricsSink.ownPublisher?).toList).trans
      List.perm_middle
    simpa using hretained.erase p

theorem mem_exchange_iff (p : Nat × String) :
    p ∈ (s.exchange new old).2 ↔ p ∈ s.handles ∧ p ∉ (s.exchange new old).1.handles := by
  have hafter := perm_exchange h new
  have hgone : (s.exchange new old).2 = ((old.bind MetricsSink.ownPublisher?).filter
      (· ∉ (s.exchange new old).1.handles)).toList := rfl
  rw [hgone, Option.mem_toList, Option.filter_eq_some_iff, decide_eq_true_iff, h.mem_iff,
    List.mem_append, Option.mem_toList]
  constructor
  · rintro ⟨hold, hleft⟩
    exact ⟨.inl hold, hleft⟩
  · rintro ⟨hold | hother, hleft⟩
    · exact ⟨hold, hleft⟩
    · exact absurd (hafter.mem_iff.2 (List.mem_append_right _ hother)) hleft

/-- Only what was held and is held no more is let go, and only once. -/
theorem count_exchange (p : Nat × String) :
    (s.exchange new old).2.count p =
      if p ∈ s.handles ∧ p ∉ (s.exchange new old).1.handles then 1 else 0 := by
  have honce (o : Option (Nat × String)) : o.toList.Nodup := by cases o <;> simp
  have hnodup : (s.exchange new old).2.Nodup := honce _
  rw [hnodup.count]
  exact if_congr (mem_exchange_iff h new p) rfl rfl

end exchange

/-- With a request each publisher that loses its last handle is let go, and no other. -/
structure Outcome.Settles (s : Session) (o : Outcome) : Prop where
  counted : o.session.Counted
  count (p : Nat × String) :
    o.gone.count p = if p ∈ s.handles ∧ p ∉ o.session.handles then 1 else 0

section Settles

variable {s : Session} (hcounted : s.Counted)
include hcounted

theorem settles_same {s' : Session} (hobjects : s'.objects = s.objects)
    (hhandles : s'.handles = s.handles) (reply : Reply) (events : List Event) :
    Outcome.Settles s ⟨s', reply, events, []⟩ where
  counted := by
    rw [Counted, hobjects, hhandles]
    exact hcounted
  count p := by simp [hhandles]

theorem settles_unchanged (reply : Reply) (events : List Event) :
    (s.unchanged reply events).Settles s := settles_same hcounted rfl rfl reply events

theorem settles_runJobs (q : Policy) (jobs : Nat) : (s.runJobs q jobs).Settles s := by
  rw [runJobs]
  cases q.resource.executor? with
  | none => exact settles_unchanged hcounted _ _
  | some e =>
    dsimp only
    split_ifs
    · cases e <;> exact settles_same hcounted (by rfl) (by rfl) _ _
    · exact settles_unchanged hcounted _ _

theorem settles_exchange {s' : Session} {old new : Option MetricsSink} (others : Shelf Policy)
    (hold : s.objects.publishers.Perm
      ((old.bind MetricsSink.ownPublisher?).toList ++ others.publishers))
    (hnew : s'.objects.publishers.Perm
      ((new.bind MetricsSink.ownPublisher?).toList ++ others.publishers))
    (hhandles : s'.handles = s.handles) (reply : Reply) (events : List Event) :
    Outcome.Settles s ⟨(s'.exchange new old).1, reply, events, (s'.exchange new old).2⟩ := by
  have hheld : s'.handles.Perm
      ((old.bind MetricsSink.ownPublisher?).toList ++ others.publishers) := by
    rw [hhandles]
    exact hcounted.trans hold
  constructor
  · exact (perm_exchange hheld new).trans hnew.symm
  · rw [← hhandles]
    exact count_exchange hheld new

variable (hsorted : s.objects.Sorted)
include hsorted

theorem settles_putBuilder (name : String) (b : Builder) (reply : Reply) (events : List Event) :
    Outcome.Settles s ⟨(s.putBuilder name b).1, reply, events, (s.putBuilder name b).2⟩ := by
  have hold := Shelf.perm_withoutBuilder hsorted name
  rw [find?_objects_builders, Option.bind_map] at hold
  refine settles_exchange hcounted (s.objects.withoutBuilder name) ?_ ?_ (by rfl) reply events
  · rw [Option.bind_map]
    exact hold
  · rw [objects, OrderedTable.mapValues_insert]
    exact Shelf.perm_putBuilder hsorted name b.policy

theorem settles_putPolicy (name : String) (q : Policy) (reply : Reply) (events : List Event) :
    Outcome.Settles s ⟨(s.putPolicy name q).1, reply, events, (s.putPolicy name q).2⟩ := by
  refine settles_exchange hcounted (s.objects.withoutPolicy name) ?_ ?_ (by rfl) reply events
  · rw [Option.bind_map]
    exact Shelf.perm_withoutPolicy hsorted name
  · exact Shelf.perm_putPolicy hsorted name q

theorem settles_drop (name : String) (reply : Reply) (events : List Event) :
    Outcome.Settles s ⟨(s.drop name).1, reply, events, (s.drop name).2⟩ := by
  rw [drop]
  cases hfound : s.policies.find? name with
  | some q =>
    have hold := Shelf.perm_withoutPolicy hsorted name
    rw [show s.objects.policies.find? name = some q from hfound] at hold
    exact settles_exchange hcounted (s.objects.withoutPolicy name) hold (List.Perm.refl _)
      (by rfl) reply events
  | none =>
    have hold := Shelf.perm_withoutBuilder hsorted name
    rw [find?_objects_builders, Option.bind_map] at hold
    refine settles_exchange hcounted (s.objects.withoutBuilder name) ?_ ?_ (by rfl) reply events
    · rw [Option.bind_map]
      exact hold
    · rw [objects, OrderedTable.mapValues_erase]
      exact List.Perm.refl _

theorem settles_setOn (name : String) (b : Builder) (w : Setting) :
    (s.setOn name b w).Settles s := by
  rw [setOn]
  split_ifs
  · exact settles_putBuilder hcounted hsorted name _ _ _
  · exact settles_unchanged hcounted _ _

theorem settles_perform {r : Request} {o : Outcome} (ho : s.perform r = some o) : o.Settles s := by
  cases r with
  | set name w =>
    obtain ⟨b, -, rfl⟩ := exists_of_lookup ho
    exact settles_setOn hcounted hsorted name b w
  | setSink name choice =>
    obtain ⟨b, -, rfl⟩ := exists_of_lookup ho
    cases choice with
    | own publisher =>
      -- a number is given, but nothing is held yet
      have h := settles_setOn (s := (s.makeSink (.own publisher)).2) hcounted hsorted name b
        (.metrics (s.makeSink (.own publisher)).1)
      exact ⟨h.counted, h.count⟩
    | disabled | recorder word => exact settles_setOn hcounted hsorted name b _
  | applyToml name source =>
    obtain ⟨b, -, rfl⟩ := exists_of_lookup ho
    cases PolicyFile.parse s.edition source with
    | error e => exact settles_unchanged hcounted _ _
    | ok f => exact settles_putBuilder hcounted hsorted name _ _ _
  | applyJson name source =>
    obtain ⟨b, -, rfl⟩ := exists_of_lookup ho
    cases PolicyFile.ofJson source with
    | error e => exact settles_unchanged hcounted _ _
    | ok f => exact settles_putBuilder hcounted hsorted name _ _ _
  | build name result =>
    obtain ⟨b, -, rfl⟩ := exists_of_lookup ho
    obtain ⟨e | q, events⟩ := b.build s.accepts
    · exact settles_unchanged hcounted _ _
    · exact settles_putPolicy hcounted hsorted result q _ _
  | snapshot name result | copyPolicy name result =>
    obtain ⟨b, -, rfl⟩ := exists_of_lookup ho
    exact settles_putPolicy hcounted hsorted result _ _ _
  | copyBuilder name result =>
    obtain ⟨b, -, rfl⟩ := exists_of_lookup ho
    exact settles_putBuilder hcounted hsorted result b _ _
  | drop name =>
    obtain rfl := Option.some.inj ho
    exact settles_drop hcounted hsorted name _ _
  | execute name jobs =>
    obtain ⟨held, -, rfl⟩ := exists_of_lookup ho
    exact settles_runJobs hcounted held.current jobs
  | look name | notifyError name _ _ | notifySuccess name | notifyHung name _ | publish name _ =>
    obtain ⟨held, -, rfl⟩ := exists_of_lookup ho
    exact settles_unchanged hcounted _ _
  | consume name result d =>
    obtain ⟨held, -, rfl⟩ := exists_of_lookup ho
    rw [consumeWith]
    cases held.current.consumerTracer <;>
      exact settles_same hcounted (by rfl) (by rfl) _ _
  | produce name result m headers =>
    obtain ⟨held, -, rfl⟩ := exists_of_lookup ho
    rw [produceWith]
    cases held.current.producerTracer <;>
      exact settles_same hcounted (by rfl) (by rfl) _ _
  | respond context confirm =>
    obtain rfl := Option.some.inj ho
    rw [respondTo]
    cases s.contexts.producing.find? context <;> exact settles_unchanged hcounted _ _
  | setAccepting _ _ | completedJobs _ | endContext _ =>
    obtain rfl := Option.some.inj ho
    exact settles_same hcounted (by rfl) (by rfl) _ _

end Settles

section

variable {s : Session} {name : String} {b : Builder} (hsorted : s.builders.Sorted)
  (hfound : s.builders.find? name = some b)
include hsorted hfound

theorem putBuilder_eq_exchange :
    s.putBuilder name b = s.exchange (some b.policy.metrics) (some b.policy.metrics) := by
  rw [putBuilder, OrderedTable.insert_of_find?_eq hsorted hfound, hfound]
  rfl

theorem putBuilder_same : (s.putBuilder name b).1 = s := by
  rw [putBuilder_eq_exchange hsorted hfound, exchange_self_fst]

theorem gone_putBuilder_same (hcounted : s.Counted) : (s.putBuilder name b).2 = [] := by
  rw [putBuilder_eq_exchange hsorted hfound]
  refine exchange_self_snd fun p hp => ?_
  have hheld : s.objects.builders.find? name = some b.policy := by
    rw [find?_objects_builders, hfound, Option.map_some]
  rw [hcounted.mem_iff]
  exact List.mem_append_left _ (List.mem_flatMap.2
    ⟨(name, b.policy), OrderedTable.mem_of_find?_eq hheld, Option.mem_toList.2 hp⟩)

end

section

variable {s : Session} (hcounted : s.Counted) (hsorted : s.objects.Sorted)
include hcounted hsorted

theorem counted_next (r : Request) : (s.next r).Counted := by
  rw [next_eq]
  cases ho : s.perform r with
  | none => exact hcounted
  | some o => exact (settles_perform hcounted hsorted ho).counted

theorem count_gone (r : Request) (p : Nat × String) :
    (s.gone r).count p = if p ∈ s.handles ∧ p ∉ (s.next r).handles then 1 else 0 := by
  rw [next_eq, gone]
  cases ho : s.perform r with
  | none => simp
  | some o => exact (settles_perform hcounted hsorted ho).count p

theorem counted_after (rs : List Request) : (s.after rs).Counted := by
  induction rs using List.reverseRecOn with
  | nil => exact hcounted
  | append_singleton rs r ih =>
    rw [after_concat]
    exact counted_next ih (after_sorted hsorted rs) r

end

end Session

end BrokerPolicy
