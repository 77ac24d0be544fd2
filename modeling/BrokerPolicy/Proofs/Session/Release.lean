import BrokerPolicy.Proofs.PolicyFile.Application
import BrokerPolicy.Proofs.Session.Handles

set_option autoImplicit false

/-!
Publishers of the caller from the request that brings them in to the one that lets them go. A
publisher that nothing holds any more does not come back, so it is let go once.
-/

namespace BrokerPolicy

namespace Shelf

/-- Some builder or policy sends its measurements to this publisher of the caller. -/
def Holds (o : Shelf Policy) (p : Nat × String) : Prop :=
  ∃ name q, (o.builders.find? name = some q ∨ o.policies.find? name = some q) ∧
    q.metrics = .publisher (.own p.1 p.2)

/-- The same, told by the settings that went in: nothing was written over the publisher. -/
def Keeps (told : Shelf (List Setting)) (p : Nat × String) : Prop :=
  ∃ name ws, (told.builders.find? name = some ws ∨ told.policies.find? name = some ws) ∧
    lastWrite .metrics ws = some (.publisher (.own p.1 p.2))

theorem holds_map_iff {start : Policy} (hstart : start.metrics = .disabled)
    (told : Shelf (List Setting)) (p : Nat × String) :
    (told.map fun ws => ws.foldl Policy.write start).Holds p ↔ told.Keeps p := by
  have hmetrics (ws : List Setting) : (ws.foldl Policy.write start).metrics =
      .publisher (.own p.1 p.2) ↔ lastWrite .metrics ws = some (.publisher (.own p.1 p.2)) := by
    have hread : (ws.foldl Policy.write start).metrics =
        (lastWrite .metrics ws).getD start.metrics := Slot.read_foldl_write .metrics ws start
    rw [hread, hstart]
    cases lastWrite .metrics ws <;> simp
  constructor
  · rintro ⟨name, q, hfound, hq⟩
    rw [find?_map_builders, find?_map_policies] at hfound
    rcases hfound with hfound | hfound
    · obtain ⟨ws, hws, rfl⟩ := Option.map_eq_some_iff.1 hfound
      exact ⟨name, ws, .inl hws, (hmetrics ws).1 hq⟩
    · obtain ⟨ws, hws, rfl⟩ := Option.map_eq_some_iff.1 hfound
      exact ⟨name, ws, .inr hws, (hmetrics ws).1 hq⟩
  · rintro ⟨name, ws, hfound, hlast⟩
    refine ⟨name, _, ?_, (hmetrics ws).2 hlast⟩
    rw [find?_map_builders, find?_map_policies]
    exact hfound.imp (congrArg (Option.map _)) (congrArg (Option.map _))

variable {o : Shelf Policy} {p : Nat × String}

theorem Holds.of_find? {name : String} {q : Policy} (h : o.find? name = some q)
    (hq : q.metrics = .publisher (.own p.1 p.2)) : o.Holds p := by
  rcases Option.or_eq_some_iff.1 h with hpolicy | ⟨_, hbuilder⟩
  · exact ⟨name, q, .inr hpolicy, hq⟩
  · exact ⟨name, q, .inl hbuilder, hq⟩

theorem Holds.of_putBuilder {name : String} {a : Option Policy} (h : (o.putBuilder name a).Holds p) :
    o.Holds p ∨ ∃ q, a = some q ∧ q.metrics = .publisher (.own p.1 p.2) := by
  cases a with
  | none => exact .inl h
  | some q =>
    obtain ⟨m, r, hfound | hfound, hr⟩ := h
    · change OrderedTable.find? (OrderedTable.insert name q o.builders) m = some r at hfound
      rw [OrderedTable.find?_insert] at hfound
      split_ifs at hfound
      · exact .inr ⟨q, rfl, Option.some.inj hfound ▸ hr⟩
      · exact .inl ⟨m, r, .inl hfound, hr⟩
    · exact .inl ⟨m, r, .inr hfound, hr⟩

theorem Holds.of_putPolicy {name : String} {a : Option Policy} (h : (o.putPolicy name a).Holds p) :
    o.Holds p ∨ ∃ q, a = some q ∧ q.metrics = .publisher (.own p.1 p.2) := by
  cases a with
  | none => exact .inl h
  | some q =>
    obtain ⟨m, r, hfound | hfound, hr⟩ := h
    · exact .inl ⟨m, r, .inl hfound, hr⟩
    · change OrderedTable.find? (OrderedTable.insert name q o.policies) m = some r at hfound
      rw [OrderedTable.find?_insert] at hfound
      split_ifs at hfound
      · exact .inr ⟨q, rfl, Option.some.inj hfound ▸ hr⟩
      · exact .inl ⟨m, r, .inr hfound, hr⟩

theorem Holds.of_drop {name : String} (h : (o.drop name).Holds p) : o.Holds p := by
  obtain ⟨m, r, hfound, hr⟩ := h
  rw [drop] at hfound
  split_ifs at hfound
  · rcases hfound with hfound | hfound
    · exact ⟨m, r, .inl hfound, hr⟩
    · rw [OrderedTable.find?_erase] at hfound
      split_ifs at hfound
      exact ⟨m, r, .inr hfound, hr⟩
  · rcases hfound with hfound | hfound
    · rw [OrderedTable.find?_erase] at hfound
      split_ifs at hfound
      exact ⟨m, r, .inl hfound, hr⟩
    · exact ⟨m, r, .inr hfound, hr⟩

/-- A publisher comes to be held only as the last one written into a builder that is there. -/
theorem Holds.of_change {c : Change} (h : (o.change Policy.write c).Holds p) :
    o.Holds p ∨ ∃ builder ws, c = .wrote builder ws ∧ (o.builders.find? builder).isSome ∧
      lastWrite .metrics ws = some (.publisher (.own p.1 p.2)) := by
  cases c with
  | nothing => exact .inl h
  | wrote builder ws =>
    rcases Holds.of_putBuilder h with h | ⟨q, hq, hmetrics⟩
    · exact .inl h
    · obtain ⟨q₀, hfound, rfl⟩ := Option.map_eq_some_iff.1 hq
      have hread : (lastWrite .metrics ws).getD q₀.metrics = .publisher (.own p.1 p.2) :=
        (Slot.read_foldl_write .metrics ws q₀).symm.trans hmetrics
      cases hlast : lastWrite .metrics ws with
      | none =>
        rw [hlast] at hread
        exact .inl ⟨builder, q₀, .inl hfound, hread⟩
      | some sink =>
        rw [hlast] at hread
        have hsink : sink = .publisher (.own p.1 p.2) := hread
        exact .inr ⟨builder, ws, rfl, Option.isSome_of_eq_some hfound, hsink ▸ hlast⟩
  | copied builder result =>
    rcases Holds.of_putBuilder h with h | ⟨q, hq, hmetrics⟩
    · exact .inl h
    · exact .inl ⟨builder, q, .inl hq, hmetrics⟩
  | took builder result =>
    rcases Holds.of_putPolicy h with h | ⟨q, hq, hmetrics⟩
    · exact .inl h
    · exact .inl ⟨builder, q, .inl hq, hmetrics⟩
  | shared holder result =>
    rcases Holds.of_putPolicy h with h | ⟨q, hq, hmetrics⟩
    · exact .inl h
    · exact .inl (Holds.of_find? hq hmetrics)
  | dropped name => exact .inl h.of_drop

end Shelf

/-- The caller has a handle of the publisher and hands it to a builder. -/
def Request.Hands (r : Request) (p : Nat × String) : Prop :=
  ∃ builder, r = .set builder (.metrics (.publisher (.own p.1 p.2)))

namespace Session

theorem mem_handles_iff {s : Session} (hcounted : s.Counted) (h : s.objects.Sorted)
    (p : Nat × String) : p ∈ s.handles ↔ s.objects.Holds p := by
  rw [hcounted.mem_iff, Shelf.publishers, List.mem_append, Shelf.publishersIn, Shelf.publishersIn,
    OrderedTable.gather, OrderedTable.gather, List.mem_flatMap, List.mem_flatMap]
  simp only [Option.mem_toList, MetricsSink.ownPublisher?_eq_some_iff]
  constructor
  · rintro (⟨e, he, hmetrics⟩ | ⟨e, he, hmetrics⟩)
    · exact ⟨e.1, e.2, .inl ((h.builders.mem_iff e).1 he), hmetrics⟩
    · exact ⟨e.1, e.2, .inr ((h.policies.mem_iff e).1 he), hmetrics⟩
  · rintro ⟨name, q, hfound | hfound, hmetrics⟩
    · exact .inl ⟨(name, q), OrderedTable.mem_of_find?_eq hfound, hmetrics⟩
    · exact .inr ⟨(name, q), OrderedTable.mem_of_find?_eq hfound, hmetrics⟩

theorem mem_made_iff (s : Session) (r : Request) (p : Nat × String) :
    p ∈ s.made r ↔ ∃ builder, r = .setSink builder (.own p.2) ∧
      (s.builders.find? builder).isSome ∧ p.1 = s.publishersMade := by
  obtain ⟨serial, name⟩ := p
  cases r with
  | setSink b choice =>
    cases choice with
    | own n =>
      rw [made]
      constructor
      · intro h
        split_ifs at h with hb
        · obtain ⟨rfl, rfl⟩ := Prod.mk.inj (List.mem_singleton.1 h)
          exact ⟨b, rfl, hb, rfl⟩
        · exact absurd h List.not_mem_nil
      · rintro ⟨_, heq, hfound, rfl⟩
        obtain ⟨rfl, hchoice⟩ := Request.setSink.inj heq
        obtain rfl := SinkChoice.own.inj hchoice
        rw [if_pos (show s.builders.contains b = true from hfound)]
        exact List.mem_singleton.2 rfl
    | _ => simp [made]
  | _ => simp [made]

theorem fileChange_metrics {ε : Type} {s : Session} {builder b : String} {ws : List Setting}
    {result : Except ε PolicyFile} (h : s.fileChange builder result = .wrote b ws) :
    lastWrite .metrics ws = none := by
  cases result with
  | error e => simp [fileChange] at h
  | ok f =>
    obtain ⟨-, rfl⟩ : builder = b ∧ _ = ws := by simpa [fileChange] using h
    rw [PolicyFile.writes_eq, PolicyFile.lastWrite_settings]
    rfl

section

variable {s : Session} {r : Request} {p : Nat × String}

theorem mem_made_of_wrote (hhands : ¬ r.Hands p) {builder : String} {ws : List Setting}
    (hchange : s.change r = .wrote builder ws) (hfound : (s.objects.builders.find? builder).isSome)
    (hlast : lastWrite .metrics ws = some (.publisher (.own p.1 p.2))) : p ∈ s.made r := by
  cases r with
  | set b w =>
    rw [change] at hchange
    split_ifs at hchange with havailable haccepted
    swap
    · obtain ⟨-, rfl⟩ := Change.wrote.inj hchange
      cases hlast
    obtain ⟨rfl, rfl⟩ := Change.wrote.inj hchange
    cases w with
    | metrics sink =>
      have hsink : sink = .publisher (.own p.1 p.2) := Option.some.inj hlast
      exact absurd ⟨b, hsink ▸ rfl⟩ hhands
    | _ => exact absurd hlast.symm (Option.some_ne_none _)
  | setSink b choice =>
    obtain ⟨rfl, rfl⟩ := Change.wrote.inj hchange
    have hsink : (s.makeSink choice).1 = .publisher (.own p.1 p.2) := Option.some.inj hlast
    cases choice with
    | own name =>
      obtain ⟨hserial, rfl⟩ : s.publishersMade = p.1 ∧ name = p.2 := by
        simpa [makeSink] using hsink
      rw [find?_objects_builders, Option.isSome_map] at hfound
      exact (s.mem_made_iff _ p).2 ⟨b, rfl, hfound, hserial.symm⟩
    | _ => simp [makeSink] at hsink
  | applyToml b source =>
    rw [fileChange_metrics hchange] at hlast
    exact absurd hlast (by simp)
  | applyJson b source =>
    rw [fileChange_metrics hchange] at hlast
    exact absurd hlast (by simp)
  | build b result =>
    rw [change] at hchange
    split_ifs at hchange
  | _ => simp [change] at hchange

theorem holds_of_next (hhands : ¬ r.Hands p) (h : (s.next r).objects.Holds p) :
    s.objects.Holds p ∨ p ∈ s.made r := by
  rw [next_objects] at h
  rcases h.of_change with h | ⟨builder, ws, hchange, hfound, hlast⟩
  · exact .inl h
  · exact .inr (mem_made_of_wrote hhands hchange hfound hlast)

theorem holds_of_made (h : p ∈ s.made r) : (s.next r).objects.Holds p := by
  obtain ⟨builder, rfl, hfound, hserial⟩ := (s.mem_made_iff r p).1 h
  obtain ⟨b, hb⟩ := Option.isSome_iff_exists.1 hfound
  rw [next_objects]
  refine ⟨builder, b.policy.write (.metrics (.publisher (.own p.1 p.2))), .inl ?_, rfl⟩
  rw [change, Shelf.change, find?_objects_builders, hb, makeSink, hserial]
  change OrderedTable.find? (OrderedTable.insert builder _ _) builder = _
  rw [OrderedTable.find?_insert, if_pos rfl]
  rfl

end

def makings (s : Session) (rs : List Request) : List (Nat × String) := s.collect made rs

def releases (s : Session) (rs : List Request) : List (Nat × String) := s.collect gone rs

theorem makings_concat (s : Session) (rs : List Request) (r : Request) :
    s.makings (rs ++ [r]) = s.makings rs ++ (s.after rs).made r := collect_concat made s rs r

theorem releases_concat (s : Session) (rs : List Request) (r : Request) :
    s.releases (rs ++ [r]) = s.releases rs ++ (s.after rs).gone r := collect_concat gone s rs r

theorem lt_publishersMade_of_mem_makings {s : Session} {rs : List Request} {p : Nat × String}
    (h : p ∈ s.makings rs) : p.1 < (s.after rs).publishersMade := by
  induction rs using List.reverseRecOn with
  | nil => exact absurd h List.not_mem_nil
  | append_singleton rs r ih =>
    rw [after_concat, next_publishersMade]
    rw [makings_concat] at h
    rcases List.mem_append.1 h with h | h
    · exact Nat.lt_add_right _ (ih h)
    · obtain ⟨_, _, _, hserial⟩ := ((s.after rs).mem_made_iff r p).1 h
      have hlength := List.length_pos_of_mem h
      omega

structure Tally (s : Session) (rs : List Request) (p : Nat × String) : Prop where
  held : p ∈ (s.after rs).handles → p ∈ s.makings rs
  count : (s.releases rs).count p =
    if p ∈ s.makings rs ∧ p ∉ (s.after rs).handles then 1 else 0

section Tally

variable {s : Session} (hcounted : s.Counted) (hsorted : s.objects.Sorted)
include hcounted hsorted

theorem Tally.concat {rs : List Request} {p : Nat × String} (h : s.Tally rs p) {r : Request}
    (hhands : ¬ r.Hands p) : s.Tally (rs ++ [r]) p := by
  have hcountedHere := counted_after hcounted hsorted rs
  have hsortedHere := after_sorted hsorted rs
  have hcountedNext := counted_next hcountedHere hsortedHere r
  have hcount := count_gone hcountedHere hsortedHere r p
  have hhere := mem_handles_iff hcountedHere hsortedHere p
  have hnext := mem_handles_iff hcountedNext (next_sorted hsortedHere r) p
  by_cases hmade : p ∈ (s.after rs).made r
  · -- Its number is a new one, so it was neither made nor held before.
    have hnew : p ∉ s.makings rs := by
      intro hold
      have hlt := lt_publishersMade_of_mem_makings hold
      obtain ⟨_, _, _, hserial⟩ := ((s.after rs).mem_made_iff r p).1 hmade
      omega
    have hnotHeld : p ∉ (s.after rs).handles := fun hheld => hnew (h.held hheld)
    have hheldNext := hnext.2 (holds_of_made hmade)
    refine ⟨fun _ => ?_, ?_⟩
    · rw [makings_concat]
      exact List.mem_append_right _ hmade
    · rw [releases_concat, List.count_append, h.count, hcount, after_concat]
      simp [hnew, hnotHeld, hheldNext]
  · have hkept : p ∈ ((s.after rs).next r).handles → p ∈ (s.after rs).handles := fun hheld =>
      hhere.2 ((holds_of_next hhands (hnext.1 hheld)).resolve_right hmade)
    have hmakings : p ∈ s.makings (rs ++ [r]) ↔ p ∈ s.makings rs := by
      simp [makings_concat, hmade]
    refine ⟨fun hheld => ?_, ?_⟩
    · rw [after_concat] at hheld
      exact hmakings.2 (h.held (hkept hheld))
    · rw [releases_concat, List.count_append, h.count, hcount, after_concat]
      simp only [hmakings]
      by_cases hbeforehand : p ∈ (s.after rs).handles
      · simp [hbeforehand, h.held hbeforehand]
      · simp [hbeforehand, mt hkept hbeforehand]

theorem tally (hempty : s.handles = []) {rs : List Request} {p : Nat × String}
    (h : ∀ r ∈ rs, ¬ r.Hands p) : s.Tally rs p := by
  induction rs using List.reverseRecOn with
  | nil => exact ⟨fun hheld => by simp [after, hempty] at hheld, rfl⟩
  | append_singleton rs r ih =>
    exact (ih fun q hq => h q (List.mem_append_left _ hq)).concat hcounted hsorted
      (h r (by simp))

end Tally

end Session

end BrokerPolicy
