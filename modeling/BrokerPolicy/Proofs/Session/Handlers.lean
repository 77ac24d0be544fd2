import BrokerPolicy.Proofs.Session.Delivery
import BrokerPolicy.Proofs.Session.Release

set_option autoImplicit false

namespace BrokerPolicy.Session

theorem eq_publish_of_call {r : Request} {holder : String} {m : Measurement}
    (h : r.call? = some (holder, .publish m)) : r = .publish holder m := by
  cases r <;> simp_all [Request.call?]

theorem measured_of_seen {s : Session} {r : Request} {n : String} {m : Measurement}
    (h : .measured n m ∈ s.seen r) :
    ∃ holder p serial, r = .publish holder m ∧ s.objects.find? holder = some p ∧
      p.metrics = .publisher (.own serial n) := by
  have hperformed : .measured n m ∈ s.performed r := by
    rw [seen_eq] at h
    exact (List.mem_append.1 h).resolve_right (by simp)
  cases hcall : r.call? with
  | none => exact absurd (performed_quiet hcall s _ hperformed).1 (by simp)
  | some call =>
    obtain ⟨holder, c⟩ := call
    rw [performed_of_call hcall] at hperformed
    cases hp : s.objects.find? holder with
    | none => simp [hp] at hperformed
    | some p =>
      rw [hp] at hperformed
      cases c with
      | publish m' =>
        obtain ⟨q, hq, htaking⟩ := Option.map_eq_some_iff.1 (Option.mem_toList.1 hperformed)
        have hmetrics : p.metrics = .publisher q := MetricsSink.eq_of_publisher? hq
        cases q with
        | recorder word => exact absurd htaking (by simp [Publisher.taking])
        | own serial name =>
          obtain ⟨rfl, rfl⟩ := Event.measured.inj htaking
          exact ⟨holder, p, serial, eq_publish_of_call hcall, hp, hmetrics⟩
      | error text code => simp [Call.reaching] at hperformed
      | success => simp [Call.reaching] at hperformed
      | hung messages => simp [Call.reaching] at hperformed

theorem watch_filterMap_released? (s : Session) (rs : List Request) :
    (s.watch rs).filterMap Event.released? = (s.releases rs).map Prod.snd := by
  induction rs using List.reverseRecOn with
  | nil => rfl
  | append_singleton rs r ih =>
    rw [watch, collect_concat, List.filterMap_append, seen_filterMap_released?, releases_concat,
      List.map_append, ← ih, watch]

/-- For every run on a session that starts with one builder. What is delivered is due, call by call
and in order: to the handler that was installed last in the builder, or in the builder before the
policy was taken, and to none if that slot is disabled. Nothing reaches a publisher except through
an object that holds it at the moment. A publisher is let go with the request after which no
builder and no policy keeps it, and if the caller has no handle of it, this happens once to each
publisher that was made and is not kept at the end. -/
theorem handlers_reached_and_released (edition : Edition) (name : String) (host : Host) :
    let start := Session.start edition name (Builder.ofHost host)
    let told := Session.told edition name (Builder.ofHost host)
    (∀ rs,
        (start.watch rs).filter Event.isDelivery =
            rs.zipIdx.flatMap (fun x => x.1.due (told (rs.take x.2))) ∧
          (start.watch rs).filterMap Event.released? = (start.releases rs).map Prod.snd) ∧
      (∀ past r, let s := start.after past
        s.objects = (told past).map (fun ws => ws.foldl Policy.write (Policy.ofHost host)) ∧
        (s.seen r).filter Event.isDelivery = r.due (told past) ∧
        (∀ n m, .measured n m ∈ s.seen r →
          ∃ holder p serial, r = .publish holder m ∧ s.objects.find? holder = some p ∧
            p.metrics = .publisher (.own serial n)) ∧
        (∀ p, p ∈ s.gone r ↔ (told past).Keeps p ∧ ¬ (told (past ++ [r])).Keeps p) ∧
        (s.seen r).filterMap Event.released? = (s.gone r).map Prod.snd) ∧
      ∀ rs p, (∀ r ∈ rs, ¬ r.Hands p) →
        (p ∈ start.releases rs ↔ p ∈ start.makings rs ∧ ¬ (told rs).Keeps p) ∧
          (start.releases rs).count p ≤ 1 := by
  intro start told
  have hcounted := counted_start edition name (Builder.ofHost host)
  have hsorted := start_sorted edition name (Builder.ofHost host)
  have hheld (rs : List Request) (p : Nat × String) :
      p ∈ (start.after rs).handles ↔ (told rs).Keeps p := by
    rw [mem_handles_iff (counted_after hcounted hsorted rs) (after_sorted hsorted rs),
      after_objects_eq_told]
    exact Shelf.holds_map_iff rfl (told rs) p
  refine ⟨fun rs => ⟨watch_eq_due edition name host rs, start.watch_filterMap_released? rs⟩,
    fun past r => ?_, fun rs p hhands => ?_⟩
  · refine ⟨after_objects_eq_told edition name _ past, seen_eq_due edition name host past r,
      fun n m => measured_of_seen, fun p => ?_, seen_filterMap_released? _ r⟩
    have hcount := count_gone (counted_after hcounted hsorted past) (after_sorted hsorted past) r p
    rw [← hheld past p, ← hheld (past ++ [r]) p, after_concat, ← List.count_pos_iff, hcount]
    split_ifs with hlast
    · exact iff_of_true Nat.one_pos hlast
    · exact iff_of_false (lt_irrefl 0) hlast
  · have hcount := (tally hcounted hsorted rfl hhands).count
    rw [← hheld rs p, ← List.count_pos_iff, hcount]
    split_ifs with hgone
    · exact ⟨iff_of_true Nat.one_pos hgone, le_refl 1⟩
    · exact ⟨iff_of_false (lt_irrefl 0) hgone, Nat.zero_le 1⟩

/-- A policy keeps the first publisher while the builder has moved on to a second one. -/
theorem handlers_reached_and_released_replaced :
    let host : Host := ⟨"worker", 7, "Linux", "6.1.0", "#1 SMP"⟩
    let start := Session.start .standard "main" (Builder.ofHost host)
    let m : Measurement := ⟨.counter, "published_messages", ⟨0x4000000000000000⟩, []⟩
    let rs : List Request :=
      [.setSink "main" (.own "a"), .snapshot "main" "p", .setSink "main" (.own "b"),
        .publish "p" m, .publish "main" m, .drop "p", .notifySuccess "main"]
    (start.watch rs).filter Event.isDelivery = [.measured "a" m, .measured "b" m] ∧
      (0, "a") ∈ start.releases rs ∧ (start.releases rs).count (0, "a") ≤ 1 ∧
      (1, "b") ∉ start.releases rs := by
  intro host start m rs
  obtain ⟨hwatch, _, hreleases⟩ := handlers_reached_and_released .standard "main" host
  have hhands (p : Nat × String) : ∀ r ∈ rs, ¬ r.Hands p := by simp [rs, Request.Hands]
  have hmade : (0, "a") ∈ start.makings rs := List.mem_cons_self (l := [(1, "b")])
  have htold : told .standard "main" (Builder.ofHost host) rs =
      ⟨[("main", [.metrics (.publisher (.own 0 "a")), .metrics (.publisher (.own 1 "b"))])], []⟩ :=
    rfl
  obtain ⟨hfirst, honce⟩ := hreleases rs (0, "a") (hhands _)
  refine ⟨(hwatch rs).1.trans rfl, hfirst.2 ⟨hmade, ?_⟩, honce, fun h => ?_⟩
  · rintro ⟨name, ws, hfound, hlast⟩
    rw [htold] at hfound
    simp only [OrderedTable.find?_cons, OrderedTable.find?_nil] at hfound
    split_ifs at hfound
    · obtain rfl := Option.some.inj (hfound.resolve_right (by simp))
      exact absurd (Option.some.inj hlast) (by simp)
    · simp at hfound
  · have hkept := ((hreleases rs (1, "b") (hhands _)).1.1 h).2
    rw [htold] at hkept
    exact hkept ⟨"main", _, .inl rfl, rfl⟩

end BrokerPolicy.Session
