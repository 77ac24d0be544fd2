import BrokerPolicy.Proofs.PolicyFile.Durations

set_option autoImplicit false

/-!
The two decisions about elapsed time. They compare nanoseconds, while a summary reports
milliseconds, cut and with a largest number; for the durations of a valid file the two views agree.
-/

namespace BrokerPolicy

namespace Policy

variable (p : Policy) (elapsed : Duration)

theorem isMessageHung_iff :
    p.isMessageHung elapsed = true ↔ p.timeout.totalNanos ≤ elapsed.totalNanos :=
  Duration.reaches_iff elapsed p.timeout

theorem shouldEscalate_iff_reaches :
    p.shouldEscalate elapsed = true ↔ ∃ t, p.threshold = some t ∧ elapsed.reaches t = true := by
  unfold shouldEscalate
  cases p.threshold with
  | none => simp
  | some t => simp

theorem shouldEscalate_iff :
    p.shouldEscalate elapsed = true ↔
      ∃ t, p.threshold = some t ∧ t.totalNanos ≤ elapsed.totalNanos := by
  simp only [shouldEscalate_iff_reaches, Duration.reaches_iff]

/-- What it is for the decisions to be those that a reader of the summary would take. -/
structure DecidedBySummary : Prop where
  hung : ∀ e, p.isMessageHung e = true ↔ p.summary.timeoutMillis ≤ e.millis
  escalated : ∀ e, p.shouldEscalate e = true ↔
    ∃ m, p.summary.thresholdMillis = some m ∧ m ≤ e.millis

theorem thresholdMillis_summary (m : Nat) :
    p.summary.thresholdMillis = some m ↔ ∃ t, p.threshold = some t ∧ t.millis = m :=
  Option.map_eq_some_iff

theorem decidedBySummary_of_exact (htimeout : p.timeout.Exact)
    (hthreshold : ∀ t, p.threshold = some t → t.Exact) : p.DecidedBySummary where
  hung e := htimeout.reaches_iff_millis_le e
  escalated e := by
    rw [shouldEscalate_iff_reaches]
    constructor
    · rintro ⟨t, ht, hreached⟩
      exact ⟨t.millis, (p.thresholdMillis_summary _).2 ⟨t, ht, rfl⟩,
        Duration.millis_le_of_reaches hreached⟩
    · rintro ⟨m, hm, hle⟩
      obtain ⟨t, ht, rfl⟩ := (p.thresholdMillis_summary m).1 hm
      exact ⟨t, ht, ((hthreshold t ht).reaches_iff_millis_le e).2 hle⟩

end Policy

namespace PolicyFile

theorem timeout_apply (edition : Edition) (f : PolicyFile) (b : Builder) :
    (f.apply edition b).builder.policy.timeout =
      (f.timeoutSeconds.map Duration.ofSeconds).getD b.policy.timeout := by
  have hread := read_apply edition f b .timeout
  rw [given, accepted_timeoutSeconds] at hread
  exact hread

theorem threshold_apply (edition : Edition) (f : PolicyFile) (b : Builder) :
    (f.apply edition b).builder.policy.threshold =
      (f.thresholdSeconds.map fun s => some (Duration.ofSeconds s)).getD b.policy.threshold := by
  have hread := read_apply edition f b .threshold
  rw [given, accepted_thresholdSeconds] at hread
  exact hread

theorem decidedBySummary_apply {edition : Edition} {f : PolicyFile}
    (hvalid : f.validate edition = []) {b : Builder} (htimeout : b.policy.timeout.Exact)
    (hthreshold : ∀ t, b.policy.threshold = some t → t.Exact) :
    (f.apply edition b).builder.policy.DecidedBySummary := by
  have hfits := ((validate_eq_nil_iff edition f).1 hvalid).1.durations
  apply Policy.decidedBySummary_of_exact
  · rw [timeout_apply]
    cases hs : f.timeoutSeconds with
    | none => exact htimeout
    | some s => exact Duration.exact_ofSeconds (hfits .timeout s hs)
  · rw [threshold_apply]
    cases hs : f.thresholdSeconds with
    | none => exact hthreshold
    | some s =>
      intro t ht
      obtain rfl : Duration.ofSeconds s = t := Option.some.inj ht
      exact Duration.exact_ofSeconds (hfits .threshold s hs)

end PolicyFile

namespace Policy

/-- A message counts as hung, and a failure is escalated, exactly from the bound on, in
nanoseconds, that is by seconds first. Longer times and lesser bounds keep a decision. Time that is
decided to be enough is also reported as no less than the bound, cut as both numbers may be. The
converse holds of the policies handed out after a valid file has been applied to standard
durations, for every elapsed time. -/
theorem decisions_exact :
    (∀ (p : Policy) (e : Duration),
      (p.isMessageHung e = true ↔ p.timeout.totalNanos ≤ e.totalNanos) ∧
      (p.shouldEscalate e = true ↔
        ∃ t, p.threshold = some t ∧ t.totalNanos ≤ e.totalNanos)) ∧
    (∀ d e : Duration, d.totalNanos ≤ e.totalNanos ↔
      d.seconds < e.seconds ∨ d.seconds = e.seconds ∧ d.nanos ≤ e.nanos) ∧
    (∀ (p q : Policy) (d e : Duration), d.totalNanos ≤ e.totalNanos →
      (q.timeout.totalNanos ≤ p.timeout.totalNanos →
        p.isMessageHung d = true → q.isMessageHung e = true) ∧
      ((∀ t, p.threshold = some t →
          ∃ u, q.threshold = some u ∧ u.totalNanos ≤ t.totalNanos) →
        p.shouldEscalate d = true → q.shouldEscalate e = true)) ∧
    (∀ (p : Policy) (e : Duration),
      (p.isMessageHung e = true → p.summary.timeoutMillis ≤ e.millis) ∧
      (p.shouldEscalate e = true →
        ∃ m, p.summary.thresholdMillis = some m ∧ m ≤ e.millis)) ∧
    ∀ (edition : Edition) (f : PolicyFile) (b : Builder), f.validate edition = [] →
      b.policy.timeout = standardTimeout → b.policy.threshold = none →
      (f.apply edition b).error = none ∧
        (f.apply edition b).builder.snapshot.DecidedBySummary ∧
        ∀ accepts (p : Policy), ((f.apply edition b).builder.build accepts).1 = .ok p →
          p.DecidedBySummary := by
  refine ⟨fun p e => ⟨p.isMessageHung_iff e, p.shouldEscalate_iff e⟩,
    Duration.totalNanos_le_iff, ?_, ?_, ?_⟩
  · intro p q d e hde
    simp only [isMessageHung_iff, shouldEscalate_iff]
    refine ⟨fun hbound hd => hbound.trans (hd.trans hde), ?_⟩
    rintro hbound ⟨t, ht, hd⟩
    obtain ⟨u, hu, hut⟩ := hbound t ht
    exact ⟨u, hu, hut.trans (hd.trans hde)⟩
  · intro p e
    refine ⟨Duration.millis_le_of_reaches, fun h => ?_⟩
    obtain ⟨t, ht, hreached⟩ := (p.shouldEscalate_iff_reaches e).1 h
    exact ⟨t.millis, (p.thresholdMillis_summary _).2 ⟨t, ht, rfl⟩,
      Duration.millis_le_of_reaches hreached⟩
  · intro edition f b hvalid htimeout hthreshold
    have hstandard : b.policy.timeout.Exact := by
      rw [htimeout]
      exact Duration.exact_ofSeconds (by decide)
    have hdecided : (f.apply edition b).builder.policy.DecidedBySummary :=
      PolicyFile.decidedBySummary_apply hvalid hstandard
        (fun t ht => by rw [hthreshold] at ht; exact nomatch ht)
    refine ⟨PolicyFile.apply_error_of_valid hvalid b, hdecided, ?_⟩
    intro accepts p hp
    rw [Builder.build_fst] at hp
    split_ifs at hp
    obtain rfl : (f.apply edition b).builder.policy = p := Except.ok.inj hp
    exact hdecided

/-- The longest timeout that a file may ask for is missed by a nanosecond, and reached by a time
whose own milliseconds are cut. The threshold of the file is met to the millisecond. -/
theorem decisions_exact_limit :
    let f : PolicyFile := ⟨some 18446744073709551, some 5, none, [], [], "info"⟩
    let b := Builder.ofHost ⟨"worker", 7, "Linux", "6.1.0", "#1 SMP"⟩
    ∃ p : Policy, ((f.apply .standard b).builder.build fun _ => true).1 = .ok p ∧
      p.isMessageHung ⟨18446744073709550, 999999999⟩ = false ∧
      p.isMessageHung ⟨18446744073709551615, 999999999⟩ = true ∧
      p.shouldEscalate ⟨5, 0⟩ = true ∧ p.shouldEscalate ⟨4, 999999999⟩ = false := by
  intro f b
  obtain ⟨hexact, -, -, -, hfile⟩ := decisions_exact
  obtain ⟨-, -, hbuilt⟩ := hfile .standard f b (by decide +kernel) rfl rfl
  obtain ⟨p, hp⟩ : ∃ p : Policy, ((f.apply .standard b).builder.build fun _ => true).1 = .ok p :=
    ⟨_, rfl⟩
  have hdecided := hbuilt _ p hp
  obtain rfl : (f.apply .standard b).builder.policy = p := Except.ok.inj hp
  have hfive : (f.apply .standard b).builder.policy.summary.thresholdMillis = some 5000 := by
    decide +kernel
  refine ⟨_, hp, ?_, (hdecided.hung _).2 (by decide +kernel),
    (hdecided.escalated _).2 ⟨5000, hfive, by decide⟩, ?_⟩
  · rw [Bool.eq_false_iff, Ne, (hexact _ _).1]
    decide
  · rw [Bool.eq_false_iff, Ne, hdecided.escalated]
    rintro ⟨m, hm, hle⟩
    obtain rfl : 5000 = m := Option.some.inj (hfive.symm.trans hm)
    exact absurd hle (by decide)

end Policy

end BrokerPolicy
