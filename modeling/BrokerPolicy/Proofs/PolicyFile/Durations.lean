import BrokerPolicy.Policy.Summary
import BrokerPolicy.Proofs.Duration
import BrokerPolicy.Proofs.PolicyFile.Agreement
import BrokerPolicy.Proofs.PolicyFile.Application
import BrokerPolicy.Proofs.PolicyFile.Validation

set_option autoImplicit false

/-!
Durations from a file to a summary. A summary has room for 64-bit milliseconds, and validation turns
down exactly the seconds that do not fit it.
-/

namespace BrokerPolicy

namespace PolicyFile.DurationField

def setting (d : Duration) : DurationField → Setting
  | timeout => .timeout d
  | threshold => .threshold (some d)

def millis? (s : Summary) : DurationField → Option Nat
  | timeout => some s.timeoutMillis
  | threshold => s.thresholdMillis

theorem millis?_set (which : DurationField) (d : Duration) (b : Builder) :
    (b.set (which.setting d)).error = none ∧
      which.millis? (b.set (which.setting d)).builder.policy.summary = some d.millis := by
  cases which with
  | timeout => exact ⟨rfl, rfl⟩
  | threshold => exact ⟨rfl, rfl⟩

/-- A file writes its durations before anything in it can be refused. -/
theorem millis?_apply {which : DurationField} {f : PolicyFile} {s : UInt64}
    (h : which.seconds? f = some s) (edition : Edition) (b : Builder) :
    which.millis? (f.apply edition b).builder.policy.summary =
      some (min (1000 * s.toNat) (2 ^ 64 - 1)) := by
  rw [← Duration.millis_ofSeconds]
  cases which with
  | timeout =>
    have hread := read_apply edition f b .timeout
    have hseconds : f.accepted.timeoutSeconds = some s := f.accepted_timeoutSeconds.trans h
    rw [given, hseconds] at hread
    exact congrArg (fun d : Duration => some d.millis) hread
  | threshold =>
    have hread := read_apply edition f b .threshold
    have hseconds : f.accepted.thresholdSeconds = some s := f.accepted_thresholdSeconds.trans h
    rw [given, hseconds] at hread
    exact congrArg (Option.map Duration.millis) hread

end PolicyFile.DurationField

namespace PolicyFile

theorem millis?_apply_of_valid {edition : Edition} {f : PolicyFile} (hvalid : f.validate edition = [])
    {which : DurationField} {s : UInt64} (h : which.seconds? f = some s) (b : Builder) :
    which.millis? (f.apply edition b).builder.policy.summary = some (1000 * s.toNat) := by
  have hfits := ((validate_eq_nil_iff edition f).1 hvalid).1.durations which s h
  rw [DurationField.millis?_apply h, min_eq_left (Nat.le_sub_one_of_lt hfits)]

theorem summary_apply_ne {which : DurationField} {edition edition' : Edition} {f g : PolicyFile}
    (hf : f.validate edition = []) (hg : g.validate edition' = []) {s t : UInt64}
    (hs : which.seconds? f = some s) (ht : which.seconds? g = some t) (hne : s ≠ t)
    (b b' : Builder) :
    (f.apply edition b).builder.policy.summary ≠ (g.apply edition' b').builder.policy.summary := by
  intro hsame
  have hmillis : some (1000 * s.toNat) = some (1000 * t.toNat) := by
    rw [← millis?_apply_of_valid hf hs b, hsame, millis?_apply_of_valid hg ht b']
  apply hne
  apply UInt64.toNat_inj.1
  have hequal := Option.some.inj hmillis
  omega

/-- Validation turns a duration down exactly if its milliseconds do not fit 64 bits. So the summary
of a valid file's policy gives them exactly and tells different durations apart, and a duration that
is turned down would be reported as the largest number. Any duration that is set is reported in
whole milliseconds up to that number, and a longer one never as less. -/
theorem durationOutOfRange_iff_inexact (which : DurationField) :
    (∀ (edition : Edition) (f : PolicyFile) (s : UInt64),
      .durationOutOfRange which.field s ∈ f.validate edition ↔
        which.seconds? f = some s ∧ 2 ^ 64 ≤ 1000 * s.toNat) ∧
    (∀ (edition : Edition) (f : PolicyFile) (s : UInt64), which.seconds? f = some s →
      ∀ b : Builder,
        (f.validate edition = [] →
          (f.apply edition b).error = none ∧
            which.millis? (f.apply edition b).builder.policy.summary = some (1000 * s.toNat)) ∧
        (.durationOutOfRange which.field s ∈ f.validate edition →
          which.millis? (f.apply edition b).builder.policy.summary = some (2 ^ 64 - 1))) ∧
    (∀ (edition edition' : Edition) (f g : PolicyFile) (s t : UInt64),
      f.validate edition = [] → g.validate edition' = [] →
      which.seconds? f = some s → which.seconds? g = some t → s ≠ t →
      ∀ b b' : Builder,
        (f.apply edition b).builder.policy.summary ≠
          (g.apply edition' b').builder.policy.summary) ∧
    (∀ (d : Duration) (b : Builder),
      (b.set (which.setting d)).error = none ∧
        which.millis? (b.set (which.setting d)).builder.policy.summary = some d.millis) ∧
    (∀ d : Duration,
      d.millis = min ((d.seconds.toNat * 10 ^ 9 + d.nanos) / 10 ^ 6) (2 ^ 64 - 1)) ∧
    ∀ d e : Duration, d.totalNanos ≤ e.totalNanos → d.millis ≤ e.millis := by
  refine ⟨mem_validate_durationOutOfRange_iff which, ?_, ?_, which.millis?_set, Duration.millis_eq,
    fun d e => Duration.millis_mono⟩
  · intro edition f s hs b
    refine ⟨fun hvalid => ⟨apply_error_of_valid hvalid b, millis?_apply_of_valid hvalid hs b⟩, ?_⟩
    intro hreported
    have hlarge := ((mem_validate_durationOutOfRange_iff which edition f s).1 hreported).2
    have hcut : 2 ^ 64 - 1 ≤ 1000 * s.toNat := by omega
    rw [DurationField.millis?_apply hs, min_eq_right hcut]
  · intro edition edition' f g s t hf hg hs ht hne
    exact summary_apply_ne hf hg hs ht hne

/-- At the limit and one second past it, applied to a builder that holds another timeout. -/
theorem durationOutOfRange_iff_inexact_limit :
    let last : PolicyFile := ⟨some 18446744073709551, none, none, [], [], "info"⟩
    let past : PolicyFile := ⟨some 18446744073709552, none, none, [], [], "info"⟩
    let brief : PolicyFile := ⟨some 1, none, none, [], [], "WARN"⟩
    let b := Builder.ofHost ⟨"worker", 7, "Linux", "6.1.0", "#1 SMP"⟩
    (last.apply .standard b).builder.policy.summary.timeoutMillis = 18446744073709551000 ∧
      .durationOutOfRange .timeout 18446744073709552 ∈ past.validate .standard ∧
      (past.apply .standard b).builder.policy.summary.timeoutMillis = 2 ^ 64 - 1 ∧
      (last.apply .standard b).builder.policy.summary ≠
        (brief.apply .experimental b).builder.policy.summary ∧
      (⟨1, 999999⟩ : Duration).millis ≤ (⟨1, 1000000⟩ : Duration).millis := by
  intro last past brief b
  obtain ⟨hreported, hvalue, hdistinct, -, -, hmono⟩ := durationOutOfRange_iff_inexact .timeout
  have hlast : last.validate .standard = [] := by decide +kernel
  have hbrief : brief.validate .experimental = [] := by decide +kernel
  have hpast := (hreported .standard past 18446744073709552).2 ⟨rfl, by decide⟩
  refine ⟨?_, hpast, ?_, ?_, hmono _ _ (by decide)⟩
  · exact Option.some.inj ((hvalue .standard last 18446744073709551 rfl b).1 hlast).2
  · exact Option.some.inj ((hvalue .standard past 18446744073709552 rfl b).2 hpast)
  · exact hdistinct .standard .experimental last brief 18446744073709551 1 hlast hbrief rfl rfl
      (by decide) b b

end PolicyFile

end BrokerPolicy
