import BrokerPolicy.PolicyFile.Validation
import BrokerPolicy.Proofs.Property.Key
import Mathlib.Algebra.Group.Nat.Defs

set_option autoImplicit false

namespace BrokerPolicy.PolicyFile

inductive DurationField where
  | timeout
  | threshold
deriving DecidableEq

namespace DurationField

def field : DurationField → Field
  | timeout => .timeout
  | threshold => .threshold

def seconds? (f : PolicyFile) : DurationField → Option UInt64
  | timeout => f.timeoutSeconds
  | threshold => f.thresholdSeconds

end DurationField

theorem maxSeconds_lt_iff (s : UInt64) : maxSeconds < s.toNat ↔ 2 ^ 64 ≤ 1000 * s.toNat := by
  change (2 ^ 64 - 1) / 1000 < s.toNat ↔ _
  omega

@[simp]
theorem mem_durationErrors_iff (field : Field) (seconds : Option UInt64) (e : ValidationError) :
    e ∈ durationErrors field seconds ↔
      ∃ s, seconds = some s ∧ maxSeconds < s.toNat ∧ e = .durationOutOfRange field s := by
  cases seconds with
  | none => simp [durationErrors]
  | some s =>
    rw [durationErrors]
    split_ifs with h <;> simp [h]

@[simp]
theorem mem_nameErrors_iff (name : String) (e : ValidationError) :
    e ∈ nameErrors name ↔ ∃ p, Property.refusal? name = some p ∧ e = .property p := by
  unfold nameErrors Property.refusal?
  cases Property.checkName name <;> simp

@[simp]
theorem mem_tunableErrors_iff (edition : Edition) (name : String) (e : ValidationError) :
    e ∈ tunableErrors edition name ↔
      name = "" ∧ e = .emptyTunable ∨
        name ≠ "" ∧ edition = .standard ∧ e = .tunablesDisabled name := by
  unfold tunableErrors
  split_ifs with hempty hedition <;> simp [*]

@[simp]
theorem mem_logLevelErrors_iff (level : String) (e : ValidationError) :
    e ∈ logLevelErrors level ↔ Text.lowerAscii level ∉ logLevels ∧ e = .logLevel level := by
  unfold logLevelErrors
  split_ifs with h <;> simp [h]

@[simp]
theorem durationErrors_eq_nil_iff (field : Field) (seconds : Option UInt64) :
    durationErrors field seconds = [] ↔ ∀ s, seconds = some s → 1000 * s.toNat < 2 ^ 64 := by
  rw [List.eq_nil_iff_forall_not_mem]
  simp only [mem_durationErrors_iff, maxSeconds_lt_iff]
  constructor
  · intro h s hs
    exact Nat.lt_of_not_le fun hle => h _ ⟨s, hs, hle, rfl⟩
  · rintro h e ⟨s, hs, hle, _⟩
    exact Nat.not_le_of_lt (h s hs) hle

@[simp]
theorem nameErrors_eq_nil_iff (name : String) :
    nameErrors name = [] ↔ Property.Acceptable name := by
  rw [← Property.refusal?_eq_none_iff]
  unfold nameErrors Property.refusal?
  cases Property.checkName name <;> simp

@[simp]
theorem tunableErrors_eq_nil_iff (edition : Edition) (name : String) :
    tunableErrors edition name = [] ↔ name ≠ "" ∧ edition = .experimental := by
  unfold tunableErrors
  split_ifs with hempty hedition
  · simp [hempty]
  · simp [hedition]
  · cases edition with
    | standard => exact absurd rfl hedition
    | experimental => simp [hempty]

@[simp]
theorem logLevelErrors_eq_nil_iff (level : String) :
    logLevelErrors level = [] ↔ Text.lowerAscii level ∈ logLevels := by
  unfold logLevelErrors
  split_ifs with h <;> simp [h]

theorem validate_of_durations_names {f : PolicyFile}
    (hdurations : ∀ (which : DurationField) (s : UInt64),
      which.seconds? f = some s → 1000 * s.toNat < 2 ^ 64)
    (hnames : ∀ name ∈ OrderedTable.names f.properties, Property.Acceptable name)
    (edition : Edition) :
    f.validate edition =
      f.tunables.flatMap (tunableErrors edition) ++ logLevelErrors f.logLevel := by
  have htimeout := (durationErrors_eq_nil_iff .timeout f.timeoutSeconds).2 (hdurations .timeout)
  have hthreshold :=
    (durationErrors_eq_nil_iff .threshold f.thresholdSeconds).2 (hdurations .threshold)
  have hproperties : (OrderedTable.names f.properties).flatMap nameErrors = [] :=
    List.flatMap_eq_nil_iff.2 fun name hname => (nameErrors_eq_nil_iff name).2 (hnames name hname)
  rw [validate, htimeout, hthreshold, hproperties]
  rfl

structure ContentSound (edition : Edition) (f : PolicyFile) : Prop where
  durations : ∀ (which : DurationField) (s : UInt64),
    which.seconds? f = some s → 1000 * s.toNat < 2 ^ 64
  names : ∀ name ∈ OrderedTable.names f.properties, Property.Acceptable name
  tunables : ∀ name ∈ f.tunables, name ≠ "" ∧ edition = .experimental

theorem ContentSound.validate_eq {edition : Edition} {f : PolicyFile}
    (h : ContentSound edition f) : f.validate edition = logLevelErrors f.logLevel := by
  have htunables : f.tunables.flatMap (tunableErrors edition) = [] :=
    List.flatMap_eq_nil_iff.2 fun name hname =>
      (tunableErrors_eq_nil_iff edition name).2 (h.tunables name hname)
  rw [validate_of_durations_names h.durations h.names, htunables, List.nil_append]

theorem validate_eq_nil_iff (edition : Edition) (f : PolicyFile) :
    f.validate edition = [] ↔
      ContentSound edition f ∧ Text.lowerAscii f.logLevel ∈ logLevels := by
  constructor
  · intro h
    simp only [validate, List.append_eq_nil_iff, List.flatMap_eq_nil_iff,
      durationErrors_eq_nil_iff, nameErrors_eq_nil_iff, tunableErrors_eq_nil_iff,
      logLevelErrors_eq_nil_iff] at h
    obtain ⟨⟨⟨⟨htimeout, hthreshold⟩, hnames⟩, htunables⟩, hlevel⟩ := h
    refine ⟨⟨?_, hnames, htunables⟩, hlevel⟩
    intro which
    cases which with
    | timeout => exact htimeout
    | threshold => exact hthreshold
  · rintro ⟨hcontent, hlevel⟩
    rw [hcontent.validate_eq]
    exact (logLevelErrors_eq_nil_iff f.logLevel).2 hlevel

theorem mem_validate_durationOutOfRange_iff (which : DurationField) (edition : Edition)
    (f : PolicyFile) (s : UInt64) :
    .durationOutOfRange which.field s ∈ f.validate edition ↔
      which.seconds? f = some s ∧ 2 ^ 64 ≤ 1000 * s.toNat := by
  rw [validate]
  simp only [List.mem_append, List.mem_flatMap, mem_durationErrors_iff, mem_nameErrors_iff,
    mem_tunableErrors_iff, mem_logLevelErrors_iff, maxSeconds_lt_iff]
  cases which <;> simp [DurationField.field, DurationField.seconds?]

end BrokerPolicy.PolicyFile
