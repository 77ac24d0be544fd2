import BrokerPolicy.Proofs.Policy.Slot

set_option autoImplicit false

/-!
What applying a file leaves at each place of a policy. A file with a refused name does what the part
of it before that name does, and a place that a file does not give stays as it was.
-/

namespace BrokerPolicy.PolicyFile

/-- The part of a file that goes through. Tunables come last, so a refused name keeps them all out. -/
def accepted (f : PolicyFile) : PolicyFile :=
  if ∀ e ∈ f.properties, Property.Acceptable e.1 then f
  else
    { f with
      properties := f.properties.takeWhile fun e => Property.Acceptable e.1
      tunables := [] }

theorem accepted_eq_self {f : PolicyFile} (h : ∀ e ∈ f.properties, Property.Acceptable e.1) :
    f.accepted = f := if_pos h

theorem accepted_of_names {f : PolicyFile}
    (h : ∀ name ∈ f.properties.names, Property.Acceptable name) : f.accepted = f := by
  apply accepted_eq_self
  intro e he
  exact h e.1 (List.mem_map_of_mem he)

theorem apply_error_eq_none_iff (edition : Edition) (f : PolicyFile) (b : Builder) :
    (f.apply edition b).error = none ↔
      ∀ name ∈ f.properties.names, Property.Acceptable name := by
  rw [apply_error, List.findSome?_eq_none_iff]
  exact forall₂_congr fun name _ => Property.refusal?_eq_none_iff name

theorem apply_error_of_names {f : PolicyFile}
    (h : ∀ name ∈ f.properties.names, Property.Acceptable name) (edition : Edition)
    (b : Builder) : (f.apply edition b).error = none :=
  (apply_error_eq_none_iff edition f b).2 h

theorem accepted_tunables_of_refused {f : PolicyFile}
    (h : ¬ ∀ name ∈ f.properties.names, Property.Acceptable name) : f.accepted.tunables = [] := by
  have hentries : ¬ ∀ e ∈ f.properties, Property.Acceptable e.1 := fun hall =>
    h (List.forall_mem_map.2 hall)
  rw [accepted, if_neg hentries]

@[simp]
theorem accepted_timeoutSeconds (f : PolicyFile) :
    f.accepted.timeoutSeconds = f.timeoutSeconds := by
  unfold accepted
  split_ifs <;> rfl

@[simp]
theorem accepted_thresholdSeconds (f : PolicyFile) :
    f.accepted.thresholdSeconds = f.thresholdSeconds := by
  unfold accepted
  split_ifs <;> rfl

@[simp]
theorem accepted_shuffle (f : PolicyFile) : f.accepted.shuffle = f.shuffle := by
  unfold accepted
  split_ifs <;> rfl

theorem accepted_leadingSettings (f : PolicyFile) :
    f.accepted.leadingSettings = f.leadingSettings := by
  unfold accepted
  split_ifs <;> rfl

theorem writes_eq (edition : Edition) (f : PolicyFile) :
    f.writes edition = f.accepted.settings edition := by
  have hnames : (∀ name ∈ f.properties.names, Property.Acceptable name) ↔
      ∀ e ∈ f.properties, Property.Acceptable e.1 := List.forall_mem_map
  rw [writes, settings_eq, accepted_leadingSettings]
  by_cases h : ∀ e ∈ f.properties, Property.Acceptable e.1
  · have hself : (f.properties.takeWhile fun e => Property.Acceptable e.1) = f.properties :=
      List.takeWhile_eq_self_iff.2 fun e he => decide_eq_true (h e he)
    rw [hself, if_congr (and_iff_left (hnames.2 h)) rfl rfl, accepted_eq_self h]
    rfl
  · rw [if_neg fun hall => h (hnames.1 hall.2), accepted, if_neg h]
    unfold tunableSettings
    split_ifs <;> rfl

theorem apply_policy_eq (edition : Edition) (f : PolicyFile) (b : Builder) :
    (f.apply edition b).builder.policy =
      (f.accepted.settings edition).foldl Policy.write b.policy := by
  rw [apply_policy, writes_eq]

def given (edition : Edition) (f : PolicyFile) : (slot : Slot) → Option slot.Value
  | .timeout => f.timeoutSeconds.map Duration.ofSeconds
  | .threshold => f.thresholdSeconds.map fun s => some (Duration.ofSeconds s)
  | .shuffle => f.shuffle.map some
  | .property name => (OrderedTable.lastOf f.properties name).map some
  | .tunable name => if edition = .experimental ∧ name ∈ f.tunables then some true else none
  | .resource | .metrics | .onError | .onSuccess | .onHung | .consumerTracer
  | .producerTracer => none

theorem settings_entries (edition : Edition) (f : PolicyFile) :
    (f.settings edition).filterMap Setting.entry? = f.properties := by
  obtain ⟨timeout, threshold, shuffle, tunables, properties, level⟩ := f
  have hproperties : (properties.map fun e => Setting.property e.1 e.2).filterMap
      Setting.entry? = properties := by
    simp [Setting.entry?, Function.comp_def]
  have htunables : (if edition = .experimental then tunables.map Setting.tunable else []).filterMap
      Setting.entry? = [] := by
    split_ifs <;> simp [Setting.entry?, Function.comp_def]
  rw [settings, List.filterMap_append, List.filterMap_append, hproperties, htunables,
    List.append_nil]
  cases timeout <;> cases threshold <;> cases shuffle <;> rfl

theorem settings_tunables (edition : Edition) (f : PolicyFile) :
    (f.settings edition).filterMap Setting.tunable? =
      if edition = .experimental then f.tunables else [] := by
  obtain ⟨timeout, threshold, shuffle, tunables, properties, level⟩ := f
  have hproperties : (properties.map fun e => Setting.property e.1 e.2).filterMap
      Setting.tunable? = [] := by
    simp [Setting.tunable?, Function.comp_def]
  have htunables : (if edition = .experimental then tunables.map Setting.tunable else []).filterMap
      Setting.tunable? = if edition = .experimental then tunables else [] := by
    split_ifs <;> simp [Setting.tunable?, Function.comp_def]
  rw [settings, List.filterMap_append, List.filterMap_append, hproperties, htunables,
    List.append_nil]
  cases timeout <;> cases threshold <;> cases shuffle <;> rfl

theorem lastWrite_named {slot : Slot} (hproperty : ∀ name, slot ≠ .property name)
    (htunable : ∀ name, slot ≠ .tunable name) (edition : Edition) (f : PolicyFile) :
    lastWrite slot (f.propertySettings ++ f.tunableSettings edition) = none := by
  apply lastWrite_eq_none
  intro s hs w hw
  rcases List.mem_append.1 hs with hs | hs
  · obtain ⟨e, _, rfl⟩ := List.mem_map.1 hs
    cases hw
    exact (hproperty e.1).symm
  · unfold tunableSettings at hs
    split_ifs at hs
    · obtain ⟨name, _, rfl⟩ := List.mem_map.1 hs
      cases hw
      exact (htunable name).symm
    · exact absurd hs List.not_mem_nil

theorem lastWrite_leadingSettings {slot : Slot} (hproperty : ∀ name, slot ≠ .property name)
    (htunable : ∀ name, slot ≠ .tunable name) (edition : Edition) (f : PolicyFile) :
    lastWrite slot f.leadingSettings = f.given edition slot := by
  obtain ⟨timeout, threshold, shuffle, tunables, properties, level⟩ := f
  cases slot with
  | property name => exact absurd rfl (hproperty name)
  | tunable name => exact absurd rfl (htunable name)
  | _ => cases timeout <;> cases threshold <;> cases shuffle <;> rfl

theorem lastWrite_settings (edition : Edition) (f : PolicyFile) (slot : Slot) :
    lastWrite slot (f.settings edition) = f.given edition slot := by
  cases slot with
  | property name =>
    rw [lastWrite_property_eq, settings_entries]
    rfl
  | tunable name =>
    rw [lastWrite_tunable_eq, settings_tunables, given]
    by_cases h : edition = .experimental <;> simp [h]
  | _ =>
    rw [settings_eq, List.append_assoc, lastWrite_append,
      lastWrite_named (by simp) (by simp), Option.none_or,
      lastWrite_leadingSettings (by simp) (by simp) edition]

theorem tunables_apply (edition : Edition) (f : PolicyFile) (b : Builder) :
    (f.apply edition b).builder.policy.tunables =
      OrderedTable.insertNames b.policy.tunables
        (if edition = .experimental then f.accepted.tunables else []) := by
  rw [apply_policy_eq, foldl_write_tunables, settings_tunables]

/-- After a file has been applied, refused or not, each place holds what the part that went through
gives it, or what it held before. -/
theorem read_apply (edition : Edition) (f : PolicyFile) (b : Builder) (slot : Slot) :
    slot.read (f.apply edition b).builder.policy =
      (f.accepted.given edition slot).getD (slot.read b.policy) := by
  rw [apply_policy_eq, Slot.read_foldl_write, lastWrite_settings]

end BrokerPolicy.PolicyFile
