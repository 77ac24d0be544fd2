import BrokerPolicy.Proofs.PolicyFile.Agreement
import BrokerPolicy.Proofs.PolicyFile.Application
import BrokerPolicy.Proofs.PolicyFile.Validation
import Mathlib.Logic.Function.Iterate

set_option autoImplicit false

/-!
Files in layers. Applying one file and then another comes to applying a single file, in which the
later one has the last word on everything that it gives.
-/

namespace BrokerPolicy.PolicyFile

/-- A file says what another one says where that gives something, and what a first one says
elsewhere. Nothing is asked of its log level, which is not for a builder. -/
structure Overlays (f g h : PolicyFile) : Prop where
  timeout : h.timeoutSeconds = g.timeoutSeconds.or f.timeoutSeconds
  threshold : h.thresholdSeconds = g.thresholdSeconds.or f.thresholdSeconds
  shuffle : h.shuffle = g.shuffle.or f.shuffle
  /-- A value is taken over as a whole, also if it is a table. -/
  properties : ∀ name,
    h.properties.find? name = (g.properties.find? name).or (f.properties.find? name)
  sorted : h.properties.Sorted
  tunables : ∀ name, name ∈ h.tunables ↔ name ∈ f.tunables ∨ name ∈ g.tunables

def overlay (f g : PolicyFile) : PolicyFile where
  timeoutSeconds := g.timeoutSeconds.or f.timeoutSeconds
  thresholdSeconds := g.thresholdSeconds.or f.thresholdSeconds
  shuffle := g.shuffle.or f.shuffle
  tunables := f.tunables ++ g.tunables
  properties := OrderedTable.insertAll f.properties g.properties
  logLevel := g.logLevel

theorem overlays_overlay {f g : PolicyFile} (hf : f.properties.Sorted)
    (hg : g.properties.Sorted) : Overlays f g (f.overlay g) where
  timeout := rfl
  threshold := rfl
  shuffle := rfl
  properties := by
    intro name
    rw [← OrderedTable.lastOf_of_sorted hg]
    exact OrderedTable.find?_insertAll f.properties g.properties name
  sorted := OrderedTable.sorted_insertAll hf g.properties
  tunables := fun _ => List.mem_append

section

variable {f g h : PolicyFile} (ho : Overlays f g h)
include ho

theorem Overlays.given_eq (hf : f.properties.Sorted) (hg : g.properties.Sorted)
    (edition : Edition) (slot : Slot) :
    h.given edition slot = (g.given edition slot).or (f.given edition slot) := by
  cases slot with
  | timeout => rw [given, given, given, ho.timeout, Option.map_or]
  | threshold => rw [given, given, given, ho.threshold, Option.map_or]
  | shuffle => rw [given, given, given, ho.shuffle, Option.map_or]
  | property name =>
    rw [given, given, given, OrderedTable.lastOf_of_sorted hf, OrderedTable.lastOf_of_sorted hg,
      OrderedTable.lastOf_of_sorted ho.sorted, ho.properties, Option.map_or]
  | tunable name =>
    simp only [given, ho.tunables]
    by_cases hedition : edition = .experimental
    · by_cases hname : name ∈ g.tunables <;> simp [hedition, hname]
    · simp [hedition]
  | _ => rfl

theorem Overlays.mem_names (name : String) :
    name ∈ h.properties.names ↔ name ∈ f.properties.names ∨ name ∈ g.properties.names := by
  rw [← OrderedTable.find?_isSome_iff, ← OrderedTable.find?_isSome_iff,
    ← OrderedTable.find?_isSome_iff, ho.properties, Option.isSome_or, Bool.or_eq_true, or_comm]

theorem Overlays.acceptable (hf : ∀ name ∈ f.properties.names, Property.Acceptable name)
    (hg : ∀ name ∈ g.properties.names, Property.Acceptable name) :
    ∀ name ∈ h.properties.names, Property.Acceptable name := by
  intro name hname
  rcases (ho.mem_names name).1 hname with hname | hname
  · exact hf name hname
  · exact hg name hname

theorem Overlays.contentSound {edition : Edition} (hf : ContentSound edition f)
    (hg : ContentSound edition g) : ContentSound edition h where
  durations := by
    intro which s hs
    have hor : which.seconds? h = (which.seconds? g).or (which.seconds? f) := by
      cases which with
      | timeout => exact ho.timeout
      | threshold => exact ho.threshold
    rw [hor, Option.or_eq_some_iff] at hs
    rcases hs with hs | ⟨_, hs⟩
    · exact hg.durations which s hs
    · exact hf.durations which s hs
  names := ho.acceptable hf.names hg.names
  tunables := by
    intro name hname
    rcases (ho.tunables name).1 hname with hname | hname
    · exact hf.tunables name hname
    · exact hg.tunables name hname

end

theorem apply_apply_policy (edition : Edition) (f g : PolicyFile) (b : Builder) :
    (g.apply edition (f.apply edition b).builder).builder.policy =
      (f.accepted.settings edition ++ g.accepted.settings edition).foldl Policy.write
        b.policy := by
  rw [apply_policy_eq, apply_policy_eq, List.foldl_append]

theorem Overlays.apply_apply {f g h : PolicyFile} (ho : Overlays f g h)
    (hf : f.properties.Sorted) (hg : g.properties.Sorted)
    (hfnames : ∀ name ∈ f.properties.names, Property.Acceptable name)
    (hgnames : ∀ name ∈ g.properties.names, Property.Acceptable name) (edition : Edition)
    (b : Builder) :
    (g.apply edition (f.apply edition b).builder).builder = (h.apply edition b).builder := by
  have hhnames := ho.acceptable hfnames hgnames
  have hpolicy : (g.apply edition (f.apply edition b).builder).builder.policy =
      (h.apply edition b).builder.policy := by
    rw [apply_apply_policy, apply_policy_eq, accepted_of_names hfnames, accepted_of_names hgnames,
      accepted_of_names hhnames]
    -- Two runs of writes agree if the last write to each place does.
    apply foldl_write_congr
    intro slot
    rw [lastWrite_append, lastWrite_settings, lastWrite_settings, lastWrite_settings,
      ho.given_eq hf hg]
  exact congrArg Builder.mk hpolicy

/-- A file that is applied again writes what it has written, also if it is refused half-way. -/
theorem apply_apply_self (edition : Edition) (f : PolicyFile) (b : Builder) :
    (f.apply edition (f.apply edition b).builder).builder = (f.apply edition b).builder := by
  have hpolicy : (f.apply edition (f.apply edition b).builder).builder.policy =
      (f.apply edition b).builder.policy := by
    rw [apply_apply_policy, apply_policy_eq]
    apply foldl_write_congr
    intro slot
    rw [lastWrite_append, Option.or_self]
  exact congrArg Builder.mk hpolicy

theorem iterate_apply (edition : Edition) (f : PolicyFile) (n : Nat) (b : Builder) :
    (fun b => (f.apply edition b).builder)^[n + 1] b = (f.apply edition b).builder := by
  rw [Function.iterate_succ_apply]
  exact Function.iterate_fixed (apply_apply_self edition f b) n

theorem apply_of_settings_nil {edition : Edition} {f : PolicyFile} (h : f.settings edition = [])
    (b : Builder) : f.apply edition b = ⟨b, none, []⟩ := by
  rw [apply, h]
  rfl

/-- Applying two files comes to applying any one that says what the later one gives and, elsewhere,
what the earlier one gives; there always is one. It passes the checks that both pass, but for its
log level. Applying a file again changes nothing, and neither does a file in which nothing is
given. -/
theorem apply_apply_eq_overlay (edition : Edition) (f g : PolicyFile) (hf : f.properties.Sorted)
    (hg : g.properties.Sorted) :
    Overlays f g (f.overlay g) ∧
    (∀ h, Overlays f g h →
      (∀ name ∈ f.properties.names, Property.Acceptable name) →
      (∀ name ∈ g.properties.names, Property.Acceptable name) →
      ∀ b : Builder,
        (f.apply edition b).error = none ∧
        (g.apply edition (f.apply edition b).builder).error = none ∧
        (h.apply edition b).error = none ∧
        (g.apply edition (f.apply edition b).builder).builder = (h.apply edition b).builder) ∧
    (∀ h, Overlays f g h → f.validate edition = [] → g.validate edition = [] →
      h.validate edition = logLevelErrors h.logLevel) ∧
    (∀ (n : Nat) (b : Builder),
      (fun b => (f.apply edition b).builder)^[n + 1] b = (f.apply edition b).builder) ∧
    ∀ (level : String) (b : Builder),
      (⟨none, none, none, [], [], level⟩ : PolicyFile).apply edition b = ⟨b, none, []⟩ := by
  refine ⟨overlays_overlay hf hg, ?_, ?_, iterate_apply edition f, ?_⟩
  · intro h ho hfnames hgnames b
    have hhnames := ho.acceptable hfnames hgnames
    exact ⟨apply_error_of_names hfnames edition b, apply_error_of_names hgnames edition _,
      apply_error_of_names hhnames edition b, ho.apply_apply hf hg hfnames hgnames edition b⟩
  · intro h ho hfvalid hgvalid
    have hfsound := ((validate_eq_nil_iff edition f).1 hfvalid).1
    have hgsound := ((validate_eq_nil_iff edition g).1 hgvalid).1
    exact (ho.contentSound hfsound hgsound).validate_eq
  · intro level b
    exact apply_of_settings_nil (by cases edition <;> rfl) b

/-- The later file replaces a table as a whole, and what it leaves out stays. -/
theorem apply_apply_eq_overlay_team :
    let f : PolicyFile := ⟨some 5, some 7, none, ["fast"],
      [("task", .string "billing"), ("team", .table [("lead", .string "a")])], "info"⟩
    let g : PolicyFile := ⟨some 9, none, none, ["fast", "late"], [("team", .table [])], "warn"⟩
    let b := Builder.ofHost ⟨"worker", 7, "Linux", "6.1.0", "#1 SMP"⟩
    (g.apply .experimental (f.apply .experimental b).builder).builder =
        ((f.overlay g).apply .experimental b).builder ∧
      ((f.overlay g).apply .experimental b).error = none ∧
      (f.overlay g).properties.find? "team" = some (.table []) ∧
      (f.overlay g).validate .experimental = [] := by
  intro f g b
  have hf : f.properties.Sorted := by unfold OrderedTable.Sorted OrderedTable.names; decide
  have hg : g.properties.Sorted := by unfold OrderedTable.Sorted OrderedTable.names; decide
  obtain ⟨ho, happly, hvalid, -, -⟩ := apply_apply_eq_overlay .experimental f g hf hg
  obtain ⟨-, -, herror, hbuilder⟩ := happly _ ho (by decide) (by decide) b
  refine ⟨hbuilder, herror, ho.properties "team", ?_⟩
  calc (f.overlay g).validate .experimental
      = logLevelErrors "warn" := hvalid _ ho (by decide +kernel) (by decide +kernel)
    _ = [] := by decide +kernel

end BrokerPolicy.PolicyFile
