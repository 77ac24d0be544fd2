import BrokerPolicy.Policy.Summary
import BrokerPolicy.Proofs.PolicyFile.Agreement
import BrokerPolicy.Proofs.PolicyFile.Validation
import Mathlib.Data.List.Basic

set_option autoImplicit false

/-!
The two editions of the program side by side. They differ in tunables only: the standard edition
reports each of them, so a file that it accepts has none and means the same in both.
-/

namespace BrokerPolicy.PolicyFile

def ValidationError.isTunablesDisabled : ValidationError → Bool
  | .tunablesDisabled _ => true
  | _ => false

@[simp]
theorem filter_durationErrors (field : Field) (seconds : Option UInt64) :
    (durationErrors field seconds).filter (fun e => !e.isTunablesDisabled) =
      durationErrors field seconds := by
  rw [List.filter_eq_self]
  intro e he
  obtain ⟨s, _, _, rfl⟩ := (mem_durationErrors_iff field seconds e).1 he
  rfl

@[simp]
theorem filter_nameErrors (name : String) :
    (nameErrors name).filter (fun e => !e.isTunablesDisabled) = nameErrors name := by
  rw [List.filter_eq_self]
  intro e he
  obtain ⟨p, _, rfl⟩ := (mem_nameErrors_iff name e).1 he
  rfl

@[simp]
theorem filter_tunableErrors (name : String) :
    (tunableErrors .standard name).filter (fun e => !e.isTunablesDisabled) =
      tunableErrors .experimental name := by
  unfold tunableErrors
  split_ifs <;> first | rfl | contradiction

@[simp]
theorem filter_logLevelErrors (level : String) :
    (logLevelErrors level).filter (fun e => !e.isTunablesDisabled) = logLevelErrors level := by
  rw [List.filter_eq_self]
  intro e he
  obtain ⟨_, rfl⟩ := (mem_logLevelErrors_iff level e).1 he
  rfl

theorem validate_experimental (f : PolicyFile) :
    f.validate .experimental =
      (f.validate .standard).filter fun e => !e.isTunablesDisabled := by
  simp only [validate, List.filter_append, List.filter_flatMap, filter_durationErrors,
    filter_nameErrors, filter_tunableErrors, filter_logLevelErrors]

theorem validate_experimental_of_standard {f : PolicyFile} (h : f.validate .standard = []) :
    f.validate .experimental = [] := by
  rw [validate_experimental, h]
  rfl

theorem tunables_of_valid_standard {f : PolicyFile} (h : f.validate .standard = []) :
    f.tunables = [] := by
  have hcontent := ((validate_eq_nil_iff .standard f).1 h).1
  rw [List.eq_nil_iff_forall_not_mem]
  intro name hname
  exact absurd (hcontent.tunables name hname).2 (by decide)

theorem settings_of_no_tunables {f : PolicyFile} (h : f.tunables = []) (edition edition' : Edition) :
    f.settings edition = f.settings edition' := by
  have hnone (e : Edition) : f.tunableSettings e = [] := by
    unfold tunableSettings
    rw [h]
    split_ifs <;> rfl
  rw [settings_eq, settings_eq, hnone, hnone]

theorem apply_of_valid_standard {f : PolicyFile} (h : f.validate .standard = []) (b : Builder) :
    f.apply .standard b = f.apply .experimental b := by
  rw [apply, apply, settings_of_no_tunables (tunables_of_valid_standard h)]

/-- What the standard edition alone has against a file is that it names tunables. -/
theorem validate_standard_of_experimental {f : PolicyFile} (h : f.validate .experimental = []) :
    f.validate .standard = f.tunables.map .tunablesDisabled := by
  obtain ⟨hcontent, hlevel⟩ := (validate_eq_nil_iff .experimental f).1 h
  have htunables : f.tunables.flatMap (tunableErrors .standard) =
      f.tunables.map .tunablesDisabled := by
    rw [List.map_eq_flatMap]
    apply List.flatMap_congr
    intro name hname
    rw [tunableErrors, if_neg (hcontent.tunables name hname).1, if_pos rfl]
  rw [validate_of_durations_names hcontent.durations hcontent.names, htunables,
    (logLevelErrors_eq_nil_iff f.logLevel).2 hlevel, List.append_nil]

/-- Taking the reports about tunables out of what the standard edition finds leaves what the
experimental one finds. So a file that the standard edition accepts is accepted by both, and both
make the same of it; one that only the experimental edition accepts has tunables, none of them
without a name, and each is reported once and nothing else is. -/
theorem editions_agree (f : PolicyFile) :
    f.validate .experimental = (f.validate .standard).filter (fun e => !e.isTunablesDisabled) ∧
    (f.validate .standard = [] →
      f.validate .experimental = [] ∧
      ∀ (b : Builder) (accepts : Executor → Bool),
        let standard := f.apply .standard b
        let experimental := f.apply .experimental b
        standard.error = none ∧ experimental.error = none ∧
        standard.events = experimental.events ∧
        standard.builder.policy = experimental.builder.policy ∧
        standard.builder.policy.summary = experimental.builder.policy.summary ∧
        standard.builder.build accepts = experimental.builder.build accepts) ∧
    (f.validate .experimental = [] → f.validate .standard ≠ [] →
      f.tunables ≠ [] ∧ (∀ name ∈ f.tunables, name ≠ "") ∧
        f.validate .standard = f.tunables.map .tunablesDisabled) := by
  refine ⟨validate_experimental f, ?_, ?_⟩
  · intro h
    refine ⟨validate_experimental_of_standard h, ?_⟩
    intro b accepts standard experimental
    have hsame : standard = experimental := apply_of_valid_standard h b
    have herror : experimental.error = none :=
      apply_error_of_valid (validate_experimental_of_standard h) b
    rw [hsame]
    exact ⟨herror, herror, rfl, rfl, rfl, rfl⟩
  · intro h hrejected
    have hreports := validate_standard_of_experimental h
    have hcontent := ((validate_eq_nil_iff .experimental f).1 h).1
    refine ⟨?_, fun name hname => (hcontent.tunables name hname).1, hreports⟩
    intro hnone
    rw [hreports, hnone] at hrejected
    exact hrejected rfl

/-- A file that both editions accept, and one with a tunable that is named twice. -/
theorem editions_agree_team :
    let plain : PolicyFile := ⟨some 0, none, some true, [], [("task", .string "billing")], "Info"⟩
    let tuned : PolicyFile := ⟨none, none, none, ["fast", "fast"], [], "info"⟩
    let b := Builder.ofHost ⟨"worker", 7, "Linux", "6.1.0", "#1 SMP"⟩
    (plain.apply .standard b).events = (plain.apply .experimental b).events ∧
      ((plain.apply .standard b).builder.build fun _ => true) =
        ((plain.apply .experimental b).builder.build fun _ => true) ∧
      tuned.validate .standard = [.tunablesDisabled "fast", .tunablesDisabled "fast"] := by
  intro plain tuned b
  have hplain : plain.validate .standard = [] := by decide +kernel
  have htuned : tuned.validate .experimental = [] := by decide +kernel
  have hrejected : tuned.validate .standard ≠ [] := by decide +kernel
  obtain ⟨-, -, hevents, -, -, hbuild⟩ :=
    ((editions_agree plain).2.1 hplain).2 b fun _ => true
  exact ⟨hevents, hbuild, ((editions_agree tuned).2.2 htuned hrejected).2.2⟩

end BrokerPolicy.PolicyFile
