import BrokerPolicy.PolicyFile.Application
import BrokerPolicy.Proofs.Property.Key
import Mathlib.Data.List.TakeWhile

set_option autoImplicit false

/-!
What each operation of a builder does to its policy. One setting writes one place of it or is
refused by its name, several are made up to the first refusal, and a handoff leaves it alone.
-/

namespace BrokerPolicy

def Setting.refusal? : Setting → Option PolicyError
  | .property name _ => Property.refusal? name
  | _ => none

/-- The settings that go through, said without the check. -/
def Setting.Accepted : Setting → Prop
  | .property name _ => Property.Acceptable name
  | _ => True

instance (s : Setting) : Decidable s.Accepted :=
  match s with
  | .property name _ => inferInstanceAs (Decidable (Property.Acceptable name))
  | .resource _ | .metrics _ | .onError _ | .onSuccess _ | .onHung _ | .timeout _ | .threshold _
  | .consumerTracer _ | .producerTracer _ | .shuffle _ | .tunable _ | .fieldEncoding _ =>
    .isTrue trivial

def Policy.write (p : Policy) : Setting → Policy
  | .resource e => { p with resource := .borrowed e }
  | .metrics sink => { p with metrics := sink }
  | .onError c => { p with onError := c }
  | .onSuccess c => { p with onSuccess := c }
  | .onHung c => { p with onHung := c }
  | .property name value =>
    { p with properties := ⟨OrderedTable.insert name value p.properties.table⟩ }
  | .timeout d => { p with timeout := d }
  | .threshold d => { p with threshold := d }
  | .consumerTracer t => { p with consumerTracer := some t }
  | .producerTracer t => { p with producerTracer := some t }
  | .shuffle x => { p with shuffle := some x }
  | .tunable name => { p with tunables := OrderedTable.insertName name p.tunables }
  | .fieldEncoding _ => p

theorem Setting.refusal?_eq_none_iff (s : Setting) : s.refusal? = none ↔ s.Accepted := by
  cases s with
  | property name value => exact Property.refusal?_eq_none_iff name
  | _ => exact iff_of_true rfl trivial

namespace Builder

theorem set_of_refusal {s : Setting} {e : PolicyError} (h : s.refusal? = some e) (b : Builder) :
    (b.set s).error = some e ∧ (b.set s).builder = b := by
  cases s with
  | property name value =>
    cases hc : Property.checkName name with
    | error e' =>
      have he : e' = e := by simpa [Setting.refusal?, Property.refusal?, hc] using h
      simp [set, setProperty, ClientProperties.set, hc, he]
    | ok c => simp [Setting.refusal?, Property.refusal?, hc] at h
  | _ => exact absurd h (by simp [Setting.refusal?])

theorem set_of_accepted {s : Setting} (h : s.Accepted) (b : Builder) :
    (b.set s).error = none ∧ (b.set s).builder = ⟨b.policy.write s⟩ := by
  cases s with
  | property name value =>
    have hc := Property.checkName_of_acceptable h
    simp [set, setProperty, ClientProperties.set, hc, Policy.write]
  | _ => exact ⟨rfl, rfl⟩

theorem set_policy (b : Builder) (s : Setting) :
    (b.set s).builder.policy = (if s.Accepted then [s] else []).foldl Policy.write b.policy := by
  by_cases ha : s.Accepted
  · rw [if_pos ha, (set_of_accepted ha b).2]
    rfl
  · cases h : s.refusal? with
    | none => exact absurd (s.refusal?_eq_none_iff.1 h) ha
    | some e =>
      rw [if_neg ha, (set_of_refusal h b).2]
      rfl

theorem setAll_cons_of_refusal {s : Setting} {e : PolicyError} (h : s.refusal? = some e)
    (b : Builder) (rest : List Setting) :
    (b.setAll (s :: rest)).error = some e ∧ (b.setAll (s :: rest)).builder = b := by
  obtain ⟨herror, hbuilder⟩ := set_of_refusal h b
  rw [setAll, herror]
  exact ⟨herror, hbuilder⟩

theorem setAll_cons_of_accepted {s : Setting} (h : s.Accepted) (b : Builder)
    (rest : List Setting) :
    (b.setAll (s :: rest)).error = (setAll ⟨b.policy.write s⟩ rest).error ∧
      (b.setAll (s :: rest)).builder = (setAll ⟨b.policy.write s⟩ rest).builder := by
  obtain ⟨herror, hbuilder⟩ := set_of_accepted h b
  rw [setAll, herror, hbuilder]
  exact ⟨rfl, rfl⟩

theorem setAll_error (b : Builder) (ss : List Setting) :
    (b.setAll ss).error = ss.findSome? Setting.refusal? := by
  induction ss generalizing b with
  | nil => rfl
  | cons s rest ih =>
    cases h : s.refusal? with
    | some e => rw [(setAll_cons_of_refusal h b rest).1, List.findSome?_cons, h]
    | none =>
      have ha := s.refusal?_eq_none_iff.1 h
      rw [(setAll_cons_of_accepted ha b rest).1, ih, List.findSome?_cons, h]

theorem setAll_policy (b : Builder) (ss : List Setting) :
    (b.setAll ss).builder.policy =
      (ss.takeWhile fun s => s.Accepted).foldl Policy.write b.policy := by
  induction ss generalizing b with
  | nil => rfl
  | cons s rest ih =>
    by_cases ha : s.Accepted
    · rw [(setAll_cons_of_accepted ha b rest).2, ih, List.takeWhile_cons_of_pos (by simpa using ha)]
      rfl
    · cases h : s.refusal? with
      | none => exact absurd (s.refusal?_eq_none_iff.1 h) ha
      | some e =>
        rw [(setAll_cons_of_refusal h b rest).2,
          List.takeWhile_cons_of_neg (by simpa using ha)]
        rfl

theorem build_fst (accepts : Executor → Bool) (b : Builder) :
    (b.build accepts).1 =
      if b.policy.resource.executor?.all accepts then .ok b.policy
      else .error .executorUnavailable := by
  dsimp only [build]
  split_ifs <;> rfl

end Builder

theorem Policy.write_resource {s : Setting} (h : ∀ e, s ≠ .resource e) (p : Policy) :
    (p.write s).resource = p.resource := by
  cases s with
  | resource e => exact absurd rfl (h e)
  | _ => rfl

theorem Policy.foldl_write_resource {ss : List Setting} (h : ∀ s ∈ ss, ∀ e, s ≠ .resource e)
    (p : Policy) : (ss.foldl Policy.write p).resource = p.resource := by
  induction ss generalizing p with
  | nil => rfl
  | cons s rest ih =>
    have hrest := ih (fun t ht => h t (List.mem_cons_of_mem s ht)) (p.write s)
    rw [List.foldl_cons, hrest, Policy.write_resource (h s List.mem_cons_self)]

namespace PolicyFile

theorem findSome?_refusal?_of_accepted {ss : List Setting} (h : ∀ s ∈ ss, s.Accepted) :
    ss.findSome? Setting.refusal? = none :=
  List.findSome?_eq_none_iff.2 fun s hs => s.refusal?_eq_none_iff.2 (h s hs)

def leadingSettings (f : PolicyFile) : List Setting :=
  (f.timeoutSeconds.map fun s => Setting.timeout (Duration.ofSeconds s)).toList ++
    (f.thresholdSeconds.map fun s => Setting.threshold (some (Duration.ofSeconds s))).toList ++
    (f.shuffle.map Setting.shuffle).toList

def propertySettings (f : PolicyFile) : List Setting :=
  f.properties.map fun e => Setting.property e.1 e.2

def tunableSettings (edition : Edition) (f : PolicyFile) : List Setting :=
  if edition = .experimental then f.tunables.map Setting.tunable else []

theorem settings_eq (edition : Edition) (f : PolicyFile) :
    f.settings edition =
      f.leadingSettings ++ f.propertySettings ++ f.tunableSettings edition := rfl

theorem leadingSettings_accepted (f : PolicyFile) : ∀ s ∈ f.leadingSettings, s.Accepted := by
  intro s hs
  simp only [leadingSettings, List.mem_append, Option.mem_toList, Option.map_eq_some_iff] at hs
  rcases hs with (⟨_, _, rfl⟩ | ⟨_, _, rfl⟩) | ⟨_, _, rfl⟩ <;> trivial

theorem tunableSettings_accepted (edition : Edition) (f : PolicyFile) :
    ∀ s ∈ f.tunableSettings edition, s.Accepted := by
  intro s hs
  unfold tunableSettings at hs
  split_ifs at hs with he
  · obtain ⟨name, _, rfl⟩ := List.mem_map.1 hs
    trivial
  · exact absurd hs (by simp)

theorem settings_refusal? (edition : Edition) (f : PolicyFile) :
    (f.settings edition).findSome? Setting.refusal? =
      (OrderedTable.names f.properties).findSome? Property.refusal? := by
  have hproperties : f.propertySettings.findSome? Setting.refusal? =
      (OrderedTable.names f.properties).findSome? Property.refusal? := by
    rw [propertySettings, OrderedTable.names, List.findSome?_map, List.findSome?_map]
    rfl
  rw [settings_eq, List.findSome?_append, List.findSome?_append, hproperties,
    findSome?_refusal?_of_accepted f.leadingSettings_accepted,
    findSome?_refusal?_of_accepted (f.tunableSettings_accepted edition), Option.none_or,
    Option.or_none]

theorem apply_error (edition : Edition) (f : PolicyFile) (b : Builder) :
    (f.apply edition b).error =
      (OrderedTable.names f.properties).findSome? Property.refusal? := by
  rw [apply, Builder.setAll_error, settings_refusal?]

/-- What a file comes to, told from its fields: the single values that it gives, its properties up
to the first name that may not be set, and its tunables where the edition knows them and every name
may be set. -/
def writes (edition : Edition) (f : PolicyFile) : List Setting :=
  f.leadingSettings ++
    (f.properties.takeWhile fun e => Property.Acceptable e.1).map
      (fun e => Setting.property e.1 e.2) ++
    (if edition = .experimental ∧ ∀ name ∈ f.properties.names, Property.Acceptable name then
      f.tunables.map Setting.tunable
    else [])

/-- Tunables come after the properties, so a refused name keeps them all out. -/
theorem takeWhile_settings (edition : Edition) (f : PolicyFile) :
    ((f.settings edition).takeWhile fun s => s.Accepted) = f.writes edition := by
  have hleading : ∀ s ∈ f.leadingSettings, decide s.Accepted = true := fun s hs =>
    decide_eq_true (f.leadingSettings_accepted s hs)
  have hproperties : (f.propertySettings.takeWhile fun s => s.Accepted) =
      (f.properties.takeWhile fun e => Property.Acceptable e.1).map
        (fun e => Setting.property e.1 e.2) := List.takeWhile_map
  rw [settings_eq, writes, List.append_assoc, List.append_assoc,
    List.takeWhile_append_of_pos hleading]
  congr 1
  -- tunables are reached only if no property stops the settings before
  by_cases h : ∀ name ∈ f.properties.names, Property.Acceptable name
  · have hentries : ∀ s ∈ f.propertySettings, decide s.Accepted = true := by
      intro s hs
      obtain ⟨e, he, rfl⟩ := List.mem_map.1 hs
      exact decide_eq_true (h e.1 (List.mem_map_of_mem he))
    have htunables : ∀ s ∈ f.tunableSettings edition, decide s.Accepted = true := fun s hs =>
      decide_eq_true (f.tunableSettings_accepted edition s hs)
    rw [List.takeWhile_append_of_pos hentries, List.takeWhile_eq_self_iff.2 htunables,
      ← hproperties, List.takeWhile_eq_self_iff.2 hentries, if_congr (and_iff_left h) rfl rfl]
    rfl
  · have hstops : ¬ (f.propertySettings.takeWhile fun s => s.Accepted).length =
        f.propertySettings.length := by
      intro hlength
      have hself := (List.takeWhile_prefix _).eq_of_length hlength
      apply h
      intro name hname
      obtain ⟨e, he, rfl⟩ := List.mem_map.1 hname
      have haccepted := List.takeWhile_eq_self_iff.1 hself _ (List.mem_map_of_mem he)
      exact of_decide_eq_true haccepted
    rw [List.takeWhile_append, if_neg hstops, hproperties, if_neg (fun hall => h hall.2),
      List.append_nil]

theorem apply_policy (edition : Edition) (f : PolicyFile) (b : Builder) :
    (f.apply edition b).builder.policy = (f.writes edition).foldl Policy.write b.policy := by
  rw [apply, Builder.setAll_policy, takeWhile_settings]

theorem writes_accepted (edition : Edition) (f : PolicyFile) :
    ∀ s ∈ f.writes edition, s.Accepted := by
  intro s hs
  rw [← takeWhile_settings] at hs
  simpa using List.mem_takeWhile_imp hs

theorem apply_resource (edition : Edition) (f : PolicyFile) (b : Builder) :
    (f.apply edition b).builder.policy.resource = b.policy.resource := by
  rw [apply_policy]
  apply Policy.foldl_write_resource
  rintro s hs e rfl
  simp [writes, leadingSettings] at hs

end PolicyFile

end BrokerPolicy
