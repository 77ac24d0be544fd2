import BrokerPolicy.Proofs.PolicyFile.Application
import BrokerPolicy.Proofs.Text.ByteOrder

set_option autoImplicit false

/-!
The whole effect of applying a file, also of one that is refused half-way. Properties are written in
the order of their names, so a refusal parts the names of a file into those before the refused one,
which are written, and the others, which are not.
-/

namespace BrokerPolicy

namespace PolicyFile

/-- The first name of a file that may not be set, by the order of the bytes. -/
structure FirstRefused (f : PolicyFile) (name : String) : Prop where
  given : name ∈ f.properties.names
  refused : ¬ Property.Acceptable name
  first : ∀ m ∈ f.properties.names, Text.bytes m < Text.bytes name → Property.Acceptable m

/-- The places of one value after a file: those that it gives are replaced, and those that no file
can give are kept. What is in order stays so. -/
structure SettlesPlaces (f : PolicyFile) (p q : Policy) : Prop where
  timeout : q.timeout = (f.timeoutSeconds.map Duration.ofSeconds).getD p.timeout
  threshold : q.threshold =
    (f.thresholdSeconds.map fun s => some (Duration.ofSeconds s)).getD p.threshold
  shuffle : q.shuffle = f.shuffle.or p.shuffle
  resource : q.resource = p.resource
  metrics : q.metrics = p.metrics
  onError : q.onError = p.onError
  onSuccess : q.onSuccess = p.onSuccess
  onHung : q.onHung = p.onHung
  consumerTracer : q.consumerTracer = p.consumerTracer
  producerTracer : q.producerTracer = p.producerTracer
  sorted : p.properties.table.Sorted → q.properties.table.Sorted
  ascending : p.tunables.Pairwise (· < ·) → q.tunables.Pairwise (· < ·)

structure Completes (edition : Edition) (f : PolicyFile) (p q : Policy) : Prop where
  properties : ∀ m, q.properties.get? m = (f.properties.find? m).or (p.properties.get? m)
  standard : edition = .standard → q.tunables = p.tunables
  experimental : edition = .experimental →
    ∀ m, m ∈ q.tunables ↔ m ∈ p.tunables ∨ m ∈ f.tunables

structure StopsAt (name : String) (f : PolicyFile) (p q : Policy) : Prop where
  before : ∀ m, Text.bytes m < Text.bytes name →
    q.properties.get? m = (f.properties.find? m).or (p.properties.get? m)
  after : ∀ m, ¬ Text.bytes m < Text.bytes name → q.properties.get? m = p.properties.get? m
  tunables : q.tunables = p.tunables

theorem accepted_properties_sorted {f : PolicyFile} (hf : f.properties.Sorted) :
    f.accepted.properties.Sorted := by
  unfold accepted
  split_ifs
  · exact hf
  · exact hf.sublist ((List.takeWhile_sublist _).map Prod.fst)

theorem get?_apply {f : PolicyFile} (hf : f.properties.Sorted) (edition : Edition) (b : Builder)
    (m : String) :
    (f.apply edition b).builder.policy.properties.get? m =
      (f.accepted.properties.find? m).or (b.policy.properties.get? m) := by
  have hread := read_apply edition f b (.property m)
  rw [given, OrderedTable.lastOf_of_sorted (accepted_properties_sorted hf)] at hread
  change (f.apply edition b).builder.policy.properties.get? m = _ at hread
  rw [hread]
  cases f.accepted.properties.find? m <;> rfl

theorem settlesPlaces_apply (edition : Edition) (f : PolicyFile) (b : Builder) :
    SettlesPlaces f b.policy (f.apply edition b).builder.policy where
  timeout := by
    rw [← f.accepted_timeoutSeconds]
    exact read_apply edition f b .timeout
  threshold := by
    rw [← f.accepted_thresholdSeconds]
    exact read_apply edition f b .threshold
  shuffle := by
    rw [← f.accepted_shuffle]
    have hread := read_apply edition f b .shuffle
    change (f.apply edition b).builder.policy.shuffle = _ at hread
    rw [hread, given]
    cases f.accepted.shuffle <;> rfl
  resource := read_apply edition f b .resource
  metrics := read_apply edition f b .metrics
  onError := read_apply edition f b .onError
  onSuccess := read_apply edition f b .onSuccess
  onHung := read_apply edition f b .onHung
  consumerTracer := read_apply edition f b .consumerTracer
  producerTracer := read_apply edition f b .producerTracer
  sorted := by
    intro hp
    rw [apply_policy_eq, foldl_write_table]
    exact OrderedTable.sorted_insertAll hp _
  ascending := by
    intro hp
    rw [tunables_apply]
    exact OrderedTable.pairwise_insertNames hp _

theorem completes_apply {f : PolicyFile} (hf : f.properties.Sorted)
    (hnames : ∀ name ∈ f.properties.names, Property.Acceptable name) (edition : Edition)
    (b : Builder) : Completes edition f b.policy (f.apply edition b).builder.policy := by
  have htunables := tunables_apply edition f b
  rw [accepted_of_names hnames] at htunables
  constructor
  · intro m
    rw [get?_apply hf, accepted_of_names hnames]
  · rintro rfl
    exact htunables
  · rintro rfl m
    rw [htunables, OrderedTable.mem_insertNames, if_pos rfl]

theorem exists_firstRefused {f : PolicyFile} (hf : f.properties.Sorted) {name : String}
    (hname : name ∈ f.properties.names) (hrefused : ¬ Property.Acceptable name) :
    ∃ n, FirstRefused f n := by
  have hfound : (f.properties.names.find? fun n => ¬ Property.Acceptable n).isSome := by
    rw [List.find?_isSome]
    exact ⟨name, hname, decide_eq_true hrefused⟩
  obtain ⟨n, hn⟩ := Option.isSome_iff_exists.1 hfound
  obtain ⟨hstop, before, after, hsplit, hbefore⟩ := List.find?_eq_some_iff_append.1 hn
  refine ⟨n, by simp [hsplit], of_decide_eq_true hstop, ?_⟩
  intro m hm hlt
  have hsorted : (before ++ n :: after).Pairwise (· < ·) := hsplit ▸ hf
  have hmbefore : m ∈ before := by
    rw [hsplit] at hm
    rcases List.mem_append.1 hm with hm | hm
    · exact hm
    · have hle : n ≤ m := by
        rcases List.mem_cons.1 hm with rfl | hm
        · exact le_refl _
        · exact le_of_lt (List.rel_of_pairwise_cons (List.pairwise_append.1 hsorted).2.1 hm)
      exact absurd ((Text.lt_iff_bytes_lt m n).2 hlt) (not_lt_of_ge hle)
  simpa using hbefore m hmbefore

section

variable {f : PolicyFile} (hf : f.properties.Sorted) {name : String} (h : FirstRefused f name)
include hf h

theorem FirstRefused.split :
    ∃ before value after, f.properties = before ++ (name, value) :: after ∧
      ∀ e ∈ before, Property.Acceptable e.1 := by
  obtain ⟨e, he, rfl⟩ := List.mem_map.1 h.given
  obtain ⟨before, after, hsplit⟩ := List.append_of_mem he
  refine ⟨before, e.2, after, hsplit, ?_⟩
  intro d hd
  have hmem : d.1 ∈ f.properties.names := by
    rw [hsplit]
    exact List.mem_map_of_mem (List.mem_append_left _ hd)
  have hlt : d.1 < e.1 := by
    rw [hsplit, OrderedTable.Sorted, OrderedTable.names, List.map_append] at hf
    exact (List.pairwise_append.1 hf).2.2 d.1 (List.mem_map_of_mem hd) e.1 List.mem_cons_self
  exact h.first d.1 hmem ((Text.lt_iff_bytes_lt _ _).1 hlt)

theorem FirstRefused.error (edition : Edition) (b : Builder) :
    (f.apply edition b).error = some (Property.fault name) := by
  obtain ⟨before, value, after, hsplit, hbefore⟩ := h.split hf
  have hnone : (before.map Prod.fst).findSome? Property.refusal? = none := by
    rw [List.findSome?_eq_none_iff]
    intro n hn
    obtain ⟨e, he, rfl⟩ := List.mem_map.1 hn
    exact (Property.refusal?_eq_none_iff e.1).2 (hbefore e he)
  rw [apply_error, hsplit, OrderedTable.names, List.map_append, List.findSome?_append, hnone,
    Option.none_or, List.map_cons, List.findSome?_cons, Property.refusal?_eq_fault h.refused]

theorem FirstRefused.find?_accepted (m : String) :
    f.accepted.properties.find? m = if m < name then f.properties.find? m else none := by
  obtain ⟨before, value, after, hsplit, hbefore⟩ := h.split hf
  have hproperties : f.accepted.properties = before := by
    have hstops : ¬ ∀ e ∈ f.properties, Property.Acceptable e.1 := by
      intro hall
      exact h.refused (hall (name, value) (by simp [hsplit]))
    have hpass : ∀ e ∈ before, decide (Property.Acceptable e.1) = true := fun e he =>
      decide_eq_true (hbefore e he)
    rw [accepted, if_neg hstops]
    change f.properties.takeWhile _ = before
    rw [hsplit, List.takeWhile_append_of_pos hpass,
      List.takeWhile_cons_of_neg (by simpa using h.refused), List.append_nil]
  rw [hproperties, hsplit]
  exact OrderedTable.find?_before (hsplit ▸ hf) m

theorem FirstRefused.stopsAt (edition : Edition) (b : Builder) :
    StopsAt name f b.policy (f.apply edition b).builder.policy := by
  have hproperties := h.find?_accepted hf
  have htunables : f.accepted.tunables = [] :=
    accepted_tunables_of_refused fun hall => h.refused (hall name h.given)
  constructor
  · intro m hm
    rw [get?_apply hf, hproperties, if_pos ((Text.lt_iff_bytes_lt m name).2 hm)]
  · intro m hm
    rw [get?_apply hf, hproperties, if_neg (mt (Text.lt_iff_bytes_lt m name).1 hm), Option.none_or]
  · rw [tunables_apply, htunables, ite_self]
    rfl

end

/-- Applying a file replaces the durations and the choice of shuffling that it gives, whether it is
refused or not, and keeps what no file can give. Without a name that may not be set, it writes all
its properties and, where they are known, adds its tunables. Otherwise it fails with the error of
the first such name, and has written exactly the properties before it. Its log level is not for a
builder. -/
theorem apply_writes_up_to_refusal (edition : Edition) (f : PolicyFile) (hf : f.properties.Sorted)
    (b : Builder) :
    SettlesPlaces f b.policy (f.apply edition b).builder.policy ∧
    ((∀ name ∈ f.properties.names, Property.Acceptable name) →
      (f.apply edition b).error = none ∧
      Completes edition f b.policy (f.apply edition b).builder.policy) ∧
    ((∃ name ∈ f.properties.names, ¬ Property.Acceptable name) → ∃ name, FirstRefused f name) ∧
    (∀ name, FirstRefused f name →
      Property.checkName name = .error (Property.fault name) ∧
      (f.apply edition b).error = some (Property.fault name) ∧
      StopsAt name f b.policy (f.apply edition b).builder.policy) ∧
    ∀ level, ({ f with logLevel := level } : PolicyFile).apply edition b = f.apply edition b := by
  refine ⟨settlesPlaces_apply edition f b, ?_, ?_, ?_, ?_⟩
  · intro hnames
    exact ⟨apply_error_of_names hnames edition b, completes_apply hf hnames edition b⟩
  · rintro ⟨name, hname, hrefused⟩
    exact exists_firstRefused hf hname hrefused
  · intro name h
    exact ⟨Property.checkName_eq_error h.refused, h.error hf edition b, h.stopsAt hf edition b⟩
  · exact fun level => rfl

/-- Of the three properties the first is written, the second is refused, and the third is not
reached. -/
theorem apply_writes_up_to_refusal_team :
    let f : PolicyFile := ⟨some 5, none, some true, ["fast"],
      [("os", .string "b"), ("product", .bool true), ("team", .string "b")], "debug"⟩
    let b : Builder := ⟨Policy.ofProperties ⟨[("os", .string "a"), ("team", .string "a")]⟩⟩
    let q := (f.apply .experimental b).builder.policy
    (f.apply .experimental b).error = some (.reservedProperty "product") ∧
      q.timeout = Duration.ofSeconds 5 ∧ q.threshold = none ∧ q.shuffle = some true ∧
      q.properties.get? "os" = some (.string "b") ∧
      q.properties.get? "team" = some (.string "a") ∧ q.tunables = [] := by
  intro f b q
  have hf : f.properties.Sorted := by unfold OrderedTable.Sorted OrderedTable.names; decide
  obtain ⟨hplaces, -, -, hstops, -⟩ := apply_writes_up_to_refusal .experimental f hf b
  have hfirst : FirstRefused f "product" := ⟨by decide, by decide, by decide⟩
  obtain ⟨-, herror, hstopped⟩ := hstops "product" hfirst
  exact ⟨herror, hplaces.timeout, hplaces.threshold, hplaces.shuffle,
    hstopped.before "os" (by decide), hstopped.after "team" (by decide), hstopped.tunables⟩

end PolicyFile

end BrokerPolicy
