import BrokerPolicy.Policy.Summary
import BrokerPolicy.Proofs.Policy.Run
import BrokerPolicy.Proofs.PolicyFile.Application
import BrokerPolicy.Proofs.PolicyFile.Validation
import BrokerPolicy.Proofs.Text.ByteOrder

set_option autoImplicit false

/-!
Tunables over whole runs. A call adds names or does nothing to them, so after any calls they are the
names that were added, whatever the order and however often.
-/

namespace BrokerPolicy

/-- A call that adds a name to the tunables, where they are known: the name is set, or a file that
has it goes through. -/
def Operation.AddsTunable (b : Builder) (name : String) : Operation → Prop
  | .set s => s = .tunable name
  | .apply f => (f.apply .experimental b).error = none ∧ name ∈ f.tunables
  | .snapshot => False
  | .build _ => False

theorem PolicyFile.mem_accepted_tunables_iff (edition : Edition) (f : PolicyFile) (b : Builder)
    (name : String) :
    name ∈ f.accepted.tunables ↔ (f.apply edition b).error = none ∧ name ∈ f.tunables := by
  rw [apply_error_eq_none_iff]
  by_cases h : ∀ name ∈ f.properties.names, Property.Acceptable name
  · rw [accepted_of_names h]
    exact (and_iff_right h).symm
  · rw [accepted_tunables_of_refused h]
    exact iff_of_false List.not_mem_nil fun hmem => h hmem.1

theorem PolicyFile.tunables_apply_of_error {edition : Edition} {f : PolicyFile} {b : Builder}
    {e : PolicyError} (h : (f.apply edition b).error = some e) :
    (f.apply edition b).builder.policy.tunables = b.policy.tunables := by
  have hrefused : ¬ ∀ name ∈ f.properties.names, Property.Acceptable name := by
    rw [← apply_error_eq_none_iff edition f b, h]
    simp
  rw [tunables_apply, accepted_tunables_of_refused hrefused, ite_self]
  rfl

namespace Operation

theorem tunable_mem_writes_iff (edition : Edition) (b : Builder) (name : String)
    (op : Operation) :
    Setting.tunable name ∈ op.writes edition ↔
      edition = .experimental ∧ op.AddsTunable b name := by
  cases op with
  | set s =>
    rw [writes, List.mem_ite_nil_right, List.mem_singleton]
    constructor
    · rintro ⟨⟨havailable, -⟩, rfl⟩
      exact ⟨by simpa [Setting.availableIn] using havailable, rfl⟩
    · rintro ⟨rfl, rfl⟩
      exact ⟨⟨rfl, trivial⟩, rfl⟩
  | apply f =>
    rw [writes, PolicyFile.writes_eq, ← mem_filterMap_tunable?,
      PolicyFile.settings_tunables, List.mem_ite_nil_right]
    exact and_congr_right fun _ => PolicyFile.mem_accepted_tunables_iff .experimental f b name
  | snapshot => exact iff_of_false List.not_mem_nil And.right
  | build accepts => exact iff_of_false List.not_mem_nil And.right

theorem AddsTunable.eq_set_or_apply {b : Builder} {name : String} {op : Operation}
    (h : op.AddsTunable b name) :
    op = .set (.tunable name) ∨ ∃ f, op = .apply f ∧ name ∈ f.tunables := by
  cases op with
  | set s => exact .inl (congrArg Operation.set h)
  | apply f => exact .inr ⟨f, rfl, h.2⟩
  | snapshot => exact h.elim
  | build accepts => exact h.elim

end Operation

namespace Builder

theorem mem_tunables_perform {name : String} {b : Builder} (h : name ∈ b.policy.tunables)
    (edition : Edition) (op : Operation) :
    name ∈ (b.perform edition op).1.policy.tunables := by
  rw [perform_policy, foldl_write_tunables, OrderedTable.mem_insertNames]
  exact .inl h

/-- The names that the calls of a run add, each call judged by the builder that it finds. -/
def AddedBy (start : Builder) (ops : List Operation) (name : String) : Prop :=
  ∃ before op later, ops = before ++ op :: later ∧
    op.AddsTunable (start.run .experimental before).builder name

theorem tunable_mem_history_iff (edition : Edition) (start : Builder) (ops : List Operation)
    (name : String) :
    Setting.tunable name ∈ history edition ops ↔
      edition = .experimental ∧ start.AddedBy ops name := by
  rw [history, List.mem_flatMap]
  constructor
  · rintro ⟨op, hop, hwrites⟩
    obtain ⟨before, later, rfl⟩ := List.append_of_mem hop
    obtain ⟨hedition, hadds⟩ := (op.tunable_mem_writes_iff edition _ name).1 hwrites
    exact ⟨hedition, before, op, later, rfl, hadds⟩
  · rintro ⟨hedition, before, op, later, rfl, hadds⟩
    exact ⟨op, by simp, (op.tunable_mem_writes_iff edition _ name).2 ⟨hedition, hadds⟩⟩

theorem mem_tunables_run_iff (edition : Edition) (start : Builder) (ops : List Operation)
    (name : String) :
    name ∈ (start.run edition ops).builder.policy.tunables ↔
      name ∈ start.policy.tunables ∨ edition = .experimental ∧ start.AddedBy ops name := by
  rw [run_policy, foldl_write_tunables, OrderedTable.mem_insertNames, mem_filterMap_tunable?,
    tunable_mem_history_iff]

theorem pairwise_tunables_run (edition : Edition) {start : Builder}
    (h : start.policy.tunables.Pairwise (· < ·)) (ops : List Operation) :
    (start.run edition ops).builder.policy.tunables.Pairwise (· < ·) := by
  rw [run_policy, foldl_write_tunables]
  exact OrderedTable.pairwise_insertNames h _

/-- Two runs with the same calls that can add tunables, up to their order and number. -/
structure SameAdditions (ops ops' : List Operation) : Prop where
  set : ∀ name, .set (.tunable name) ∈ ops ↔ .set (.tunable name) ∈ ops'
  apply : ∀ f, .apply f ∈ ops ↔ .apply f ∈ ops'

theorem SameAdditions.mem_of_addsTunable {ops ops' : List Operation} (h : SameAdditions ops ops')
    {b : Builder} {name : String} {op : Operation} (hadds : op.AddsTunable b name) :
    op ∈ ops ↔ op ∈ ops' := by
  rcases hadds.eq_set_or_apply with rfl | ⟨f, rfl, -⟩
  · exact h.set name
  · exact h.apply f

theorem SameAdditions.tunables_eq {ops ops' : List Operation} (h : SameAdditions ops ops')
    (edition : Edition) (start : Builder) :
    (start.run edition ops).builder.policy.tunables =
      (start.run edition ops').builder.policy.tunables := by
  rw [run_policy, run_policy, foldl_write_tunables, foldl_write_tunables]
  apply OrderedTable.insertNames_congr
  intro name
  rw [mem_filterMap_tunable?, mem_filterMap_tunable?, history, history, List.mem_flatMap,
    List.mem_flatMap]
  refine exists_congr fun op => and_congr_left fun hwrites => ?_
  exact h.mem_of_addsTunable ((op.tunable_mem_writes_iff edition start name).1 hwrites).2

/-- An unnamed tunable can come from its setter or from a file that does not validate. -/
theorem not_addedBy_empty {edition : Edition} {ops : List Operation}
    (hset : .set (.tunable "") ∉ ops)
    (hvalid : ∀ f, .apply f ∈ ops → f.validate edition = []) (start : Builder) :
    ¬ start.AddedBy ops "" := by
  rintro ⟨before, op, later, rfl, hadds⟩
  rcases hadds.eq_set_or_apply with rfl | ⟨f, rfl, hname⟩
  · exact hset (by simp)
  · have hsound := ((PolicyFile.validate_eq_nil_iff edition f).1 (hvalid f (by simp))).1
    exact (hsound.tunables "" hname).1 rfl

/-- Where tunables are not known, no run ever gets one. Where they are, a run has exactly those that
its calls have added: the names that are set, and those of the files that go through. No call takes
one away, a refused file adds none, and order and repetition do not matter. A summary lists each
once, by the order of the bytes. Unnamed ones come only from the setter or from files that do not
validate. -/
theorem tunables_only_grow (properties : ClientProperties) (ops : List Operation) :
    let start : Builder := ⟨Policy.ofProperties properties⟩
    let q := (start.run .experimental ops).builder.snapshot
    (start.run .standard ops).builder.policy.tunables = [] ∧
    (∀ name, name ∈ q.tunables ↔ start.AddedBy ops name) ∧
    (∀ name, q.isTunableSet name = true ↔ start.AddedBy ops name) ∧
    (∀ name, name ∈ q.summary.tunables ↔ start.AddedBy ops name) ∧
    q.summary.tunables.Pairwise (fun m n => Text.bytes m < Text.bytes n) ∧
    (∀ edition i p, (start.run edition ops).obtained[i]? = some (some p) →
      p = (start.run edition (ops.take i)).builder.policy) ∧
    (∀ ops', SameAdditions ops ops' →
      (start.run .experimental ops').builder.policy.tunables = q.tunables) ∧
    (∀ edition (b : Builder) op, ∀ name ∈ b.policy.tunables,
      name ∈ (b.perform edition op).1.policy.tunables) ∧
    (∀ edition (b : Builder) (f : PolicyFile) e, (f.apply edition b).error = some e →
      (f.apply edition b).builder.policy.tunables = b.policy.tunables) ∧
    ∀ edition, .set (.tunable "") ∉ ops → (∀ f, .apply f ∈ ops → f.validate edition = []) →
      "" ∉ (start.run edition ops).builder.policy.tunables := by
  intro start q
  -- there are none at the start, so all there are later have been added
  have hnone : start.policy.tunables = [] := rfl
  have hmem (edition : Edition) (name : String) :
      name ∈ (start.run edition ops).builder.policy.tunables ↔
        edition = .experimental ∧ start.AddedBy ops name := by
    rw [mem_tunables_run_iff, hnone]
    exact or_iff_right List.not_mem_nil
  have hq (name : String) : name ∈ q.tunables ↔ start.AddedBy ops name :=
    (hmem .experimental name).trans (and_iff_right rfl)
  have hpairwise : q.tunables.Pairwise (· < ·) :=
    pairwise_tunables_run .experimental (hnone ▸ List.Pairwise.nil) ops
  refine ⟨?_, hq, ?_, hq, Text.pairwise_bytes_lt hpairwise, ?_, ?_, ?_, ?_, ?_⟩
  · rw [List.eq_nil_iff_forall_not_mem]
    intro name hname
    exact nomatch ((hmem .standard name).1 hname).1
  · intro name
    rw [Policy.isTunableSet, decide_eq_true_iff]
    exact hq name
  · intro edition i p hp
    rw [eq_foldl_write_of_obtained hp, run_policy]
  · intro ops' hsame
    exact (hsame.tunables_eq .experimental start).symm
  · intro edition b op name hname
    exact mem_tunables_perform hname edition op
  · intro edition b f e herror
    exact PolicyFile.tunables_apply_of_error herror
  · intro edition hset hvalid hname
    exact not_addedBy_empty hset hvalid start ((hmem edition "").1 hname).2

/-- A file that is applied before and after the setter comes to the same as one applied after it. -/
theorem tunables_only_grow_late :
    let f : PolicyFile := ⟨none, none, none, ["fast", "early"], [("team", .int 1)], "info"⟩
    let start : Builder := ⟨Policy.ofProperties ClientProperties.empty⟩
    let q := (start.run .experimental [.set (.tunable "late"), .apply f]).builder.snapshot
    q.isTunableSet "late" = true ∧ "early" ∈ q.summary.tunables ∧ "" ∉ q.tunables ∧
      (start.run .experimental
        [.apply f, .set (.tunable "late"), .apply f]).builder.policy.tunables = q.tunables ∧
      (start.run .standard [.set (.tunable "late"), .apply f]).builder.policy.tunables = [] := by
  intro f start q
  obtain ⟨hstandard, -, hset, hsummary, -, -, hsame, -, -, hnamed⟩ :=
    tunables_only_grow ClientProperties.empty [.set (.tunable "late"), .apply f]
  have hlate : start.AddedBy [.set (.tunable "late"), .apply f] "late" :=
    ⟨[], .set (.tunable "late"), [.apply f], rfl, rfl⟩
  have hearly : start.AddedBy [.set (.tunable "late"), .apply f] "early" :=
    ⟨[.set (.tunable "late")], .apply f, [], rfl, by decide, by decide⟩
  have hvalid : ∀ g, Operation.apply g ∈ [.set (.tunable "late"), .apply f] →
      g.validate .experimental = [] := by
    intro g hg
    obtain rfl : g = f := by simpa using hg
    decide +kernel
  exact ⟨(hset "late").2 hlate, (hsummary "early").2 hearly,
    hnamed .experimental (by simp) hvalid,
    hsame [.apply f, .set (.tunable "late"), .apply f] ⟨by simp, by simp⟩, hstandard⟩

end Builder

end BrokerPolicy
