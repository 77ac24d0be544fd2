import BrokerPolicy.Proofs.Policy.Slot

set_option autoImplicit false

/-!
Runs of calls on one builder. Settings and files write, snapshots and handoffs give out policies.
A policy that is given out holds at each place the last write before it.
-/

namespace BrokerPolicy

/-- A call on a builder. Which executors accept jobs may be different at every handoff. -/
inductive Operation where
  | set (s : Setting)
  | apply (f : PolicyFile)
  | snapshot
  | build (accepts : Executor → Bool)

namespace Builder

def attempt (edition : Edition) (b : Builder) (s : Setting) : Builder :=
  if s.availableIn edition then (b.set s).builder else b

def perform (edition : Edition) (b : Builder) : Operation → Builder × Option Policy
  | .set s => (b.attempt edition s, none)
  | .apply f => ((f.apply edition b).builder, none)
  | .snapshot => (b, some b.snapshot)
  | .build accepts => (b, (b.build accepts).1.toOption)

structure Run where
  builder : Builder
  obtained : List (Option Policy)

def run (edition : Edition) (b : Builder) : List Operation → Run
  | [] => ⟨b, []⟩
  | op :: ops =>
    let (b', p) := b.perform edition op
    let later := run edition b' ops
    ⟨later.builder, p :: later.obtained⟩

end Builder

/-- The writes of a call: a setting that goes through, and what the fields of a file come to. -/
def Operation.writes (edition : Edition) : Operation → List Setting
  | .set s => if s.availableIn edition ∧ s.Accepted then [s] else []
  | .apply f => f.writes edition
  | .snapshot => []
  | .build _ => []

def history (edition : Edition) (ops : List Operation) : List Setting :=
  ops.flatMap (Operation.writes edition)

namespace Builder

theorem attempt_policy (edition : Edition) (b : Builder) (s : Setting) :
    (b.attempt edition s).policy =
      if s.availableIn edition ∧ s.Accepted then b.policy.write s else b.policy := by
  rw [attempt, apply_ite Builder.policy, set_policy, ite_and]
  split_ifs <;> rfl

/-- A call changes the policy by its writes and in no other way. -/
theorem perform_policy (edition : Edition) (b : Builder) (op : Operation) :
    (b.perform edition op).1.policy = (op.writes edition).foldl Policy.write b.policy := by
  cases op with
  | set s =>
    change (b.attempt edition s).policy = _
    rw [attempt_policy, Operation.writes]
    split_ifs <;> rfl
  | apply f => exact f.apply_policy edition b
  | snapshot => rfl
  | build accepts => rfl

theorem perform_obtained {edition : Edition} {b : Builder} {op : Operation} {p : Policy}
    (h : (b.perform edition op).2 = some p) : p = b.policy := by
  cases op with
  | set s => exact absurd h (by simp [perform])
  | apply f => exact absurd h (by simp [perform])
  | snapshot => exact (Option.some.inj h).symm
  | build accepts =>
    change (b.build accepts).1.toOption = some p at h
    rw [build_fst] at h
    split_ifs at h with haccepts
    · exact (Option.some.inj h).symm
    · exact absurd h (by simp [Except.toOption])

theorem run_append_obtained (edition : Edition) (b : Builder) (ops later : List Operation) :
    (b.run edition (ops ++ later)).obtained =
      (b.run edition ops).obtained ++
        ((b.run edition ops).builder.run edition later).obtained := by
  induction ops generalizing b with
  | nil => rfl
  | cons op ops ih =>
    exact congrArg ((b.perform edition op).2 :: ·) (ih (b.perform edition op).1)

theorem run_obtained_getElem? (edition : Edition) (b : Builder) (ops : List Operation) (i : Nat) :
    (b.run edition ops).obtained[i]? =
      ops[i]?.map fun op => ((b.run edition (ops.take i)).builder.perform edition op).2 := by
  induction ops generalizing b i with
  | nil => simp [run]
  | cons op ops ih =>
    cases i with
    | zero => rfl
    | succ i => exact ih (b.perform edition op).1 i

theorem run_policy (edition : Edition) (b : Builder) (ops : List Operation) :
    (b.run edition ops).builder.policy = (history edition ops).foldl Policy.write b.policy := by
  induction ops generalizing b with
  | nil => rfl
  | cons op ops ih =>
    calc
      (b.run edition (op :: ops)).builder.policy
          = ((b.perform edition op).1.run edition ops).builder.policy := rfl
      _ = (history edition ops).foldl Policy.write (b.perform edition op).1.policy := ih _
      _ = (history edition (op :: ops)).foldl Policy.write b.policy := by
        rw [perform_policy, history, history, List.flatMap_cons, List.foldl_append]

theorem eq_foldl_write_of_obtained {edition : Edition} {b : Builder} {ops : List Operation}
    {i : Nat} {p : Policy} (h : (b.run edition ops).obtained[i]? = some (some p)) :
    p = (history edition (ops.take i)).foldl Policy.write b.policy := by
  rw [run_obtained_getElem?, Option.map_eq_some_iff] at h
  obtain ⟨op, _, hp⟩ := h
  rw [perform_obtained hp, run_policy]

theorem obtained_of_snapshot {edition : Edition} {b : Builder} {ops : List Operation} {i : Nat}
    (h : ops[i]? = some .snapshot) : ∃ p, (b.run edition ops).obtained[i]? = some (some p) := by
  rw [run_obtained_getElem?, h]
  exact ⟨_, rfl⟩

theorem obtained_of_build {edition : Edition} {b : Builder} {ops : List Operation} {i : Nat}
    {accepts : Executor → Bool} (h : ops[i]? = some (.build accepts)) :
    (∃ p, (b.run edition ops).obtained[i]? = some (some p)) ↔
      ((lastWrite .resource (history edition (ops.take i))).getD
        b.policy.resource).executor?.all accepts = true := by
  have hresource := Slot.read_foldl_write .resource (history edition (ops.take i)) b.policy
  rw [← run_policy] at hresource
  change (b.run edition (ops.take i)).builder.policy.resource = _ at hresource
  rw [run_obtained_getElem?, h]
  change (∃ p, some ((b.run edition (ops.take i)).builder.build accepts).1.toOption =
    some (some p)) ↔ _
  rw [build_fst, hresource]
  split_ifs with haccepts
  · exact iff_of_true ⟨_, rfl⟩ haccepts
  · exact iff_of_false (by simp [Except.toOption]) haccepts

/-- Over whole runs, from any start. Every snapshot gives out a policy, and a handoff does unless
the executor lent last refuses. The policy holds at each place the last write before its position,
or else the start value, and its tunables are those of the start with all that were added. Later
calls do not change it, and the last writes determine it. -/
theorem obtained_holds_lastWrite (edition : Edition) (start : Builder) (ops : List Operation)
    (i : Nat) :
    (ops[i]? = some .snapshot → ∃ p, (start.run edition ops).obtained[i]? = some (some p)) ∧
      (∀ accepts, ops[i]? = some (.build accepts) →
        ((∃ p, (start.run edition ops).obtained[i]? = some (some p)) ↔
          ((lastWrite .resource (history edition (ops.take i))).getD
            start.policy.resource).executor?.all accepts = true)) ∧
      ∀ p, (start.run edition ops).obtained[i]? = some (some p) →
        (∀ slot : Slot, slot.read p =
          (lastWrite slot (history edition (ops.take i))).getD (slot.read start.policy)) ∧
        (∀ name, name ∈ p.tunables ↔ name ∈ start.policy.tunables ∨
          Setting.tunable name ∈ history edition (ops.take i)) ∧
        (∀ later, (start.run edition (ops ++ later)).obtained[i]? = some (some p)) ∧
        ∀ ops' i' p', (start.run edition ops').obtained[i']? = some (some p') →
          (∀ slot, lastWrite slot (history edition (ops.take i)) =
            lastWrite slot (history edition (ops'.take i'))) → p = p' := by
  refine ⟨obtained_of_snapshot, fun accepts => obtained_of_build, ?_⟩
  intro p h
  have hp := eq_foldl_write_of_obtained h
  refine ⟨?_, ?_, ?_, ?_⟩
  · intro slot
    rw [hp, Slot.read_foldl_write]
  · intro name
    rw [hp, foldl_write_tunables, OrderedTable.mem_insertNames, mem_filterMap_tunable?]
  · intro later
    have hlt : i < (start.run edition ops).obtained.length :=
      (List.getElem?_eq_some_iff.1 h).choose
    rw [run_append_obtained, List.getElem?_append_left hlt, h]
  · intro ops' i' p' h' hlast
    rw [hp, eq_foldl_write_of_obtained h']
    exact foldl_write_congr hlast start.policy

/-- A file that is refused at `product` counts as far as it came; the switch that follows is known
to one edition only, and the property set after the snapshot is not seen in it. -/
theorem obtained_holds_lastWrite_team :
    ∃ p, ((⟨Policy.ofProperties ClientProperties.empty⟩ : Builder).run .standard
        [.set (.property "team" (.string "a")), .set (.property "product" (.bool true)),
          .apply ⟨some 5, none, none, ["late"],
            [("product", .bool true), ("team", .string "b")], "info"⟩,
          .set (.tunable "fast"), .snapshot,
          .set (.property "team" (.string "c"))]).obtained[4]? = some (some p) ∧
      p.timeout = Duration.ofSeconds 5 ∧ p.properties.get? "team" = some (.string "a") ∧
      p.properties.get? "product" = none ∧ p.isTunableSet "fast" = false := by
  obtain ⟨hsnapshot, _, hread⟩ := obtained_holds_lastWrite .standard
    ⟨Policy.ofProperties ClientProperties.empty⟩
    [.set (.property "team" (.string "a")), .set (.property "product" (.bool true)),
      .apply ⟨some 5, none, none, ["late"],
        [("product", .bool true), ("team", .string "b")], "info"⟩,
      .set (.tunable "fast"), .snapshot, .set (.property "team" (.string "c"))] 4
  obtain ⟨p, hp⟩ := hsnapshot rfl
  obtain ⟨hslots, _⟩ := hread p hp
  exact ⟨p, hp, hslots .timeout, hslots (.property "team"), hslots (.property "product"),
    hslots (.tunable "fast")⟩

end Builder

end BrokerPolicy
