import BrokerPolicy.Policy.Summary
import BrokerPolicy.Proofs.Duration
import BrokerPolicy.Proofs.Policy.Run

set_option autoImplicit false

/-!
Handing off a policy while executors start and stop. Whether a handoff goes through depends on the
executor lent last and on whether that one accepts jobs at the moment. A handoff leaves the builder
alone, and its log says what was handed off.
-/

namespace BrokerPolicy

/-- A call on a builder, or an executor that starts or stops accepting jobs. -/
inductive Occurrence where
  | set (s : Setting)
  | apply (f : PolicyFile)
  | snapshot
  | build
  | turn (e : Executor) (accepting : Bool)

namespace Occurrence

def lent? : Occurrence → Option Executor
  | .set (.resource e) => some e
  | _ => none

def turned? (e : Executor) : Occurrence → Option Bool
  | .turn e' accepting => if e' = e then some accepting else none
  | _ => none

def leavesBuilder : Occurrence → Bool
  | .set _ | .apply _ => false
  | .snapshot | .build | .turn _ _ => true

end Occurrence

def lastLent (os : List Occurrence) : Option Executor := (os.filterMap Occurrence.lent?).getLast?

def acceptsAfter (accepts : Executor → Bool) (os : List Occurrence) (e : Executor) : Bool :=
  (os.filterMap (Occurrence.turned? e)).getLast?.getD (accepts e)

structure Scene where
  builder : Builder
  accepts : Executor → Bool

namespace Scene

structure Outcome where
  scene : Scene
  given : Option (Except PolicyError Policy)
  events : List Event

def step (edition : Edition) (s : Scene) : Occurrence → Outcome
  | .set t =>
    ⟨{ s with builder := s.builder.attempt edition t }, none,
      if t.availableIn edition then (s.builder.set t).events else []⟩
  | .apply f =>
    let applied := f.apply edition s.builder
    ⟨{ s with builder := applied.builder }, none, applied.events⟩
  | .snapshot => ⟨s, some (.ok s.builder.snapshot), []⟩
  | .build =>
    let (result, events) := s.builder.build s.accepts
    ⟨s, some result, events⟩
  | .turn e accepting =>
    ⟨{ s with accepts := fun x => if x = e then accepting else s.accepts x }, none, []⟩

def after (edition : Edition) (s : Scene) (os : List Occurrence) : Scene :=
  os.foldl (fun s o => (s.step edition o).scene) s

theorem after_concat (edition : Edition) (s : Scene) (os : List Occurrence) (o : Occurrence) :
    s.after edition (os ++ [o]) = ((s.after edition os).step edition o).scene := by
  simp [after]

theorem after_append (edition : Edition) (s : Scene) (os later : List Occurrence) :
    s.after edition (os ++ later) = (s.after edition os).after edition later := by
  simp [after]

theorem step_build (edition : Edition) (s : Scene) :
    s.step edition .build =
      ⟨s, some (s.builder.build s.accepts).1, (s.builder.build s.accepts).2⟩ := rfl

theorem step_builder_of_leaves {o : Occurrence} (h : o.leavesBuilder) (edition : Edition)
    (s : Scene) : (s.step edition o).scene.builder = s.builder := by
  cases o with
  | set t => simp [Occurrence.leavesBuilder] at h
  | apply f => simp [Occurrence.leavesBuilder] at h
  | snapshot => rfl
  | build => rfl
  | turn e accepting => rfl

theorem attempt_resource {t : Setting} (h : ∀ e, t ≠ .resource e) (edition : Edition)
    (b : Builder) : (b.attempt edition t).policy.resource = b.policy.resource := by
  rw [Builder.attempt_policy]
  split_ifs
  · exact Policy.write_resource h b.policy
  · rfl

theorem step_resource (edition : Edition) (s : Scene) (o : Occurrence) :
    (s.step edition o).scene.builder.policy.resource =
      (o.lent?.map ExecutionResource.borrowed).getD s.builder.policy.resource := by
  cases o with
  | set t =>
    cases t with
    | resource e => rfl
    | _ => exact attempt_resource (by simp) edition s.builder
  | apply f => exact f.apply_resource edition s.builder
  | snapshot => rfl
  | build => rfl
  | turn e accepting => rfl

theorem step_accepts (edition : Edition) (s : Scene) (o : Occurrence) (e : Executor) :
    (s.step edition o).scene.accepts e = (o.turned? e).getD (s.accepts e) := by
  cases o with
  | turn e' accepting =>
    change (if e = e' then accepting else s.accepts e) = _
    rw [Occurrence.turned?]
    by_cases h : e = e'
    · simp [h]
    · simp [h, Ne.symm h]
  | _ => rfl

theorem after_resource (edition : Edition) (s : Scene) (os : List Occurrence) :
    (s.after edition os).builder.policy.resource =
      ((lastLent os).map ExecutionResource.borrowed).getD s.builder.policy.resource := by
  induction os using List.reverseRecOn with
  | nil => rfl
  | append_singleton os o ih =>
    rw [after_concat, step_resource, ih, lastLent, lastLent, List.filterMap_append]
    cases h : o.lent? with
    | none => simp [h]
    | some e => simp [h]

theorem after_accepts (edition : Edition) (s : Scene) (os : List Occurrence) (e : Executor) :
    (s.after edition os).accepts e = acceptsAfter s.accepts os e := by
  induction os using List.reverseRecOn with
  | nil => rfl
  | append_singleton os o ih =>
    rw [after_concat, step_accepts, ih, acceptsAfter, acceptsAfter, List.filterMap_append]
    cases h : o.turned? e with
    | none => simp [h]
    | some accepting => simp [h]

theorem after_builder_of_leaves {os : List Occurrence} (h : ∀ o ∈ os, o.leavesBuilder)
    (edition : Edition) (s : Scene) : (s.after edition os).builder = s.builder := by
  induction os using List.reverseRecOn with
  | nil => rfl
  | append_singleton os o ih =>
    have hos : ∀ o ∈ os, o.leavesBuilder := fun o ho => h o (List.mem_append_left _ ho)
    rw [after_concat, step_builder_of_leaves (h o (by simp)), ih hos]

theorem after_isBorrowed {s : Scene} (h : s.builder.policy.resource.isBorrowed)
    (edition : Edition) (os : List Occurrence) :
    (s.after edition os).builder.policy.resource.isBorrowed := by
  rw [after_resource]
  cases lastLent os with
  | none => exact h
  | some e => rfl

theorem after_all_accepts (edition : Edition) (host : Host) (accepts : Executor → Bool)
    (os : List Occurrence) :
    ((Scene.mk (Builder.ofHost host) accepts).after edition os).builder.policy.resource.executor?.all
        ((Scene.mk (Builder.ofHost host) accepts).after edition os).accepts =
      (lastLent os).all (acceptsAfter accepts os) := by
  have haccepts := after_accepts edition ⟨Builder.ofHost host, accepts⟩ os
  rw [after_resource]
  cases lastLent os with
  | none => rfl
  | some e => exact haccepts e

end Scene

def refusalRecord : Event :=
  .log .warn Log.builderTarget "Borrowed execution resource is not accepting work" []

def zeroTimeoutRecord : Event :=
  .log .warn Log.builderTarget
    ("Message processing timeout is zero; every outstanding message will be " ++
      "reported as hung") []

theorem Builder.build_of_refused {accepts : Executor → Bool} {b : Builder}
    (h : b.policy.resource.executor?.all accepts = false) :
    b.build accepts = (.error .executorUnavailable, [refusalRecord]) := by
  simp [build, h, refusalRecord]

theorem Builder.build_of_accepted {accepts : Executor → Bool} {b : Builder}
    (h : b.policy.resource.executor?.all accepts = true) :
    b.build accepts =
      (.ok b.policy,
        (if b.policy.timeout.totalNanos = 0 then [zeroTimeoutRecord] else []) ++
          [.log .debug Log.builderTarget "Context policy built" (builtFields b.policy)]) := by
  rw [build, if_pos h]
  simp only [snapshot, zeroTimeoutRecord, Duration.isZero_iff]

theorem PoolSettings.description_starts (settings : PoolSettings) :
    ∃ rest, (ExecutionResource.pool settings).description = "default pool (min " ++ rest := by
  unfold ExecutionResource.description
  simp only [String.append_assoc]
  exact ⟨_, rfl⟩

theorem ExecutionResource.description_eq_iff (r : ExecutionResource) :
    r.description = "caller-supplied executor" ↔ r.isBorrowed = true := by
  cases r with
  | borrowed e => exact iff_of_true rfl rfl
  | pool settings =>
    obtain ⟨rest, hrest⟩ := settings.description_starts
    rw [hrest]
    refine iff_of_false (fun h => ?_) Bool.false_ne_true
    have hhead := congrArg (fun s : String => s.toList.head?) h
    simp at hhead

theorem Text.optionText_eq_none_iff (content : Option String) :
    optionText content = "None" ↔ content = none := by
  cases content with
  | none => exact iff_of_true rfl rfl
  | some s =>
    refine iff_of_false (fun h => ?_) (by simp)
    have hhead := congrArg (fun t : String => t.toList.head?) h
    simp [optionText, tagged] at hhead

/-- The fields of a log record say of a policy what its summary says. -/
def Policy.SaidBy (p : Policy) (fields : Log.Fields) : Prop :=
  ∃ borrowed threshold, fields =
      [("borrowed_executor", .flag borrowed),
       ("metrics", .flag p.summary.metrics),
       ("message_processing_timeout_ms", .number p.summary.timeoutMillis),
       ("connection_error_threshold", .shown threshold),
       ("client_properties", .number p.summary.properties.length)] ∧
    borrowed = p.resource.isBorrowed ∧
    (p.summary.resource = "caller-supplied executor" ↔ borrowed = true) ∧
    threshold = Text.optionText (p.threshold.map Duration.text) ∧
    (p.summary.thresholdMillis = none ↔ threshold = "None")

theorem Policy.saidBy_builtFields (p : Policy) : p.SaidBy (Builder.builtFields p) := by
  refine ⟨p.resource.isBorrowed, Text.optionText (p.threshold.map Duration.text), rfl, rfl,
    ExecutionResource.description_eq_iff p.resource, rfl, ?_⟩
  rw [Text.optionText_eq_none_iff]
  simp [summary]

namespace Scene

/-- The same policy is handed off later, if nothing but handoffs, snapshots and turns of executors
comes between and the executor lent last accepts jobs by then. -/
theorem build_given_after (edition : Edition) (host : Host) (accepts : Executor → Bool)
    (past : List Occurrence) {between : List Occurrence}
    (hbetween : ∀ o ∈ between, o.leavesBuilder)
    (haccepts : ∀ e, lastLent past = some e → acceptsAfter accepts (past ++ between) e = true) :
    (((Scene.mk (Builder.ofHost host) accepts).after edition (past ++ between)).step edition
        .build).given =
      some (.ok ((Scene.mk (Builder.ofHost host) accepts).after edition past).builder.policy) := by
  have hlent : lastLent (past ++ between) = lastLent past := by
    have hnone : between.filterMap Occurrence.lent? = [] := by
      rw [List.filterMap_eq_nil_iff]
      intro o ho
      have hleaves := hbetween o ho
      cases o with
      | set t => simp [Occurrence.leavesBuilder] at hleaves
      | _ => rfl
    rw [lastLent, List.filterMap_append, hnone, List.append_nil, lastLent]
  have hall := after_all_accepts edition host accepts (past ++ between)
  have htrue : (lastLent (past ++ between)).all (acceptsAfter accepts (past ++ between)) = true := by
    rw [hlent]
    cases h : lastLent past with
    | none => rfl
    | some e => exact haccepts e h
  rw [step_build, Builder.build_of_accepted (hall.trans htrue), after_append,
    after_builder_of_leaves hbetween]

end Scene

/-- A handoff is refused exactly if an executor was lent before and the one lent last does not
accept jobs at the moment. Otherwise it gives what a snapshot gives, and either way it leaves the
builder alone, so that the same policy can be handed off once the executor accepts again. A lent
executor is never given up for a pool. A refusal is logged once and with nothing else, and the log
of a handoff tells a timeout of zero first and then what the summary of the policy tells. -/
theorem handoff_checks_executor_lent_last (edition : Edition) (host : Host)
    (accepts : Executor → Bool) (past : List Occurrence) :
    let start : Scene := ⟨Builder.ofHost host, accepts⟩
    let s := start.after edition past
    let handed := s.step edition .build
    let refused := ∃ e, lastLent past = some e ∧ acceptsAfter accepts past e = false
    (handed.given = some (.error .executorUnavailable) ↔ refused) ∧
      (¬ refused → handed.given = (s.step edition .snapshot).given) ∧
      (s.step edition .snapshot).given = some (.ok s.builder.policy) ∧
      handed.scene = s ∧
      (∀ between, (∀ o ∈ between, o.leavesBuilder) →
        (∀ e, lastLent past = some e →
          acceptsAfter accepts (past ++ .build :: between) e = true) →
        ((start.after edition (past ++ .build :: between)).step edition .build).given =
          some (.ok s.builder.policy)) ∧
      (∀ later, s.builder.policy.resource.isBorrowed →
        (s.after edition later).builder.policy.resource.isBorrowed) ∧
      (refused → handed.events = [refusalRecord]) ∧
      ∀ p, handed.given = some (.ok p) →
        p = s.builder.policy ∧
        ∃ fields, p.SaidBy fields ∧ handed.events =
          (if p.timeout.totalNanos = 0 then [zeroTimeoutRecord] else []) ++
            [.log .debug Log.builderTarget "Context policy built" fields] := by
  intro start s handed refused
  have hall : s.builder.policy.resource.executor?.all s.accepts =
      (lastLent past).all (acceptsAfter accepts past) :=
    Scene.after_all_accepts edition host accepts past
  have hrefused : refused ↔ s.builder.policy.resource.executor?.all s.accepts = false := by
    rw [hall]
    change (∃ e, lastLent past = some e ∧ acceptsAfter accepts past e = false) ↔ _
    cases lastLent past <;> simp
  have hhanded : handed = ⟨s, some (s.builder.build s.accepts).1, (s.builder.build s.accepts).2⟩ :=
    Scene.step_build edition s
  refine ⟨?_, ?_, rfl, by rw [hhanded], ?_, fun later h => Scene.after_isBorrowed h edition later,
    ?_, ?_⟩
  · rw [hhanded, hrefused, Builder.build_fst]
    cases s.builder.policy.resource.executor?.all s.accepts <;> simp
  · intro h
    have haccepted : s.builder.policy.resource.executor?.all s.accepts = true := by
      simpa [hrefused] using h
    rw [hhanded, Builder.build_of_accepted haccepted]
    rfl
  · -- the first handoff itself is one of the occurrences between
    intro between hbetween haccepts
    apply Scene.build_given_after edition host accepts past _ haccepts
    intro o ho
    rcases List.mem_cons.1 ho with rfl | ho
    · rfl
    · exact hbetween o ho
  · intro h
    rw [hhanded, Builder.build_of_refused (hrefused.1 h)]
  · intro p hp
    rw [hhanded] at hp ⊢
    cases haccepted : s.builder.policy.resource.executor?.all s.accepts with
    | false => simp [Builder.build_of_refused haccepted] at hp
    | true =>
      rw [Builder.build_of_accepted haccepted] at hp ⊢
      have hpolicy : s.builder.policy = p := by simpa using hp
      subst hpolicy
      exact ⟨rfl, _, Policy.saidBy_builtFields _, rfl⟩

/-- The first of two executors may refuse; the second one is stopped and started again. -/
theorem handoff_checks_executor_lent_last_restarted :
    let start : Scene :=
      ⟨Builder.ofHost ⟨"worker", 7, "Linux", "6.1.0", "#1 SMP"⟩, fun e => e = .runtime⟩
    let past : List Occurrence :=
      [.set (.resource (.named "first")), .set (.timeout (.ofSeconds 0)),
        .set (.resource .runtime), .turn .runtime false]
    let handed := (start.after .standard past).step .standard .build
    let again := (start.after .standard (past ++ [.build, .turn .runtime true])).step .standard
      .build
    handed.given = some (.error .executorUnavailable) ∧ handed.events = [refusalRecord] ∧
      again.given = some (.ok (start.after .standard past).builder.policy) := by
  intro start past handed again
  obtain ⟨hgiven, _, _, _, hagain, _, hevents, _⟩ := handoff_checks_executor_lent_last .standard
    ⟨"worker", 7, "Linux", "6.1.0", "#1 SMP"⟩ (fun e => e = .runtime) past
  have hrefused : ∃ e, lastLent past = some e ∧
      acceptsAfter (fun e => e = .runtime) past e = false := ⟨.runtime, rfl, rfl⟩
  refine ⟨hgiven.2 hrefused, hevents hrefused, hagain [.turn .runtime true] ?_ ?_⟩
  · intro o ho
    rw [List.mem_singleton.1 ho]
    rfl
  · intro e he
    have hruntime : .runtime = e := Option.some.inj he
    subst hruntime
    rfl

end BrokerPolicy
