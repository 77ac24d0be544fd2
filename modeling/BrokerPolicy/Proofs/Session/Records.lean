import BrokerPolicy.Proofs.Session.Run

set_option autoImplicit false

/-!
Requests of which nothing is seen but log records: those about builders, files and executors. What
holds of every record outside a span holds of all that is seen of them, and the open contexts stay
as they are.
-/

namespace BrokerPolicy

/-- A request that calls no handler and touches no context. -/
def Request.onlyLogs : Request → Bool
  | .notifyError _ _ _ | .notifySuccess _ | .notifyHung _ _ | .publish _ _ | .consume _ _ _
  | .produce _ _ _ _ | .respond _ _ | .endContext _ => false
  | _ => true

section Records

variable {p : Event → Prop}
  (hlog : ∀ level target message fields, p (.log level target message fields))
include hlog

namespace Builder

theorem forall_set (b : Builder) (w : Setting) : ∀ e ∈ (b.set w).events, p e := by
  cases w with
  | property name value =>
    rw [set, setProperty]
    obtain ⟨e | c, properties⟩ := b.policy.properties.set name value
    · exact List.forall_mem_singleton.2 (hlog _ _ _ _)
    · dsimp only
      split_ifs
      · exact List.forall_mem_singleton.2 (hlog _ _ _ _)
      · simp
  | _ => simp [set]

theorem forall_setAll (b : Builder) (ws : List Setting) : ∀ e ∈ (b.setAll ws).events, p e := by
  induction ws generalizing b with
  | nil => simp [setAll]
  | cons w rest ih =>
    have hset := forall_set hlog b w
    rw [setAll]
    cases (b.set w).error with
    | some e => exact hset
    | none => exact List.forall_mem_append.2 ⟨hset, ih (b.set w).builder⟩

theorem forall_build (accepts : Executor → Bool) (b : Builder) :
    ∀ e ∈ (b.build accepts).2, p e := by
  rw [build]
  split_ifs <;> simp [hlog]

end Builder

namespace Session

/-- The open contexts are those of the session before, and each event seen is as wanted. -/
structure Outcome.LeavesContexts (p : Event → Prop) (s : Session) (o : Outcome) : Prop where
  events : ∀ e ∈ o.events, p e
  contexts : o.session.contexts = s.contexts

omit hlog in
theorem leavesContexts_of_silent {s s' : Session} (reply : Reply) (gone : List (Nat × String))
    (h : s'.contexts = s.contexts) : Outcome.LeavesContexts p s ⟨s', reply, [], gone⟩ :=
  ⟨fun _ he => absurd he List.not_mem_nil, h⟩

omit hlog in
theorem leavesContexts_keepBuilder {made : Builder.Made} (h : ∀ e ∈ made.events, p e)
    (s : Session) (name : String) : (s.keepBuilder name made).LeavesContexts p s := by
  constructor
  · exact h
  · rfl

theorem leavesContexts_setOn (s : Session) (name : String) (b : Builder) (w : Setting) :
    (s.setOn name b w).LeavesContexts p s := by
  rw [setOn]
  split_ifs
  · exact leavesContexts_keepBuilder (Builder.forall_set hlog b w) s name
  · exact leavesContexts_of_silent _ _ rfl

theorem leavesContexts_applyFile (s : Session) (name : String) (b : Builder) (f : PolicyFile) :
    (s.applyFile name b f).LeavesContexts p s :=
  leavesContexts_keepBuilder (Builder.forall_setAll hlog b (f.settings s.edition)) s name

omit hlog in
theorem leavesContexts_runJobs (s : Session) (q : Policy) (jobs : Nat) :
    (s.runJobs q jobs).LeavesContexts p s := by
  rw [runJobs]
  cases q.resource.executor? with
  | none => exact leavesContexts_of_silent _ _ rfl
  | some e =>
    dsimp only
    split_ifs
    · cases e <;> exact leavesContexts_of_silent _ _ rfl
    · exact leavesContexts_of_silent _ _ rfl

omit hlog in
theorem leavesContexts_remove (s : Session) (name : String) :
    (s.remove name).LeavesContexts p s := by
  refine leavesContexts_of_silent _ _ ?_
  change (s.drop name).1.contexts = s.contexts
  rw [drop]
  cases s.policies.find? name <;> rfl

theorem leavesContexts_perform {r : Request} (h : r.onlyLogs = true) {s : Session} {o : Outcome}
    (ho : s.perform r = some o) : o.LeavesContexts p s := by
  cases r with
  | set name w =>
    obtain ⟨b, -, rfl⟩ := exists_of_lookup ho
    exact s.leavesContexts_setOn hlog name b w
  | setSink name choice =>
    obtain ⟨b, -, rfl⟩ := exists_of_lookup ho
    obtain ⟨hevents, hcontexts⟩ :=
      (s.makeSink choice).2.leavesContexts_setOn hlog name b (.metrics (s.makeSink choice).1)
    cases choice <;> exact ⟨hevents, hcontexts⟩
  | applyToml name source =>
    obtain ⟨b, -, rfl⟩ := exists_of_lookup ho
    cases PolicyFile.parse s.edition source with
    | error e => exact leavesContexts_of_silent _ _ rfl
    | ok f => exact s.leavesContexts_applyFile hlog name b f
  | applyJson name source =>
    obtain ⟨b, -, rfl⟩ := exists_of_lookup ho
    cases PolicyFile.ofJson source with
    | error e => exact leavesContexts_of_silent _ _ rfl
    | ok f => exact s.leavesContexts_applyFile hlog name b f
  | build name result =>
    obtain ⟨b, -, rfl⟩ := exists_of_lookup ho
    have hbuilt := Builder.forall_build hlog s.accepts b
    generalize b.build s.accepts = r at hbuilt
    obtain ⟨e | q, events⟩ := r
    · exact ⟨hbuilt, rfl⟩
    · exact ⟨hbuilt, rfl⟩
  | snapshot name result | copyBuilder name result | copyPolicy name result | look name =>
    obtain ⟨b, -, rfl⟩ := exists_of_lookup ho
    exact leavesContexts_of_silent _ _ rfl
  | execute name jobs =>
    obtain ⟨held, -, rfl⟩ := exists_of_lookup ho
    exact s.leavesContexts_runJobs held.current jobs
  | drop name =>
    obtain rfl := Option.some.inj ho
    exact s.leavesContexts_remove name
  | setAccepting name accepting | completedJobs name =>
    obtain rfl := Option.some.inj ho
    exact leavesContexts_of_silent _ _ rfl
  | notifyError _ _ _ | notifySuccess _ | notifyHung _ _ | publish _ _ | consume _ _ _
  | produce _ _ _ _ | respond _ _ | endContext _ => cases h

theorem forall_performed {r : Request} (h : r.onlyLogs = true) (s : Session) :
    ∀ e ∈ s.performed r, p e := by
  rw [performed]
  cases ho : s.perform r with
  | none => exact fun _ he => absurd he List.not_mem_nil
  | some o => exact (leavesContexts_perform hlog h ho).events

end Session

end Records

end BrokerPolicy
