import BrokerPolicy.Session.Step
import BrokerPolicy.Proofs.Session.Shelf

set_option autoImplicit false

/-!
Runs of requests on a session. What a request changes among the builders and policies is told once
for every request, and a run is the list of these changes.
-/

namespace BrokerPolicy.Session

def next (s : Session) (r : Request) : Session := (s.step r).elim s Outcome.session

def seen (s : Session) (r : Request) : List Event := (s.step r).elim [] Outcome.events

def performed (s : Session) (r : Request) : List Event := (s.perform r).elim [] Outcome.events

def gone (s : Session) (r : Request) : List (Nat × String) := (s.perform r).elim [] Outcome.gone

theorem next_eq (s : Session) (r : Request) :
    s.next r = (s.perform r).elim s Outcome.session := by
  rw [next, step]
  cases s.perform r <;> rfl

theorem seen_eq (s : Session) (r : Request) :
    s.seen r = s.performed r ++ (s.gone r).map fun p => .publisherReleased p.2 := by
  rw [seen, performed, gone, step]
  cases s.perform r <;> rfl

/-- A request about something that is there has one outcome. -/
theorem exists_of_lookup {α : Type} {found : Option α} {f : α → Outcome} {o : Outcome}
    (h : (found.bind fun a => some (f a)) = some o) : ∃ a, found = some a ∧ f a = o := by
  obtain ⟨a, ha, hf⟩ := Option.bind_eq_some_iff.1 h
  exact ⟨a, ha, Option.some.inj hf⟩

def after (s : Session) (rs : List Request) : Session := rs.foldl next s

theorem after_concat (s : Session) (rs : List Request) (r : Request) :
    s.after (rs ++ [r]) = (s.after rs).next r := by
  simp [after]

section collect

variable {α : Type}

def collect (f : Session → Request → List α) : Session → List Request → List α
  | _, [] => []
  | s, r :: rs => f s r ++ collect f (s.next r) rs

theorem collect_concat (f : Session → Request → List α) (s : Session) (rs : List Request)
    (r : Request) : s.collect f (rs ++ [r]) = s.collect f rs ++ f (s.after rs) r := by
  induction rs generalizing s with
  | nil => simp [collect, after]
  | cons q rs ih =>
    rw [List.cons_append, collect, collect, ih, List.append_assoc]
    rfl

theorem collect_eq_flatMap (f : Session → Request → List α) (s : Session) (rs : List Request) :
    s.collect f rs = rs.zipIdx.flatMap fun x => f (s.after (rs.take x.2)) x.1 := by
  induction rs using List.reverseRecOn with
  | nil => rfl
  | append_singleton rs r ih =>
    have hearlier : ∀ x ∈ rs.zipIdx, f (s.after ((rs ++ [r]).take x.2)) x.1 =
        f (s.after (rs.take x.2)) x.1 := by
      intro x hx
      have hlt : x.2 < rs.length := by simpa using (List.mem_zipIdx hx).2.1
      rw [List.take_append_of_le_length hlt.le]
    rw [collect_concat, ih, List.zipIdx_append, List.flatMap_append, List.flatMap_congr hearlier]
    simp

theorem filter_collect (p : α → Bool) (f : Session → Request → List α) (s : Session)
    (rs : List Request) :
    (s.collect f rs).filter p = s.collect (fun s r => (f s r).filter p) rs := by
  induction rs generalizing s with
  | nil => rfl
  | cons r rs ih => rw [collect, List.filter_append, ih, collect]

end collect

def watch (s : Session) (rs : List Request) : List Event := s.collect seen rs

def objects (s : Session) : Shelf Policy :=
  ⟨OrderedTable.mapValues Builder.policy s.builders, s.policies⟩

@[simp]
theorem find?_objects_builders (s : Session) (name : String) :
    s.objects.builders.find? name = (s.builders.find? name).map Builder.policy :=
  OrderedTable.find?_mapValues Builder.policy s.builders name

@[simp]
theorem find?_objects (s : Session) (name : String) :
    s.objects.find? name = (s.holder? name).map Holder.current := by
  rw [Shelf.find?, find?_objects_builders, holder?]
  change (s.policies.find? name).or _ = _
  cases s.policies.find? name with
  | some p => rfl
  | none => cases s.builders.find? name <;> rfl

/-- What of a session matters to the handlers that are held in it. -/
def stock (s : Session) : Shelf Policy × Nat := (s.objects, s.publishersMade)

theorem stock_putBuilder (s : Session) (name : String) (b : Builder) :
    (s.putBuilder name b).1.stock = (s.objects.putBuilder name (some b.policy), s.publishersMade) := by
  simp [putBuilder, exchange, stock, objects, Shelf.putBuilder, OrderedTable.mapValues_insert]

theorem stock_putPolicy (s : Session) (name : String) (p : Policy) :
    (s.putPolicy name p).1.stock = (s.objects.putPolicy name (some p), s.publishersMade) := rfl

def fileChange {ε : Type} (s : Session) (builder : String) : Except ε PolicyFile → Change
  | .error _ => .nothing
  | .ok f => .wrote builder (f.writes s.edition)

def change (s : Session) : Request → Change
  | .set builder w =>
    if w.availableIn s.edition then .wrote builder (if w.Accepted then [w] else []) else .nothing
  | .setSink builder choice => .wrote builder [.metrics (s.makeSink choice).1]
  | .applyToml builder source => s.fileChange builder (PolicyFile.parse s.edition source)
  | .applyJson builder source => s.fileChange builder (PolicyFile.ofJson source)
  | .build builder result =>
    if (s.builders.find? builder).all fun b => b.policy.resource.executor?.all s.accepts then
      .took builder result
    else .nothing
  | .snapshot builder result => .took builder result
  | .copyPolicy holder result => .shared holder result
  | .copyBuilder builder result => .copied builder result
  | .drop name => .dropped name
  | .setAccepting _ _ | .completedJobs _ | .execute _ _ | .look _ | .notifyError _ _ _
  | .notifySuccess _ | .notifyHung _ _ | .publish _ _ | .consume _ _ _ | .produce _ _ _ _
  | .respond _ _ | .endContext _ => .nothing

def made (s : Session) : Request → List (Nat × String)
  | .setSink builder (.own name) =>
    if s.builders.contains builder then [(s.publishersMade, name)] else []
  | _ => []

section

variable {s : Session} {name : String} {b : Builder}

theorem stock_keepBuilder (h : s.builders.find? name = some b) {made : Builder.Made}
    {ws : List Setting} (hmade : made.builder.policy = ws.foldl Policy.write b.policy) :
    (s.keepBuilder name made).session.stock =
      (s.objects.change Policy.write (.wrote name ws), s.publishersMade) := by
  have hfound : s.objects.builders.find? name = some b.policy := by simp [h]
  change (s.putBuilder name made.builder).1.stock = _
  rw [stock_putBuilder, hmade, Shelf.change, hfound, Option.map_some]

theorem stock_setOn (h : s.builders.find? name = some b) (w : Setting) :
    (s.setOn name b w).session.stock =
      (s.objects.change Policy.write
        (if w.availableIn s.edition then .wrote name (if w.Accepted then [w] else [])
        else .nothing),
        s.publishersMade) := by
  by_cases havailable : w.availableIn s.edition = true
  · rw [setOn, if_pos havailable, if_pos havailable]
    exact stock_keepBuilder h (Builder.set_policy b w)
  · rw [setOn, if_neg havailable, if_neg havailable]
    rfl

theorem stock_applyFile (h : s.builders.find? name = some b) (f : PolicyFile) :
    (s.applyFile name b f).session.stock =
      (s.objects.change Policy.write (.wrote name (f.writes s.edition)), s.publishersMade) :=
  stock_keepBuilder h (f.apply_policy s.edition b)

theorem stock_setSink (h : s.builders.find? name = some b) (choice : SinkChoice) :
    ((s.makeSink choice).2.setOn name b (.metrics (s.makeSink choice).1)).session.stock =
      (s.objects.change Policy.write (.wrote name [.metrics (s.makeSink choice).1]),
        s.publishersMade + (s.made (.setSink name choice)).length) := by
  have hmade : (s.makeSink choice).2.builders.find? name = some b := by
    cases choice <;> exact h
  have hobjects : (s.makeSink choice).2.objects = s.objects := by cases choice <;> rfl
  have hcount : (s.makeSink choice).2.publishersMade =
      s.publishersMade + (s.made (.setSink name choice)).length := by
    cases choice <;> simp [makeSink, made, OrderedTable.contains, h]
  rw [stock_setOn hmade, hobjects, hcount]
  rfl

theorem stock_build (h : s.builders.find? name = some b) (result : String) :
    ((s.perform (.build name result)).elim s Outcome.session).stock =
      (s.objects.change Policy.write (s.change (.build name result)), s.publishersMade) := by
  have hbuilt := Builder.build_fst s.accepts b
  rw [perform, h, change, h]
  cases hb : b.build s.accepts with
  | mk built events =>
    rw [hb] at hbuilt
    change built = _ at hbuilt
    subst hbuilt
    by_cases haccepts : b.policy.resource.executor?.all s.accepts = true
    · simp [hb, haccepts, Shelf.change, h, keepPolicy, stock_putPolicy]
    · simp [hb, haccepts, Shelf.change, unchanged, stock]

theorem stock_remove (s : Session) (name : String) :
    (s.remove name).session.stock = (s.objects.drop name, s.publishersMade) := by
  change (s.drop name).1.stock = ((if s.policies.contains name = true then _ else _), _)
  rw [drop, OrderedTable.contains]
  cases s.policies.find? name with
  | some p => rfl
  | none => simp [exchange, stock, objects, OrderedTable.mapValues_erase]

theorem stock_runJobs (s : Session) (p : Policy) (jobs : Nat) :
    (s.runJobs p jobs).session.stock = s.stock := by
  rw [runJobs]
  cases p.resource.executor? with
  | none => rfl
  | some e =>
    dsimp only
    split_ifs
    · cases e <;> rfl
    · rfl

theorem stock_consumeWith (s : Session) (p : Policy) (name : String) (d : Delivery) :
    (s.consumeWith p name d).session.stock = s.stock := by
  rw [consumeWith]
  cases p.consumerTracer <;> rfl

theorem stock_produceWith (s : Session) (p : Policy) (name : String) (m : Publish)
    (headers : FieldTable) : (s.produceWith p name m headers).session.stock = s.stock := by
  rw [produceWith]
  cases p.producerTracer <;> rfl

theorem stock_respondTo (s : Session) (context : String) (c : Confirm) :
    (s.respondTo context c).session.stock = s.stock := by
  rw [respondTo]
  cases s.contexts.producing.find? context <;> rfl

theorem stock_endOf (s : Session) (context : String) :
    (s.endOf context).session.stock = s.stock := rfl

end

/-- Everything a request does to the stock. -/
theorem next_stock (s : Session) (r : Request) :
    (s.next r).stock =
      (s.objects.change Policy.write (s.change r), s.publishersMade + (s.made r).length) := by
  rw [next_eq]
  -- where a name is unknown neither the session nor the shelf changes
  cases r with
  | set name w =>
    rw [change]
    change _ = (_, s.publishersMade)
    cases h : s.builders.find? name with
    | none => split_ifs <;> simp [perform, h, Shelf.change, Shelf.putBuilder, stock]
    | some b => simpa [perform, h] using stock_setOn h w
  | setSink name choice =>
    cases h : s.builders.find? name with
    | none =>
      have hnone : s.made (.setSink name choice) = [] := by
        cases choice <;> simp [made, OrderedTable.contains, h]
      simp [perform, h, change, Shelf.change, Shelf.putBuilder, stock, hnone]
    | some b => simpa [perform, h, change] using stock_setSink h choice
  | applyToml name source =>
    rw [change]
    change _ = (_, s.publishersMade)
    cases h : s.builders.find? name with
    | none =>
      cases PolicyFile.parse s.edition source <;>
        simp [perform, h, fileChange, Shelf.change, Shelf.putBuilder, stock]
    | some b =>
      cases hf : PolicyFile.parse s.edition source with
      | error e => simp [perform, h, hf, fileChange, Shelf.change, unchanged, stock]
      | ok f => simpa [perform, h, hf, fileChange] using stock_applyFile h f
  | applyJson name source =>
    rw [change]
    change _ = (_, s.publishersMade)
    cases h : s.builders.find? name with
    | none =>
      cases PolicyFile.ofJson source <;>
        simp [perform, h, fileChange, Shelf.change, Shelf.putBuilder, stock]
    | some b =>
      cases hf : PolicyFile.ofJson source with
      | error e => simp [perform, h, hf, fileChange, Shelf.change, unchanged, stock]
      | ok f => simpa [perform, h, hf, fileChange] using stock_applyFile h f
  | build name result =>
    cases h : s.builders.find? name with
    | none => simp [perform, h, change, Shelf.change, Shelf.putPolicy, stock, made]
    | some b => exact stock_build h result
  | snapshot name result =>
    cases h : s.builders.find? name with
    | none => simp [perform, h, change, Shelf.change, Shelf.putPolicy, stock, made]
    | some b =>
      simp [perform, h, change, Shelf.change, keepPolicy, stock_putPolicy, made, Builder.snapshot]
  | copyPolicy name result =>
    cases h : s.holder? name with
    | none => simp [perform, h, change, Shelf.change, Shelf.putPolicy, stock, made]
    | some held => simp [perform, h, change, Shelf.change, keepPolicy, stock_putPolicy, made]
  | copyBuilder name result =>
    cases h : s.builders.find? name with
    | none => simp [perform, h, change, Shelf.change, Shelf.putBuilder, stock, made]
    | some b => simp [perform, h, change, Shelf.change, stock_putBuilder, made]
  | drop name => exact stock_remove s name
  | setAccepting name accepting => rfl
  | completedJobs name => rfl
  | respond context c => exact stock_respondTo s context c
  | endContext context => exact stock_endOf s context
  | execute name jobs =>
    cases h : s.holder? name with
    | none => simp [perform, h, change, Shelf.change, stock, made]
    | some held =>
      rw [perform, h]
      exact stock_runJobs s held.current jobs
  | consume name result d =>
    cases h : s.holder? name with
    | none => simp [perform, h, change, Shelf.change, stock, made]
    | some held =>
      rw [perform, h]
      exact stock_consumeWith s held.current result d
  | produce name result m headers =>
    cases h : s.holder? name with
    | none => simp [perform, h, change, Shelf.change, stock, made]
    | some held =>
      rw [perform, h]
      exact stock_produceWith s held.current result m headers
  | look name | notifyError name text code | notifySuccess name | notifyHung name messages
  | publish name m =>
    cases h : s.holder? name <;> simp [perform, h, change, Shelf.change, unchanged, stock, made]

theorem next_objects (s : Session) (r : Request) :
    (s.next r).objects = s.objects.change Policy.write (s.change r) :=
  congrArg Prod.fst (s.next_stock r)

theorem next_publishersMade (s : Session) (r : Request) :
    (s.next r).publishersMade = s.publishersMade + (s.made r).length :=
  congrArg Prod.snd (s.next_stock r)

theorem next_sorted {s : Session} (h : s.objects.Sorted) (r : Request) :
    (s.next r).objects.Sorted := by
  rw [next_objects]
  exact h.change Policy.write _

def changes (s : Session) (rs : List Request) : List Change :=
  s.collect (fun s r => [s.change r]) rs

theorem changes_concat (s : Session) (rs : List Request) (r : Request) :
    s.changes (rs ++ [r]) = s.changes rs ++ [(s.after rs).change r] :=
  collect_concat _ s rs r

theorem after_objects (s : Session) (rs : List Request) :
    (s.after rs).objects = s.objects.changeAll Policy.write (s.changes rs) := by
  induction rs using List.reverseRecOn with
  | nil => rfl
  | append_singleton rs r ih =>
    rw [after_concat, next_objects, ih, changes_concat, Shelf.changeAll_concat]

theorem after_sorted {s : Session} (h : s.objects.Sorted) (rs : List Request) :
    (s.after rs).objects.Sorted := by
  induction rs using List.reverseRecOn with
  | nil => exact h
  | append_singleton rs r ih =>
    rw [after_concat]
    exact next_sorted ih r

theorem start_sorted (edition : Edition) (name : String) (b : Builder) :
    (start edition name b).objects.Sorted :=
  ⟨List.pairwise_singleton _ _, OrderedTable.sorted_nil⟩

/-- For every builder and policy at the end of a run, the settings that went into it: those of a
builder since the start, and those of a policy up to where it was taken. -/
def told (edition : Edition) (name : String) (b : Builder) (rs : List Request) :
    Shelf (List Setting) :=
  Shelf.changeAll (fun ws w => ws ++ [w]) ⟨[(name, [])], []⟩ ((start edition name b).changes rs)

theorem after_objects_eq_told (edition : Edition) (name : String) (b : Builder)
    (rs : List Request) :
    ((start edition name b).after rs).objects =
      (told edition name b rs).map fun ws => ws.foldl Policy.write b.policy := by
  rw [after_objects, told, Shelf.map_changeAll]
  · rfl
  · intro ws w
    rw [List.foldl_concat]

end BrokerPolicy.Session
