import BrokerPolicy.Proofs.Tracing.Context
import Mathlib.Data.List.Perm.Basic

set_option autoImplicit false

/-!
Open contexts and open spans in balance. Contexts are kept under names, and each that is a span is
open at the recorder as long as it is kept; whatever becomes of the contexts, the recorder can make
sense of what is seen of it and has the same spans entered afterwards as before.
-/

namespace BrokerPolicy

namespace Contexts

theorem of_keep (x : Contexts) (kind kind' : ContextKind) (name : String) (c : Context) :
    (x.keep kind name c).of kind' =
      if kind' = kind then OrderedTable.insert name c (x.of kind') else x.of kind' := by
  cases kind <;> cases kind' <;> rfl

theorem of_remove (x : Contexts) (kind kind' : ContextKind) (name : String) :
    (x.remove kind name).of kind' =
      if kind' = kind then (x.of kind').erase name else x.of kind' := by
  cases kind <;> cases kind' <;> rfl

def spansIn (t : OrderedTable Context) : List Span := t.gather Context.spans

def spans (x : Contexts) : List Span := spansIn x.consuming ++ spansIn x.producing

theorem perm_spans (x : Contexts) (kind : ContextKind) :
    x.spans.Perm (spansIn (x.of kind) ++ spansIn (x.of kind.other)) := by
  cases kind with
  | consuming => exact List.Perm.refl _
  | producing => exact List.perm_append_comm

def spanAt (t : OrderedTable Context) (name : String) : Option Span :=
  (t.find? name).bind Context.span?

theorem spanAt_insert (name m : String) (c : Context) (t : OrderedTable Context) :
    spanAt (OrderedTable.insert name c t) m = if m = name then c.span? else spanAt t m := by
  rw [spanAt, OrderedTable.find?_insert]
  split_ifs <;> rfl

theorem spanAt_erase (name m : String) (t : OrderedTable Context) :
    spanAt (t.erase name) m = if m = name then none else spanAt t m := by
  rw [spanAt, OrderedTable.find?_erase]
  split_ifs <;> rfl

theorem length_spansIn (t : OrderedTable Context) :
    (spansIn t).length = t.countP fun e => e.2.span?.isSome := by
  induction t with
  | nil => rfl
  | cons entry rest ih =>
    obtain ⟨name, s | owner⟩ := entry
    · change (spansIn rest).length + 1 = _
      rw [List.countP_cons_of_pos (by rfl), ih]
    · change (spansIn rest).length = _
      rw [List.countP_cons_of_neg (by simp [Context.span?]), ih]

theorem toList_spanAt (t : OrderedTable Context) (name : String) :
    (spanAt t name).toList = (t.find? name).elim [] Context.spans := by
  rw [spanAt]
  cases t.find? name with
  | none => rfl
  | some c => exact c.toList_span?

theorem perm_spansIn {t : OrderedTable Context} (h : t.Sorted) (name : String) :
    (spansIn t).Perm ((spanAt t name).toList ++ spansIn (t.erase name)) := by
  rw [toList_spanAt]
  exact OrderedTable.perm_gather Context.spans h name

theorem perm_spansIn_insert {t : OrderedTable Context} (h : t.Sorted) (name : String)
    (c : Context) :
    (spansIn (OrderedTable.insert name c t)).Perm (c.spans ++ spansIn (t.erase name)) :=
  OrderedTable.perm_gather_insert Context.spans h name c

section closing

variable (x : Contexts) (kind : ContextKind) (name : String)

theorem closing_eq :
    x.closing kind name = ((spanAt (x.of kind) name).map .spanClosed).toList := by
  rw [closing, spanAt]
  rcases (x.of kind).find? name with _ | ⟨s | owner⟩ <;> rfl

theorem closing_of_spanAt_eq {s : Span} (h : spanAt (x.of kind) name = some s) :
    x.closing kind name = [.spanClosed s] := by
  rw [closing_eq, h]
  rfl

theorem hearAll_closing (k : Recorder) :
    k.hearAll (x.closing kind name) =
      { k with spans := k.spans.diff (spanAt (x.of kind) name).toList } := by
  rw [closing, toList_spanAt]
  cases (x.of kind).find? name with
  | none => rfl
  | some c => exact k.hearAll_close c

theorem wellFormed_closing {k : Recorder}
    (h : ∀ s, spanAt (x.of kind) name = some s → s ∈ k.spans ∧ s ∉ k.entered) :
    k.WellFormed (x.closing kind name) := by
  rw [closing]
  cases hfound : (x.of kind).find? name with
  | none => trivial
  | some c =>
    refine k.wellFormed_close fun s hs => h s ?_
    rw [← Option.mem_toList, toList_spanAt, hfound]
    exact hs

end closing

theorem name_of_mem_made {x : Contexts} {kind : ContextKind} {t : Tracer} {s : Span}
    (h : s ∈ (x.made kind t).spans) : s.name = kind.spanName := by
  cases t with
  | span => rw [List.mem_singleton.1 h]
  | own owner => cases h

theorem serial_of_mem_made {x : Contexts} {kind : ContextKind} {t : Tracer} {s : Span}
    (h : s ∈ (x.made kind t).spans) : s.serial = x.spansMade := by
  cases t with
  | span => rw [List.mem_singleton.1 h]
  | own owner => cases h

/-- What can become of the open contexts, and what is seen of it. -/
inductive Step (x : Contexts) : List Event → Contexts → Prop
  | quiet {es : List Event} (h : ∀ e ∈ es, e.span? = none) : Step x es x
  | consume (name : String) (t : Tracer) (d : Delivery) :
    Step x ((x.made .consuming t).openDelivery d ++ x.closing .consuming name)
      (x.keep .consuming name (x.made .consuming t))
  | produce (name : String) (t : Tracer) (m : Publish) :
    Step x ((x.made .producing t).openPublish m ++ x.closing .producing name)
      (x.keep .producing name (x.made .producing t))
  | respond {name : String} {c : Context} (h : x.producing.find? name = some c)
    (confirm : Confirm) : Step x (c.respond confirm) x
  | finish (kind : ContextKind) (name : String) :
    Step x (x.closing kind name) (x.remove kind name)

end Contexts

theorem append_diff_self (l r : List Span) : (l ++ r).diff l = r := by
  induction l with
  | nil => rfl
  | cons s l ih => rw [List.diff_cons, List.cons_append, List.erase_cons_head, ih]

namespace Contexts

/-- What holds of contexts and recorder between two steps, where `outer` was entered before them. -/
structure Balanced (outer : List Span) (x : Contexts) (k : Recorder) : Prop where
  made : k.made = x.spansMade
  sorted : ∀ kind, (x.of kind).Sorted
  named : ∀ kind, ∀ s ∈ spansIn (x.of kind), s.name = kind.spanName
  spans : k.spans.Perm x.spans
  sound : k.Sound
  entered : k.entered = outer
  given : ∀ s ∈ outer, s.serial < k.made
  apart : ∀ s ∈ k.spans, s ∉ outer

namespace Balanced

variable {outer : List Span} {x : Contexts} {k : Recorder} (h : x.Balanced outer k)
include h

theorem open_of_spanAt_eq {kind : ContextKind} {name : String} {s : Span}
    (hs : spanAt (x.of kind) name = some s) :
    s.name = kind.spanName ∧ s ∈ k.spans ∧ s ∉ k.entered := by
  have hin : s ∈ spansIn (x.of kind) :=
    (perm_spansIn (h.sorted kind) name).mem_iff.2
      (List.mem_append_left _ (Option.mem_toList.2 hs))
  have hopen : s ∈ k.spans := by
    rw [h.spans.mem_iff, (x.perm_spans kind).mem_iff]
    exact List.mem_append_left _ hin
  refine ⟨h.named kind s hin, hopen, ?_⟩
  rw [h.entered]
  exact h.apart s hopen

theorem perm_spans_apart (kind : ContextKind) (name : String) :
    k.spans.Perm ((spanAt (x.of kind) name).toList ++
      (spansIn ((x.of kind).erase name) ++ spansIn (x.of kind.other))) := by
  refine h.spans.trans ((x.perm_spans kind).trans ?_)
  rw [← List.append_assoc]
  exact (perm_spansIn (h.sorted kind) name).append_right _

theorem spanAt_inj {kind kind' : ContextKind} {name name' : String} {s : Span}
    (hs : spanAt (x.of kind) name = some s) (hs' : spanAt (x.of kind') name' = some s) :
    kind = kind' ∧ name = name' := by
  obtain rfl : kind = kind' := ContextKind.spanName_inj
    ((h.open_of_spanAt_eq hs).1.symm.trans (h.open_of_spanAt_eq hs').1)
  refine ⟨rfl, ?_⟩
  by_contra hne
  have hnodup := (h.perm_spans_apart kind name).nodup_iff.1 h.sound.nodup
  -- the span of the other name is among those that are not of this one
  have hother : spanAt ((x.of kind).erase name) name' = some s := by
    rw [spanAt_erase, if_neg (Ne.symm hne), hs']
  have hapart : s ∈ spansIn ((x.of kind).erase name) :=
    (perm_spansIn (OrderedTable.sorted_erase (h.sorted kind) name) name').mem_iff.2
      (List.mem_append_left _ (Option.mem_toList.2 hother))
  exact List.disjoint_of_nodup_append hnodup (Option.mem_toList.2 hs)
    (List.mem_append_left _ hapart)

theorem countP_spans (kind : ContextKind) :
    k.spans.countP (·.name = kind.spanName) = (x.of kind).countP fun e => e.2.span?.isSome := by
  have hown : (spansIn (x.of kind)).countP (·.name = kind.spanName) =
      (spansIn (x.of kind)).length :=
    List.countP_eq_length.2 fun s hs => decide_eq_true (h.named kind s hs)
  have hother : (spansIn (x.of kind.other)).countP (·.name = kind.spanName) = 0 := by
    refine List.countP_eq_zero.2 fun s hs => ?_
    rw [decide_eq_true_iff, h.named kind.other s hs]
    exact fun heq => kind.other_ne (ContextKind.spanName_inj heq)
  rw [(h.spans.trans (x.perm_spans kind)).countP_eq, List.countP_append, hown, hother,
    Nat.add_zero, length_spansIn]

/-- What is closed is taken out of the open spans, and what is opened is not. -/
theorem perm_spans_diff (kind : ContextKind) (name : String) (new : List Span) :
    ((new ++ k.spans).diff (spanAt (x.of kind) name).toList).Perm
      (new ++ (spansIn ((x.of kind).erase name) ++ spansIn (x.of kind.other))) := by
  have hperm := ((h.perm_spans_apart kind name).append_left new).trans
    (List.perm_append_comm_assoc _ _ _)
  have hdiff := hperm.diff_right (spanAt (x.of kind) name).toList
  rwa [append_diff_self] at hdiff

theorem named_of_mem_erase {kind : ContextKind} {name : String} :
    ∀ s ∈ spansIn ((x.of kind).erase name), s.name = kind.spanName := fun s hs =>
  h.named kind s ((perm_spansIn (h.sorted kind) name).mem_iff.2 (List.mem_append_right _ hs))

section Create

variable {kind : ContextKind} {t : Tracer} {opening : List Event}
  (hopening : k.HearsOpening (x.made kind t) opening) (name : String)
include hopening

theorem wellFormed_keep : k.WellFormed (opening ++ x.closing kind name) := by
  refine (k.wellFormed_append _ _).2 ⟨hopening.wellFormed fun s hs => ?_, ?_⟩
  · rw [serial_of_mem_made hs, h.made]
  · rw [hopening.heard]
    refine x.wellFormed_closing kind name fun s hs => ?_
    obtain ⟨-, hopen, hleft⟩ := h.open_of_spanAt_eq hs
    exact ⟨List.mem_append_right _ hopen, hleft⟩

omit h in
theorem hearAll_keep :
    k.hearAll (opening ++ x.closing kind name) =
      { made := k.made + (x.made kind t).spans.length
        spans := ((x.made kind t).spans ++ k.spans).diff (spanAt (x.of kind) name).toList
        entered := k.entered } := by
  rw [Recorder.hearAll_append, hearAll_closing, hopening.heard]
  rfl

theorem keep : (x.keep kind name (x.made kind t)).Balanced outer
    (k.hearAll (opening ++ x.closing kind name)) where
  made := by
    rw [hearAll_keep hopening]
    exact congrArg (· + (x.made kind t).spans.length) h.made
  sorted kind' := by
    rw [of_keep]
    split_ifs
    · exact OrderedTable.sorted_insert name _ (h.sorted kind')
    · exact h.sorted kind'
  named kind' := by
    rw [of_keep]
    split_ifs with hkind
    · subst hkind
      intro s hs
      rw [(perm_spansIn_insert (h.sorted kind') name _).mem_iff, List.mem_append] at hs
      exact hs.elim name_of_mem_made (h.named_of_mem_erase s)
    · exact h.named kind'
  spans := by
    have hcontexts := (x.keep kind name (x.made kind t)).perm_spans kind
    rw [of_keep, of_keep, if_pos rfl, if_neg kind.other_ne] at hcontexts
    rw [hearAll_keep hopening]
    refine (h.perm_spans_diff kind name (x.made kind t).spans).trans ?_
    refine List.Perm.trans ?_ hcontexts.symm
    rw [← List.append_assoc]
    exact (perm_spansIn_insert (h.sorted kind) name _).symm.append_right _
  sound := h.sound.hearAll (h.wellFormed_keep hopening name)
  entered := by
    rw [hearAll_keep hopening]
    exact h.entered
  given s hs := by
    rw [hearAll_keep hopening]
    exact (h.given s hs).trans_le (Nat.le_add_right _ _)
  apart s hs hmem := by
    rw [hearAll_keep hopening] at hs
    rcases List.mem_append.1 ((List.diff_subset _ _) hs) with hnew | hold
    · -- a new span has a number that no span entered before has
      have hserial : s.serial = k.made := (serial_of_mem_made hnew).trans h.made.symm
      exact Nat.ne_of_lt (h.given s hmem) hserial
    · exact h.apart s hold hmem

end Create

theorem remove (kind : ContextKind) (name : String) :
    (x.remove kind name).Balanced outer (k.hearAll (x.closing kind name)) where
  made := by
    rw [hearAll_closing]
    cases kind <;> exact h.made
  sorted kind' := by
    rw [of_remove]
    split_ifs
    · exact OrderedTable.sorted_erase (h.sorted kind') name
    · exact h.sorted kind'
  named kind' := by
    rw [of_remove]
    split_ifs with hkind
    · subst hkind
      exact h.named_of_mem_erase
    · exact h.named kind'
  spans := by
    have hcontexts := (x.remove kind name).perm_spans kind
    rw [of_remove, of_remove, if_pos rfl, if_neg kind.other_ne] at hcontexts
    rw [hearAll_closing]
    exact (h.perm_spans_diff kind name []).trans hcontexts.symm
  sound := h.sound.hearAll (x.wellFormed_closing kind name fun s hs => (h.open_of_spanAt_eq hs).2)
  entered := by
    rw [hearAll_closing]
    exact h.entered
  given s hs := by
    rw [hearAll_closing]
    exact h.given s hs
  apart s hs := by
    rw [hearAll_closing] at hs
    exact h.apart s ((List.diff_subset _ _) hs)

theorem step {es : List Event} {x' : Contexts} (hstep : x.Step es x') :
    k.WellFormed es ∧ x'.Balanced outer (k.hearAll es) := by
  cases hstep with
  | quiet hquiet =>
    rw [Recorder.hearAll_of_no_span hquiet]
    exact ⟨Recorder.wellFormed_of_no_span hquiet, h⟩
  | consume name t d =>
    have hopening := k.hearsOpening_delivery (x.made .consuming t) d
    exact ⟨h.wellFormed_keep hopening name, h.keep hopening name⟩
  | produce name t m =>
    have hopening := k.hearsOpening_publish (x.made .producing t) m
    exact ⟨h.wellFormed_keep hopening name, h.keep hopening name⟩
  | @respond name c hfound confirm =>
    rw [Recorder.hearAll_respond]
    refine ⟨k.wellFormed_respond (fun s hs => ?_) confirm, h⟩
    have hat : spanAt (x.of .producing) name = some s := by
      rw [← Option.mem_toList, toList_spanAt, of, hfound]
      exact hs
    exact (h.open_of_spanAt_eq hat).2.1
  | finish kind name =>
    exact ⟨x.wellFormed_closing kind name fun s hs => (h.open_of_spanAt_eq hs).2,
      h.remove kind name⟩

end Balanced

/-- A context has one span as long as it is open: a step that takes it away closes it. -/
theorem Step.spanAt_or_closed {x x' : Contexts} {es : List Event} (hstep : x.Step es x')
    {kind : ContextKind} {name : String} {s : Span} (hs : spanAt (x.of kind) name = some s) :
    spanAt (x'.of kind) name = some s ∨ .spanClosed s ∈ es := by
  have hgone {kind' : ContextKind} {name' : String} (hkind : kind = kind') (hname : name = name') :
      .spanClosed s ∈ x.closing kind' name' := by
    subst hkind hname
    rw [x.closing_of_spanAt_eq kind name hs]
    exact List.mem_singleton.2 rfl
  have hkeep (kind' : ContextKind) (name' : String) (c : Context) :
      spanAt ((x.keep kind' name' c).of kind) name = some s ∨
        .spanClosed s ∈ x.closing kind' name' := by
    rw [of_keep]
    split_ifs with hkind
    · rw [spanAt_insert]
      split_ifs with hname
      · exact .inr (hgone hkind hname)
      · exact .inl hs
    · exact .inl hs
  cases hstep with
  | quiet _ | respond _ _ => exact .inl hs
  | consume name' t d =>
    exact (hkeep .consuming name' _).imp_right (List.mem_append_right _)
  | produce name' t m =>
    exact (hkeep .producing name' _).imp_right (List.mem_append_right _)
  | finish kind' name' =>
    rw [of_remove]
    split_ifs with hkind
    · rw [spanAt_erase]
      split_ifs with hname
      · exact .inr (hgone hkind hname)
      · exact .inl hs
    · exact .inl hs

end Contexts

end BrokerPolicy
