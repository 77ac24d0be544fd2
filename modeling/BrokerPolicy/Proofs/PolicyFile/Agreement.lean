import BrokerPolicy.PolicyFile.Loading
import BrokerPolicy.Proofs.Policy.Builder

set_option autoImplicit false

/-!
Validation collects every problem of a file and application stops at the first refusal. They refuse
the same names in the same order, so a file that validates is never refused by a builder.
-/

namespace BrokerPolicy

namespace PolicyFile

def ValidationError.policyError? : ValidationError → Option PolicyError
  | .property e => some e
  | _ => none

theorem durationErrors_policyError? (field : Field) (seconds : Option UInt64) :
    (durationErrors field seconds).findSome? ValidationError.policyError? = none := by
  cases seconds with
  | none => rfl
  | some s =>
    rw [durationErrors]
    split_ifs <;> rfl

theorem nameErrors_policyError? (name : String) :
    (nameErrors name).findSome? ValidationError.policyError? = Property.refusal? name := by
  unfold nameErrors Property.refusal?
  cases Property.checkName name <;> rfl

theorem tunableErrors_policyError? (edition : Edition) (name : String) :
    (tunableErrors edition name).findSome? ValidationError.policyError? = none := by
  unfold tunableErrors
  split_ifs <;> rfl

theorem logLevelErrors_policyError? (level : String) :
    (logLevelErrors level).findSome? ValidationError.policyError? = none := by
  unfold logLevelErrors
  split_ifs <;> rfl

theorem findSome?_flatMap {α β γ : Type} (l : List α) (f : α → List β) (g : β → Option γ) :
    (l.flatMap f).findSome? g = l.findSome? fun a => (f a).findSome? g := by
  induction l with
  | nil => rfl
  | cons a l ih =>
    rw [List.flatMap_cons, List.findSome?_append, ih, List.findSome?_cons]
    cases (f a).findSome? g <;> rfl

theorem findSome?_eq_none {α β : Type} (l : List α) {g : α → Option β} (h : ∀ a, g a = none) :
    l.findSome? g = none := List.findSome?_eq_none_iff.2 fun a _ => h a

theorem validate_policyError? (edition : Edition) (f : PolicyFile) :
    (f.validate edition).findSome? ValidationError.policyError? =
      (OrderedTable.names f.properties).findSome? Property.refusal? := by
  have htunables : (f.tunables.flatMap (tunableErrors edition)).findSome?
      ValidationError.policyError? = none := by
    rw [findSome?_flatMap]
    exact findSome?_eq_none _ (tunableErrors_policyError? edition)
  rw [validate, List.findSome?_append, List.findSome?_append, List.findSome?_append,
    List.findSome?_append, durationErrors_policyError?, durationErrors_policyError?, htunables,
    logLevelErrors_policyError?, findSome?_flatMap]
  simp only [nameErrors_policyError?, Option.none_or, Option.or_none]

theorem apply_error_eq_validate (edition : Edition) (f : PolicyFile) (b : Builder) :
    (f.apply edition b).error =
      (f.validate edition).findSome? ValidationError.policyError? := by
  rw [apply_error, validate_policyError?]

theorem apply_error_of_valid {edition : Edition} {f : PolicyFile} (h : f.validate edition = [])
    (b : Builder) : (f.apply edition b).error = none := by
  rw [apply_error_eq_validate, h]
  rfl

theorem exists_property_iff (errors : List ValidationError) :
    (∃ e, ValidationError.property e ∈ errors) ↔
      (errors.findSome? ValidationError.policyError?).isSome := by
  rw [List.findSome?_isSome_iff]
  constructor
  · rintro ⟨e, he⟩
    exact ⟨.property e, he, rfl⟩
  · rintro ⟨problem, hmem, hsome⟩
    cases problem with
    | property e => exact ⟨e, hmem⟩
    | _ => exact absurd hsome (by simp [ValidationError.policyError?])

theorem loadBuilder_fst (edition : Edition) (host : Host) (path : String)
    (content : FileContent) :
    (loadBuilder edition host path content).1 =
      match content with
      | .error fault => .error (.io fault)
      | .ok source =>
        match ofToml source with
        | .error e => .error (.parse ⟨source, e⟩)
        | .ok f =>
          if f.validate edition = [] then .ok (f.apply edition (Builder.ofHost host)).builder
          else .error (.validation (f.validate edition)) := by
  cases content with
  | error fault => rfl
  | ok source =>
    cases hf : ofToml source with
    | error e => simp [loadBuilder, load, parse, hf]
    | ok f =>
      cases hv : f.validate edition with
      | nil =>
        have happlied : (f.apply edition (Builder.ofHost host)).error = none := by
          rw [apply_error_eq_validate, hv]
          rfl
        simp [loadBuilder, load, parse, hf, hv, happlied]
      | cons problem problems => simp [loadBuilder, load, parse, hf, hv]

/-- No executor is lent to the builder of a file, so nothing can refuse its policy. -/
theorem build_apply_ofHost (edition : Edition) (f : PolicyFile) (host : Host)
    (accepts : Executor → Bool) :
    ((f.apply edition (Builder.ofHost host)).builder.build accepts).1 =
      .ok (f.apply edition (Builder.ofHost host)).builder.policy := by
  rw [Builder.build_fst, apply_resource]
  rfl

/-- A builder refuses a file exactly when validation finds a refused name in it, and it gives the
first one that validation lists. So loading fails only for a fault of the file, of its text or of
its content, and what it gives otherwise can always be handed off. -/
theorem apply_agrees_with_validate (edition : Edition) (f : PolicyFile) (b : Builder)
    (host : Host) (path : String) (content : FileContent) :
    ((f.apply edition b).error.isSome ↔
        ∃ e, ValidationError.property e ∈ f.validate edition) ∧
      (f.apply edition b).error =
        (f.validate edition).findSome? ValidationError.policyError? ∧
      (∀ e, (loadBuilder edition host path content).1 ≠ .error (.policy e)) ∧
      ((∃ fault, content = .error fault ∧
          (loadBuilder edition host path content).1 = .error (.io fault)) ∨
        (∃ source e, content = .ok source ∧ ofToml source = .error e ∧
          (loadBuilder edition host path content).1 = .error (.parse ⟨source, e⟩)) ∨
        (∃ source g, content = .ok source ∧ ofToml source = .ok g ∧ g.validate edition ≠ [] ∧
          (loadBuilder edition host path content).1 = .error (.validation (g.validate edition))) ∨
        ∃ source g loaded, content = .ok source ∧ ofToml source = .ok g ∧
          g.validate edition = [] ∧ loaded = (g.apply edition (Builder.ofHost host)).builder ∧
          (loadBuilder edition host path content).1 = .ok loaded ∧
          ∀ accepts, (loaded.build accepts).1 = .ok loaded.policy) := by
  refine ⟨?_, apply_error_eq_validate edition f b, ?_⟩
  · rw [apply_error_eq_validate, exists_property_iff]
  · rw [loadBuilder_fst]
    cases content with
    | error fault => exact ⟨by simp, .inl ⟨fault, rfl, rfl⟩⟩
    | ok source =>
      cases hg : ofToml source with
      | error e => exact ⟨by simp [hg], .inr (.inl ⟨source, e, rfl, hg, by simp [hg]⟩)⟩
      | ok g =>
        simp only [hg]
        split_ifs with hv
        · refine ⟨by simp, .inr (.inr (.inr ⟨source, g, _, rfl, hg, hv, rfl, rfl, ?_⟩))⟩
          exact build_apply_ofHost edition g host
        · exact ⟨by simp, .inr (.inr (.inl ⟨source, g, rfl, hg, hv, rfl⟩))⟩

end PolicyFile

end BrokerPolicy
