import BrokerPolicy.Property.Key
import Mathlib.Tactic.ByContra
import Mathlib.Tactic.SplitIfs

set_option autoImplicit false

/-!
The check of a property name decides `Acceptable`, and the three classes part all names.
-/

namespace BrokerPolicy.Property

instance (name : String) : Decidable (Acceptable name) :=
  inferInstanceAs (Decidable (name ≠ "" ∧ name.utf8ByteSize ≤ maxNameBytes ∧
    name ∉ reservedNames))

def refusal? (name : String) : Option PolicyError :=
  match checkName name with
  | .error e => some e
  | .ok _ => none

theorem defaultedNames_disjoint : ∀ name ∈ defaultedNames, name ∉ reservedNames := by decide

theorem defaultedNames_acceptable : ∀ name ∈ defaultedNames, Acceptable name := by decide

theorem classify_eq_reserved_iff (name : String) :
    classify name = .reserved ↔ name ∈ reservedNames := by
  unfold classify
  split_ifs with hr hd <;> simp [hr]

theorem classify_eq_defaulted_iff (name : String) :
    classify name = .defaulted ↔ name ∈ defaultedNames := by
  unfold classify
  split_ifs with hr hd
  · have hn : name ∉ defaultedNames := fun hd => defaultedNames_disjoint name hd hr
    simp [hn]
  · simp [hd]
  · simp [hd]

theorem classify_eq_custom_iff (name : String) :
    classify name = .custom ↔ name ∉ reservedNames ∧ name ∉ defaultedNames := by
  unfold classify
  split_ifs with hr hd <;> simp [*]

theorem checkName_of_acceptable {name : String} (h : Acceptable name) :
    checkName name = .ok (classify name) := by
  obtain ⟨hempty, hsize, hreserved⟩ := h
  have hclass : classify name ≠ .reserved := fun hc =>
    hreserved ((classify_eq_reserved_iff name).1 hc)
  rw [checkName, if_neg hempty, if_neg (Nat.not_lt.2 hsize)]
  cases hc : classify name with
  | reserved => exact absurd hc hclass
  | defaulted => rfl
  | custom => rfl

theorem checkName_of_not_acceptable {name : String} (h : ¬ Acceptable name) :
    ∃ e, checkName name = .error e := by
  unfold checkName
  split_ifs with hempty hsize
  · exact ⟨_, rfl⟩
  · exact ⟨_, rfl⟩
  · have hreserved : name ∈ reservedNames := by
      by_contra hr
      exact h ⟨hempty, Nat.not_lt.1 hsize, hr⟩
    rw [(classify_eq_reserved_iff name).2 hreserved]
    exact ⟨_, rfl⟩

def fault (name : String) : PolicyError :=
  if name = "" then .invalidPropertyName name .empty
  else if maxNameBytes < name.utf8ByteSize then .invalidPropertyName name .tooLong
  else .reservedProperty name

theorem checkName_eq_error {name : String} (h : ¬ Acceptable name) :
    checkName name = .error (fault name) := by
  obtain ⟨e, he⟩ := checkName_of_not_acceptable h
  rw [he, fault]
  unfold checkName at he
  split_ifs at he ⊢ with hempty hsize
  · exact he.symm
  · exact he.symm
  · split at he
    · exact he.symm
    · exact nomatch he

theorem refusal?_eq_fault {name : String} (h : ¬ Acceptable name) :
    refusal? name = some (fault name) := by
  rw [refusal?, checkName_eq_error h]

theorem refusal?_eq_none_iff (name : String) : refusal? name = none ↔ Acceptable name := by
  by_cases h : Acceptable name
  · simp [refusal?, checkName_of_acceptable h, h]
  · obtain ⟨e, he⟩ := checkName_of_not_acceptable h
    simp [refusal?, he, h]

end BrokerPolicy.Property
