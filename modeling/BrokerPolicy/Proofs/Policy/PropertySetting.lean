import BrokerPolicy.Proofs.Policy.ClientProperties
import BrokerPolicy.Proofs.Session.Handles

set_option autoImplicit false

/-!
One client property set on a builder. The name alone decides: one that may be set is given the value
and touches nothing else, any other leaves everything and is told in the error and in one warning.
-/

namespace BrokerPolicy

namespace Property

theorem acceptable_iff (name : String) :
    Acceptable name ↔
      1 ≤ name.utf8ByteSize ∧ name.utf8ByteSize ≤ 255 ∧ name ∉ reservedNames := by
  have hempty : name ≠ "" ↔ 1 ≤ name.utf8ByteSize := by
    rw [Nat.one_le_iff_ne_zero, Ne, Ne, String.utf8ByteSize_eq_zero_iff]
  rw [Acceptable, hempty]
  rfl

theorem fault_empty : fault "" = .invalidPropertyName "" .empty := rfl

theorem fault_of_long {name : String} (h : 255 < name.utf8ByteSize) :
    fault name = .invalidPropertyName name .tooLong := by
  have hempty : name ≠ "" := fun he => absurd h (by rw [he]; decide)
  have hlong : maxNameBytes < name.utf8ByteSize := h
  rw [fault, if_neg hempty, if_pos hlong]

/-- Reserved names are short, so the length is not what is told of them. -/
theorem fault_of_reserved {name : String} (h : name ∈ reservedNames) :
    fault name = .reservedProperty name := by
  have hbounds : ∀ n ∈ reservedNames, n ≠ "" ∧ n.utf8ByteSize ≤ maxNameBytes := by decide
  obtain ⟨hempty, hsize⟩ := hbounds name h
  rw [fault, if_neg hempty, if_neg (Nat.not_lt.2 hsize)]

end Property

namespace ClientProperties

structure SetTo (p q : ClientProperties) (name : String) (value : FieldValue) : Prop where
  found : q.get? name = some value
  others : ∀ m, m ≠ name → q.get? m = p.get? m
  sorted : p.table.Sorted → q.table.Sorted
  size : p.table.Sorted → q.size = p.size + if p.contains name then 0 else 1

theorem setTo_insert (p : ClientProperties) (name : String) (value : FieldValue) :
    p.SetTo ⟨OrderedTable.insert name value p.table⟩ name value where
  found := by
    rw [get?, OrderedTable.find?_insert, if_pos rfl]
  others m hm := by
    rw [get?, OrderedTable.find?_insert, if_neg hm, get?]
  sorted h := OrderedTable.sorted_insert name value h
  size h := OrderedTable.length_insert h name value

end ClientProperties

namespace Builder

variable (b : Builder) (name : String) (value : FieldValue)

def overridingRecord : Event :=
  .log .debug Log.builderTarget "Overriding default client property" [("property", .text name)]

def rejectionRecord (e : PolicyError) : Event :=
  .log .warn Log.builderTarget "Client property rejected"
    [("property", .text name), ("error", .shown e.message)]

theorem setProperty_of_acceptable (h : Property.Acceptable name) :
    b.setProperty name value =
      ⟨⟨b.policy.write (.property name value)⟩, none,
        if name ∈ Property.defaultedNames then [overridingRecord name] else []⟩ := by
  have hset : b.policy.properties.set name value =
      (.ok (Property.classify name),
        ⟨OrderedTable.insert name value b.policy.properties.table⟩) := by
    rw [ClientProperties.set, Property.checkName_of_acceptable h]
  rw [setProperty, hset]
  simp only [Property.classify_eq_defaulted_iff]
  rfl

theorem setProperty_of_not_acceptable (h : ¬ Property.Acceptable name) :
    b.setProperty name value =
      ⟨b, some (Property.fault name), [rejectionRecord name (Property.fault name)]⟩ := by
  have hset : b.policy.properties.set name value =
      (.error (Property.fault name), b.policy.properties) := by
    rw [ClientProperties.set, Property.checkName_eq_error h]
  rw [setProperty, hset]
  rfl

theorem sorted_run_properties (edition : Edition) (host : Host) (ops : List Operation) :
    ((Builder.ofHost host).run edition ops).builder.policy.properties.table.Sorted := by
  rw [run_policy]
  exact sorted_foldl_write (OrderedTable.sorted_ofList host.properties) (history edition ops)

/-- A caller sets a property of a builder. This succeeds exactly for names of 1 to 255 bytes that
are not reserved. Then the name has the value, all other names and all other parts of the policy are
as before, there is one entry more exactly if the name was absent, and a record tells of a default
that was overwritten, and of nothing else. Otherwise the error carries the name and says which rule
it breaks, one warning repeats it, and the builder stays as it was, in the caller's hands as in a
session. Counting entries rests on their order, which all calls keep. -/
theorem setProperty_outcome (edition : Edition) :
    let made := b.setProperty name value
    (made.error = none ↔
      1 ≤ name.utf8ByteSize ∧ name.utf8ByteSize ≤ 255 ∧ name ∉ Property.reservedNames) ∧
    (made.error = none →
      b.policy.properties.SetTo made.builder.policy.properties name value ∧
      made.builder.policy = { b.policy with properties := made.builder.policy.properties } ∧
      made.events = if name ∈ Property.defaultedNames then [overridingRecord name] else []) ∧
    (∀ e, made.error = some e →
      (name = "" → e = .invalidPropertyName name .empty) ∧
      (255 < name.utf8ByteSize → e = .invalidPropertyName name .tooLong) ∧
      (name ∈ Property.reservedNames → e = .reservedProperty name) ∧
      made.events = [rejectionRecord name e] ∧
      made.builder = b ∧
      b.attempt edition (.property name value) = b ∧
      ∀ (s : Session) (holder : String),
        s.setOn holder b (.property name value) =
          ⟨(s.putBuilder holder b).1, .refused e, [rejectionRecord name e],
            (s.putBuilder holder b).2⟩ ∧
        (s.builders.Sorted → s.builders.find? holder = some b →
          (s.setOn holder b (.property name value)).session = s ∧
          (s.Counted → (s.setOn holder b (.property name value)).gone = []))) ∧
    ∀ (host : Host) (ops : List Operation),
      ((Builder.ofHost host).run edition ops).builder.policy.properties.table.Sorted := by
  intro made
  rw [← Property.acceptable_iff]
  refine ⟨?_, ?_, ?_, sorted_run_properties edition⟩
  · by_cases h : Property.Acceptable name
    · have hmade : made = _ := setProperty_of_acceptable b name value h
      rw [hmade]
      exact iff_of_true rfl h
    · have hmade : made = _ := setProperty_of_not_acceptable b name value h
      rw [hmade]
      exact iff_of_false (Option.some_ne_none _) h
  · intro hnone
    by_cases h : Property.Acceptable name
    · have hmade : made = _ := setProperty_of_acceptable b name value h
      rw [hmade]
      exact ⟨b.policy.properties.setTo_insert name value, rfl, rfl⟩
    · have hmade : made = _ := setProperty_of_not_acceptable b name value h
      rw [hmade] at hnone
      cases hnone
  · intro e he
    by_cases h : Property.Acceptable name
    · have hmade : made = _ := setProperty_of_acceptable b name value h
      rw [hmade] at he
      cases he
    · have hmade : made = _ := setProperty_of_not_acceptable b name value h
      rw [hmade] at he ⊢
      obtain rfl : Property.fault name = e := Option.some.inj he
      have hsession (s : Session) (holder : String) :
          s.setOn holder b (.property name value) =
            ⟨(s.putBuilder holder b).1, .refused (Property.fault name),
              [rejectionRecord name (Property.fault name)], (s.putBuilder holder b).2⟩ := by
        change s.keepBuilder holder made = _
        rw [hmade]
        rfl
      -- the builder goes back to where it was, so the handle given back is the one just taken
      refine ⟨?_, Property.fault_of_long, Property.fault_of_reserved, rfl, rfl, ?_, ?_⟩
      · rintro rfl
        exact Property.fault_empty
      · have havailable : (Setting.property name value).availableIn edition = true := rfl
        rw [attempt, if_pos havailable]
        exact congrArg Made.builder hmade
      · intro s holder
        refine ⟨hsession s holder, fun hsorted hfound => ?_⟩
        rw [hsession]
        exact ⟨Session.putBuilder_same hsorted hfound,
          Session.gone_putBuilder_same hsorted hfound⟩

/-- Letter case counts, and so do bytes: 128 letters of two bytes each are too many. A default that
is overwritten adds no entry. -/
theorem setProperty_outcome_letters :
    let b : Builder := ⟨Policy.ofProperties ClientProperties.empty⟩
    let made := b.setProperty "Product" (.bool true)
    made.builder.policy.properties.size = 1 ∧
      (made.builder.setProperty "Product" (.bool false)).error = none ∧
      (b.setProperty (String.ofList (List.replicate 128 'é')) (.bool true)).error ≠ none ∧
      (b.setProperty "product" (.bool true)).builder = b := by
  intro b made
  obtain ⟨-, hset, -⟩ := setProperty_outcome b "Product" (.bool true) .standard
  have hagain := (setProperty_outcome made.builder "Product" (.bool false) .standard).1
  have hlong :=
    (setProperty_outcome b (String.ofList (List.replicate 128 'é')) (.bool true) .standard).1
  obtain ⟨-, -, herror, -⟩ := setProperty_outcome b "product" (.bool true) .standard
  refine ⟨((hset rfl).1.size OrderedTable.sorted_nil).trans rfl, hagain.2 (by decide), ?_,
    (herror _ rfl).2.2.2.2.1⟩
  exact fun h => absurd (hlong.1 h).2.1 (by decide +kernel)

end Builder

end BrokerPolicy
