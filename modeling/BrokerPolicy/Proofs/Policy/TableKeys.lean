import BrokerPolicy.PolicyFile.Validation
import BrokerPolicy.Proofs.Policy.ClientProperties

set_option autoImplicit false

/-!
The keys of all tables that the client properties of a policy are made of. The names of properties
always fit a short string. Keys inside a value are kept as they were given, so they fit if those of
the values last accepted do.
-/

namespace BrokerPolicy

namespace FieldValue

mutual

def keys : FieldValue → List String
  | .array items => keysItems items
  | .table entries => keysEntries entries
  | _ => []

def keysItems : List FieldValue → List String
  | [] => []
  | v :: rest => keys v ++ keysItems rest

def keysEntries : List (String × FieldValue) → List String
  | [] => []
  | (name, v) :: rest => name :: (keys v ++ keysEntries rest)

end

theorem mem_keysEntries_iff (entries : List (String × FieldValue)) (key : String) :
    key ∈ keysEntries entries ↔ ∃ e ∈ entries, key = e.1 ∨ key ∈ e.2.keys := by
  induction entries with
  | nil => simp [keysEntries]
  | cons e rest ih =>
    obtain ⟨name, v⟩ := e
    simp only [keysEntries, List.mem_cons, List.mem_append, ih, exists_eq_or_imp, or_assoc]

def KeysFit (v : FieldValue) : Prop := ∀ key ∈ v.keys, key.utf8ByteSize ≤ Property.maxNameBytes

end FieldValue

namespace ClientProperties

/-- The properties as the one table that is sent to the broker. -/
def whole (p : ClientProperties) : FieldValue := .table p.table

theorem mem_keys_whole_iff {p : ClientProperties} (h : p.table.Sorted) (key : String) :
    key ∈ p.whole.keys ↔
      key ∈ p.table.names ∨ ∃ name value, p.get? name = some value ∧ key ∈ value.keys := by
  rw [whole, FieldValue.keys, FieldValue.mem_keysEntries_iff]
  constructor
  · rintro ⟨e, he, rfl | hkey⟩
    · exact .inl (List.mem_map_of_mem he)
    · exact .inr ⟨e.1, e.2, (h.mem_iff e).1 he, hkey⟩
  · rintro (hname | ⟨name, value, hvalue, hkey⟩)
    · obtain ⟨e, he, rfl⟩ := List.mem_map.1 hname
      exact ⟨e, he, .inl rfl⟩
    · exact ⟨(name, value), (h.mem_iff (name, value)).2 hvalue, .inr hkey⟩

theorem keys_of_ofHost {host : Host} {name : String} {value : FieldValue}
    (h : (ofHost host).get? name = some value) : value.keys = [] := by
  have hmem : (name, value) ∈ host.properties :=
    OrderedTable.mem_ofList (OrderedTable.mem_of_find?_eq h)
  simp only [Host.properties, List.mem_cons, List.not_mem_nil, Prod.mk.injEq, or_false] at hmem
  rcases hmem with ⟨_, rfl⟩ | ⟨_, rfl⟩ | ⟨_, rfl⟩ | ⟨_, rfl⟩ | ⟨_, rfl⟩ <;> rfl

end ClientProperties

theorem get?_foldl_write (ws : List Setting) (host : Host) (name : String) :
    (ws.foldl Policy.write (Policy.ofHost host)).properties.get? name =
      (lastWrite (.property name) ws).getD ((ClientProperties.ofHost host).get? name) :=
  Slot.read_foldl_write (.property name) ws (Policy.ofHost host)

theorem keysFit_whole_iff {ws : List Setting} (h : ∀ s ∈ ws, s.Accepted) (host : Host) :
    (ws.foldl Policy.write (Policy.ofHost host)).properties.whole.KeysFit ↔
      ∀ name value, lastWrite (.property name) ws = some (some value) → value.KeysFit := by
  have hsorted := sorted_foldl_write (p := Policy.ofHost host)
    (OrderedTable.sorted_ofList host.properties) ws
  constructor
  · intro hfit name value hlast key hkey
    have hvalue : (ws.foldl Policy.write (Policy.ofHost host)).properties.get? name =
        some value := by
      rw [get?_foldl_write, hlast]
      rfl
    exact hfit key ((ClientProperties.mem_keys_whole_iff hsorted key).2
      (.inr ⟨name, value, hvalue, hkey⟩))
  · intro hlast key hkey
    rcases (ClientProperties.mem_keys_whole_iff hsorted key).1 hkey with
      hname | ⟨name, value, hvalue, hkey⟩
    · exact (acceptable_of_mem_names h host hname).2.1
    · rw [get?_foldl_write] at hvalue
      cases hwrite : lastWrite (.property name) ws with
      | none =>
        rw [hwrite] at hvalue
        rw [ClientProperties.keys_of_ofHost hvalue] at hkey
        exact absurd hkey List.not_mem_nil
      | some given =>
        rw [hwrite] at hvalue
        have hgiven : given = some value := hvalue
        exact hlast name value (hgiven ▸ hwrite) key hkey

/-- In every policy that calls give out, the names of the properties fit a short string. All keys
of the properties fit, at any depth, exactly if those of the values last accepted do: a value is
taken as it is, whichever call or file brings it. -/
theorem run_keysFit_iff (edition : Edition) (host : Host) (ops : List Operation) (i : Nat)
    (p : Policy) (h : ((Builder.ofHost host).run edition ops).obtained[i]? = some (some p)) :
    (∀ name ∈ p.properties.table.names, name.utf8ByteSize ≤ Property.maxNameBytes) ∧
      (p.properties.whole.KeysFit ↔
        ∀ name value,
          lastWrite (.property name) (history edition (ops.take i)) = some (some value) →
            value.KeysFit) := by
  have haccepted := history_accepted edition (ops.take i)
  have hp : p = (history edition (ops.take i)).foldl Policy.write (Policy.ofHost host) :=
    Builder.eq_foldl_write_of_obtained h
  subst hp
  exact ⟨fun name hname => (acceptable_of_mem_names haccepted host hname).2.1,
    keysFit_whole_iff haccepted host⟩

theorem run_keysFit_iff_nested :
    let host : Host := ⟨"worker", 7, "Linux", "6.1.0", "#1 SMP"⟩
    let value : FieldValue := .array [.table [("area", .bool true)]]
    let ops : List Operation := [.set (.property "meta" value), .snapshot]
    ∃ p : Policy, ((Builder.ofHost host).run .standard ops).obtained[1]? = some (some p) ∧
      p.properties.whole.KeysFit := by
  intro host value ops
  obtain ⟨p, hp⟩ : ∃ p, ((Builder.ofHost host).run .standard ops).obtained[1]? = some (some p) :=
    Builder.obtained_of_snapshot rfl
  have hiff := (run_keysFit_iff .standard host ops 1 p hp).2
  refine ⟨p, hp, hiff.2 fun name given hlast => ?_⟩
  have hwrite : history .standard (ops.take 1) = [.property "meta" value] := rfl
  rw [hwrite, lastWrite_property] at hlast
  split_ifs at hlast
  have hgiven : value = given := by simpa using hlast
  subst hgiven
  intro key hkey
  have harea : key = "area" := by
    simpa [value, FieldValue.keys, FieldValue.keysItems, FieldValue.keysEntries] using hkey
  subst harea
  decide

def overlongKey : String := String.ofList (List.replicate 256 'k')

theorem overlongKey_size : overlongKey.utf8ByteSize = 256 := by decide +kernel

theorem not_keysFit_whole {p : ClientProperties} {e : String × FieldValue} (he : e ∈ p.table)
    (hkey : overlongKey ∈ e.2.keys) : ¬ p.whole.KeysFit := by
  intro hfit
  have hle := hfit overlongKey ((FieldValue.mem_keysEntries_iff _ _).2 ⟨e, he, .inr hkey⟩)
  rw [overlongKey_size] at hle
  exact absurd hle (by decide)

/-- A key that does not fit gets into a policy inside a value, by a setting as by a file that
validates. -/
theorem overlongKey_inside_value :
    ∃ (p q : Policy) (f : PolicyFile),
      ((Builder.ofHost ⟨"worker", 7, "Linux", "6.1.0", "#1 SMP"⟩).run .standard
          [.set (.property "meta" (.table [(overlongKey, .bool true)])), .snapshot]).obtained[1]? =
        some (some p) ∧
      ¬ p.properties.whole.KeysFit ∧
      f.validate .standard = [] ∧
      ((Builder.ofHost ⟨"worker", 7, "Linux", "6.1.0", "#1 SMP"⟩).run .standard
          [.apply f, .build fun _ => true]).obtained[1]? = some (some q) ∧
      ¬ q.properties.whole.KeysFit := by
  have hentry (rest : List (String × FieldValue)) :
      ("meta", FieldValue.table [(overlongKey, .bool true)]) ∈
        ("meta", .table [(overlongKey, .bool true)]) :: rest := List.mem_cons_self
  refine ⟨_, _, ⟨none, none, none, [], [("meta", .table [(overlongKey, .bool true)])], "info"⟩,
    rfl, ?_, ?_, rfl, ?_⟩
  · exact not_keysFit_whole (hentry _) List.mem_cons_self
  · decide
  · exact not_keysFit_whole (hentry _) List.mem_cons_self

end BrokerPolicy
