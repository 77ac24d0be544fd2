import BrokerPolicy.Proofs.Policy.Run
import Mathlib.Data.Finset.Card
import Mathlib.Data.List.TakeWhile

set_option autoImplicit false

/-!
The client properties that runs lead to from a host. They always hold the five defaults, never a
reserved name, and one entry more for every custom name that was accepted.
-/

namespace BrokerPolicy

def Setting.customName? : Setting → Option String
  | .property name _ => if Property.classify name = .custom then some name else none
  | _ => none

namespace ClientProperties

/-- What holds of the properties of a policy that some accepted settings have led to. -/
structure WellKept (p : ClientProperties) (ws : List Setting) : Prop where
  reserved : ∀ name ∈ Property.reservedNames, p.contains name = false
  defaulted : ∀ name ∈ Property.defaultedNames, p.contains name = true
  lengths : ∀ name ∈ p.table.names,
    1 ≤ name.utf8ByteSize ∧ name.utf8ByteSize ≤ Property.maxNameBytes
  size : p.size = 5 + (ws.filterMap Setting.customName?).toFinset.card

def setEach (p : ClientProperties) :
    List (String × FieldValue) → Except PolicyError (List Property.KeyClass) × ClientProperties
  | [] => (.ok [], p)
  | (name, value) :: rest =>
    match p.set name value with
    | (.error e, p) => (.error e, p)
    | (.ok c, p) => (p.setEach rest).map (Except.map (c :: ·)) id

theorem setEach_of_acceptable {entries : List (String × FieldValue)}
    (h : ∀ e ∈ entries, Property.Acceptable e.1) (p : ClientProperties) :
    p.setEach entries =
      (.ok (entries.map fun e => Property.classify e.1),
        ⟨OrderedTable.insertAll p.table entries⟩) := by
  induction entries generalizing p with
  | nil => rfl
  | cons e rest ih =>
    obtain ⟨name, value⟩ := e
    have hname := Property.checkName_of_acceptable (h (name, value) List.mem_cons_self)
    have hrest := ih (fun e he => h e (List.mem_cons_of_mem _ he))
      ⟨OrderedTable.insert name value p.table⟩
    simp only [setEach, set, hname, hrest]
    rfl

theorem properties_names (h : Host) : h.properties.map Prod.fst = Property.defaultedNames := rfl

/-- The defaults of a host are what setting them one by one comes to. -/
theorem setEach_properties (h : Host) :
    empty.setEach h.properties = (.ok (List.replicate 5 .defaulted), ofHost h) := by
  have hacceptable : ∀ e ∈ h.properties, Property.Acceptable e.1 := by
    intro e he
    have hname : e.1 ∈ Property.defaultedNames :=
      properties_names h ▸ List.mem_map_of_mem he
    exact Property.defaultedNames_acceptable e.1 hname
  have hclasses : h.properties.map (fun e => Property.classify e.1) =
      List.replicate 5 .defaulted := by
    calc
      h.properties.map (fun e => Property.classify e.1)
          = (h.properties.map Prod.fst).map Property.classify := by rw [List.map_map]; rfl
      _ = List.replicate 5 .defaulted := by rw [properties_names]; decide
  rw [setEach_of_acceptable hacceptable, hclasses]
  rfl

end ClientProperties

theorem history_accepted (edition : Edition) (ops : List Operation) :
    ∀ s ∈ history edition ops, s.Accepted := by
  intro s hs
  obtain ⟨op, _, hop⟩ := List.mem_flatMap.1 hs
  cases op with
  | set t =>
    rw [Operation.writes] at hop
    split_ifs at hop with h
    · rw [List.mem_singleton.1 hop]
      exact h.2
    · exact absurd hop (by simp)
  | apply f => exact f.writes_accepted edition s hop
  | snapshot => exact absurd hop (by simp [Operation.writes])
  | build accepts => exact absurd hop (by simp [Operation.writes])

theorem mem_entries_iff (ws : List Setting) (name : String) :
    name ∈ (ws.filterMap Setting.entry?).map Prod.fst ↔ ∃ value, .property name value ∈ ws := by
  constructor
  · intro h
    obtain ⟨e, he, rfl⟩ := List.mem_map.1 h
    obtain ⟨s, hs, hentry⟩ := List.mem_filterMap.1 he
    cases s with
    | property n value =>
      have hn : (n, value) = e := Option.some.inj hentry
      exact ⟨value, hn ▸ hs⟩
    | _ => exact absurd hentry (by simp [Setting.entry?])
  · rintro ⟨value, h⟩
    exact List.mem_map.2 ⟨(name, value), List.mem_filterMap.2 ⟨_, h, rfl⟩, rfl⟩

theorem mem_customNames_iff (ws : List Setting) (name : String) :
    name ∈ ws.filterMap Setting.customName? ↔
      Property.classify name = .custom ∧ ∃ value, .property name value ∈ ws := by
  constructor
  · intro h
    obtain ⟨s, hs, hname⟩ := List.mem_filterMap.1 h
    cases s with
    | property n value =>
      rw [Setting.customName?] at hname
      split_ifs at hname with hc
      have hn : n = name := Option.some.inj hname
      subst hn
      exact ⟨hc, value, hs⟩
    | _ => exact absurd hname (by simp [Setting.customName?])
  · rintro ⟨hc, value, h⟩
    exact List.mem_filterMap.2 ⟨_, h, if_pos hc⟩

theorem mem_names_iff {ws : List Setting} (h : ∀ s ∈ ws, s.Accepted) (host : Host)
    (name : String) :
    name ∈ (ws.foldl Policy.write (Policy.ofHost host)).properties.table.names ↔
      name ∈ Property.defaultedNames ∨ name ∈ ws.filterMap Setting.customName? := by
  have hstart : name ∈ (ClientProperties.ofHost host).table.names ↔
      name ∈ Property.defaultedNames := by
    have hnames := OrderedTable.mem_names_insertAll [] host.properties name
    rw [ClientProperties.properties_names] at hnames
    exact hnames.trans (or_iff_right List.not_mem_nil)
  have htable : (Policy.ofHost host).properties.table =
      (ClientProperties.ofHost host).table := rfl
  rw [foldl_write_table, OrderedTable.mem_names_insertAll, htable, hstart, mem_entries_iff,
    mem_customNames_iff]
  constructor
  · rintro (hd | ⟨value, hs⟩)
    · exact .inl hd
    · by_cases hd : name ∈ Property.defaultedNames
      · exact .inl hd
      · have hreserved : name ∉ Property.reservedNames := (h _ hs).2.2
        exact .inr ⟨(Property.classify_eq_custom_iff name).2 ⟨hreserved, hd⟩, value, hs⟩
  · rintro (hd | ⟨_, hs⟩)
    · exact .inl hd
    · exact .inr hs

theorem acceptable_of_mem_names {ws : List Setting} (h : ∀ s ∈ ws, s.Accepted) (host : Host)
    {name : String}
    (hname : name ∈ (ws.foldl Policy.write (Policy.ofHost host)).properties.table.names) :
    Property.Acceptable name := by
  rcases (mem_names_iff h host name).1 hname with hd | hcustom
  · exact Property.defaultedNames_acceptable name hd
  · obtain ⟨_, value, hs⟩ := (mem_customNames_iff ws name).1 hcustom
    exact h _ hs

theorem sorted_foldl_write {p : Policy} (h : p.properties.table.Sorted) (ws : List Setting) :
    (ws.foldl Policy.write p).properties.table.Sorted := by
  rw [foldl_write_table]
  exact OrderedTable.sorted_insertAll h _

theorem length_names {ws : List Setting} (h : ∀ s ∈ ws, s.Accepted) (host : Host) :
    (ws.foldl Policy.write (Policy.ofHost host)).properties.table.names.length =
      5 + (ws.filterMap Setting.customName?).toFinset.card := by
  have hsorted := sorted_foldl_write (p := Policy.ofHost host)
    (OrderedTable.sorted_ofList host.properties) ws
  have hunion : (ws.foldl Policy.write (Policy.ofHost host)).properties.table.names.toFinset =
      Property.defaultedNames.toFinset ∪ (ws.filterMap Setting.customName?).toFinset := by
    ext name
    rw [List.mem_toFinset, mem_names_iff h, Finset.mem_union, List.mem_toFinset,
      List.mem_toFinset]
  have hdisjoint : Disjoint Property.defaultedNames.toFinset
      (ws.filterMap Setting.customName?).toFinset := by
    rw [Finset.disjoint_left]
    intro name hd hcustom
    have hclass := ((mem_customNames_iff ws name).1 (List.mem_toFinset.1 hcustom)).1
    exact ((Property.classify_eq_custom_iff name).1 hclass).2 (List.mem_toFinset.1 hd)
  have hfive : Property.defaultedNames.toFinset.card = 5 := by decide
  rw [← List.toFinset_card_of_nodup hsorted.nodup_names, hunion,
    Finset.card_union_of_disjoint hdisjoint, hfive]

theorem wellKept_foldl_write {ws : List Setting} (h : ∀ s ∈ ws, s.Accepted) (host : Host) :
    (ws.foldl Policy.write (Policy.ofHost host)).properties.WellKept ws where
  reserved := by
    intro name hreserved
    rw [Bool.eq_false_iff]
    intro hcontains
    have hname := (OrderedTable.contains_iff _ name).1 hcontains
    exact (acceptable_of_mem_names h host hname).2.2 hreserved
  defaulted := by
    intro name hd
    exact (OrderedTable.contains_iff _ name).2 ((mem_names_iff h host name).2 (.inl hd))
  lengths := by
    intro name hname
    obtain ⟨hempty, hsize, _⟩ := acceptable_of_mem_names h host hname
    have hpos : name.utf8ByteSize ≠ 0 := fun hz => hempty (String.utf8ByteSize_eq_zero_iff.1 hz)
    exact ⟨Nat.one_le_iff_ne_zero.2 hpos, hsize⟩
  size := by
    rw [← length_names h host, OrderedTable.names, List.length_map]
    rfl

/-- In every state that calls lead to from a host, of the builder as of every policy it gave out,
the properties hold the defaults, no reserved name, and an entry for each custom name accepted so
far. The defaults themselves are what setting them one by one comes to. -/
theorem run_properties_wellKept (edition : Edition) (host : Host) (ops : List Operation) :
    ((Builder.ofHost host).run edition ops).builder.policy.properties.WellKept
        (history edition ops) ∧
      (∀ i (p : Policy), ((Builder.ofHost host).run edition ops).obtained[i]? = some (some p) →
        p.properties.WellKept (history edition (ops.take i))) ∧
      ClientProperties.empty.setEach host.properties =
        (.ok (List.replicate 5 .defaulted), ClientProperties.ofHost host) := by
  refine ⟨?_, ?_, ClientProperties.setEach_properties host⟩
  · rw [Builder.run_policy]
    exact wellKept_foldl_write (history_accepted edition ops) host
  · intro i p hp
    rw [Builder.eq_foldl_write_of_obtained hp]
    exact wellKept_foldl_write (history_accepted edition (ops.take i)) host

/-- Overwriting a default adds nothing, and a file that is refused adds what came before. -/
theorem run_properties_wellKept_team :
    ∃ p : Policy, ((Builder.ofHost ⟨"worker", 7, "Linux", "6.1.0", "#1 SMP"⟩).run .standard
        [.set (.property "task" (.string "billing")), .set (.property "" (.bool true)),
          .apply ⟨none, none, none, [],
            [("area", .bool true), ("product", .bool true), ("team", .bool true)], "info"⟩,
          .snapshot, .set (.property "team" (.string "b"))]).obtained[3]? = some (some p) ∧
      p.properties.size = 6 ∧ p.properties.contains "product" = false ∧
      p.properties.contains "task" = true := by
  have hkept := (run_properties_wellKept .standard ⟨"worker", 7, "Linux", "6.1.0", "#1 SMP"⟩
    [.set (.property "task" (.string "billing")), .set (.property "" (.bool true)),
      .apply ⟨none, none, none, [],
        [("area", .bool true), ("product", .bool true), ("team", .bool true)], "info"⟩,
      .snapshot, .set (.property "team" (.string "b"))]).2.1 3
  obtain ⟨p, hp⟩ : ∃ p : Policy,
      ((Builder.ofHost ⟨"worker", 7, "Linux", "6.1.0", "#1 SMP"⟩).run .standard
        [.set (.property "task" (.string "billing")), .set (.property "" (.bool true)),
          .apply ⟨none, none, none, [],
            [("area", .bool true), ("product", .bool true), ("team", .bool true)], "info"⟩,
          .snapshot, .set (.property "team" (.string "b"))]).obtained[3]? = some (some p) :=
    Builder.obtained_of_snapshot rfl
  have hp' := hkept p hp
  exact ⟨p, hp, hp'.size.trans rfl, hp'.reserved "product" (by decide),
    hp'.defaulted "task" (by decide)⟩

end BrokerPolicy
