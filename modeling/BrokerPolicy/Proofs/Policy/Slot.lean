import BrokerPolicy.Proofs.OrderedTable
import BrokerPolicy.Proofs.Policy.Builder
import Mathlib.Data.List.Sigma
import Mathlib.Data.Option.Basic

set_option autoImplicit false

/-!
The places of a policy that settings write. A write of one place leaves all others alone, so after
any number of writes each place holds the argument of its last one.
-/

namespace BrokerPolicy

/-- Client properties and tunables are places of their own, one for each name. -/
inductive Slot where
  | resource
  | metrics
  | onError
  | onSuccess
  | onHung
  | property (name : String)
  | timeout
  | threshold
  | tunable (name : String)
  | consumerTracer
  | producerTracer
  | shuffle
deriving DecidableEq

namespace Slot

abbrev Value : Slot → Type
  | resource => ExecutionResource
  | metrics => MetricsSink
  | onError | onSuccess | onHung => Callback
  | property _ => Option FieldValue
  | timeout => Duration
  | threshold => Option Duration
  | tunable _ => Bool
  | consumerTracer | producerTracer => Option Tracer
  | shuffle => Option Bool

def read (p : Policy) : (slot : Slot) → slot.Value
  | resource => p.resource
  | metrics => p.metrics
  | onError => p.onError
  | onSuccess => p.onSuccess
  | onHung => p.onHung
  | property name => p.properties.get? name
  | timeout => p.timeout
  | threshold => p.threshold
  | tunable name => p.isTunableSet name
  | consumerTracer => p.consumerTracer
  | producerTracer => p.producerTracer
  | shuffle => p.shuffle

end Slot

def Setting.write? : Setting → Option (Sigma Slot.Value)
  | .resource e => some ⟨.resource, .borrowed e⟩
  | .metrics sink => some ⟨.metrics, sink⟩
  | .onError c => some ⟨.onError, c⟩
  | .onSuccess c => some ⟨.onSuccess, c⟩
  | .onHung c => some ⟨.onHung, c⟩
  | .property name value => some ⟨.property name, some value⟩
  | .timeout d => some ⟨.timeout, d⟩
  | .threshold d => some ⟨.threshold, d⟩
  | .consumerTracer t => some ⟨.consumerTracer, some t⟩
  | .producerTracer t => some ⟨.producerTracer, some t⟩
  | .shuffle b => some ⟨.shuffle, some b⟩
  | .tunable name => some ⟨.tunable name, true⟩
  | .fieldEncoding _ => none

/-- What the last of some settings that writes a place puts there. -/
def lastWrite (slot : Slot) (ws : List Setting) : Option slot.Value :=
  (ws.filterMap Setting.write?).reverse.dlookup slot

theorem lastWrite_nil (slot : Slot) : lastWrite slot [] = none := rfl

theorem lastWrite_concat (slot : Slot) (ws : List Setting) (s : Setting) :
    lastWrite slot (ws ++ [s]) = (lastWrite slot [s]).or (lastWrite slot ws) := by
  rw [lastWrite, List.filterMap_append, List.reverse_append, List.dlookup_append]
  rfl

theorem lastWrite_append (slot : Slot) (ws later : List Setting) :
    lastWrite slot (ws ++ later) = (lastWrite slot later).or (lastWrite slot ws) := by
  induction later using List.reverseRecOn with
  | nil => rw [List.append_nil, lastWrite_nil, Option.none_or]
  | append_singleton later s ih =>
    rw [← List.append_assoc, lastWrite_concat, ih, lastWrite_concat, Option.or_assoc]

theorem lastWrite_eq_none {slot : Slot} {ws : List Setting}
    (h : ∀ s ∈ ws, ∀ w, s.write? = some w → w.1 ≠ slot) : lastWrite slot ws = none := by
  rw [lastWrite, List.dlookup_eq_none]
  intro hslot
  obtain ⟨w, hw, rfl⟩ := List.mem_map.1 hslot
  obtain ⟨s, hs, hwrite⟩ := List.mem_filterMap.1 (List.mem_reverse.1 hw)
  exact h s hs w hwrite rfl

theorem lastWrite_property (name n : String) (value : FieldValue) :
    lastWrite (.property name) [.property n value] =
      if name = n then some (some value) else none := by
  by_cases h : name = n
  · subst h
    rw [if_pos rfl]
    exact List.dlookup_cons_eq [] _ _
  · rw [if_neg h]
    have hne : Slot.property name ≠ Slot.property n := by simpa using h
    exact List.dlookup_cons_ne [] (⟨.property n, some value⟩ : Sigma Slot.Value) hne

theorem lastWrite_tunable (name n : String) :
    lastWrite (.tunable name) [.tunable n] = if name = n then some true else none := by
  by_cases h : name = n
  · subst h
    rw [if_pos rfl]
    exact List.dlookup_cons_eq [] _ _
  · rw [if_neg h]
    have hne : Slot.tunable name ≠ Slot.tunable n := by simpa using h
    exact List.dlookup_cons_ne [] (⟨.tunable n, true⟩ : Sigma Slot.Value) hne

theorem Slot.read_write_property (name n : String) (value : FieldValue) (p : Policy) :
    (Slot.property name).read (p.write (.property n value)) =
      (lastWrite (.property name) [.property n value]).getD ((Slot.property name).read p) := by
  rw [lastWrite_property]
  change (OrderedTable.insert n value p.properties.table).find? name = _
  rw [OrderedTable.find?_insert]
  split_ifs <;> rfl

theorem Slot.read_write_tunable (name n : String) (p : Policy) :
    (Slot.tunable name).read (p.write (.tunable n)) =
      (lastWrite (.tunable name) [.tunable n]).getD ((Slot.tunable name).read p) := by
  rw [lastWrite_tunable]
  change decide (name ∈ OrderedTable.insertName n p.tunables) = _
  by_cases h : name = n
  · simp [OrderedTable.mem_insertName, h]
  · simp [OrderedTable.mem_insertName, h, Slot.read, Policy.isTunableSet]

theorem Slot.read_write (slot : Slot) (p : Policy) (s : Setting) :
    slot.read (p.write s) = (lastWrite slot [s]).getD (slot.read p) := by
  cases s with
  | property n value =>
    cases slot with
    | property name => exact read_write_property name n value p
    | _ => rfl
  | tunable n =>
    cases slot with
    | tunable name => exact read_write_tunable name n p
    | _ => rfl
  | _ => cases slot <;> rfl

theorem Slot.read_foldl_write (slot : Slot) (ws : List Setting) (p : Policy) :
    slot.read (ws.foldl Policy.write p) = (lastWrite slot ws).getD (slot.read p) := by
  induction ws using List.reverseRecOn with
  | nil => rfl
  | append_singleton ws s ih =>
    rw [List.foldl_concat, read_write, ih, lastWrite_concat]
    cases lastWrite slot [s] <;> rfl

def Setting.entry? : Setting → Option (String × FieldValue)
  | .property name value => some (name, value)
  | _ => none

def Setting.tunable? : Setting → Option String
  | .tunable name => some name
  | _ => none

theorem foldl_write_table (ws : List Setting) (p : Policy) :
    (ws.foldl Policy.write p).properties.table =
      OrderedTable.insertAll p.properties.table (ws.filterMap Setting.entry?) := by
  induction ws generalizing p with
  | nil => rfl
  | cons s ws ih =>
    rw [List.foldl_cons, ih]
    cases s <;> rfl

theorem foldl_write_tunables (ws : List Setting) (p : Policy) :
    (ws.foldl Policy.write p).tunables =
      OrderedTable.insertNames p.tunables (ws.filterMap Setting.tunable?) := by
  induction ws generalizing p with
  | nil => rfl
  | cons s ws ih =>
    rw [List.foldl_cons, ih]
    cases s <;> rfl

theorem mem_filterMap_tunable? (name : String) (ws : List Setting) :
    name ∈ ws.filterMap Setting.tunable? ↔ Setting.tunable name ∈ ws := by
  rw [List.mem_filterMap]
  constructor
  · rintro ⟨s, hs, hname⟩
    cases s with
    | tunable n =>
      have hn : n = name := by simpa [Setting.tunable?] using hname
      exact hn ▸ hs
    | _ => exact absurd hname (by simp [Setting.tunable?])
  · intro h
    exact ⟨_, h, rfl⟩

theorem lastWrite_property_eq (name : String) (ws : List Setting) :
    lastWrite (.property name) ws =
      (OrderedTable.lastOf (ws.filterMap Setting.entry?) name).map some := by
  induction ws using List.reverseRecOn with
  | nil => rfl
  | append_singleton ws s ih =>
    rw [lastWrite_concat, ih, List.filterMap_append]
    cases s with
    | property n value =>
      rw [lastWrite_property]
      change _ = (OrderedTable.lastOf (ws.filterMap Setting.entry? ++ [(n, value)]) name).map some
      rw [OrderedTable.lastOf_concat]
      split_ifs <;> rfl
    | _ => rw [List.filterMap_cons_none rfl, List.filterMap_nil, List.append_nil]; rfl

theorem lastWrite_tunable_eq (name : String) (ws : List Setting) :
    lastWrite (.tunable name) ws =
      if name ∈ ws.filterMap Setting.tunable? then some true else none := by
  induction ws using List.reverseRecOn with
  | nil => rfl
  | append_singleton ws s ih =>
    rw [lastWrite_concat, ih, List.filterMap_append]
    cases s with
    | tunable n =>
      rw [lastWrite_tunable]
      by_cases h : name = n <;> simp [h, Setting.tunable?]
    | _ => rw [List.filterMap_cons_none rfl, List.filterMap_nil, List.append_nil]; rfl

theorem lastWrite_tunable_isSome (name : String) (ws : List Setting) :
    (lastWrite (.tunable name) ws).isSome ↔ Setting.tunable name ∈ ws := by
  rw [← mem_filterMap_tunable?, lastWrite_tunable_eq]
  split_ifs with h <;> simp [h]

theorem Slot.eq_of_read_eq {p q : Policy} (h : ∀ slot : Slot, slot.read p = slot.read q)
    (htable : p.properties.table = q.properties.table) (htunables : p.tunables = q.tunables) :
    p = q := by
  have hproperties : p.properties = q.properties := congrArg ClientProperties.mk htable
  cases p
  cases q
  rw [Policy.mk.injEq]
  exact ⟨h .resource, h .metrics, h .onError, h .onSuccess, h .onHung, hproperties, h .timeout,
    h .threshold, htunables, h .consumerTracer, h .producerTracer, h .shuffle⟩

/-- Writes that leave the same arguments last leave the same policy. -/
theorem foldl_write_congr {ws ws' : List Setting}
    (h : ∀ slot, lastWrite slot ws = lastWrite slot ws') (p : Policy) :
    ws.foldl Policy.write p = ws'.foldl Policy.write p := by
  have hread (slot : Slot) :
      slot.read (ws.foldl Policy.write p) = slot.read (ws'.foldl Policy.write p) := by
    rw [Slot.read_foldl_write, Slot.read_foldl_write, h slot]
  apply Slot.eq_of_read_eq hread
  · rw [foldl_write_table, foldl_write_table]
    apply OrderedTable.insertAll_congr
    intro name
    have hname := h (.property name)
    rw [lastWrite_property_eq, lastWrite_property_eq] at hname
    exact Option.map_injective (Option.some_injective _) hname
  · rw [foldl_write_tunables, foldl_write_tunables]
    apply OrderedTable.insertNames_congr
    intro name
    rw [mem_filterMap_tunable?, mem_filterMap_tunable?, ← lastWrite_tunable_isSome,
      ← lastWrite_tunable_isSome, h]

end BrokerPolicy
