import BrokerPolicy.Proofs.Policy.Run

set_option autoImplicit false

/-!
What is kept under the names of builders and policies, and how it changes. The same changes are
made whether the shelf holds the policies themselves or what was written into them.
-/

namespace BrokerPolicy

structure Shelf (α : Type) where
  builders : OrderedTable α
  policies : OrderedTable α

/-- A change to a shelf. One that is about something missing changes nothing. -/
inductive Change where
  | nothing
  | wrote (builder : String) (ws : List Setting)
  | copied (builder result : String)
  | took (builder result : String)
  | shared (holder result : String)
  | dropped (name : String)

namespace Shelf

variable {α β : Type}

/-- A policy hides a builder of the same name. -/
def find? (o : Shelf α) (name : String) : Option α :=
  (o.policies.find? name).or (o.builders.find? name)

def putBuilder (o : Shelf α) (name : String) (a : Option α) : Shelf α :=
  a.elim o fun a => { o with builders := OrderedTable.insert name a o.builders }

def putPolicy (o : Shelf α) (name : String) (a : Option α) : Shelf α :=
  a.elim o fun a => { o with policies := OrderedTable.insert name a o.policies }

def drop (o : Shelf α) (name : String) : Shelf α :=
  if o.policies.contains name then { o with policies := o.policies.erase name }
  else { o with builders := o.builders.erase name }

def change (write : α → Setting → α) (o : Shelf α) : Change → Shelf α
  | .nothing => o
  | .wrote builder ws => o.putBuilder builder ((o.builders.find? builder).map (ws.foldl write))
  | .copied builder result => o.putBuilder result (o.builders.find? builder)
  | .took builder result => o.putPolicy result (o.builders.find? builder)
  | .shared holder result => o.putPolicy result (o.find? holder)
  | .dropped name => o.drop name

def changeAll (write : α → Setting → α) (o : Shelf α) (cs : List Change) : Shelf α :=
  cs.foldl (change write) o

theorem changeAll_concat (write : α → Setting → α) (o : Shelf α) (cs : List Change) (c : Change) :
    o.changeAll write (cs ++ [c]) = (o.changeAll write cs).change write c := by
  simp [changeAll]

def map (f : α → β) (o : Shelf α) : Shelf β :=
  ⟨OrderedTable.mapValues f o.builders, OrderedTable.mapValues f o.policies⟩

section map

variable (f : α → β) (o : Shelf α)

@[simp]
theorem find?_map_builders (name : String) :
    (o.map f).builders.find? name = (o.builders.find? name).map f :=
  OrderedTable.find?_mapValues f o.builders name

@[simp]
theorem find?_map_policies (name : String) :
    (o.map f).policies.find? name = (o.policies.find? name).map f :=
  OrderedTable.find?_mapValues f o.policies name

@[simp]
theorem find?_map (name : String) : (o.map f).find? name = (o.find? name).map f := by
  simp [find?, map, Option.map_or]

theorem map_putBuilder (name : String) (a : Option α) :
    (o.putBuilder name a).map f = (o.map f).putBuilder name (a.map f) := by
  cases a <;> simp [putBuilder, map, OrderedTable.mapValues_insert]

theorem map_putPolicy (name : String) (a : Option α) :
    (o.putPolicy name a).map f = (o.map f).putPolicy name (a.map f) := by
  cases a <;> simp [putPolicy, map, OrderedTable.mapValues_insert]

theorem map_drop (name : String) : (o.drop name).map f = (o.map f).drop name := by
  by_cases h : o.policies.contains name = true <;>
    simp [drop, map, h, OrderedTable.contains_mapValues, OrderedTable.mapValues_erase]

end map

theorem map_change {f : α → β} {write : α → Setting → α} {write' : β → Setting → β}
    (h : ∀ a w, f (write a w) = write' (f a) w) (o : Shelf α) (c : Change) :
    (o.change write c).map f = (o.map f).change write' c := by
  cases c with
  | nothing => rfl
  | wrote builder ws =>
    have hfold : f ∘ ws.foldl write = ws.foldl write' ∘ f :=
      funext fun a => (List.foldl_hom f fun a w => (h a w).symm).symm
    rw [change, change, map_putBuilder, find?_map_builders, Option.map_map, Option.map_map, hfold]
  | copied builder result => rw [change, change, map_putBuilder, find?_map_builders]
  | took builder result => rw [change, change, map_putPolicy, find?_map_builders]
  | shared holder result => rw [change, change, map_putPolicy, find?_map]
  | dropped name => exact map_drop f o name

theorem map_changeAll {f : α → β} {write : α → Setting → α} {write' : β → Setting → β}
    (h : ∀ a w, f (write a w) = write' (f a) w) (o : Shelf α) (cs : List Change) :
    (o.changeAll write cs).map f = (o.map f).changeAll write' cs := by
  induction cs using List.reverseRecOn with
  | nil => rfl
  | append_singleton cs c ih => rw [changeAll_concat, map_change h, ih, changeAll_concat]

structure Sorted (o : Shelf α) : Prop where
  builders : OrderedTable.Sorted o.builders
  policies : OrderedTable.Sorted o.policies

namespace Sorted

variable {o : Shelf α}

theorem putBuilder (h : o.Sorted) (name : String) (a : Option α) : (o.putBuilder name a).Sorted := by
  cases a with
  | none => exact h
  | some a => exact ⟨OrderedTable.sorted_insert name a h.builders, h.policies⟩

theorem putPolicy (h : o.Sorted) (name : String) (a : Option α) : (o.putPolicy name a).Sorted := by
  cases a with
  | none => exact h
  | some a => exact ⟨h.builders, OrderedTable.sorted_insert name a h.policies⟩

theorem drop (h : o.Sorted) (name : String) : (o.drop name).Sorted := by
  rw [Shelf.drop]
  split_ifs
  · exact ⟨h.builders, OrderedTable.sorted_erase h.policies name⟩
  · exact ⟨OrderedTable.sorted_erase h.builders name, h.policies⟩

theorem change (h : o.Sorted) (write : α → Setting → α) (c : Change) :
    (o.change write c).Sorted := by
  cases c with
  | nothing => exact h
  | wrote builder ws => exact h.putBuilder builder _
  | copied builder result => exact h.putBuilder result _
  | took builder result => exact h.putPolicy result _
  | shared holder result => exact h.putPolicy result _
  | dropped name => exact h.drop name

end Sorted

end Shelf

end BrokerPolicy
