import BrokerPolicy.Field.Text
import BrokerPolicy.Json.Printer
import BrokerPolicy.Proofs.Field.Document
import BrokerPolicy.Proofs.Numeral.Binary64

set_option autoImplicit false

/-!
Equality of field values. Floats are compared as numbers, so it is no identity: NaN differs from
itself and the two zeros are equal. Apart from NaN, values are equal exactly if they are the same
once their negative zeros are taken for positive ones, and all laws of equality follow from that.
-/

namespace BrokerPolicy

namespace Binary64

def plusZero (x : Binary64) : Binary64 := if x = zero true then zero false else x

theorem isZero_iff (x : Binary64) : x.isZero = true ↔ x = zero false ∨ x = zero true := by
  obtain ⟨bits⟩ := x
  have hbits := bits.toNat_lt
  rw [isZero, decide_eq_true_iff]
  constructor
  · intro h
    have hmod : bits.toNat % 2 ^ 63 = 0 := h
    rcases Nat.lt_or_ge bits.toNat (2 ^ 63) with hlow | hhigh
    · left
      refine congrArg Binary64.mk (UInt64.toNat_inj.1 ?_)
      change bits.toNat = 0
      omega
    · right
      refine congrArg Binary64.mk (UInt64.toNat_inj.1 ?_)
      change bits.toNat = 2 ^ 63
      omega
  · rintro (h | h) <;> rw [h] <;> rfl

theorem plusZero_of_isZero {x : Binary64} (h : x.isZero = true) : x.plusZero = zero false := by
  rcases (isZero_iff x).1 h with rfl | rfl <;> rfl

theorem plusZero_of_not_isZero {x : Binary64} (h : ¬ x.isZero = true) : x.plusZero = x :=
  if_neg fun hx => h ((isZero_iff x).2 (.inr hx))

theorem not_isNaN_of_isZero {x : Binary64} (h : x.isZero = true) : x.isNaN = false := by
  rcases (isZero_iff x).1 h with rfl | rfl <;> decide

theorem same_iff (x y : Binary64) :
    x.same y = true ↔ x.isNaN = false ∧ x.plusZero = y.plusZero := by
  have hopen : x.same y = true ↔
      (x.isNaN = false ∧ y.isNaN = false) ∧ (x = y ∨ x.isZero = true ∧ y.isZero = true) := by
    simp [same]
  rw [hopen]
  constructor
  · rintro ⟨⟨hx, -⟩, rfl | ⟨hxzero, hyzero⟩⟩
    · exact ⟨hx, rfl⟩
    · exact ⟨hx, (plusZero_of_isZero hxzero).trans (plusZero_of_isZero hyzero).symm⟩
  · rintro ⟨hx, hplus⟩
    by_cases hxzero : x.isZero = true <;> by_cases hyzero : y.isZero = true
    · exact ⟨⟨hx, not_isNaN_of_isZero hyzero⟩, .inr ⟨hxzero, hyzero⟩⟩
    · rw [plusZero_of_isZero hxzero, plusZero_of_not_isZero hyzero] at hplus
      exact absurd ((isZero_iff y).2 (.inl hplus.symm)) hyzero
    · rw [plusZero_of_not_isZero hxzero, plusZero_of_isZero hyzero] at hplus
      exact absurd ((isZero_iff x).2 (.inl hplus)) hxzero
    · rw [plusZero_of_not_isZero hxzero, plusZero_of_not_isZero hyzero] at hplus
      exact ⟨⟨hx, hplus ▸ hx⟩, .inl hplus⟩

theorem isNaN_plusZero (x : Binary64) : x.plusZero.isNaN = x.isNaN := by
  by_cases h : x.isZero = true
  · rw [plusZero_of_isZero h, not_isNaN_of_isZero h]
    decide
  · rw [plusZero_of_not_isZero h]

end Binary64

namespace FieldValue

mutual

def plusZeros : FieldValue → FieldValue
  | .float x => .float x.plusZero
  | .array items => .array (plusZerosItems items)
  | .table entries => .table (plusZerosEntries entries)
  | v => v

def plusZerosItems : List FieldValue → List FieldValue
  | [] => []
  | v :: rest => plusZeros v :: plusZerosItems rest

def plusZerosEntries : List (String × FieldValue) → List (String × FieldValue)
  | [] => []
  | (name, v) :: rest => (name, plusZeros v) :: plusZerosEntries rest

end

/-- What is left of a value without its scalars: kinds, lengths of arrays and names of tables. -/
inductive Shape where
  | bool
  | int
  | float
  | string
  | array (items : List Shape)
  | table (entries : List (String × Shape))

mutual

def shape : FieldValue → Shape
  | .bool _ => .bool
  | .int _ => .int
  | .float _ => .float
  | .string _ => .string
  | .array items => .array (shapeItems items)
  | .table entries => .table (shapeEntries entries)

def shapeItems : List FieldValue → List Shape
  | [] => []
  | v :: rest => shape v :: shapeItems rest

def shapeEntries : List (String × FieldValue) → List (String × Shape)
  | [] => []
  | (name, v) :: rest => (name, shape v) :: shapeEntries rest

end

mutual

theorem shape_plusZeros (v : FieldValue) : v.plusZeros.shape = v.shape := by
  match v with
  | .bool _ | .int _ | .float _ | .string _ => rfl
  | .array items => exact congrArg Shape.array (shapeItems_plusZeros items)
  | .table entries => exact congrArg Shape.table (shapeEntries_plusZeros entries)

theorem shapeItems_plusZeros (items : List FieldValue) :
    shapeItems (plusZerosItems items) = shapeItems items := by
  match items with
  | [] => rfl
  | v :: rest => exact congrArg₂ List.cons (shape_plusZeros v) (shapeItems_plusZeros rest)

theorem shapeEntries_plusZeros (entries : List (String × FieldValue)) :
    shapeEntries (plusZerosEntries entries) = shapeEntries entries := by
  match entries with
  | [] => rfl
  | (name, v) :: rest =>
    exact congrArg₂ (fun s es => (name, s) :: es) (shape_plusZeros v) (shapeEntries_plusZeros rest)

end

mutual

theorem floats_plusZeros (v : FieldValue) : v.plusZeros.floats = v.floats.map Binary64.plusZero := by
  match v with
  | .bool _ | .int _ | .float _ | .string _ => rfl
  | .array items => exact floatsItems_plusZeros items
  | .table entries => exact floatsEntries_plusZeros entries

theorem floatsItems_plusZeros (items : List FieldValue) :
    floatsItems (plusZerosItems items) = (floatsItems items).map Binary64.plusZero := by
  match items with
  | [] => rfl
  | v :: rest =>
    rw [plusZerosItems, floatsItems, floatsItems, List.map_append, floats_plusZeros v,
      floatsItems_plusZeros rest]

theorem floatsEntries_plusZeros (entries : List (String × FieldValue)) :
    floatsEntries (plusZerosEntries entries) = (floatsEntries entries).map Binary64.plusZero := by
  match entries with
  | [] => rfl
  | (_, v) :: rest =>
    rw [plusZerosEntries, floatsEntries, floatsEntries, List.map_append, floats_plusZeros v,
      floatsEntries_plusZeros rest]

end

def NaNFree (v : FieldValue) : Prop := ∀ x ∈ v.floats, x.isNaN = false

theorem nanFree_plusZeros (v : FieldValue) : v.plusZeros.NaNFree ↔ v.NaNFree := by
  simp only [NaNFree, floats_plusZeros, List.forall_mem_map, Binary64.isNaN_plusZero]

mutual

theorem same_iff (a b : FieldValue) :
    a.same b = true ↔ a.NaNFree ∧ a.plusZeros = b.plusZeros := by
  match a with
  | .bool _ | .int _ | .string _ => cases b <;> simp [same, plusZeros, NaNFree, floats]
  | .float x =>
    cases b with
    | float y => simpa [same, plusZeros, NaNFree, floats] using x.same_iff y
    | _ => simp [same, plusZeros]
  | .array items =>
    cases b with
    | array others =>
      rw [same, plusZeros, plusZeros, array.injEq]
      exact sameItems_iff items others
    | _ => simp [same, plusZeros]
  | .table entries =>
    cases b with
    | table others =>
      rw [same, plusZeros, plusZeros, table.injEq]
      exact sameEntries_iff entries others
    | _ => simp [same, plusZeros]

theorem sameItems_iff (items others : List FieldValue) :
    sameItems items others = true ↔
      (∀ x ∈ floatsItems items, x.isNaN = false) ∧
        plusZerosItems items = plusZerosItems others := by
  match items, others with
  | [], [] => simp [sameItems, floatsItems]
  | [], _ :: _ | _ :: _, [] => simp [sameItems, plusZerosItems]
  | a :: as, b :: bs =>
    rw [sameItems, Bool.and_eq_true, same_iff a b, sameItems_iff as bs, floatsItems,
      List.forall_mem_append, plusZerosItems, plusZerosItems, List.cons.injEq]
    exact and_and_and_comm

theorem sameEntries_iff (entries others : List (String × FieldValue)) :
    sameEntries entries others = true ↔
      (∀ x ∈ floatsEntries entries, x.isNaN = false) ∧
        plusZerosEntries entries = plusZerosEntries others := by
  match entries, others with
  | [], [] => simp [sameEntries, floatsEntries]
  | [], _ :: _ | _ :: _, [] => simp [sameEntries, plusZerosEntries]
  | (m, a) :: as, (n, b) :: bs =>
    rw [sameEntries, Bool.and_eq_true, Bool.and_eq_true, beq_iff_eq, same_iff a b,
      sameEntries_iff as bs, floatsEntries, List.forall_mem_append, plusZerosEntries,
      plusZerosEntries, List.cons.injEq, Prod.mk.injEq]
    change (_ ∧ a.NaNFree ∧ _) ∧ _ ↔ (a.NaNFree ∧ _) ∧ _
    tauto

end

variable {a b c : FieldValue}

theorem same_symm (h : a.same b = true) : b.same a = true := by
  obtain ⟨hfree, hplus⟩ := (same_iff a b).1 h
  refine (same_iff b a).2 ⟨?_, hplus.symm⟩
  rw [← nanFree_plusZeros, ← hplus, nanFree_plusZeros]
  exact hfree

theorem same_trans (hab : a.same b = true) (hbc : b.same c = true) : a.same c = true := by
  obtain ⟨hfree, hplus⟩ := (same_iff a b).1 hab
  exact (same_iff a c).2 ⟨hfree, hplus.trans ((same_iff b c).1 hbc).2⟩

theorem same_self_iff (a : FieldValue) : a.same a = true ↔ a.NaNFree :=
  (same_iff a a).trans (and_iff_left rfl)

theorem shape_eq_of_same (h : a.same b = true) : a.shape = b.shape := by
  rw [← shape_plusZeros a, ((same_iff a b).1 h).2, shape_plusZeros]

/-- Values are equal with each other in either order, and with what equals an equal; a value is
equal with itself exactly if no float in it is NaN. Equal values have the same kinds, lengths and
names throughout, and the same texts once negative zeros are taken for positive ones. That, without
NaN, is all there is to being equal. -/
theorem same_partialEquivalence :
    (∀ a b : FieldValue, a.same b = true ↔ b.same a = true) ∧
    (∀ a b c : FieldValue, a.same b = true → b.same c = true → a.same c = true) ∧
    (∀ a : FieldValue, a.same a = true ↔ ∀ x ∈ a.floats, x.isNaN = false) ∧
    (∀ a b : FieldValue, a.same b = true →
      a.shape = b.shape ∧
      a.plusZeros.display = b.plusZeros.display ∧
      Json.compact a.plusZeros.document = Json.compact b.plusZeros.document) ∧
    ∀ a b : FieldValue, a.same b = true ↔
      (∀ x ∈ a.floats, x.isNaN = false) ∧ a.plusZeros = b.plusZeros := by
  refine ⟨fun a b => ⟨same_symm, same_symm⟩, fun a b c => same_trans, same_self_iff, ?_, same_iff⟩
  intro a b h
  have hplus : a.plusZeros = b.plusZeros := ((same_iff a b).1 h).2
  exact ⟨shape_eq_of_same h, congrArg display hplus,
    congrArg (fun v => Json.compact (document v)) hplus⟩

/-- The zeros differ in their texts but not as numbers, at any depth; NaN spoils what it is in. -/
theorem same_partialEquivalence_zeros :
    let a : FieldValue := .array [.float (.zero true), .table [("k", .float (.zero false))]]
    let b : FieldValue := .array [.float (.zero false), .table [("k", .float (.zero true))]]
    let c : FieldValue := .table [("k", .array [.float (.nan false)])]
    a.same b = true ∧ b.same a = true ∧ a.same a = true ∧ c.same c = false ∧ a.shape = b.shape ∧
      a.plusZeros.display = b.plusZeros.display ∧ a.display ≠ b.display := by
  intro a b c
  obtain ⟨hsymm, htrans, hself, halike, -⟩ := same_partialEquivalence
  have hab : a.same b = true := by decide +kernel
  have hba : b.same a = true := (hsymm a b).1 hab
  have hc : ¬ c.same c = true := by
    rw [hself]
    exact fun h => absurd (h (.nan false) List.mem_cons_self) (by decide)
  exact ⟨hab, hba, htrans a b a hab hba, Bool.eq_false_iff.2 hc, (halike a b hab).1,
    (halike a b hab).2.1, by decide +kernel⟩

end FieldValue

end BrokerPolicy
