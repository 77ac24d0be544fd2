import BrokerPolicy.Proofs.Document
import BrokerPolicy.Proofs.Toml.Tree
import BrokerPolicy.Schema

set_option autoImplicit false

/-!
Reading typed content off whole documents. What is wrong with a document is said without the
reader: a problem, or none if the document is of the wanted type.
-/

namespace BrokerPolicy

namespace Schema

def foundIn : Document → Found
  | .null => .null
  | .boolean b => .boolean b
  | .integer i => .integer i
  | .real x => .real x
  | .text s => .text s
  | .array _ => .array
  | .table _ => .table

theorem mismatch_draft (wanted : Wanted) (d : Document) :
    mismatch wanted d.draft = .schema (.invalidType (foundIn d) wanted) := by
  cases d <;> rfl

def secondsProblem? : Document → Option Problem
  | .integer i => if i < 0 then some (.negative i) else none
  | d => some (.invalidType (foundIn d) .seconds)

def booleanProblem? : Document → Option Problem
  | .boolean _ => none
  | d => some (.invalidType (foundIn d) .boolean)

def textProblem? : Document → Option Problem
  | .text _ => none
  | d => some (.invalidType (foundIn d) .text)

def textsProblem? : Document → Option Problem
  | .array items => items.findSome? textProblem?
  | d => some (.invalidType (foundIn d) .array)

@[simp]
theorem secondsProblem?_eq_none_iff (d : Document) :
    secondsProblem? d = none ↔ ∃ n : Nat, d = .integer n := by
  cases d with
  | integer i =>
    by_cases hi : i < 0
    · have hno : ¬ ∃ n : Nat, i = n := by
        rintro ⟨n, rfl⟩
        omega
      simpa [secondsProblem?, hi] using hno
    · have hyes : ∃ n : Nat, i = n := ⟨i.toNat, by omega⟩
      simpa [secondsProblem?, hi] using hyes
  | _ => simp [secondsProblem?]

@[simp]
theorem booleanProblem?_eq_none_iff (d : Document) :
    booleanProblem? d = none ↔ ∃ b, d = .boolean b := by
  cases d <;> simp [booleanProblem?]

@[simp]
theorem textProblem?_eq_none_iff (d : Document) : textProblem? d = none ↔ ∃ s, d = .text s := by
  cases d <;> simp [textProblem?]

@[simp]
theorem textsProblem?_eq_none_iff (d : Document) :
    textsProblem? d = none ↔ ∃ names : List String, d = .array (names.map .text) := by
  cases d with
  | array items =>
    have hitems : (∃ names : List String, items = names.map .text) ↔
        ∀ d ∈ items, ∃ s, d = Document.text s := by
      induction items with
      | nil => simp
      | cons d rest ih =>
        rw [List.forall_mem_cons, ← ih]
        constructor
        · rintro ⟨names, hnames⟩
          obtain ⟨s, others, rfl, rfl, rfl⟩ := List.map_eq_cons_iff.1 hnames.symm
          exact ⟨⟨s, rfl⟩, others, rfl⟩
        · rintro ⟨⟨s, rfl⟩, others, rfl⟩
          exact ⟨s :: others, rfl⟩
    simp [textsProblem?, hitems]
  | _ => simp [textsProblem?]

/-- Reading gives the problem if there is one, and otherwise a value that is as wanted. -/
inductive Outcome {α : Type} (wanted : α → Prop) : Option Problem → Except ReadError α → Prop
  | ok {a : α} (h : wanted a) : Outcome wanted none (.ok a)
  | error (p : Problem) : Outcome wanted (some p) (.error (.schema p))

section

variable {α β : Type} {wanted : α → Prop} {wanted' : β → Prop} {problem? problem'? : Option Problem}
  {r : Except ReadError α}

theorem Outcome.bind {f : α → Except ReadError β} (h : Outcome wanted problem? r)
    (hf : ∀ a, wanted a → Outcome wanted' problem'? (f a)) :
    Outcome wanted' (problem?.or problem'?) (r >>= f) := by
  cases h with
  | ok ha => exact hf _ ha
  | error p => exact .error p

theorem Outcome.map {f : α → β} (h : Outcome wanted problem? r)
    (hf : ∀ a, wanted a → wanted' (f a)) :
    Outcome wanted' problem? (r >>= fun a => return f a) := by
  cases h with
  | ok ha => exact .ok (hf _ ha)
  | error p => exact .error p

theorem Outcome.imp {weaker : α → Prop} (h : Outcome wanted problem? r)
    (himp : ∀ a, wanted a → weaker a) : Outcome weaker problem? r := by
  cases h with
  | ok ha => exact .ok (himp _ ha)
  | error p => exact .error p

theorem Outcome.and_of_ok {also : α → Prop} (h : Outcome wanted problem? r)
    (hok : ∀ a, r = .ok a → also a) : Outcome (fun a => wanted a ∧ also a) problem? r := by
  cases h with
  | ok ha => exact .ok ⟨ha, hok _ rfl⟩
  | error p => exact .error p

theorem Outcome.ok_iff (h : Outcome wanted problem? r) : (∃ a, r = .ok a) ↔ problem? = none := by
  cases h <;> simp

theorem Outcome.wanted_of_ok (h : Outcome wanted problem? r) {a : α} (ha : r = .ok a) :
    wanted a := by
  cases h with
  | ok h => exact Except.ok.inj ha ▸ h
  | error p => exact nomatch ha

theorem Outcome.problem_of_error (h : Outcome wanted problem? r) {e : ReadError}
    (he : r = .error e) : ∃ p, problem? = some p ∧ e = .schema p := by
  cases h with
  | ok h => exact nomatch he
  | error p => exact ⟨p, rfl, (Except.error.inj he).symm⟩

end

theorem exists_of_bind_eq_ok {α β : Type} {r : Except ReadError α} {f : α → Except ReadError β}
    {b : β} (h : (r >>= f) = .ok b) : ∃ a, r = .ok a ∧ f a = .ok b := by
  cases r with
  | ok a => exact ⟨a, rfl, h⟩
  | error e => exact nomatch h

theorem exists_of_map_eq_ok {α β : Type} {r : Except ReadError α} {f : α → β} {b : β}
    (h : (r >>= fun a => return f a) = .ok b) : ∃ a, r = .ok a ∧ f a = b := by
  obtain ⟨a, ha, hb⟩ := exists_of_bind_eq_ok h
  exact ⟨a, ha, Except.ok.inj hb⟩

theorem finish_eq_ok_iff {α : Type} (closed : Bool) (a b : α) :
    finish closed a = .ok b ↔ closed = true ∧ a = b := by
  cases closed <;> simp [finish]

theorem surplus_toml (items : List Draft) : surplus tomlFormat items true = .ok () :=
  if_pos (.inr rfl)

theorem outcome_mismatch {α : Type} (wanted : α → Prop) (w : Wanted) (d : Document) :
    Outcome wanted (some (.invalidType (foundIn d) w)) (.error (mismatch w d.draft)) := by
  rw [mismatch_draft]
  exact .error _

theorem outcome_seconds {d : Document} (h : Toml.IsTree d) :
    Outcome (fun s => d = .integer s.toNat) (secondsProblem? d) (seconds d.draft) := by
  cases h with
  | @integer i low high =>
    by_cases hi : i < 0
    · have hread : seconds (Document.integer i).draft = .error (.schema (.negative i)) := if_pos hi
      rw [hread, secondsProblem?, if_pos hi]
      exact .error _
    · have hread : seconds (Document.integer i).draft = .ok (UInt64.ofNat i.toNat) := if_neg hi
      rw [hread, secondsProblem?, if_neg hi]
      refine .ok (congrArg Document.integer ?_)
      rw [Int64.toInt_maxValue] at high
      have hfits : (UInt64.ofNat i.toNat).toNat = i.toNat := by
        rw [UInt64.toNat_ofNat']
        omega
      omega
  | _ => exact outcome_mismatch _ .seconds _

theorem outcome_boolean (d : Document) :
    Outcome (fun b => d = .boolean b) (booleanProblem? d) (boolean d.draft) := by
  cases d with
  | boolean b => exact .ok rfl
  | _ => exact outcome_mismatch _ .boolean _

theorem outcome_text (d : Document) :
    Outcome (fun s => d = .text s) (textProblem? d) (text d.draft) := by
  cases d with
  | text s => exact .ok rfl
  | _ => exact outcome_mismatch _ .text _

theorem outcome_optional {α : Type} {wanted : α → Prop} {problem? : Option Problem}
    {read : Draft → Except ReadError α} {d : Document} (hd : Toml.IsTree d)
    (h : Outcome wanted problem? (read d.draft)) :
    Outcome (fun a? => ∃ a, a? = some a ∧ wanted a) problem? (optional read d.draft) := by
  -- Only a null is left out, and a tree of TOML has none.
  have hread : optional read d.draft = read d.draft >>= fun a => return some a := by
    cases hd <;> rfl
  rw [hread]
  exact h.map fun a ha => ⟨a, rfl, ha⟩

theorem findSome?_cons_eq_or {α : Type} (problem? : α → Option Problem) (a : α) (rest : List α) :
    (a :: rest).findSome? problem? = (problem? a).or (rest.findSome? problem?) := by
  rw [← List.singleton_append, List.findSome?_append, List.findSome?_singleton]

theorem outcome_items (items : List Document) :
    Outcome (fun names : List String => items = names.map .text) (items.findSome? textProblem?)
      ((Document.draftItems items).mapM text) := by
  induction items with
  | nil => exact .ok rfl
  | cons d rest ih =>
    rw [Document.draftItems, List.mapM_cons, findSome?_cons_eq_or]
    apply (outcome_text d).bind
    rintro s rfl
    apply ih.map
    rintro names rfl
    rfl

theorem outcome_texts (d : Document) :
    Outcome (fun names : List String => d = .array (names.map .text)) (textsProblem? d)
      (texts d.draft) := by
  cases d with
  | array items =>
    exact (outcome_items items).map fun names hnames => congrArg Document.array hnames
  | _ => exact outcome_mismatch _ .array _

end Schema

end BrokerPolicy
