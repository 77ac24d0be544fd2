import BrokerPolicy.Json.Reader
import BrokerPolicy.Proofs.Document
import BrokerPolicy.Proofs.Numeral.Rounding

set_option autoImplicit false

/-!
What a reader can read. Whatever the text, its numbers are finite doubles or integers of at most
64 bits, and its arrays and objects nest no deeper than the reader allows.
-/

namespace BrokerPolicy

def Document.Readable (n : Nat) (d : Document) : Prop :=
  d.depth ≤ n ∧ d.NumbersIn (·.isFinite = true)

namespace Json

open Binary64 (unitsPerOne)

theorem integerDigits_significand_le {d : Digits} (ds : List Char)
    (h : d.significand ≤ maxSignificand) :
    (integerDigits d ds).significand ≤ maxSignificand := by
  induction ds generalizing d with
  | nil => exact h
  | cons c cs ih =>
    rw [integerDigits]
    split_ifs with hfits
    · exact ih (of_decide_eq_true hfits)
    · exact h

theorem fractionDigits_significand_le {d : Digits} (ds : List Char)
    (h : d.significand ≤ maxSignificand) :
    (fractionDigits d ds).significand ≤ maxSignificand := by
  induction ds generalizing d with
  | nil => exact h
  | cons c cs ih =>
    rw [fractionDigits]
    split_ifs with hfits
    · exact ih (of_decide_eq_true hfits)
    · exact h

theorem scaled_significand_lt {n : Nat} (hn : n ≤ maxSignificand) :
    n * unitsPerOne < 1 * 2 ^ (64 + 1074) := by
  rw [Nat.one_mul, pow_add, ← Binary64.unitsPerOne_eq]
  exact Nat.mul_lt_mul_of_pos_right (Nat.lt_of_le_of_lt hn (by decide)) Binary64.unitsPerOne_pos

theorem isFinite_ofQuotient_one (negative : Bool) {n : Nat} (hn : n ≤ maxSignificand) :
    (Binary64.ofQuotient negative n 1).isFinite = true :=
  Binary64.isFinite_ofQuotient negative (by decide) (by decide) (scaled_significand_lt hn)

theorem magnitude_ofNat_lt {n : Nat} (hn : n ≤ maxSignificand) :
    (Binary64.ofNat n).magnitude < 2 ^ 2000 :=
  (Binary64.magnitude_ofQuotient_lt false (by decide) (scaled_significand_lt hn)).trans_le
    (Nat.pow_le_pow_right (by decide) (by decide))

theorem scaled_lt {x y : Binary64} {j k : Nat} (hx : x.magnitude < 2 ^ (j + k))
    (hy : 2 ^ j * unitsPerOne ≤ y.magnitude) :
    x.magnitude * unitsPerOne < y.magnitude * 2 ^ k := by
  calc x.magnitude * unitsPerOne
      < 2 ^ (j + k) * unitsPerOne :=
        Nat.mul_lt_mul_of_pos_right hx Binary64.unitsPerOne_pos
    _ = 2 ^ j * unitsPerOne * 2 ^ k := by rw [pow_add]; ring
    _ ≤ y.magnitude * 2 ^ k := Nat.mul_le_mul_right _ hy

theorem isFinite_dividedBy_pow {x : Binary64} (hx : x.magnitude < 2 ^ 2000) (e : Nat) :
    (x.dividedBy (Binary64.ofNat (Nat.pow 10 e))).isFinite = true := by
  have hone : 2 ^ 0 ≤ Nat.pow 10 e := Nat.one_le_pow _ _ (by decide)
  have hscaled := scaled_lt (k := 2000) (by rwa [Nat.zero_add])
    (Binary64.le_magnitude_ofNat (Nat.zero_le _) hone)
  exact Binary64.isFinite_ofQuotient false (by decide) (by decide) hscaled

/-- A division by the greatest power leaves room for the next one. -/
theorem magnitude_dividedBy_lt {x : Binary64} (hx : x.magnitude < 2 ^ 2000) :
    (x.dividedBy (Binary64.ofNat (Nat.pow 10 308))).magnitude < 2 ^ 2000 := by
  have hpow : 2 ^ 1 ≤ Nat.pow 10 308 :=
    (by decide : 2 ^ 1 ≤ 10 ^ 1).trans (Nat.pow_le_pow_right (by decide) (by decide))
  have hscaled := scaled_lt (j := 1) (k := 1999) hx
    (Binary64.le_magnitude_ofNat (by decide) hpow)
  exact Binary64.magnitude_ofQuotient_lt false (by decide) hscaled

theorem isFinite_scaleDown {x : Binary64} (hx : x.magnitude < 2 ^ 2000) (exponent : Nat) :
    (scaleDown x exponent).isFinite = true := by
  induction exponent using Nat.strongRecOn generalizing x with
  | ind exponent ih =>
    rw [scaleDown]
    split_ifs with _ hzero
    · exact isFinite_dividedBy_pow hx exponent
    · exact Binary64.isFinite_of_isZero hzero
    · exact ih (exponent - 308) (by omega) (magnitude_dividedBy_lt hx)

theorem real?_isFinite {d : Digits} (hd : d.significand ≤ maxSignificand) {negative : Bool}
    {y : Binary64} (h : d.real? negative = some y) : y.isFinite = true := by
  obtain ⟨x, hx, rfl⟩ := Option.map_eq_some_iff.mp h
  have hfinite : x.isFinite = true := by
    dsimp only at hx
    split_ifs at hx with hdown hup hproduct hzero
    · rw [← Option.some.inj hx]
      exact isFinite_scaleDown (magnitude_ofNat_lt hd) _
    · rw [← Option.some.inj hx]
      exact hproduct
    · rw [← Option.some.inj hx]
      exact Binary64.isFinite_of_isZero hzero
  split_ifs
  · exact Binary64.isFinite_neg hfinite
  · exact hfinite

theorem realDraft_yields {d : Digits} (hd : d.significand ≤ maxSignificand) (negative : Bool) :
    (realDraft negative d).Yields (Document.Readable 0) := by
  rw [realDraft]
  cases hreal : d.real? negative with
  | none => exact Draft.yields_fault _
  | some x =>
    intro t ht
    cases ht
    exact ⟨le_rfl, real?_isFinite hd hreal⟩

theorem integerDraft_yields {d : Digits} (hd : d.significand ≤ maxSignificand) (negative : Bool) :
    (integerDraft negative d).Yields (Document.Readable 0) := by
  rw [integerDraft]
  split_ifs with hreal hnegative
  · exact realDraft_yields hd negative
  · intro t ht
    cases ht
    have hpow : Nat.pow 2 63 = 9223372036854775808 := rfl
    have hle : d.significand ≤ 9223372036854775808 := by
      rw [hpow] at hreal
      by_contra hlt
      exact hreal (.inr ⟨hnegative, .inr (by omega)⟩)
    refine ⟨le_rfl, ?_⟩
    change -2 ^ 63 ≤ -(d.significand : Int) ∧ -(d.significand : Int) < 2 ^ 64
    omega
  · intro t ht
    cases ht
    change d.significand ≤ 18446744073709551615 at hd
    refine ⟨le_rfl, ?_⟩
    change -2 ^ 63 ≤ (d.significand : Int) ∧ (d.significand : Int) < 2 ^ 64
    omega

theorem unsignedNumber_yields {negative : Bool} {cs rest : List Char} {d : Draft}
    (h : unsignedNumber negative cs = some (d, rest)) : d.Yields (Document.Readable 0) := by
  have hwhole : ∀ ds, (integerDigits ⟨0, 0⟩ ds).significand ≤ maxSignificand :=
    fun ds => integerDigits_significand_le ds (Nat.zero_le _)
  rw [unsignedNumber] at h
  split at h
  · cases h
  · cases h
  · next =>
    obtain ⟨⟨frac, after⟩, -, hmarks⟩ := Option.bind_eq_some_iff.mp h
    obtain ⟨⟨exp, after⟩, -, hdraft⟩ := Option.bind_eq_some_iff.mp hmarks
    dsimp only at hdraft
    split at hdraft
    · cases hdraft
      exact integerDraft_yields (hwhole _) negative
    · cases hdraft
      refine realDraft_yields ?_ negative
      exact fractionDigits_significand_le _ (hwhole _)

theorem atom_number_yields (cs : List Char) :
    (atom (number cs)).1.Yields (Document.Readable 0) := by
  cases hnumber : number cs with
  | none => exact Draft.yields_fault _
  | some reading =>
    obtain ⟨d, rest⟩ := reading
    have hd : d.Yields (Document.Readable 0) := by
      unfold number at hnumber
      split at hnumber <;> exact unsignedNumber_yields hnumber
    cases d with
    | fault => exact Draft.yields_fault _
    | _ => exact hd

end Json

namespace Document

theorem Readable.mono {m n : Nat} (h : m ≤ n) {d : Document} (hd : d.Readable m) : d.Readable n :=
  ⟨hd.1.trans h, hd.2⟩

theorem readable_array {n : Nat} {items : List Document} (h : ∀ d ∈ items, d.Readable n) :
    (Document.array items).Readable (n + 1) :=
  ⟨Nat.succ_le_succ ((depthItems_le_iff items n).mpr fun d hd => (h d hd).1),
    (numbersInItems_iff _ items).mpr fun d hd => (h d hd).2⟩

theorem readable_table {n : Nat} {entries : List (String × Document)}
    (h : ∀ e ∈ entries, e.2.Readable n) : (Document.table entries).Readable (n + 1) :=
  ⟨Nat.succ_le_succ ((depthEntries_le_iff entries n).mpr fun e he => (h e he).1),
    (numbersInEntries_iff _ entries).mpr fun e he => (h e he).2⟩

end Document

namespace Draft

theorem Yields.mono {p q : Document → Prop} (hpq : ∀ d, p d → q d) {draft : Draft}
    (h : draft.Yields p) : draft.Yields q :=
  fun d hd => hpq d (h d hd)

theorem yields_array {n : Nat} {ds : List Draft} (h : ∀ d ∈ ds, d.Yields (Document.Readable n))
    (closed : Bool) : (Draft.array ds closed).Yields (Document.Readable (n + 1)) := by
  intro t ht
  cases closed with
  | false => cases ht
  | true =>
    obtain ⟨items, hitems, rfl⟩ := Option.map_eq_some_iff.mp ht
    exact Document.readable_array (yields_items h hitems)

theorem yields_table {n : Nat} {ds : List (String × Draft)}
    (h : ∀ e ∈ ds, e.2.Yields (Document.Readable n)) (closed : Bool) :
    (Draft.table ds closed).Yields (Document.Readable (n + 1)) := by
  intro t ht
  cases closed with
  | false => cases ht
  | true =>
    obtain ⟨entries, hentries, rfl⟩ := Option.map_eq_some_iff.mp ht
    exact Document.readable_table (yields_entries h hentries)

end Draft

namespace Json

section Parts
variable {item : List Char → Reading Draft} {p : Document → Prop}

theorem items_yields (hitem : ∀ cs, (item cs).1.Yields p) (n : Nat) (cs : List Char) :
    ∀ d ∈ (items item n cs).1, d.Yields p := by
  induction n generalizing cs with
  | zero => simpa [items] using Draft.yields_fault p
  | succ n ih =>
    have hfirst := hitem cs
    rw [items]
    split
    · next d heq =>
      rw [heq] at hfirst
      simpa using hfirst
    · next d rest heq =>
      rw [heq] at hfirst
      split
      · next rest' _ => simpa using ⟨hfirst, ih rest'⟩
      · simpa using hfirst
      · simpa using hfirst

theorem memberValue_yields (hitem : ∀ cs, (item cs).1.Yields p) (cs : List Char) :
    (memberValue item cs).1.Yields p := by
  unfold memberValue
  split
  · exact hitem _
  · exact Draft.yields_fault p

theorem members_yields (hitem : ∀ cs, (item cs).1.Yields p) (n : Nat) (cs : List Char) :
    ∀ e ∈ (members item n cs).1, e.2.Yields p := by
  induction n generalizing cs with
  | zero => simp [members]
  | succ n ih =>
    rw [members]
    split
    · simp
    · next name rest _ =>
      have hfirst := memberValue_yields hitem rest
      split
      · next d heq =>
        rw [heq] at hfirst
        simpa using hfirst
      · next d rest heq =>
        rw [heq] at hfirst
        split
        · next rest' _ =>
          intro e he
          rcases List.mem_cons.mp he with rfl | he
          · exact hfirst
          · exact ih rest' e he
        · simpa using hfirst
        · simpa using hfirst

theorem array_yields {n : Nat} (hitem : ∀ cs, (item cs).1.Yields (Document.Readable n))
    (cs : List Char) : (array item cs).1.Yields (Document.Readable (n + 1)) := by
  unfold array
  split
  · exact Draft.yields_array (by simp) true
  · exact Draft.yields_array (items_yields hitem _ cs) _

theorem object_yields {n : Nat} (hitem : ∀ cs, (item cs).1.Yields (Document.Readable n))
    (cs : List Char) : (object item cs).1.Yields (Document.Readable (n + 1)) := by
  unfold object
  split
  · exact Draft.yields_table (by simp) true
  · exact Draft.yields_table (members_yields hitem _ cs) _

end Parts

theorem atom_text_yields (cs : List Char) :
    (atom ((string? cs).map fun (s, r) => (.text s, r))).1.Yields (Document.Readable 0) := by
  cases string? cs with
  | none => exact Draft.yields_fault _
  | some reading =>
    intro t ht
    cases ht
    exact ⟨le_rfl, trivial⟩

theorem value_step (depth : Nat) (cs : List Char) :
    (value depth cs).1.Yields (Document.Readable 0) ∨
      ∃ n rest, depth = n + 1 ∧
        (value depth cs = array (value n) rest ∨ value depth cs = object (value n) rest) := by
  rw [value]
  split
  · exact .inl fun t ht => by cases ht; exact ⟨le_rfl, trivial⟩
  · exact .inl fun t ht => by cases ht; exact ⟨le_rfl, trivial⟩
  · exact .inl fun t ht => by cases ht; exact ⟨le_rfl, trivial⟩
  · exact .inl (atom_text_yields _)
  · cases depth with
    | zero => exact .inl (Draft.yields_fault _)
    | succ n => exact .inr ⟨n, _, rfl, .inl rfl⟩
  · cases depth with
    | zero => exact .inl (Draft.yields_fault _)
    | succ n => exact .inr ⟨n, _, rfl, .inr rfl⟩
  · exact .inl (atom_number_yields _)

/-- Whatever the text, what is read nests no deeper than allowed and holds only finite numbers. -/
theorem value_yields (depth : Nat) (cs : List Char) :
    (value depth cs).1.Yields (Document.Readable depth) := by
  induction depth generalizing cs with
  | zero =>
    rcases value_step 0 cs with hleaf | ⟨n, rest, hdepth, -⟩
    · exact hleaf
    · cases hdepth
  | succ n ih =>
    rcases value_step (n + 1) cs with hleaf | ⟨m, rest, hdepth, harray | hobject⟩
    · exact hleaf.mono fun d hd => hd.mono (Nat.zero_le _)
    · cases hdepth
      rw [harray]
      exact array_yields ih rest
    · cases hdepth
      rw [hobject]
      exact object_yields ih rest

theorem read_yields (text : String) : (read text).draft.Yields (Document.Readable maxDepth) := by
  have hvalue := value_yields maxDepth text.toList
  unfold read
  split
  · next heq =>
    rw [heq] at hvalue
    exact hvalue
  · next heq =>
    rw [heq] at hvalue
    exact hvalue

end Json

end BrokerPolicy
