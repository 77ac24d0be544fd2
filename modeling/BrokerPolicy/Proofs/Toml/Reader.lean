import BrokerPolicy.Proofs.Toml.Tree
import BrokerPolicy.Toml.Reader

set_option autoImplicit false

/-!
Whatever text a TOML document is read off, it is a tree of TOML. Each scanner gives one, and the
tables that lines add to stay so.
-/

namespace BrokerPolicy.Toml

def GivesTree (r : Option (Document × List Char)) : Prop :=
  ∀ d rest, r = some (d, rest) → IsTree d

theorem givesTree_none : GivesTree none := fun _ _ h => nomatch h

theorem givesTree_some {d : Document} (h : IsTree d) (rest : List Char) :
    GivesTree (some (d, rest)) := by
  intro d' rest' heq
  cases heq
  exact h

theorem GivesTree.bind {α : Type} {x : Option α} {f : α → Option (Document × List Char)}
    (h : ∀ a, x = some a → GivesTree (f a)) : GivesTree (x >>= f) := by
  intro d rest hd
  obtain ⟨a, ha, hf⟩ := Option.bind_eq_some_iff.1 hd
  exact h a ha d rest hf

theorem givesTree_map {α : Type} {x : Option (α × List Char)} {f : α → Document}
    (h : ∀ a rest, x = some (a, rest) → IsTree (f a)) :
    GivesTree (x.map fun (a, rest) => (f a, rest)) := by
  intro d rest hd
  obtain ⟨⟨a, _⟩, ha, heq⟩ := Option.map_eq_some_iff.1 hd
  cases heq
  exact h a rest ha

theorem isTree_integer? {negative : Bool} {magnitude : Nat} {d : Document}
    (h : integer? negative magnitude = some d) : IsTree d := by
  dsimp only [integer?] at h
  generalize (if negative then -(magnitude : Int) else magnitude) = i at h
  split_ifs at h with hrange
  rw [← Option.some.inj h]
  exact .integer hrange.1 hrange.2

theorem isTree_real? {negative : Bool} {digits : Nat} {exponent : Int} {d : Document}
    (h : real? negative digits exponent = some d) : IsTree d := by
  dsimp only [real?] at h
  split_ifs at h
  rw [← Option.some.inj h]
  exact .real _

theorem givesTree_integer? (negative : Bool) (magnitude : Nat) (rest : List Char) :
    GivesTree (do return (← integer? negative magnitude, rest)) :=
  .bind fun _ hd => givesTree_some (isTree_integer? hd) rest

theorem givesTree_real? (negative : Bool) (digits : Nat) (exponent : Int) (rest : List Char) :
    GivesTree (do return (← real? negative digits exponent, rest)) :=
  .bind fun _ hd => givesTree_some (isTree_real? hd) rest

theorem givesTree_continueNumber? (negative : Bool) (whole rest : List Char) :
    GivesTree (continueNumber? negative whole rest) := by
  unfold continueNumber?
  split
  · apply GivesTree.bind
    rintro ⟨frac, rest⟩ _
    dsimp only
    split
    · split_ifs
      · exact .bind fun _ _ => givesTree_real? _ _ _ _
      · exact givesTree_real? _ _ _ _
    · exact givesTree_real? _ _ _ _
  · split_ifs
    · exact .bind fun _ _ => givesTree_real? _ _ _ _
    · exact givesTree_integer? _ _ _
  · exact givesTree_integer? _ _ _

theorem givesTree_decimalNumber? (cs : List Char) : GivesTree (decimalNumber? cs) := by
  unfold decimalNumber?
  generalize sign cs = signed
  obtain ⟨negative, rest⟩ := signed
  dsimp only
  split
  · exact givesTree_some (.real _) _
  · exact givesTree_some (.real _) _
  · exact .bind fun _ _ => givesTree_continueNumber? _ _ _

theorem givesTree_basedInteger? (base : Nat) (ok : Char → Bool) (cs : List Char) :
    GivesTree (basedInteger? base ok cs) := by
  unfold basedInteger?
  exact .bind fun _ _ => givesTree_integer? _ _ _

theorem givesTree_number? (cs : List Char) : GivesTree (number? cs) := by
  unfold number?
  split
  · exact givesTree_basedInteger? _ _ _
  · exact givesTree_basedInteger? _ _ _
  · exact givesTree_basedInteger? _ _ _
  · exact givesTree_decimalNumber? _

theorem isTree_dateTimeDocument (d : DateTime) : IsTree (dateTimeDocument d) :=
  .table (List.nodup_singleton _) (List.forall_mem_singleton.2 (.text _))

theorem givesTree_numeric? (cs : List Char) : GivesTree (numeric? cs) := by
  unfold numeric?
  split_ifs
  · exact givesTree_map fun d _ _ => isTree_dateTimeDocument d
  · exact givesTree_map fun d _ _ => isTree_dateTimeDocument d
  · exact givesTree_number? cs

section

variable {value : List Char → Option (Document × List Char)} (hvalue : ∀ cs, GivesTree (value cs))
include hvalue

theorem isTree_of_elements? {n : Nat} {cs rest : List Char} {ds : List Document}
    (h : elements? value n cs = some (ds, rest)) : ∀ d ∈ ds, IsTree d := by
  induction n generalizing cs rest ds with
  | zero => exact nomatch h
  | succ n ih =>
    obtain ⟨after, _, h⟩ := Option.bind_eq_some_iff.1 h
    split at h
    · cases h
      simp
    · obtain ⟨⟨d, after'⟩, hd, h⟩ := Option.bind_eq_some_iff.1 h
      have hfirst := hvalue _ d after' hd
      obtain ⟨next, _, h⟩ := Option.bind_eq_some_iff.1 h
      split at h
      · obtain ⟨⟨others, last⟩, hothers, h⟩ := Option.bind_eq_some_iff.1 h
        cases h
        exact List.forall_mem_cons.2 ⟨hfirst, ih hothers⟩
      · cases h
        exact List.forall_mem_singleton.2 hfirst
      · exact nomatch h

theorem areTree_of_pairs? {n : Nat} {es es' : Entries} {cs rest : List Char} (hes : AreTree es)
    (h : pairs? value n es cs = some (es', rest)) : AreTree es' := by
  induction n generalizing es cs with
  | zero => exact nomatch h
  | succ n ih =>
    obtain ⟨⟨key, afterKey⟩, _, h⟩ := Option.bind_eq_some_iff.1 h
    obtain ⟨afterMark, _, h⟩ := Option.bind_eq_some_iff.1 h
    obtain ⟨⟨d, afterValue⟩, hd, h⟩ := Option.bind_eq_some_iff.1 h
    obtain ⟨added, hadded, h⟩ := Option.bind_eq_some_iff.1 h
    have hnode : (Node.value d).IsTree := .value (hvalue _ d afterValue hd)
    have hkept := keeps_addEntry key hnode .declared es added hes hadded
    split at h
    · exact ih hkept h
    · cases h
      exact hkept
    · exact nomatch h

theorem givesTree_inlineTable? (cs : List Char) : GivesTree (inlineTable? value cs) := by
  unfold inlineTable?
  split
  · exact givesTree_some (.table (by simp) (by simp)) _
  · refine .bind fun ⟨es, rest⟩ hes => ?_
    exact givesTree_some (areTree_of_pairs? hvalue areTree_nil hes).isTree rest

end

theorem givesTree_value? (depth : Nat) (cs : List Char) : GivesTree (value? depth cs) := by
  induction depth generalizing cs with
  | zero =>
    unfold value?
    split
    · exact givesTree_some (.boolean true) _
    · exact givesTree_some (.boolean false) _
    · exact givesTree_none
    · exact givesTree_none
    · exact givesTree_map fun s _ _ => .text s
    · exact givesTree_map fun s _ _ => .text s
    · exact givesTree_numeric? _
  | succ depth ih =>
    unfold value?
    split
    · exact givesTree_some (.boolean true) _
    · exact givesTree_some (.boolean false) _
    · exact givesTree_map fun ds _ h => .array (isTree_of_elements? ih h)
    · exact givesTree_inlineTable? ih _
    · exact givesTree_map fun s _ _ => .text s
    · exact givesTree_map fun s _ _ => .text s
    · exact givesTree_numeric? _

theorem areTree_of_header {p q : Progress} {cs rest : List Char} (hp : AreTree p.root)
    (h : header? p cs = some (q, rest)) : AreTree q.root := by
  unfold header? at h
  split at h
  · obtain ⟨⟨key, afterKey⟩, _, h⟩ := Option.bind_eq_some_iff.1 h
    dsimp only at h
    split at h
    · obtain ⟨afterLine, _, h⟩ := Option.bind_eq_some_iff.1 h
      obtain ⟨root, hroot, h⟩ := Option.bind_eq_some_iff.1 h
      cases h
      exact keeps_openElement key p.root root hp hroot
    · exact nomatch h
  · obtain ⟨⟨key, afterKey⟩, _, h⟩ := Option.bind_eq_some_iff.1 h
    obtain ⟨afterMark, _, h⟩ := Option.bind_eq_some_iff.1 h
    obtain ⟨afterLine, _, h⟩ := Option.bind_eq_some_iff.1 h
    obtain ⟨root, hroot, h⟩ := Option.bind_eq_some_iff.1 h
    cases h
    exact keeps_openTable key p.root root hp hroot
  · exact nomatch h

theorem areTree_of_entry {p q : Progress} {cs rest : List Char} (hp : AreTree p.root)
    (h : entry? p cs = some (q, rest)) : AreTree q.root := by
  obtain ⟨⟨key, afterKey⟩, _, h⟩ := Option.bind_eq_some_iff.1 h
  obtain ⟨afterMark, _, h⟩ := Option.bind_eq_some_iff.1 h
  obtain ⟨⟨d, afterValue⟩, hd, h⟩ := Option.bind_eq_some_iff.1 h
  obtain ⟨afterLine, _, h⟩ := Option.bind_eq_some_iff.1 h
  obtain ⟨root, hroot, h⟩ := Option.bind_eq_some_iff.1 h
  cases h
  have hnode : (Node.value d).IsTree := .value (givesTree_value? maxDepth _ d afterValue hd)
  exact keeps_addBelow p.header key hnode p.root root hp hroot

theorem areTree_of_lines {n : Nat} {p : Progress} {cs : List Char} {es : Entries}
    (hp : AreTree p.root) (h : lines n p cs = some es) : AreTree es := by
  induction n generalizing p cs with
  | zero =>
    rw [lines] at h
    split_ifs at h
    cases h
    exact hp
  | succ n ih =>
    rw [lines] at h
    split at h
    · cases h
      exact hp
    · dsimp only at h
      split_ifs at h
      · obtain ⟨⟨q, after⟩, hline, h⟩ := Option.bind_eq_some_iff.1 h
        exact ih (areTree_of_header hp hline) h
      · obtain ⟨⟨q, after⟩, hline, h⟩ := Option.bind_eq_some_iff.1 h
        obtain ⟨_, _, heq⟩ := Option.map_eq_some_iff.1 hline
        cases heq
        exact ih hp h
      · obtain ⟨⟨q, after⟩, hline, h⟩ := Option.bind_eq_some_iff.1 h
        exact ih (areTree_of_entry hp hline) h

/-- What is read off a text is a tree: nothing in it is null or too large, and no name comes twice
in a table. -/
theorem isTree_of_entries? {source : String} {entries : List (String × Document)}
    (h : entries? source = some entries) : IsTree (.table entries) := by
  obtain ⟨es, hes, rfl⟩ := Option.map_eq_some_iff.1 h
  exact (areTree_of_lines areTree_nil hes).isTree

end BrokerPolicy.Toml
