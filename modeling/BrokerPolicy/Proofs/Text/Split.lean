import Mathlib.Data.String.Basic

set_option autoImplicit false

/-!
A text split at a character is the list of its characters split there. The text is walked by the
bytes that lie behind, so what is behind is kept as a list of characters beside the place.
-/

namespace BrokerPolicy.Text

open String (ofList utf8Len)
open String.Pos.Raw (atEnd get next extract unoffsetBy)

section Walk

variable (behind part ahead : List Char)

theorem extract_part :
    extract (ofList (behind ++ part ++ ahead)) ⟨utf8Len behind⟩ ⟨utf8Len (behind ++ part)⟩ =
      ofList part := by
  rw [String.utf8Len_append]
  exact String.extract_of_valid behind part ahead

/-- A walk that has the part before the next separator behind it, from its first character on. -/
theorem splitOnAux_singleton (c : Char) (found : List String) :
    String.splitOnAux (ofList (behind ++ part ++ ahead)) (ofList [c]) ⟨utf8Len behind⟩
        ⟨utf8Len (behind ++ part)⟩ 0 found =
      found.reverse ++ (List.splitOnPPrepend (· == c) ahead part.reverse).map ofList := by
  induction ahead generalizing behind part found with
  | nil =>
    have hend : atEnd (ofList (behind ++ part ++ [])) ⟨utf8Len (behind ++ part)⟩ = true :=
      (String.atEnd_of_valid (behind ++ part) []).2 rfl
    rw [String.splitOnAux, if_pos hend, extract_part, List.splitOnPPrepend_nil,
      List.reverse_reverse]
    exact List.reverse_cons
  | cons x ahead ih =>
    have hend : ¬ atEnd (ofList (behind ++ part ++ x :: ahead)) ⟨utf8Len (behind ++ part)⟩ = true :=
      fun h => List.cons_ne_nil x ahead ((String.atEnd_of_valid (behind ++ part) _).1 h)
    have hget : get (ofList (behind ++ part ++ x :: ahead)) ⟨utf8Len (behind ++ part)⟩ = x :=
      String.get_of_valid (behind ++ part) (x :: ahead)
    have hnext : next (ofList (behind ++ part ++ x :: ahead)) ⟨utf8Len (behind ++ part)⟩ =
        ⟨utf8Len (behind ++ part) + x.utf8Size⟩ := String.next_of_valid (behind ++ part) x ahead
    have hmark : get (ofList [c]) 0 = c := String.get_of_valid [] [c]
    rw [String.splitOnAux, if_neg hend, hget, hmark]
    -- a separator moves what lies behind, any other character grows the part
    by_cases hx : (x == c) = true
    · have hpast : next (ofList [c]) 0 = ⟨0 + c.utf8Size⟩ := String.next_of_valid [] c []
      have hwhole : atEnd (ofList [c]) ⟨0 + c.utf8Size⟩ = true :=
        (String.atEnd_of_valid [c] []).2 rfl
      have hback : unoffsetBy ⟨utf8Len (behind ++ part) + c.utf8Size⟩ ⟨0 + c.utf8Size⟩ =
          ⟨utf8Len (behind ++ part)⟩ := by
        simp [String.Pos.Raw.ext_iff]
      have hrest := ih (behind ++ part ++ [x]) [] (ofList part :: found)
      rw [if_pos hx, List.splitOnPPrepend_cons_pos (p := (· == c)) hx]
      obtain rfl : x = c := beq_iff_eq.1 hx
      simp only [hnext, hpast, hwhole, if_true, hback, extract_part]
      simpa [Nat.add_assoc] using hrest
    · have hback : unoffsetBy ⟨utf8Len (behind ++ part)⟩ 0 = ⟨utf8Len (behind ++ part)⟩ := by
        simp
      have hrest := ih behind (part ++ [x]) found
      rw [if_neg hx, List.splitOnPPrepend_cons_neg (by simpa using hx), hback, hnext]
      simpa [Nat.add_assoc] using hrest

end Walk

theorem splitOn_singleton (c : Char) (s : String) :
    s.splitOn (ofList [c]) = (s.toList.splitOnP (· == c)).map ofList := by
  have hmark : (ofList [c] == "") = false := by simp
  have hwalk := splitOnAux_singleton [] [] s.toList c []
  rw [String.splitOn, hmark]
  simpa using hwalk

theorem splitOn_append_cons {c : Char} {first : List Char} (h : ∀ x ∈ first, x ≠ c)
    (rest : List Char) :
    (ofList (first ++ c :: rest)).splitOn (ofList [c]) =
      ofList first :: (ofList rest).splitOn (ofList [c]) := by
  have hfirst : ∀ x ∈ first, (x == c) = false := fun x hx => beq_eq_false_iff_ne.2 (h x hx)
  rw [splitOn_singleton, splitOn_singleton, String.toList_ofList, String.toList_ofList,
    List.splitOnP_append_cons_of_forall_mem hfirst c (beq_self_eq_true c), List.map_cons]

theorem splitOn_of_forall_ne {c : Char} {s : List Char} (h : ∀ x ∈ s, x ≠ c) :
    (ofList s).splitOn (ofList [c]) = [ofList s] := by
  have hnone : ∀ x ∈ s, (x == c) = false := fun x hx => beq_eq_false_iff_ne.2 (h x hx)
  rw [splitOn_singleton, String.toList_ofList, List.splitOnP_eq_singleton hnone, List.map_singleton]

end BrokerPolicy.Text
