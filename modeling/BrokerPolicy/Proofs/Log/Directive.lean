import BrokerPolicy.Log.Directive
import BrokerPolicy.Proofs.Text.Letters
import Mathlib.Data.List.Basic

set_option autoImplicit false

/-!
Directives that give a level to a target. Places in a text count bytes, so a part is cut out where
the bytes of the parts before it end.
-/

namespace BrokerPolicy.Log

namespace Directive

theorem byteCount_cons (c : Char) (cs : List Char) :
    byteCount (c :: cs) = c.utf8Size + byteCount cs := by
  have hstart (n : Nat) : cs.foldl (fun n c => n + c.utf8Size) n = n + byteCount cs := by
    induction cs generalizing n with
    | nil => rfl
    | cons d rest ih =>
      change rest.foldl _ (n + d.utf8Size) = n + rest.foldl _ (0 + d.utf8Size)
      rw [ih, ih (0 + d.utf8Size)]
      omega
  exact (hstart (0 + c.utf8Size)).trans (by rw [Nat.zero_add])

theorem dropBytes_zero (cs : List Char) : dropBytes 0 cs = cs := by
  cases cs <;> rfl

theorem takeBytes_zero (cs : List Char) : takeBytes 0 cs = [] := by
  cases cs <;> rfl

theorem dropBytes_cons (c : Char) (n : Nat) (rest : List Char) :
    dropBytes (c.utf8Size + n) (c :: rest) = dropBytes n rest := by
  obtain ⟨k, hk⟩ := Nat.exists_eq_succ_of_ne_zero (Nat.ne_of_gt c.utf8Size_pos)
  have hplace : c.utf8Size + n = (k + n) + 1 := by omega
  rw [hplace, dropBytes]
  congr 1
  omega

theorem takeBytes_cons (c : Char) (n : Nat) (rest : List Char) :
    takeBytes (c.utf8Size + n) (c :: rest) = c :: takeBytes n rest := by
  obtain ⟨k, hk⟩ := Nat.exists_eq_succ_of_ne_zero (Nat.ne_of_gt c.utf8Size_pos)
  have hplace : c.utf8Size + n = (k + n) + 1 := by omega
  rw [hplace, takeBytes]
  congr 2
  omega

theorem dropBytes_append (cs : List Char) (n : Nat) (rest : List Char) :
    dropBytes (byteCount cs + n) (cs ++ rest) = dropBytes n rest := by
  induction cs with
  | nil => exact congrArg (dropBytes · rest) (Nat.zero_add n)
  | cons c cs ih => rw [byteCount_cons, Nat.add_assoc, List.cons_append, dropBytes_cons, ih]

theorem takeBytes_append (cs rest : List Char) :
    takeBytes (byteCount cs) (cs ++ rest) = cs := by
  induction cs with
  | nil => exact takeBytes_zero rest
  | cons c cs ih => rw [byteCount_cons, List.cons_append, takeBytes_cons, ih]

end Directive

theorem Threshold.ofText?_of_name {s : String} {l : Level}
    (h : Text.lowerAscii s = Text.lowerAscii l.name) : Threshold.ofText? s = some (some l) := by
  have hword : Text.lowerAscii l.name = Threshold.name (some l) := by cases l <;> decide
  have hlower : (Text.lowerAscii l.name).toList.all Char.isLower = true := by
    cases l <;> decide
  have halpha := Text.isAlpha_of_lowerAscii h hlower
  have hne : s.toList ≠ [] := by
    intro hnil
    rw [Text.lowerAscii, hnil] at h
    cases l <;> exact absurd h (by decide)
  obtain ⟨c, cs, hcs⟩ := List.exists_cons_of_ne_nil hne
  have hc : c.isAlpha = true := halpha c (by rw [hcs]; exact List.mem_cons_self)
  -- a letter in front makes it no number, with or without a sign
  have hnumber : number? s = none := by
    have hplus : c ≠ '+' := Text.ne_of_isAlpha hc rfl
    have hdigits : ¬ ((c :: cs) ≠ [] ∧ (c :: cs).all Char.isDigit = true) := by
      simp [Text.isDigit_of_isAlpha hc]
    rw [number?, hcs]
    split
    · next heq => exact absurd (List.head_eq_of_cons_eq heq) hplus
    · exact if_neg hdigits
  rw [ofText?, hnumber]
  simp only [h, hword]
  cases l <;> decide

namespace Directive

section Target

variable {target level : List Char}

theorem takeWhile_upTo {stop : Char → Bool} (hstop : ∀ x ∈ target, stop x = false) {c : Char}
    (hc : stop c = true) (rest : List Char) :
    (target ++ c :: rest).takeWhile (fun x => !stop x) = target := by
  have hgo : ∀ x ∈ target, (!stop x) = true := fun x hx => by rw [hstop x hx]; rfl
  rw [List.takeWhile_append_of_pos hgo, List.takeWhile_cons_of_neg (by simp [hc]), List.append_nil]

theorem dropWhile_upTo {stop : Char → Bool} (hstop : ∀ x ∈ target, stop x = false) {c : Char}
    (hc : stop c = true) (rest : List Char) :
    (target ++ c :: rest).dropWhile (fun x => !stop x) = c :: rest := by
  have hgo : ∀ x ∈ target, (!stop x) = true := fun x hx => by rw [hstop x hx]; rfl
  rw [List.dropWhile_append_of_pos hgo, List.dropWhile_cons_of_neg (by simp [hc])]

theorem Cursor.upTo_append {stop : Char → Bool} (hstop : ∀ x ∈ target, stop x = false) {c : Char}
    (hc : stop c = true) (rest : List Char) :
    Cursor.upTo stop ⟨target ++ c :: rest, 0, target ++ c :: rest⟩ =
      (String.ofList target, ⟨target ++ c :: rest, byteCount target, c :: rest⟩) := by
  simp only [Cursor.upTo, takeWhile_upTo hstop hc, dropWhile_upTo hstop hc, dropBytes_zero,
    takeBytes_append, Nat.zero_add]

theorem Cursor.remainder_next (target : List Char) (c : Char) (rest : List Char) :
    (Cursor.next ⟨target ++ c :: rest, byteCount target, c :: rest⟩).remainder =
      String.ofList rest := by
  have hmark : dropBytes c.utf8Size (c :: rest) = rest :=
    (dropBytes_cons c 0 rest).trans (dropBytes_zero rest)
  have hbehind : dropBytes (byteCount target + c.utf8Size) (target ++ c :: rest) = rest := by
    rw [dropBytes_append, hmark]
  simp only [Cursor.next, Cursor.remainder, hbehind]

theorem read_target {c : Char} {rest : List Char} (htarget : target = c :: rest)
    (hopens : opens c = true) (hmarks : ∀ x ∈ target, (x = '=' || x = '[') = false)
    (hblank : ∀ x ∈ target ++ '=' :: level, Text.isBlank x = false) {t : Threshold}
    (hlevel : Threshold.ofText? (String.ofList level) = some t) :
    read (String.ofList (target ++ '=' :: level)) =
      .ok ⟨some (String.ofList target), none, none, t⟩ := by
  have hsome : String.ofList level ≠ "" := by
    intro hnone
    have hempty : Threshold.ofText? "" = none := by decide
    rw [hnone, hempty] at hlevel
    cases hlevel
  have hname : (c = '=' || c = '[') = false :=
    hmarks c (htarget ▸ List.mem_cons_self)
  have hbracket : c ≠ '[' := by
    rintro rfl
    exact absurd hname (by decide)
  have hup := Cursor.upTo_append hmarks (c := '=') rfl level
  have hbehind := Cursor.remainder_next target '=' level
  rw [read, String.toList_ofList, Text.trimBlanks_of_forall hblank]
  subst htarget
  rw [List.cons_append] at hup hbehind ⊢
  simp only [if_neg hbracket, hopens, Bool.not_true, hup]
  simp [readLevel, hbehind, hsome, hlevel, Scope.at]

end Target

end Directive

end BrokerPolicy.Log
