import Mathlib.Data.List.Lex
import Mathlib.Data.String.Basic

set_option autoImplicit false

/-!
Two orders of texts that are the same: by code points, in which tables of names are kept, and by the
bytes of UTF-8. Where two characters differ first in a byte, the greater one has the greater byte.
-/

namespace BrokerPolicy.Text

def bytes (s : String) : List UInt8 := s.toUTF8.data.toList

theorem bytes_eq_flatMap (s : String) : bytes s = s.toList.flatMap String.utf8EncodeChar := by
  have hencoded : s.toUTF8 = s.toList.utf8Encode := by simp [String.toUTF8_eq_toByteArray]
  rw [bytes, hencoded, List.utf8Encode, List.data_toByteArray]

theorem ofNat_cons_lt {a b : Nat} (hb : b < 256) (hle : a ≤ b) {as bs : List UInt8}
    (h : a = b → as < bs) : UInt8.ofNat a :: as < UInt8.ofNat b :: bs := by
  rw [List.cons_lt_cons_iff]
  rcases Nat.lt_or_eq_of_le hle with hlt | heq
  · left
    rw [UInt8.lt_iff_toNat_lt, UInt8.toNat_ofNat', UInt8.toNat_ofNat']
    omega
  · exact .inr ⟨congrArg UInt8.ofNat heq, h heq⟩

theorem utf8EncodeChar_append_lt {c d : Char} (h : c < d) (as bs : List UInt8) :
    String.utf8EncodeChar c ++ as < String.utf8EncodeChar d ++ bs := by
  have hlt : c.val.toNat < d.val.toNat := h
  have hmax : d.val.toNat < 0x110000 := by
    rcases d.valid with hlow | ⟨-, hhigh⟩
    · exact Nat.lt_trans hlow (by decide)
    · exact hhigh
  unfold String.utf8EncodeChar
  generalize c.val.toNat = m at *
  generalize d.val.toNat = n at *
  dsimp only
  -- A longer code starts with a greater byte; codes of one length are compared byte by byte.
  split_ifs <;> simp only [List.cons_append, List.nil_append]
  all_goals
    repeat
      first
      | omega
      | refine ofNat_cons_lt (by omega) (by omega) fun _ => ?_

theorem flatMap_lt_flatMap {cs ds : List Char} (h : cs < ds) :
    cs.flatMap String.utf8EncodeChar < ds.flatMap String.utf8EncodeChar := by
  induction h with
  | @nil d ds =>
    obtain ⟨b, bs, hcode⟩ := List.exists_cons_of_ne_nil (String.utf8EncodeChar_ne_nil (c := d))
    rw [List.flatMap_cons, hcode]
    exact List.nil_lt_cons b _
  | @rel c cs d ds hlt =>
    rw [List.flatMap_cons, List.flatMap_cons]
    exact utf8EncodeChar_append_lt hlt _ _
  | @cons c cs ds _ ih =>
    rw [List.flatMap_cons, List.flatMap_cons]
    exact List.Lex.append_left _ ih _

theorem lt_iff_bytes_lt (s t : String) : s < t ↔ bytes s < bytes t := by
  have hmono {u v : String} (h : u < v) : bytes u < bytes v := by
    rw [bytes_eq_flatMap, bytes_eq_flatMap]
    exact flatMap_lt_flatMap h
  constructor
  · exact hmono
  · intro h
    rcases lt_trichotomy s t with hlt | rfl | hgt
    · exact hlt
    · exact absurd h (List.lt_irrefl _)
    · exact absurd h (List.lt_asymm (hmono hgt))

theorem pairwise_bytes_lt {names : List String} (h : names.Pairwise (· < ·)) :
    names.Pairwise fun m n => bytes m < bytes n :=
  h.imp fun hlt => (lt_iff_bytes_lt _ _).1 hlt

end BrokerPolicy.Text
