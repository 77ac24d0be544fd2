import BrokerPolicy.Json.Reader
import BrokerPolicy.Text.Quoted
import Mathlib.Data.List.Forall2

set_option autoImplicit false

/-!
The ways to write a text in quotes. The reader takes any of them for the same text, and quoting is
one of them.
-/

namespace BrokerPolicy.Json

open Text (jsonChar jsonQuoted padZeros hexDigits)

def HexDigit (n : Nat) (c : Char) : Prop := n < 16 ∧ (c = n.digitChar ∨ c = n.digitChar.toUpper)

theorem hexDigit_digitChar {n : Nat} (h : n < 16) : HexDigit n n.digitChar := ⟨h, .inl rfl⟩

theorem HexDigit.hexValue? {n : Nat} {c : Char} (h : HexDigit n c) :
    Text.hexValue? c = some n := by
  have hvalue : ∀ n < 16, Text.hexValue? n.digitChar = some n ∧
      Text.hexValue? n.digitChar.toUpper = some n := by decide
  obtain ⟨hn, rfl | rfl⟩ := h
  · exact (hvalue n hn).1
  · exact (hvalue n hn).2

inductive SpellsUnit : Nat → List Char → Prop
  | digits {a b c d : Nat} {w x y z : Char} (ha : HexDigit a w) (hb : HexDigit b x)
    (hc : HexDigit c y) (hd : HexDigit d z) :
    SpellsUnit (((a * 16 + b) * 16 + c) * 16 + d) [w, x, y, z]

theorem SpellsUnit.codeUnit? {n : Nat} {ds : List Char} (h : SpellsUnit n ds) (rest : List Char) :
    codeUnit? (ds ++ rest) = some (n, rest) := by
  obtain ⟨ha, hb, hc, hd⟩ := h
  simp [Json.codeUnit?, ha.hexValue?, hb.hexValue?, hc.hexValue?, hd.hexValue?]

def escapes : List (Char × Char) :=
  [('"', '"'), ('\\', '\\'), ('/', '/'), ('b', '\x08'), ('f', '\x0c'), ('n', '\n'), ('r', '\r'),
    ('t', '\t')]

/-- The ways to write a character in quotes. Past the first plane it has two numbers. -/
inductive SpellsChar : Char → List Char → Prop
  | plain {c : Char} (hquote : c ≠ '"') (hbackslash : c ≠ '\\') (hcontrol : ¬ c.toNat < 0x20) :
    SpellsChar c [c]
  | escaped {mark c : Char} (h : (mark, c) ∈ escapes) : SpellsChar c ['\\', mark]
  | numbered {n : Nat} {ds : List Char} (h : SpellsUnit n ds)
    (hleading : isLeadingSurrogate n = false) (htrailing : isTrailingSurrogate n = false) :
    SpellsChar (Char.ofNat n) ('\\' :: 'u' :: ds)
  | pair {n m : Nat} {ds es : List Char} (hn : SpellsUnit n ds) (hm : SpellsUnit m es)
    (hleading : isLeadingSurrogate n = true) (htrailing : isTrailingSurrogate m = true) :
    SpellsChar (Char.ofNat (0x10000 + (n - 0xd800) * 0x400 + (m - 0xdc00)))
      ('\\' :: 'u' :: (ds ++ '\\' :: 'u' :: es))

theorem escape?_of_mem {mark c : Char} (h : (mark, c) ∈ escapes) (rest : List Char) :
    escape? (mark :: rest) = some (c, rest) := by
  simp only [escapes, List.mem_cons, Prod.mk.injEq, List.not_mem_nil, or_false] at h
  rcases h with ⟨rfl, rfl⟩ | ⟨rfl, rfl⟩ | ⟨rfl, rfl⟩ | ⟨rfl, rfl⟩ | ⟨rfl, rfl⟩ | ⟨rfl, rfl⟩ |
    ⟨rfl, rfl⟩ | ⟨rfl, rfl⟩ <;> rfl

theorem numberedEscape?_unit {n : Nat} {ds : List Char} (h : SpellsUnit n ds)
    (hleading : isLeadingSurrogate n = false) (htrailing : isTrailingSurrogate n = false)
    (rest : List Char) : numberedEscape? (ds ++ rest) = some (Char.ofNat n, rest) := by
  simp [numberedEscape?, h.codeUnit? rest, hleading, htrailing]

theorem numberedEscape?_pair {n m : Nat} {ds es : List Char} (hn : SpellsUnit n ds)
    (hm : SpellsUnit m es) (hleading : isLeadingSurrogate n = true)
    (htrailing : isTrailingSurrogate m = true) (rest : List Char) :
    numberedEscape? (ds ++ '\\' :: 'u' :: (es ++ rest)) =
      some (Char.ofNat (0x10000 + (n - 0xd800) * 0x400 + (m - 0xdc00)), rest) := by
  have hnot : isTrailingSurrogate n = false := by
    have hrange : n < 0xdc00 := by
      simp only [isLeadingSurrogate, Bool.and_eq_true, decide_eq_true_eq] at hleading
      exact hleading.2
    simp only [isTrailingSurrogate, Bool.and_eq_false_iff, decide_eq_false_iff_not]
    omega
  simp [numberedEscape?, hn.codeUnit?, hm.codeUnit? rest, hleading, htrailing, hnot]

theorem stringBody_escape {n : Nat} {cs rest : List Char} {c : Char}
    (h : escape? cs = some (c, rest)) :
    stringBody (n + 1) ('\\' :: cs) =
      (stringBody n rest).map fun (xs, r) => (c :: xs, r) := by
  rw [stringBody, if_neg (by decide), if_pos rfl, h]
  change (stringBody n rest).bind _ = _
  cases stringBody n rest <;> rfl

theorem SpellsChar.stringBody {c : Char} {part : List Char} (h : SpellsChar c part) (n : Nat)
    (rest : List Char) :
    stringBody (n + 1) (part ++ rest) =
      (stringBody n rest).map fun (xs, r) => (c :: xs, r) := by
  cases h with
  | plain hquote hbackslash hcontrol =>
    rw [List.singleton_append, Json.stringBody, if_neg hquote, if_neg hbackslash, if_neg hcontrol]
    cases Json.stringBody n rest <;> rfl
  | escaped h => exact stringBody_escape (escape?_of_mem h rest)
  | numbered h hleading htrailing =>
    exact stringBody_escape (numberedEscape?_unit h hleading htrailing rest)
  | @pair _ _ ds es hn hm hleading htrailing =>
    have hunits : '\\' :: 'u' :: (ds ++ '\\' :: 'u' :: es) ++ rest =
        '\\' :: 'u' :: (ds ++ '\\' :: 'u' :: (es ++ rest)) := by
      rw [List.cons_append, List.cons_append, List.append_assoc]
      rfl
    rw [hunits]
    exact stringBody_escape (numberedEscape?_pair hn hm hleading htrailing rest)

theorem SpellsChar.ne_nil {c : Char} {part : List Char} (h : SpellsChar c part) : part ≠ [] := by
  cases h <;> exact List.cons_ne_nil _ _

theorem stringBody_flatten {cs : List Char} {parts : List (List Char)}
    (h : List.Forall₂ SpellsChar cs parts) {n : Nat} (hn : cs.length < n) (rest : List Char) :
    stringBody n (parts.flatten ++ '"' :: rest) = some (cs, rest) := by
  induction h generalizing n with
  | nil =>
    obtain ⟨m, rfl⟩ := Nat.exists_eq_succ_of_ne_zero (Nat.ne_of_gt hn)
    rfl
  | @cons c part cs parts hc _ ih =>
    obtain ⟨m, rfl⟩ := Nat.exists_eq_succ_of_ne_zero (Nat.ne_of_gt (Nat.zero_lt_of_lt hn))
    have hm : cs.length < m := Nat.lt_of_succ_lt_succ hn
    rw [List.flatten_cons, List.append_assoc, hc.stringBody, ih hm]
    rfl

theorem length_le_flatten {cs : List Char} {parts : List (List Char)}
    (h : List.Forall₂ SpellsChar cs parts) : cs.length ≤ parts.flatten.length := by
  induction h with
  | nil => exact Nat.zero_le _
  | cons hc _ ih =>
    have hone := List.length_pos_iff.2 hc.ne_nil
    rw [List.flatten_cons, List.length_append, List.length_cons]
    omega

def SpellsText (s : String) (cs : List Char) : Prop :=
  ∃ parts, List.Forall₂ SpellsChar s.toList parts ∧ cs = '"' :: (parts.flatten ++ ['"'])

theorem SpellsText.string? {s : String} {cs : List Char} (h : SpellsText s cs) :
    ∃ tail, cs = '"' :: tail ∧ ∀ rest, string? (tail ++ rest) = some (s, rest) := by
  obtain ⟨parts, hparts, rfl⟩ := h
  refine ⟨_, rfl, fun rest => ?_⟩
  have hlength := length_le_flatten hparts
  rw [List.append_assoc, List.singleton_append, Json.string?, stringBody_flatten hparts]
  · exact congrArg (fun t => some (t, rest)) String.ofList_toList
  · rw [List.length_append, List.length_cons]
    omega

theorem padZeros_hexDigits : ∀ n < 0x20, padZeros 4 (hexDigits n) =
    ['0', '0', (n / 16).digitChar, (n % 16).digitChar] := by
  decide

theorem spellsUnit_hexDigits {n : Nat} (hn : n < 0x20) :
    SpellsUnit n (padZeros 4 (hexDigits n)) := by
  have hzero : HexDigit 0 '0' := hexDigit_digitChar (by decide)
  have hunit := SpellsUnit.digits hzero hzero
    (hexDigit_digitChar (show n / 16 < 16 by omega)) (hexDigit_digitChar (show n % 16 < 16 by omega))
  have hvalue : ((0 * 16 + 0) * 16 + n / 16) * 16 + n % 16 = n := by omega
  rwa [hvalue, ← padZeros_hexDigits n hn] at hunit

theorem spellsChar_jsonChar (c : Char) : SpellsChar c (jsonChar c) := by
  unfold jsonChar
  split
  case h_8 hquote hbackslash _ _ _ _ _ =>
    split_ifs with hcontrol
    · have hleading : isLeadingSurrogate c.toNat = false := by
        simp [isLeadingSurrogate]
        omega
      have htrailing : isTrailingSurrogate c.toNat = false := by
        simp [isTrailingSurrogate]
        omega
      have hnumbered := SpellsChar.numbered (spellsUnit_hexDigits hcontrol) hleading htrailing
      rwa [Char.ofNat_toNat] at hnumbered
    · exact .plain hquote hbackslash hcontrol
  all_goals exact .escaped (by decide)

theorem toList_jsonQuoted (s : String) :
    (jsonQuoted s).toList = '"' :: (s.toList.flatMap jsonChar ++ ['"']) := by
  rw [jsonQuoted, String.toList_ofList]
  rfl

theorem spellsText_jsonQuoted (s : String) : SpellsText s (jsonQuoted s).toList := by
  refine ⟨s.toList.map jsonChar, ?_, ?_⟩
  · exact List.forall₂_map_right_iff.2 (List.forall₂_same.2 fun c _ => spellsChar_jsonChar c)
  · rw [toList_jsonQuoted, List.flatMap_def]

end BrokerPolicy.Json
