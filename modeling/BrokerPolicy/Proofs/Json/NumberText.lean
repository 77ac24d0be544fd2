import BrokerPolicy.Json.Printer
import BrokerPolicy.Proofs.Json.Integer
import BrokerPolicy.Proofs.Numeral.Shortest

set_option autoImplicit false

/-!
The written numbers are literals: an integer has no mark, and a finite double always has a fraction
or an exponent, so the two never read as each other.
-/

namespace BrokerPolicy.Json

def Numerals.ofNat (n : Nat) : Numerals where
  chars := Nat.toDigits 10 n
  ne_nil := Nat.toDigits_ne_nil
  isDigit := fun _ hc => Nat.isDigit_of_mem_toDigits (by decide) (by decide) hc

theorem head?_toDigits_ne_zero {n : Nat} (hn : 0 < n) :
    (Nat.toDigits 10 n).head? ≠ some '0' := by
  induction n using Nat.strongRecOn with
  | ind n ih =>
    rw [Nat.toDigits_eq_if (by decide)]
    split_ifs with hlt
    · have hdigit : ∀ d, d < 10 → 0 < d → d.digitChar ≠ '0' := by decide
      simpa using hdigit n hlt hn
    · have hquotient : 0 < n / 10 := by omega
      rw [List.head?_append_of_ne_nil _ Nat.toDigits_ne_nil]
      exact ih (n / 10) (by omega) hquotient

def Literal.ofInt (i : Int) : Literal where
  negative := i < 0
  whole := Numerals.ofNat i.natAbs
  fraction := none
  exponent := none
  lone_zero := by
    intro h
    rcases Nat.eq_zero_or_pos i.natAbs with hzero | hpos
    · rw [hzero]
      rfl
    · exact absurd h (head?_toDigits_ne_zero hpos)

theorem toList_toString_int (i : Int) : (toString i).toList = (Literal.ofInt i).text := by
  rw [Int.toString_eq_repr]
  cases i with
  | ofNat n =>
    have hsign : (Literal.ofInt (Int.ofNat n)).signText = [] :=
      if_neg (by simp [Literal.ofInt])
    rw [Literal.text, hsign]
    change n.repr.toList = Nat.toDigits 10 n ++ []
    rw [Nat.toList_repr, List.append_nil]
  | negSucc n =>
    have hsign : (Literal.ofInt (Int.negSucc n)).signText = ['-'] :=
      if_pos (by simp [Literal.ofInt, Int.negSucc_lt_zero])
    rw [Literal.text, hsign]
    change ("-" ++ (n + 1).repr).toList = '-' :: (Nat.toDigits 10 (n + 1) ++ [])
    rw [String.toList_append, Nat.toList_repr, List.append_nil]
    rfl

theorem Literal.integer?_ofInt (i : Int) : (Literal.ofInt i).integer? = some i := by
  have hwhole : (Literal.ofInt i).wholeNumber = i.natAbs := Nat.ofDigitChars_ten_toDigits
  rw [integer?, hwhole]
  change some (if decide (i < 0) then -(i.natAbs : Int) else i.natAbs) = some i
  congr 1
  split_ifs with hi
  · have hnegative : i < 0 := of_decide_eq_true hi
    omega
  · have hnegative : ¬ i < 0 := of_decide_eq_false (by simpa using hi)
    omega

theorem Literal.draft_ofInt {i : Int} (hlow : -2 ^ 63 ≤ i) (hhigh : i < 2 ^ 64) :
    (Literal.ofInt i).draft = .integer i := by
  refine draft_of_fits (integer?_ofInt i) hlow hhigh ?_
  rintro ⟨hnegative, hzero⟩
  rw [integer?_ofInt] at hzero
  cases hzero
  cases hnegative

theorem toList_pushn (s : String) (c : Char) (n : Nat) :
    (s.pushn c n).toList = s.toList ++ List.replicate n c := by
  rw [String.pushn_eq_repeat_push]
  induction n with
  | zero => simp [Nat.repeat]
  | succ n ih => rw [Nat.repeat, String.toList_push, ih, List.replicate_succ', List.append_assoc]

/-- A text is the body of a literal with a mark, of which these digits are kept. -/
def IsRealBody (d : Digits) (cs : List Char) : Prop :=
  ∃ l : Literal, l.isReal = true ∧ l.digits = d ∧ l.body = cs

theorem IsRealBody.exists_literal {d : Digits} {cs : List Char} (h : IsRealBody d cs)
    (negative : Bool) :
    ∃ l : Literal, l.isReal = true ∧ l.digits = d ∧
      l.text = (if negative then ['-'] else []) ++ cs := by
  obtain ⟨l, hreal, hdigits, hbody⟩ := h
  refine ⟨{ l with negative := negative }, hreal, hdigits, ?_⟩
  change (if negative then ['-'] else []) ++ l.body = _
  rw [hbody]

theorem isRealBody_point {whole fraction : List Char} (hwhole : whole ≠ [])
    (hzero : whole.head? = some '0' → whole = ['0']) (hfraction : fraction ≠ [])
    (hdigits : ∀ c ∈ whole ++ fraction, c.isDigit = true) :
    IsRealBody (pointDigits whole fraction) (whole ++ '.' :: fraction) := by
  refine ⟨{ negative := false
            whole := ⟨whole, hwhole, fun c hc => hdigits c (List.mem_append_left _ hc)⟩
            fraction := some
              ⟨fraction, hfraction, fun c hc => hdigits c (List.mem_append_right _ hc)⟩
            exponent := none
            lone_zero := hzero }, rfl, ?_, ?_⟩
  · change (⟨(pointDigits whole fraction).significand,
      (pointDigits whole fraction).exponent + 0⟩ : Digits) = _
    rw [Int.add_zero]
  · change whole ++ ('.' :: fraction ++ []) = _
    rw [List.append_nil]

theorem exists_isRealBody_point {whole fraction : List Char} (hwhole : whole ≠ [])
    (hzero : whole.head? = some '0' → whole = ['0']) (hfraction : fraction ≠ [])
    (hdigits : ∀ c ∈ whole ++ fraction, c.isDigit = true) (hlength : whole.length ≤ 16) :
    ∃ d : Digits, d.exponent < 0 ∧ IsRealBody d (whole ++ '.' :: fraction) :=
  ⟨pointDigits whole fraction, pointDigits_exponent_neg hlength hfraction hdigits,
    isRealBody_point hwhole hzero hfraction hdigits⟩

structure Leads (ds : List Char) : Prop where
  ne_nil : ds ≠ []
  isDigit : ∀ c ∈ ds, c.isDigit = true
  head_ne : ds.head? ≠ some '0'

theorem leads_toString {n : Nat} (hn : 0 < n) : Leads (toString n).toList := by
  have hchars : (toString n).toList = Nat.toDigits 10 n := Nat.toList_repr
  rw [hchars]
  exact ⟨Nat.toDigits_ne_nil,
    fun _ hc => Nat.isDigit_of_mem_toDigits (by decide) (by decide) hc, head?_toDigits_ne_zero hn⟩

theorem exists_isRealBody_placePoint {digits : String} (h : Leads digits.toList) {point : Int}
    (hfew : point ≤ 16) :
    ∃ d : Digits, d.exponent < 0 ∧
      IsRealBody d (Binary64.Layout.placePoint true digits point).toList := by
  rw [Binary64.Layout.placePoint]
  split_ifs with hlow hmid hpoint
  -- the point stands in front of all digits, among them, or behind them
  · have htext : ("0." ++ "".pushn '0' (-point).toNat ++ digits).toList =
        ['0'] ++ '.' :: (List.replicate (-point).toNat '0' ++ digits.toList) := by
      simp [String.toList_append, toList_pushn]
    rw [htext]
    refine exists_isRealBody_point (by simp) (fun _ => rfl) (by simp [h.ne_nil]) ?_ (by simp)
    intro c hc
    simp only [List.cons_append, List.nil_append, List.mem_cons, List.mem_append,
      List.mem_replicate] at hc
    rcases hc with rfl | ⟨-, rfl⟩ | hc
    · rfl
    · rfl
    · exact h.isDigit c hc
  · have htext : (String.ofList (digits.toList.take point.toNat) ++ "." ++
        String.ofList (digits.toList.drop point.toNat)).toList =
        digits.toList.take point.toNat ++ '.' :: digits.toList.drop point.toNat := by
      simp [String.toList_append]
    have hfirst : (digits.toList.take point.toNat).head? = digits.toList.head? := by
      rw [List.head?_take, if_neg (by omega)]
    rw [← String.length_toList] at hmid
    rw [htext]
    refine exists_isRealBody_point ?_ ?_ ?_ ?_ ?_
    · intro hnil
      rcases List.take_eq_nil_iff.mp hnil with hzero | hnil
      · omega
      · exact h.ne_nil hnil
    · intro hzero
      exact absurd (hfirst ▸ hzero) h.head_ne
    · intro hnil
      have hpast := List.drop_eq_nil_iff.mp hnil
      omega
    · rw [List.take_append_drop]
      exact h.isDigit
    · exact (List.length_take_le _ _).trans (by omega)
  · have htext : (digits.pushn '0' (point.toNat - digits.length) ++ ".0").toList =
        (digits.toList ++ List.replicate (point.toNat - digits.length) '0') ++ '.' :: ['0'] := by
      simp [String.toList_append, toList_pushn]
    rw [htext]
    refine exists_isRealBody_point (by simp [h.ne_nil]) ?_ (by simp) ?_ ?_
    · intro hzero
      rw [List.head?_append_of_ne_nil _ h.ne_nil] at hzero
      exact absurd hzero h.head_ne
    · intro c hc
      simp only [List.mem_append, List.mem_replicate, List.mem_singleton] at hc
      rcases hc with (hc | ⟨-, rfl⟩) | rfl
      · exact h.isDigit c hc
      · rfl
      · rfl
    · rw [List.length_append, List.length_replicate, String.length_toList]
      omega
  · exact absurd rfl hpoint

theorem exponent_text (exponent : Int) :
    (if (true && decide (0 ≤ exponent)) = true then "+" else "").toList ++
        (toString exponent).toList =
      (if decide (exponent < 0) = true then '-' else '+') :: Nat.toDigits 10 exponent.natAbs := by
  rw [toList_toString_int exponent, Literal.text, Literal.signText]
  change _ ++ (_ ++ (Nat.toDigits 10 exponent.natAbs ++ [])) = _
  rw [List.append_nil]
  by_cases hneg : exponent < 0
  · have hnonneg : ¬ 0 ≤ exponent := by omega
    simp [hneg, hnonneg, Literal.ofInt]
  · have hnonneg : 0 ≤ exponent := by omega
    simp [hneg, hnonneg, Literal.ofInt]

theorem foldl_digitValue (ds : List Char) (n : Nat) :
    ds.foldl (fun (m : Int) c => m * 10 + digitValue c) n = Nat.ofDigitChars 10 ds n := by
  induction ds generalizing n with
  | nil => rw [List.foldl_nil, Nat.ofDigitChars_nil]
  | cons c cs ih =>
    have hstep : (n : Int) * 10 + digitValue c =
        ((10 * n + (c.toNat - '0'.toNat) : Nat) : Int) := by
      change (n : Int) * 10 + (c.toNat - '0'.toNat : Nat) = _
      omega
    rw [List.foldl_cons, hstep, ih, Nat.ofDigitChars_cons]

theorem exponentValue_natAbs (exponent : Int) :
    Literal.exponentValue (some (decide (exponent < 0), Numerals.ofNat exponent.natAbs)) =
      exponent := by
  have hvalue : (Numerals.ofNat exponent.natAbs).chars.foldl
      (fun (m : Int) c => m * 10 + digitValue c) 0 = exponent.natAbs := by
    refine (foldl_digitValue _ 0).trans ?_
    rw [Numerals.ofNat, Nat.ofDigitChars_ten_toDigits]
  rw [Literal.exponentValue, hvalue]
  split_ifs with hnegative
  · rw [decide_eq_true_eq] at hnegative
    omega
  · rw [decide_eq_true_eq] at hnegative
    omega

theorem isRealBody_withExponent {digits : String} (h : Leads digits.toList) (exponent : Int) :
    IsRealBody (scientificDigits digits.toList exponent)
      (Binary64.Layout.withExponent true digits exponent).toList := by
  obtain ⟨c, cs, hcs⟩ := List.exists_cons_of_ne_nil h.ne_nil
  have hzero : c ≠ '0' := by
    rintro rfl
    exact h.head_ne (by rw [hcs]; rfl)
  have hdigits : ∀ x ∈ c :: cs, x.isDigit = true := hcs ▸ h.isDigit
  let whole : Numerals := ⟨[c], by simp, by simpa using hdigits c List.mem_cons_self⟩
  let mark : Bool × Numerals := (decide (exponent < 0), Numerals.ofNat exponent.natAbs)
  have hmark : Literal.exponentText (some mark) = 'e' ::
      ((if (true && decide (0 ≤ exponent)) = true then "+" else "").toList ++
        (toString exponent).toList) :=
    congrArg ('e' :: ·) (exponent_text exponent).symm
  have hkept : (⟨(pointDigits [c] cs).significand,
      (pointDigits [c] cs).exponent + Literal.exponentValue (some mark)⟩ : Digits) =
      scientificDigits (c :: cs) exponent := by
    rw [exponentValue_natAbs]
    rfl
  rw [Binary64.Layout.withExponent, hcs]
  cases cs with
  | nil =>
    refine ⟨{ negative := false, whole, fraction := none, exponent := some mark
              lone_zero := fun hhead => absurd (Option.some.inj hhead) hzero }, rfl, hkept, ?_⟩
    rw [Literal.body, hmark]
    simp [whole, Literal.fractionText, String.toList_append]
  | cons d ds =>
    have hothers : ∀ x ∈ d :: ds, x.isDigit = true :=
      fun x hx => hdigits x (List.mem_cons_of_mem _ hx)
    refine ⟨{ negative := false, whole, fraction := some ⟨d :: ds, by simp, hothers⟩
              exponent := some mark
              lone_zero := fun hhead => absurd (Option.some.inj hhead) hzero }, rfl, hkept, ?_⟩
    rw [Literal.body, hmark]
    simp [whole, Literal.fractionText, String.toList_append]

/-- What is kept of the text of a double's magnitude: digits that reach behind a point, or those of
its shortest decimal. -/
def KeptOf (x : Binary64) (d : Digits) : Prop :=
  d.exponent < 0 ∨ x.isZero = false ∧
    d = scientificDigits (toString (x.shortest .toEven).digits).toList
      ((x.shortest .toEven).exponent +
        (toString (x.shortest .toEven).digits).toList.length - 1)

theorem lt_of_positional {exponent : Int} (h : Binary64.json.positional exponent = true) :
    exponent < 16 :=
  of_decide_eq_true (Bool.and_eq_true_iff.1 h).2

theorem exists_isRealBody_magnitudeText {x : Binary64} (hx : x.isFinite = true) :
    ∃ d, KeptOf x d ∧ IsRealBody d (Binary64.json.magnitudeText x).toList := by
  have hword : x.unsignedWord < Binary64.infinityWord := of_decide_eq_true hx
  have hnan : x.isNaN = false := decide_eq_false (by omega)
  have hinf : x.isInfinite = false := decide_eq_false (by omega)
  rw [Binary64.Layout.magnitudeText, hnan, hinf]
  by_cases hzero : x.isZero = true
  · have htext : "0.0".toList = ['0'] ++ '.' :: ['0'] := by simp
    rw [hzero]
    change ∃ d, KeptOf x d ∧ IsRealBody d "0.0".toList
    have hzeros : ∃ d : Digits, d.exponent < 0 ∧ IsRealBody d (['0'] ++ '.' :: ['0']) :=
      exists_isRealBody_point (by simp) (fun _ => rfl) (by simp) (by simp) (by simp)
    obtain ⟨d, hbehind, hbody⟩ := hzeros
    rw [htext]
    exact ⟨d, .inl hbehind, hbody⟩
  · have hnonzero : x.isZero = false := by simpa using hzero
    have hleads := leads_toString (Binary64.shortest_digits_pos Binary64.json.tie hnonzero)
    simp only [Bool.false_eq_true, if_false, if_neg hzero]
    split_ifs with hpositional
    · have hfew := Int.add_one_le_iff.2 (lt_of_positional hpositional)
      obtain ⟨d, hbehind, hbody⟩ := exists_isRealBody_placePoint hleads hfew
      exact ⟨d, .inl hbehind, hbody⟩
    · exact ⟨_, .inr ⟨hnonzero, rfl⟩, isRealBody_withExponent hleads _⟩

theorem exists_literal_kept {x : Binary64} (hx : x.isFinite = true) :
    ∃ l : Literal, l.isReal = true ∧ KeptOf x l.digits ∧ l.text = (numberText x).toList := by
  rw [numberText, if_pos hx, Binary64.Layout.write]
  obtain ⟨d, hkept, hbody⟩ := exists_isRealBody_magnitudeText hx
  obtain ⟨l, hreal, rfl, htext⟩ := hbody.exists_literal (x.isNegative && !x.isNaN)
  refine ⟨l, hreal, hkept, htext.trans ?_⟩
  split_ifs
  · rw [String.toList_append]
    rfl
  · rfl

theorem exists_literal_of_isFinite {x : Binary64} (hx : x.isFinite = true) :
    ∃ l : Literal, l.isReal = true ∧ l.text = (numberText x).toList := by
  obtain ⟨l, hreal, -, htext⟩ := exists_literal_kept hx
  exact ⟨l, hreal, htext⟩

end BrokerPolicy.Json
