import BrokerPolicy.Text.Characters

set_option autoImplicit false

namespace BrokerPolicy.Text

theorem isUpper_iff (c : Char) : c.isUpper = true ↔ 65 ≤ c.toNat ∧ c.toNat ≤ 90 :=
  decide_eq_true_iff

theorem isLower_iff (c : Char) : c.isLower = true ↔ 97 ≤ c.toNat ∧ c.toNat ≤ 122 :=
  Bool.and_eq_true_iff.trans (and_congr decide_eq_true_iff decide_eq_true_iff)

theorem isAlpha_iff (c : Char) :
    c.isAlpha = true ↔ 65 ≤ c.toNat ∧ c.toNat ≤ 90 ∨ 97 ≤ c.toNat ∧ c.toNat ≤ 122 :=
  Bool.or_eq_true_iff.trans (or_congr (isUpper_iff c) (isLower_iff c))

theorem toLower_of_not_isUpper {c : Char} (h : ¬ c.isUpper = true) : c.toLower = c :=
  dif_neg fun hcapital => h ((isUpper_iff c).2 hcapital)

theorem isAlpha_of_toLower {c : Char} (h : c.toLower.isLower = true) : c.isAlpha = true := by
  by_cases hupper : c.isUpper = true
  · exact (isAlpha_iff c).2 (.inl ((isUpper_iff c).1 hupper))
  · rw [toLower_of_not_isUpper hupper] at h
    exact (isAlpha_iff c).2 (.inr ((isLower_iff c).1 h))

theorem isBlank_of_isAlpha {c : Char} (h : c.isAlpha = true) : isBlank c = false := by
  rw [isAlpha_iff] at h
  rw [← Bool.not_eq_true]
  intro hblank
  obtain ⟨r, hr, hin⟩ := List.any_eq_true.1 hblank
  simp only [Bool.and_eq_true, decide_eq_true_eq] at hin
  have hranges : ∀ r ∈ blankRanges, r.2 < 65 ∨ 122 < r.1 := by decide
  have houtside := hranges r hr
  omega

theorem isDigit_of_isAlpha {c : Char} (h : c.isAlpha = true) : c.isDigit = false := by
  rw [isAlpha_iff] at h
  rw [← Bool.not_eq_true, Char.isDigit_iff_toNat]
  rintro ⟨-, hhigh⟩
  change c.toNat ≤ 57 at hhigh
  omega

theorem ne_of_isAlpha {c : Char} (h : c.isAlpha = true) {d : Char} (hd : d.isAlpha = false) :
    c ≠ d := by
  rintro rfl
  rw [h] at hd
  cases hd

theorem isAlpha_of_lowerAscii {s word : String} (h : lowerAscii s = word)
    (hword : word.toList.all Char.isLower = true) : ∀ c ∈ s.toList, c.isAlpha = true := by
  intro c hc
  apply isAlpha_of_toLower
  apply List.all_eq_true.1 hword
  rw [← h, lowerAscii, String.toList_ofList]
  exact List.mem_map_of_mem hc

theorem trimBlanks_of_forall {cs : List Char} (h : ∀ c ∈ cs, isBlank c = false) :
    trimBlanks cs = cs := by
  have hkept {ds : List Char} (hds : ∀ c ∈ ds, isBlank c = false) :
      ds.dropWhile isBlank = ds := by
    cases ds with
    | nil => rfl
    | cons c rest => exact List.dropWhile_cons_of_neg (by simp [hds c List.mem_cons_self])
  have hreverse : ∀ c ∈ cs.reverse, isBlank c = false := fun c hc => h c (List.mem_reverse.1 hc)
  rw [trimBlanks, hkept h, hkept hreverse, List.reverse_reverse]

end BrokerPolicy.Text
