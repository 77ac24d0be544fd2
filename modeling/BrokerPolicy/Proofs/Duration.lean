import BrokerPolicy.Duration
import Mathlib.Algebra.Group.Nat.Defs
import Mathlib.Order.MinMax

set_option autoImplicit false

/-!
Lengths of time as numbers of nanoseconds. The comparison of seconds and nanoseconds is that of the
numbers, and what is reported is the number cut to milliseconds and to 64 bits.
-/

namespace BrokerPolicy.Duration

def totalNanos (d : Duration) : Nat := d.seconds.toNat * 1000000000 + d.nanos

theorem totalNanos_le_iff (d e : Duration) :
    d.totalNanos ≤ e.totalNanos ↔
      d.seconds < e.seconds ∨ d.seconds = e.seconds ∧ d.nanos ≤ e.nanos := by
  obtain ⟨s, m⟩ := d
  obtain ⟨t, n⟩ := e
  change s.toNat * 1000000000 + m.val ≤ t.toNat * 1000000000 + n.val ↔
    s < t ∨ s = t ∧ m.val ≤ n.val
  rw [UInt64.lt_iff_toNat_lt, ← UInt64.toNat_inj]
  have hm := m.isLt
  have hn := n.isLt
  omega

theorem reaches_iff (d bound : Duration) :
    d.reaches bound = true ↔ bound.totalNanos ≤ d.totalNanos := by
  rw [totalNanos_le_iff, reaches, Bool.or_eq_true, Bool.and_eq_true, decide_eq_true_iff,
    decide_eq_true_iff, beq_iff_eq]

theorem isZero_iff (d : Duration) : d.isZero = true ↔ d.totalNanos = 0 := by
  rw [isZero, Bool.and_eq_true, beq_iff_eq, beq_iff_eq, totalNanos, ← UInt64.toNat_inj, Fin.ext_iff]
  change d.seconds.toNat = 0 ∧ d.nanos.val = 0 ↔ _
  omega

theorem wholeMillis_eq (d : Duration) : d.wholeMillis = d.totalNanos / 1000000 := by
  have hnanos := d.nanos.isLt
  rw [wholeMillis, totalNanos]
  omega

theorem millis_eq_min (d : Duration) :
    d.millis = min (d.totalNanos / 1000000) (2 ^ 64 - 1) := by
  rw [millis, word?, wholeMillis_eq]
  by_cases hfits : d.totalNanos / 1000000 < UInt64.size
  · have hwhole : d.totalNanos / 1000000 ≤ 2 ^ 64 - 1 := Nat.le_sub_one_of_lt hfits
    rw [if_pos hfits, Option.getD_some, UInt64.toNat_ofNat_of_lt' hfits, min_eq_left hwhole]
  · have hcut : 2 ^ 64 - 1 ≤ d.totalNanos / 1000000 :=
      (Nat.sub_le _ 1).trans (Nat.le_of_not_lt hfits)
    rw [if_neg hfits, min_eq_right hcut]
    rfl

theorem millis_eq (d : Duration) :
    d.millis = min ((d.seconds.toNat * 10 ^ 9 + d.nanos) / 10 ^ 6) (2 ^ 64 - 1) := millis_eq_min d

theorem millis_mono {d e : Duration} (h : d.totalNanos ≤ e.totalNanos) : d.millis ≤ e.millis := by
  have hwhole : d.totalNanos / 1000000 ≤ e.totalNanos / 1000000 := Nat.div_le_div_right h
  rw [millis_eq_min, millis_eq_min]
  exact min_le_min_right _ hwhole

theorem millis_le_of_reaches {d bound : Duration} (h : d.reaches bound = true) :
    bound.millis ≤ d.millis := millis_mono ((reaches_iff d bound).1 h)

theorem millis_lt (d : Duration) : d.millis < 2 ^ 64 := UInt64.toNat_lt _

theorem millis_ofSeconds (s : UInt64) :
    (ofSeconds s).millis = min (1000 * s.toNat) (2 ^ 64 - 1) := by
  have hwhole : (s.toNat * 10 ^ 9 + (0 : Nat)) / 10 ^ 6 = 1000 * s.toNat := by omega
  calc
    (ofSeconds s).millis = min ((s.toNat * 10 ^ 9 + (0 : Nat)) / 10 ^ 6) (2 ^ 64 - 1) := millis_eq _
    _ = min (1000 * s.toNat) (2 ^ 64 - 1) := by rw [hwhole]

/-- Lengths that seconds of a valid file can have: nothing is lost when they are reported. -/
structure Exact (d : Duration) : Prop where
  whole : 1000000 ∣ d.totalNanos
  fits : d.totalNanos / 1000000 < 2 ^ 64

theorem exact_ofSeconds {s : UInt64} (h : 1000 * s.toNat < 2 ^ 64) : (ofSeconds s).Exact where
  whole := ⟨1000 * s.toNat, by change s.toNat * 1000000000 + 0 = _; omega⟩
  fits := by
    change (s.toNat * 1000000000 + 0) / 1000000 < 2 ^ 64
    omega

theorem Exact.millis_eq {d : Duration} (h : d.Exact) : d.millis = d.totalNanos / 1000000 :=
  (millis_eq_min d).trans (min_eq_left (Nat.le_sub_one_of_lt h.fits))

/-- Whatever is reported as no less than such a bound has reached it: a reported number is never
more than the whole milliseconds there are. -/
theorem Exact.reaches_iff_millis_le {bound : Duration} (h : bound.Exact) (d : Duration) :
    d.reaches bound = true ↔ bound.millis ≤ d.millis := by
  refine ⟨millis_le_of_reaches, fun hle => (reaches_iff d bound).2 ?_⟩
  have hcut : d.millis ≤ d.totalNanos / 1000000 := (millis_eq_min d).le.trans (min_le_left _ _)
  calc
    bound.totalNanos = bound.totalNanos / 1000000 * 1000000 := (Nat.div_mul_cancel h.whole).symm
    _ = bound.millis * 1000000 := by rw [h.millis_eq]
    _ ≤ d.totalNanos / 1000000 * 1000000 := Nat.mul_le_mul_right _ (hle.trans hcut)
    _ ≤ d.totalNanos := Nat.div_mul_le_self _ _

/-- A bound that is not in whole milliseconds is reported as reached too early. -/
example : (⟨0, 0⟩ : Duration).reaches ⟨0, 1⟩ = false ∧
    (⟨0, 1⟩ : Duration).millis ≤ (⟨0, 0⟩ : Duration).millis := by decide

end BrokerPolicy.Duration
