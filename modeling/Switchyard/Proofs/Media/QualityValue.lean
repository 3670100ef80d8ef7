import Mathlib.Algebra.Order.Field.Power
import Mathlib.Algebra.Order.Field.Rat
import Mathlib.Tactic.Linarith
import Mathlib.Tactic.NormNum
import Mathlib.Tactic.Positivity
import Mathlib.Tactic.Ring
import Switchyard.Media.Quality
/-!
# The numbers behind quality values

The number that the bits of a double stand for. The values that a quality may have, of which their
bits tell, are those of the numbers from zero to one (`Quality.isUnit_iff`).
-/

namespace Switchyard.Quality

variable {q : Quality}

def exponentField (q : Quality) : Nat := q.bits / 2 ^ 52 % 2 ^ 11

def fraction (q : Quality) : Nat := q.bits % 2 ^ 52

def IsFinite (q : Quality) : Prop := q.bits < 2 ^ 64 ∧ q.exponentField ≠ 2047

/-- The number without its sign. Those with the least exponent have no one in front of the point. -/
def magnitude (q : Quality) : ℚ :=
  if q.exponentField = 0 then 2 ^ (-1074 : ℤ) * q.fraction
  else 2 ^ ((q.exponentField : ℤ) - 1075) * (2 ^ 52 + q.fraction)

/-- The number that the bits stand for. Both zeros are zero. -/
def value (q : Quality) : ℚ := if q.bits < signBit then q.magnitude else -q.magnitude

private theorem fraction_lt (q : Quality) : q.fraction < 2 ^ 52 := Nat.mod_lt _ (by decide)

private theorem magnitude_nonneg (q : Quality) : 0 ≤ q.magnitude := by
  unfold magnitude
  split <;> positivity

private theorem magnitude_eq_zero_iff : q.magnitude = 0 ↔ q.exponentField = 0 ∧ q.fraction = 0 := by
  unfold magnitude
  split
  · next hfield => simp [hfield]
  · next hfield =>
    have hpos : (0 : ℚ) < 2 ^ ((q.exponentField : ℤ) - 1075) * (2 ^ 52 + q.fraction) := by positivity
    simp [hfield, hpos.ne']

private theorem magnitude_le_one_of_lt (h : q.exponentField < 1023) : q.magnitude ≤ 1 := by
  have hfraction : (q.fraction : ℚ) < 2 ^ 52 := by exact_mod_cast q.fraction_lt
  have hsmall : (0 : ℚ) ≤ q.fraction := Nat.cast_nonneg _
  unfold magnitude
  split
  · calc (2 : ℚ) ^ (-1074 : ℤ) * q.fraction
      _ ≤ 2 ^ (-52 : ℤ) * 2 ^ 52 := by
        apply mul_le_mul _ hfraction.le hsmall (by positivity)
        exact zpow_le_zpow_right₀ (by norm_num) (by norm_num)
      _ = 1 := by norm_num
  · calc (2 : ℚ) ^ ((q.exponentField : ℤ) - 1075) * (2 ^ 52 + q.fraction)
      _ ≤ 2 ^ (-53 : ℤ) * 2 ^ 53 := by
        apply mul_le_mul _ (by linarith) (by positivity) (by positivity)
        exact zpow_le_zpow_right₀ (by norm_num) (by omega)
      _ = 1 := by norm_num

private theorem magnitude_of_eq (h : q.exponentField = 1023) :
    q.magnitude = 1 + q.fraction / 2 ^ 52 := by
  rw [magnitude, h, if_neg (by decide)]
  norm_num
  ring

private theorem one_lt_magnitude_of_gt (h : 1023 < q.exponentField) : 1 < q.magnitude := by
  have hsmall : (0 : ℚ) ≤ q.fraction := Nat.cast_nonneg _
  rw [magnitude, if_neg (by omega)]
  calc (1 : ℚ)
    _ < 2 ^ (-51 : ℤ) * 2 ^ 52 := by norm_num
    _ ≤ 2 ^ ((q.exponentField : ℤ) - 1075) * (2 ^ 52 + q.fraction) := by
      apply mul_le_mul _ (by linarith) (by positivity) (by positivity)
      exact zpow_le_zpow_right₀ (by norm_num) (by omega)

/-- Up to the exponent of one, and with nothing behind the point there, a number is one at most. -/
private theorem magnitude_le_one_iff :
    q.magnitude ≤ 1 ↔ q.exponentField < 1023 ∨ q.exponentField = 1023 ∧ q.fraction = 0 := by
  rcases lt_trichotomy q.exponentField 1023 with hlt | heq | hgt
  · exact iff_of_true (magnitude_le_one_of_lt hlt) (.inl hlt)
  · have hnothing : (q.fraction : ℚ) / 2 ^ 52 ≤ 0 ↔ q.fraction = 0 := by
      rw [div_le_iff₀ (by positivity), zero_mul, Nat.cast_nonpos]
    rw [magnitude_of_eq heq, add_le_iff_nonpos_right, hnothing]
    simp [heq]
  · exact iff_of_false (not_le.mpr (one_lt_magnitude_of_gt hgt)) (by omega)

/-- The bits tell the numbers from zero to one. -/
theorem isUnit_iff : q.isUnit ↔ q.IsFinite ∧ 0 ≤ q.value ∧ q.value ≤ 1 := by
  have hbits : q.isUnit ↔ q.bits ≤ 1023 * 2 ^ 52 ∨ q.bits = 2 ^ 63 := by
    rw [isUnit, Bool.or_eq_true, decide_eq_true_eq, decide_eq_true_eq]
    rfl
  have hfield : q.exponentField = q.bits / 2 ^ 52 % 2 ^ 11 := rfl
  have hfraction : q.fraction = q.bits % 2 ^ 52 := rfl
  rw [hbits, IsFinite, value]
  by_cases hsign : q.bits < 2 ^ 63
  · have hpositive : q.bits < signBit := hsign
    rw [if_pos hpositive, magnitude_le_one_iff]
    have hnonneg := q.magnitude_nonneg
    constructor
    · intro hunit
      exact ⟨by omega, hnonneg, by omega⟩
    · rintro ⟨-, -, hone⟩
      omega
  · have hnegative : ¬ q.bits < signBit := hsign
    rw [if_neg hnegative, Left.nonneg_neg_iff]
    have hzero : q.magnitude ≤ 0 ↔ q.exponentField = 0 ∧ q.fraction = 0 := by
      rw [← magnitude_eq_zero_iff]
      exact ⟨fun h => le_antisymm h q.magnitude_nonneg, fun h => h.le⟩
    rw [hzero]
    constructor
    · intro hunit
      refine ⟨by omega, by omega, ?_⟩
      linarith [q.magnitude_nonneg]
    · rintro ⟨hfinite, hnone, -⟩
      omega

end Switchyard.Quality
