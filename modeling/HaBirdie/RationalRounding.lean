import HaBirdie.PythonValues
import Mathlib.Data.Int.Log
import Mathlib.Data.Rat.Floor
import Mathlib.Tactic.GCongr
import Mathlib.Tactic.Positivity

/-!
# Rounding of rationals

A rational is rounded to an integer as Python's `round` does, and to 53 bits as the sum and the
difference of two floats are.

* `roundHalfEven_mono`, `roundHalfEven_intCast`: rounding to an integer is monotone and leaves
  integers alone, so that bounds between integers pass through it.
* `roundBinary64_near`: rounding to 53 bits moves a number by at most its `2 ^ 53`-th part.

Exponents are not bounded here.  A sum of two floats that is too small for 53 bits is exact, so that
`roundBinary64` differs from an addition of floats only where that overflows.
-/

namespace Python

/-! ## To an integer -/

/-- Rounding moves up to the next integer at most, and by at most a half.  All that follows is read
off these two cases. -/
theorem roundHalfEven_cases (q : ℚ) :
    (roundHalfEven q = q.floor ∧ q - q.floor ≤ 1 / 2) ∨
      (roundHalfEven q = q.floor + 1 ∧ 1 / 2 ≤ q - q.floor) := by
  unfold roundHalfEven
  dsimp only
  split
  · rename_i hlow
    exact Or.inl ⟨rfl, le_of_lt hlow⟩
  · rename_i hlow
    split
    · rename_i hhigh
      exact Or.inr ⟨rfl, le_of_lt hhigh⟩
    · rename_i hhigh
      split
      · exact Or.inl ⟨rfl, not_lt.mp hhigh⟩
      · exact Or.inr ⟨rfl, not_lt.mp hlow⟩

/-- Rounding is monotone.  Two numbers between the same integers are rounded alike, or the smaller
one down. -/
theorem roundHalfEven_mono {q r : ℚ} (h : q ≤ r) : roundHalfEven q ≤ roundHalfEven r := by
  have hfloor : q.floor ≤ r.floor := Rat.floor_monotone h
  rcases lt_or_eq_of_le hfloor with hlt | heq
  · have hq : roundHalfEven q ≤ q.floor + 1 := by
      rcases roundHalfEven_cases q with ⟨hq, _⟩ | ⟨hq, _⟩ <;> omega
    have hr : r.floor ≤ roundHalfEven r := by
      rcases roundHalfEven_cases r with ⟨hr, _⟩ | ⟨hr, _⟩ <;> omega
    omega
  · -- with the same floor the fractional parts decide, and the parity of a tie is the same
    unfold roundHalfEven
    dsimp only
    rw [heq]
    have hparts : q - (r.floor : ℚ) ≤ r - (r.floor : ℚ) := by gcongr
    split
    · split
      · exact le_refl _
      · split
        · omega
        · split <;> omega
    · rename_i hlow
      have hlow' : ¬ r - (r.floor : ℚ) < 1 / 2 := fun hr => hlow (lt_of_le_of_lt hparts hr)
      rw [if_neg hlow']
      split
      · rename_i hhigh
        rw [if_pos (lt_of_lt_of_le hhigh hparts)]
      · split
        · split <;> omega
        · split <;> omega

/-- Integers are left alone. -/
theorem roundHalfEven_intCast (n : Int) : roundHalfEven (n : ℚ) = n := by
  unfold roundHalfEven
  rw [Rat.floor_intCast]
  simp

/-- Rounding goes to the integer that is less than a half away.  There is one at most, so ties play
no part. -/
theorem roundHalfEven_near {q : ℚ} {n : Int} (h : |q - n| < 1 / 2) : roundHalfEven q = n := by
  have hnear : |((roundHalfEven q - n : Int) : ℚ)| < 1 := by
    rw [abs_lt] at h ⊢
    push_cast
    have hfloor := Rat.floor_le q
    rcases roundHalfEven_cases q with ⟨hround, hpart⟩ | ⟨hround, hpart⟩
    · rw [hround]
      constructor <;> linarith
    · have hnext := Rat.lt_floor_add_one q
      rw [hround]
      push_cast at hnext ⊢
      constructor <;> linarith
  rw [← Int.cast_abs] at hnear
  have hzero : |roundHalfEven q - n| < 1 := by exact_mod_cast hnear
  have := Int.abs_lt_one_iff.mp hzero
  omega

/-- Rounding to an integer is off by a half at most. -/
theorem roundHalfEven_within (q : ℚ) : |q - roundHalfEven q| ≤ 1 / 2 := by
  have hfloor := Rat.floor_le q
  have hnext := Rat.lt_floor_add_one q
  rw [abs_le]
  rcases roundHalfEven_cases q with ⟨hround, hpart⟩ | ⟨hround, hpart⟩
  · rw [hround]
    constructor <;> linarith
  · rw [hround]
    push_cast at hnext ⊢
    constructor <;> linarith

/-- Zero is an integer. -/
theorem roundHalfEven_zero : roundHalfEven 0 = 0 := by
  simpa using roundHalfEven_intCast 0

/-- Rounding and capping at an integer commute. -/
theorem roundHalfEven_min (n : Int) (q : ℚ) :
    roundHalfEven (min (n : ℚ) q) = min n (roundHalfEven q) := by
  rcases le_total (n : ℚ) q with h | h
  · have hround := roundHalfEven_mono h
    rw [roundHalfEven_intCast] at hround
    rw [min_eq_left h, roundHalfEven_intCast, min_eq_left hround]
  · have hround := roundHalfEven_mono h
    rw [roundHalfEven_intCast] at hround
    rw [min_eq_right h, min_eq_right hround]

end Python

namespace BinaryFloats

open Python

/-! ## To 53 bits -/

/-- The exponent of the last of the 53 bits of a number. -/
def lastBit (q : ℚ) : ℤ := Int.log 2 |q| - 52

/-- A number rounded to 53 bits, ties to even. -/
def roundBinary64 (q : ℚ) : ℚ := roundHalfEven (q / 2 ^ lastBit q) * 2 ^ lastBit q

/-- Zero is a float. -/
theorem roundBinary64_zero : roundBinary64 0 = 0 := by
  unfold roundBinary64
  rw [zero_div, roundHalfEven_zero, Int.cast_zero, zero_mul]

/-- The last of its bits is a `2 ^ 52`-th part of a number, or less. -/
theorem two_zpow_lastBit {q : ℚ} (hq : q ≠ 0) : (2 : ℚ) ^ lastBit q * 2 ^ 52 ≤ |q| := by
  have hlow := Int.zpow_log_le_self (b := 2) (by norm_num) (abs_pos.mpr hq)
  have hsplit : (2 : ℚ) ^ lastBit q * 2 ^ 52 = 2 ^ Int.log 2 |q| := by
    rw [← zpow_natCast (2 : ℚ) 52, ← zpow_add₀ (by norm_num)]
    congr 1
    unfold lastBit
    norm_num
  rw [hsplit]
  exact_mod_cast hlow

/-- **Rounding to 53 bits** moves a number by at most its `2 ^ 53`-th part: by half of its last
bit. -/
theorem roundBinary64_near (q : ℚ) : |roundBinary64 q - q| ≤ |q| / 2 ^ 53 := by
  by_cases hq : q = 0
  · subst hq
    rw [roundBinary64_zero]
    simp
  have hbit : (0 : ℚ) < 2 ^ lastBit q := zpow_pos (by norm_num) _
  have hlast := two_zpow_lastBit hq
  have hwithin := roundHalfEven_within (q / 2 ^ lastBit q)
  rw [abs_sub_comm] at hwithin
  have hscaled : |roundBinary64 q - q| =
      |(roundHalfEven (q / 2 ^ lastBit q) : ℚ) - q / 2 ^ lastBit q| * 2 ^ lastBit q := by
    unfold roundBinary64
    rw [← abs_of_pos hbit, ← abs_mul, abs_of_pos hbit, sub_mul, div_mul_cancel₀ _ hbit.ne']
  rw [hscaled, le_div_iff₀ (by norm_num)]
  nlinarith

/-- What is rounded to no less than a positive number is no less than it but for the rounding. -/
theorem le_of_le_roundBinary64 {b q : ℚ} (hb : 0 < b) (h : b ≤ roundBinary64 q) :
    b * (1 - 1 / 2 ^ 53) ≤ q := by
  have hnear := (abs_le.mp (roundBinary64_near q)).2
  have hpos : 0 < q := by
    by_contra hneg
    rw [abs_of_nonpos (not_lt.mp hneg)] at hnear
    linarith
  rw [abs_of_pos hpos] at hnear
  linarith

end BinaryFloats
