import Mathlib.Algebra.Order.Archimedean.Basic
import Mathlib.Algebra.Order.Field.Power
import Mathlib.Data.Int.Log
import Mathlib.Data.Rat.Floor
import Mathlib.Tactic.Linarith
import Mathlib.Tactic.Ring

/- Rounding of exact rationals to binary64, to nearest with ties to even. Subnormals are covered; nothing here is
   large enough to overflow, so the infinities and the numbers that are not numbers stay outside. -/
namespace Binary64

def nearestEven (q : ℚ) : ℤ :=
  if q - ⌊q⌋ < 1 / 2 then ⌊q⌋
  else if 1 / 2 < q - ⌊q⌋ then ⌊q⌋ + 1
  else if ⌊q⌋ % 2 = 0 then ⌊q⌋ else ⌊q⌋ + 1

/-- The exponent of the last place: 53 digits, and never below that of the subnormals. -/
def lastPlace (x : ℚ) : ℤ := max (Int.log 2 |x| - 52) (-1074)

def rounded (x : ℚ) : ℚ := nearestEven (x / 2 ^ lastPlace x) * 2 ^ lastPlace x

/- Rounding to an integer. -/

theorem nearestEven_cases (q : ℚ) :
    nearestEven q = ⌊q⌋ ∧ q - ⌊q⌋ ≤ 1 / 2 ∨ nearestEven q = ⌊q⌋ + 1 ∧ 1 / 2 ≤ q - ⌊q⌋ := by
  unfold nearestEven
  split
  · next low => exact .inl ⟨rfl, low.le⟩
  · next notLow =>
    split
    · next high => exact .inr ⟨rfl, high.le⟩
    · next notHigh =>
      split
      · exact .inl ⟨rfl, not_lt.mp notHigh⟩
      · exact .inr ⟨rfl, not_lt.mp notLow⟩

@[simp] theorem nearestEven_intCast (n : ℤ) : nearestEven n = n := by simp [nearestEven]

theorem abs_nearestEven_sub_le (q : ℚ) : |nearestEven q - q| ≤ 1 / 2 := by
  have below := Int.floor_le q
  have above := Int.lt_floor_add_one q
  rw [abs_le]
  rcases nearestEven_cases q with ⟨down, near⟩ | ⟨up, near⟩
  · rw [down]
    constructor <;> linarith
  · rw [up]
    push_cast
    constructor <;> linarith

theorem nearestEven_mono {q r : ℚ} (le : q ≤ r) : nearestEven q ≤ nearestEven r := by
  have floors : ⌊q⌋ ≤ ⌊r⌋ := Int.floor_mono le
  rcases floors.lt_or_eq with apart | same
  · have atMost : nearestEven q ≤ ⌊q⌋ + 1 := by
      rcases nearestEven_cases q with ⟨down, _⟩ | ⟨up, _⟩ <;> omega
    have atLeast : ⌊r⌋ ≤ nearestEven r := by
      rcases nearestEven_cases r with ⟨down, _⟩ | ⟨up, _⟩ <;> omega
    omega
  · -- Between two integers the choice only ever changes from the lower to the upper.
    have parts : q - ⌊q⌋ ≤ r - ⌊r⌋ := by
      rw [same]
      linarith
    rcases nearestEven_cases q with ⟨down, _⟩ | ⟨up, far⟩
    · rcases nearestEven_cases r with ⟨down', _⟩ | ⟨up', _⟩ <;> omega
    · rcases nearestEven_cases r with ⟨down', near⟩ | ⟨up', _⟩
      · have tie : q = r := by
          rw [same] at parts far
          linarith
        rw [tie]
      · omega

theorem nearestEven_neg (q : ℚ) : nearestEven (-q) = -nearestEven q := by
  rcases (Int.floor_le q).eq_or_lt with whole | proper
  · rw [← whole, ← Int.cast_neg, nearestEven_intCast, nearestEven_intCast]
  · have above := Int.lt_floor_add_one q
    have mirrored : ⌊-q⌋ = -⌊q⌋ - 1 := by
      rw [Int.floor_eq_iff]
      push_cast
      constructor <;> linarith
    have part : -q - ((-⌊q⌋ - 1 : ℤ) : ℚ) = 1 - (q - ⌊q⌋) := by
      push_cast
      ring
    unfold nearestEven
    rw [mirrored, part]
    split_ifs <;> first | omega | (exfalso; linarith)

/- Rounding to 53 digits. -/

section Exponent
variable {x y : ℚ} {k e : ℤ}

theorem log_lt_of_abs_lt (positive : 0 < |x|) (small : |x| < 2 ^ k) : Int.log 2 |x| < k := by
  have bound : |x| < ((2 : ℕ) : ℚ) ^ k := by exact_mod_cast small
  exact (Int.lt_zpow_iff_log_lt one_lt_two positive).mp bound

theorem le_abs_of_log (positive : 0 < |x|) : (2 : ℚ) ^ Int.log 2 |x| ≤ |x| := by
  exact_mod_cast Int.zpow_log_le_self one_lt_two positive

theorem abs_lt_of_log : |x| < (2 : ℚ) ^ (Int.log 2 |x| + 1) := by
  exact_mod_cast Int.lt_zpow_succ_log_self one_lt_two |x|

theorem lastPlace_le (positive : 0 < |x|) (exponent : -1074 ≤ e) (small : |x| < 2 ^ (e + 53)) : lastPlace x ≤ e := by
  have := log_lt_of_abs_lt positive small
  unfold lastPlace
  omega

end Exponent

@[simp] theorem rounded_zero : rounded 0 = 0 := by
  have zero : nearestEven 0 = 0 := by exact_mod_cast nearestEven_intCast 0
  simp [rounded, zero]

theorem rounded_neg (x : ℚ) : rounded (-x) = -rounded x := by
  have places : lastPlace (-x) = lastPlace x := by simp [lastPlace]
  rw [rounded, rounded, places, neg_div, nearestEven_neg]
  push_cast
  ring

/-- Multiples of a coarser power of two are multiples of the last place. -/
theorem exists_multiple {p e : ℤ} (place : p ≤ e) (n : ℤ) : ∃ m : ℤ, (n : ℚ) * 2 ^ e = m * 2 ^ p := by
  obtain ⟨k, apart⟩ := Int.le.dest place
  use n * 2 ^ k
  rw [← apart, zpow_add₀ two_ne_zero, zpow_natCast]
  push_cast
  ring

section Bounds
variable {x : ℚ} {n e : ℤ}

theorem rounded_le_multiple (place : lastPlace x ≤ e) (le : x ≤ n * 2 ^ e) : rounded x ≤ n * 2 ^ e := by
  have power : (0 : ℚ) < 2 ^ lastPlace x := zpow_pos two_pos _
  obtain ⟨m, same⟩ := exists_multiple place n
  rw [same] at le ⊢
  have whole : nearestEven (x / 2 ^ lastPlace x) ≤ m := by
    rw [← nearestEven_intCast m]
    exact nearestEven_mono ((div_le_iff₀ power).mpr le)
  exact mul_le_mul_of_nonneg_right (by exact_mod_cast whole) power.le

theorem multiple_le_rounded (place : lastPlace x ≤ e) (le : n * 2 ^ e ≤ x) : n * 2 ^ e ≤ rounded x := by
  have power : (0 : ℚ) < 2 ^ lastPlace x := zpow_pos two_pos _
  obtain ⟨m, same⟩ := exists_multiple place n
  rw [same] at le ⊢
  have whole : m ≤ nearestEven (x / 2 ^ lastPlace x) := by
    rw [← nearestEven_intCast m]
    exact nearestEven_mono ((le_div_iff₀ power).mpr le)
  exact mul_le_mul_of_nonneg_right (by exact_mod_cast whole) power.le

end Bounds

/-- A number of at most 53 digits is its own rounding. -/
theorem rounded_of_digits {n e : ℤ} (digits : |n| < 2 ^ 53) (exponent : -1074 ≤ e) :
    rounded (n * 2 ^ e) = n * 2 ^ e := by
  have power : (0 : ℚ) < 2 ^ e := zpow_pos two_pos e
  by_cases zero : n = 0
  · simp [zero]
  · have positive : 0 < |(n : ℚ) * 2 ^ e| := abs_pos.mpr (mul_ne_zero (by exact_mod_cast zero) power.ne')
    have small : |(n : ℚ) * 2 ^ e| < 2 ^ (e + 53) := by
      have bound : |(n : ℚ)| < 2 ^ (53 : ℤ) := by exact_mod_cast digits
      rw [abs_mul, abs_of_pos power, zpow_add₀ two_ne_zero, mul_comm]
      exact mul_lt_mul_of_pos_left bound power
    have place := lastPlace_le positive exponent small
    exact le_antisymm (rounded_le_multiple place le_rfl) (multiple_le_rounded place le_rfl)

theorem rounded_intCast {n : ℤ} (digits : |n| < 2 ^ 53) : rounded n = n := by
  have whole := rounded_of_digits (e := 0) digits (by omega)
  rwa [zpow_zero, mul_one] at whole

theorem abs_rounded_sub_le (x : ℚ) : |rounded x - x| ≤ 2 ^ lastPlace x / 2 := by
  have power : (0 : ℚ) < 2 ^ lastPlace x := zpow_pos two_pos _
  have scaled : rounded x - x = (nearestEven (x / 2 ^ lastPlace x) - x / 2 ^ lastPlace x) * 2 ^ lastPlace x := by
    rw [rounded, sub_mul, div_mul_cancel₀ _ power.ne']
  rw [scaled, abs_mul, abs_of_pos power]
  have near := mul_le_mul_of_nonneg_right (abs_nearestEven_sub_le (x / 2 ^ lastPlace x)) power.le
  linarith

/-- The error of rounding a normal number, relative to it. -/
theorem abs_rounded_sub_le_mul {x : ℚ} (normal : 2 ^ (-1022 : ℤ) ≤ |x|) : |rounded x - x| ≤ |x| / 2 ^ 53 := by
  have positive : 0 < |x| := lt_of_lt_of_le (zpow_pos two_pos _) normal
  have large : -1022 ≤ Int.log 2 |x| := by
    have bound : ((2 : ℕ) : ℚ) ^ (-1022 : ℤ) ≤ |x| := by exact_mod_cast normal
    exact (Int.zpow_le_iff_le_log one_lt_two positive).mp bound
  have place : lastPlace x = Int.log 2 |x| - 52 := by
    unfold lastPlace
    omega
  have error := abs_rounded_sub_le x
  rw [place, zpow_sub₀ two_ne_zero] at error
  have leading := le_abs_of_log positive
  have digits : (2 : ℚ) ^ (52 : ℤ) = 2 ^ 53 / 2 := by norm_num
  rw [digits] at error
  calc |rounded x - x| ≤ 2 ^ Int.log 2 |x| / (2 ^ 53 / 2) / 2 := error
    _ = 2 ^ Int.log 2 |x| / 2 ^ 53 := by ring
    _ ≤ |x| / 2 ^ 53 := by gcongr

/-- The error of rounding below a power of two, in units of that power. -/
theorem abs_rounded_sub_le_of_lt {x : ℚ} {k : ℤ} (exponent : -1021 ≤ k) (small : |x| < 2 ^ k) :
    |rounded x - x| ≤ 2 ^ (k - 54) := by
  rcases (abs_nonneg x).eq_or_lt with zero | positive
  · rw [abs_eq_zero.mp zero.symm, rounded_zero, sub_zero, abs_zero]
    exact (zpow_pos two_pos _).le
  · have place : lastPlace x ≤ k - 53 := by
      apply lastPlace_le positive
      · omega
      · rwa [sub_add_cancel]
    have halved : (2 : ℚ) ^ (k - 53) = 2 * 2 ^ (k - 54) := by
      rw [← zpow_one_add₀ two_ne_zero]
      ring_nf
    have coarser : (2 : ℚ) ^ lastPlace x ≤ 2 ^ (k - 53) := zpow_le_zpow_right₀ one_le_two place
    have error := abs_rounded_sub_le x
    linarith

/- Rounding keeps the order. -/

theorem rounded_mono_of_pos {x y : ℚ} (positive : 0 < x) (le : x ≤ y) : rounded x ≤ rounded y := by
  have leading : Int.log 2 |x| ≤ Int.log 2 |y| := by
    rw [abs_of_pos positive, abs_of_pos (positive.trans_le le)]
    exact Int.log_mono_right positive le
  have places : lastPlace x ≤ lastPlace y := by
    unfold lastPlace
    omega
  rcases places.eq_or_lt with same | apart
  · have power : (0 : ℚ) < 2 ^ lastPlace y := zpow_pos two_pos _
    have whole := nearestEven_mono (div_le_div_of_nonneg_right le power.le)
    rw [rounded, rounded, same]
    exact mul_le_mul_of_nonneg_right (by exact_mod_cast whole) power.le
  · -- A power of two lies between numbers of different last places.
    have below : lastPlace x ≤ Int.log 2 |y| ∧ lastPlace y ≤ Int.log 2 |y| ∧ Int.log 2 |x| + 1 ≤ Int.log 2 |y| := by
      unfold lastPlace at apart ⊢
      omega
    have small : x ≤ (1 : ℤ) * 2 ^ Int.log 2 |y| := by
      rw [Int.cast_one, one_mul]
      calc x ≤ |x| := le_abs_self x
        _ ≤ 2 ^ (Int.log 2 |x| + 1) := abs_lt_of_log.le
        _ ≤ 2 ^ Int.log 2 |y| := zpow_le_zpow_right₀ one_le_two below.2.2
    have large : (1 : ℤ) * 2 ^ Int.log 2 |y| ≤ y := by
      rw [Int.cast_one, one_mul, abs_of_pos (positive.trans_le le)]
      have := le_abs_of_log (abs_pos.mpr (positive.trans_le le).ne')
      rwa [abs_of_pos (positive.trans_le le)] at this
    exact (rounded_le_multiple below.1 small).trans (multiple_le_rounded below.2.1 large)

theorem rounded_nonneg {x : ℚ} (nonneg : 0 ≤ x) : 0 ≤ rounded x := by
  have zero := multiple_le_rounded (n := 0) (le_refl (lastPlace x)) (by simpa using nonneg)
  simpa using zero

theorem rounded_mono {x y : ℚ} (le : x ≤ y) : rounded x ≤ rounded y := by
  rcases lt_trichotomy x 0 with negative | zero | positive
  · rcases lt_or_ge y 0 with negative' | nonneg
    · have mirrored := rounded_mono_of_pos (neg_pos.mpr negative') (neg_le_neg le)
      rw [rounded_neg, rounded_neg] at mirrored
      exact neg_le_neg_iff.mp mirrored
    · have mirrored := rounded_nonneg (neg_nonneg.mpr negative.le)
      rw [rounded_neg] at mirrored
      have := rounded_nonneg nonneg
      linarith
  · rw [zero, rounded_zero]
    exact rounded_nonneg (zero ▸ le)
  · exact rounded_mono_of_pos positive le

end Binary64
