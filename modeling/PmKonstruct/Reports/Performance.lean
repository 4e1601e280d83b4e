import Mathlib.Algebra.Order.Round
import PmKonstruct.Library.Binary64
import PmKonstruct.Dashboard.DelayBuckets
import PmKonstruct.Reports.CompletionPct

/- The score of a supervisor, computed in binary64. A share is rounded as if it were exact, the score is off by at most
   one, and only where the exact sum lies halfway. -/
namespace Performance
open Binary64 Dashboard DelayBuckets ReportsStore

/-- A decimal number of the source is the nearest binary one. -/
def weightCompletion : ℚ := rounded (35 / 100)

def weightStart : ℚ := rounded (25 / 100)

def weightDiary : ℚ := rounded (25 / 100)

def weightOnTrack : ℚ := rounded (15 / 100)

def noDataScore : ℚ := 50

/-- What does not fit in 64 bits saturates. -/
def saturate (n : Int) : Int := max (-2 ^ 63) (min n (2 ^ 63 - 1))

/-- Half goes toward positive infinity. -/
def roundHalfUp (v : ℚ) : Int := saturate ⌊rounded (v + 1 / 2)⌋

def percentage (part whole : Int) : Int :=
  if whole ≤ 0 then 0 else roundHalfUp (rounded (rounded (rounded part * 100) / rounded whole))

def diaryCompliance (actual expected : Int) : Option Int :=
  if expected ≤ 0 then none else some (min (percentage actual expected) 100)

def meanDays (total count : Int) : Option Int :=
  if count > 0 then some (roundHalfUp (rounded (rounded total / rounded count))) else none

def onTrack (totalTasks delayedTasks : Int) : ℚ :=
  if totalTasks > 0 then rounded (percentage (wrapI64 (totalTasks - delayedTasks)) totalTasks) else 100

/-- A rate without data counts as average. -/
def rateOf (rate : Option Int) : ℚ := (rate.map fun v => rounded v).getD noDataScore

def performanceScore (onTimeCompletion onTimeStart diaryCompliance : Option Int) (totalTasks delayedTasks : Int) : Int :=
  let sum := rounded (weightCompletion * rateOf onTimeCompletion)
  let sum := rounded (sum + rounded (weightStart * rateOf onTimeStart))
  let sum := rounded (sum + rounded (weightDiary * rateOf diaryCompliance))
  roundHalfUp (rounded (sum + rounded (weightOnTrack * onTrack totalTasks delayedTasks)))

/- A quotient of counts. -/

section Quotient
variable {a b n : Int}

theorem saturate_eq (low : -2 ^ 63 ≤ n) (high : n < 2 ^ 63) : saturate n = n := by
  unfold saturate
  omega

theorem roundDiv_bounds (nonneg : 0 ≤ a) (positive : 0 < b) :
    b * (2 * roundDiv a b - 1) ≤ 2 * a ∧ 2 * a + 1 ≤ b * (2 * roundDiv a b + 1) := by
  rw [roundDiv, Int.tdiv_eq_ediv_of_nonneg (by omega)]
  have below := Int.ediv_mul_le (a * 2 + b) (b := b * 2) (by omega)
  have above := Int.lt_ediv_add_one_mul_self (a * 2 + b) (b := b * 2) (by omega)
  constructor <;> linarith

theorem rounded_le_mul {x : ℚ} (normal : 2 ^ (-1022 : ℤ) ≤ x) : rounded x ≤ x * (1 + 1 / 2 ^ 53) := by
  have positive : 0 < x := (zpow_pos two_pos _).trans_le normal
  have error := abs_rounded_sub_le_mul (normal.trans (le_abs_self x))
  rw [abs_of_pos positive, abs_le] at error
  linarith [error.2]

theorem half_normal : (2 : ℚ) ^ (-1022 : ℤ) ≤ 1 / 2 := by
  have half : (1 / 2 : ℚ) = 2 ^ (-1 : ℤ) := by norm_num
  rw [half]
  exact zpow_le_zpow_right₀ one_le_two (by norm_num)

theorem quotient_normal (some : 0 < a) (positive : 0 < b) (small : 3 * a + b < 2 ^ 52) :
    (2 : ℚ) ^ (-1022 : ℤ) ≤ (a : ℚ) / b := by
  have least : (1 : ℚ) ≤ a := by exact_mod_cast some
  have most : (b : ℚ) ≤ 2 ^ 52 := by exact_mod_cast (by omega : b ≤ 2 ^ 52)
  have divisor : (0 : ℚ) < b := by exact_mod_cast positive
  calc (2 : ℚ) ^ (-1022 : ℤ) ≤ 2 ^ (-52 : ℤ) := zpow_le_zpow_right₀ one_le_two (by norm_num)
    _ = 1 / 2 ^ 52 := by norm_num
    _ ≤ a / b := div_le_div₀ (by linarith) least divisor most

/-- The quotient is never rounded past a half: halves have few digits, and the errors add up to less than what a
    quotient of small counts is away from one. -/
theorem roundHalfUp_quotient (nonneg : 0 ≤ a) (positive : 0 < b) (small : 3 * a + b < 2 ^ 52) :
    roundHalfUp (rounded (rounded a / rounded b)) = roundDiv a b := by
  have dividend : rounded a = a := rounded_intCast (by rw [abs_of_nonneg nonneg]; omega)
  have divisor : rounded b = b := rounded_intCast (by rw [abs_of_pos positive]; omega)
  have divisorPos : (0 : ℚ) < b := by exact_mod_cast positive
  obtain ⟨least, most⟩ := roundDiv_bounds nonneg positive
  have range : 0 ≤ roundDiv a b ∧ roundDiv a b ≤ a + 1 := by
    apply roundDiv_between positive _ _ nonneg
    · omega
    · calc a ≤ 1 * (a + 1) := by omega
        _ ≤ b * (a + 1) := Int.mul_le_mul_of_nonneg_right positive (by omega)
  rw [dividend, divisor, roundHalfUp]
  generalize roundDiv a b = r at *
  have floor : ⌊rounded (rounded (a / b) + 1 / 2)⌋ = r := by
    rw [Int.floor_eq_iff]
    constructor
    · have half : rounded ((2 * r - 1 : ℤ) * 2 ^ (-1 : ℤ)) = (2 * r - 1 : ℤ) * 2 ^ (-1 : ℤ) :=
        rounded_of_digits (by rw [abs_lt]; omega) (by norm_num)
      have unit : (2 : ℚ) ^ (-1 : ℤ) = 1 / 2 := by norm_num
      rw [unit] at half
      have before : ((2 * r - 1 : ℤ) : ℚ) * (1 / 2) ≤ a / b := by
        rw [le_div_iff₀ divisorPos]
        have scaled : (b : ℚ) * (2 * r - 1) ≤ 2 * a := by exact_mod_cast least
        push_cast
        linarith
      have share := rounded_mono before
      rw [half] at share
      rw [← rounded_intCast (n := r) (by rw [abs_lt]; omega)]
      apply rounded_mono
      push_cast at share
      linarith
    · by_contra reached
      have share : rounded (a / b) * b ≤ a * (1 + 1 / 2 ^ 53) := by
        rcases nonneg.eq_or_lt with zero | some
        · simp [← zero]
        · have := mul_le_mul_of_nonneg_right (rounded_le_mul (quotient_normal some positive small)) divisorPos.le
          rwa [mul_right_comm, div_mul_cancel₀ _ divisorPos.ne'] at this
      have nonneg' : 0 ≤ rounded (a / b) := rounded_nonneg (div_nonneg (by exact_mod_cast nonneg) divisorPos.le)
      have sum := rounded_le_mul (x := rounded (a / b) + 1 / 2) (by linarith [half_normal])
      have product := mul_le_mul_of_nonneg_right ((not_lt.mp reached).trans sum) divisorPos.le
      have scaled : (2 : ℚ) * a + 1 ≤ b * (2 * r + 1) := by exact_mod_cast most
      have bound : (3 : ℚ) * a + b < 2 ^ 52 := by exact_mod_cast small
      have dividend' : (0 : ℚ) ≤ a := by exact_mod_cast nonneg
      linarith
  rw [floor]
  exact saturate_eq (by omega) (by omega)

end Quotient

theorem percentage_eq_completionPct {part whole : Int} (nonneg : 0 ≤ part) (small : 300 * part + whole < 2 ^ 52) :
    percentage part whole = completionPct part whole := by
  by_cases none : whole ≤ 0
  · rw [percentage, if_pos none, completionPct, if_pos none]
  · rw [percentage, if_neg none, CompletionPct.completionPct_eq (by omega)]
    have exact : rounded part = part := rounded_intCast (by rw [abs_of_nonneg nonneg]; omega)
    have scaled : (part : ℚ) * 100 = ((100 * part : ℤ) : ℚ) := by
      push_cast
      ring
    rw [exact, scaled]
    exact roundHalfUp_quotient (by omega) (by omega) (by omega)

theorem percentage_nonneg {part whole : Int} (nonneg : 0 ≤ part) : 0 ≤ percentage part whole := by
  unfold percentage
  split
  · exact Int.le_refl 0
  · have hundredfold : 0 ≤ rounded part * 100 := mul_nonneg (rounded_nonneg (by exact_mod_cast nonneg)) (by norm_num)
    have divisor : 0 ≤ rounded (whole : ℚ) := rounded_nonneg (by exact_mod_cast (by omega : 0 ≤ whole))
    have share := rounded_nonneg (div_nonneg (rounded_nonneg hundredfold) divisor)
    have floor : 0 ≤ ⌊rounded (rounded (rounded (rounded part * 100) / rounded whole) + 1 / 2)⌋ :=
      Int.floor_nonneg.mpr (rounded_nonneg (by linarith))
    unfold roundHalfUp saturate
    omega

theorem percentage_within {part whole : Int} (nonneg : 0 ≤ part) (most : part ≤ whole) (small : whole < 2 ^ 43) :
    0 ≤ percentage part whole ∧ percentage part whole ≤ 100 := by
  rw [percentage_eq_completionPct nonneg (by omega)]
  exact CompletionPct.completionPct_within nonneg most

/-- The shares and means of this report are those that the other reports and the dashboard compute in whole numbers. -/
theorem shares_and_means_exact {part whole : Int} (nonneg : 0 ≤ part) (small : 300 * part + whole < 2 ^ 52) :
    percentage part whole = completionPct part whole ∧
      meanDays part whole = if whole > 0 then some (roundDiv part whole) else none := by
  refine ⟨percentage_eq_completionPct nonneg small, ?_⟩
  unfold meanDays
  split
  · next some => rw [roundHalfUp_quotient nonneg some (by omega)]
  · rfl

theorem shares_and_means_of_ten : percentage 10 4 = 250 ∧ meanDays 10 4 = some 3 := by
  have exact := @shares_and_means_exact 10 4 (by decide) (by decide)
  exact ⟨exact.1.trans (by decide), exact.2.trans (by decide)⟩

/- The weighted sum. -/

/-- Twenty times the weighted sum of the rates, and ten for the half that is added before the cut. -/
def weightedTwentieths (completion start diary track : Int) : Int :=
  7 * completion + 5 * start + 5 * diary + 3 * track + 10

theorem rounded_near {x : ℚ} (small : |x| < 128) : |rounded x - x| ≤ 1 / 10 ^ 6 := by
  have power : |x| < 2 ^ (7 : ℤ) := by
    norm_num
    exact small
  calc |rounded x - x| ≤ 2 ^ (7 - 54 : ℤ) := abs_rounded_sub_le_of_lt (by norm_num) power
    _ ≤ 1 / 10 ^ 6 := by norm_num

theorem rounded_rate {rate : Int} (low : 0 ≤ rate) (high : rate ≤ 100) : rounded rate = rate :=
  rounded_intCast (by rw [abs_of_nonneg low]; omega)

theorem rounded_product (weight : ℚ) {rate : ℚ} (light : 0 ≤ weight ∧ weight ≤ 1) (low : 0 ≤ rate) (high : rate ≤ 100) :
    |rounded (rounded weight * rate) - weight * rate| ≤ 2 / 10 ^ 4 := by
  have factor := rounded_near (x := weight) (by rw [abs_lt]; constructor <;> linarith)
  rw [abs_le] at factor
  have upper : rounded weight * rate ≤ (weight + 1 / 10 ^ 6) * rate := mul_le_mul_of_nonneg_right (by linarith) low
  have lower : (weight - 1 / 10 ^ 6) * rate ≤ rounded weight * rate := mul_le_mul_of_nonneg_right (by linarith) low
  have share : weight * rate ≤ 1 * rate := mul_le_mul_of_nonneg_right light.2 low
  have share' : 0 ≤ weight * rate := mul_nonneg light.1 low
  have product := rounded_near (x := rounded weight * rate) (by rw [abs_lt]; constructor <;> linarith)
  rw [abs_le] at product ⊢
  constructor <;> linarith

/-- The errors of the eight roundings stay far below a twentieth. -/
theorem sum_near {c s d t : ℚ} (completion : 0 ≤ c ∧ c ≤ 100) (start : 0 ≤ s ∧ s ≤ 100) (diary : 0 ≤ d ∧ d ≤ 100)
    (track : 0 ≤ t ∧ t ≤ 100) :
    |rounded (rounded (rounded (rounded (rounded (weightCompletion * c) + rounded (weightStart * s)) +
      rounded (weightDiary * d)) + rounded (weightOnTrack * t)) + 1 / 2) - (7 * c + 5 * s + 5 * d + 3 * t + 10) / 20| ≤
        1 / 40 := by
  have first := rounded_product (35 / 100) (by norm_num) completion.1 completion.2
  have second := rounded_product (25 / 100) (by norm_num) start.1 start.2
  have third := rounded_product (25 / 100) (by norm_num) diary.1 diary.2
  have fourth := rounded_product (15 / 100) (by norm_num) track.1 track.2
  unfold weightCompletion weightStart weightDiary weightOnTrack
  generalize rounded (rounded (35 / 100) * c) = c' at *
  generalize rounded (rounded (25 / 100) * s) = s' at *
  generalize rounded (rounded (25 / 100) * d) = d' at *
  generalize rounded (rounded (15 / 100) * t) = t' at *
  rw [abs_le] at first second third fourth
  have two := rounded_near (x := c' + s') (by rw [abs_lt]; constructor <;> linarith)
  rw [abs_le] at two
  have three := rounded_near (x := rounded (c' + s') + d') (by rw [abs_lt]; constructor <;> linarith)
  rw [abs_le] at three
  have four := rounded_near (x := rounded (rounded (c' + s') + d') + t') (by rw [abs_lt]; constructor <;> linarith)
  rw [abs_le] at four
  have half := rounded_near (x := rounded (rounded (rounded (c' + s') + d') + t') + 1 / 2)
    (by rw [abs_lt]; constructor <;> linarith)
  rw [abs_le] at half ⊢
  constructor <;> linarith

/-- A number close to a twentieth is cut to the same integer, unless the twentieth is an integer itself. -/
theorem floor_near {y : ℚ} {n : Int} (near : |y - n / 20| ≤ 1 / 40) :
    (¬ 20 ∣ n → ⌊y⌋ = n / 20) ∧ n / 20 - 1 ≤ ⌊y⌋ ∧ ⌊y⌋ ≤ n / 20 := by
  have split : (n : ℚ) = 20 * (n / 20 : ℤ) + (n % 20 : ℤ) := by exact_mod_cast (Int.mul_ediv_add_emod n 20).symm
  have least : (0 : ℚ) ≤ (n % 20 : ℤ) := by exact_mod_cast Int.emod_nonneg n (by omega)
  have most : ((n % 20 : ℤ) : ℚ) ≤ 19 := by exact_mod_cast (by omega : n % 20 ≤ 19)
  rw [abs_le] at near
  constructor
  · intro apart
    have proper : (1 : ℚ) ≤ (n % 20 : ℤ) := by exact_mod_cast (by omega : 1 ≤ n % 20)
    rw [Int.floor_eq_iff]
    constructor <;> linarith
  · constructor
    · rw [Int.le_floor]
      push_cast
      linarith
    · rw [← Int.lt_add_one_iff, Int.floor_lt]
      push_cast
      linarith

/- The score. -/

def givenRate (rate : Option Int) : Int := rate.getD 50

def trackRate (totalTasks delayedTasks : Int) : Int :=
  if totalTasks > 0 then completionPct (totalTasks - delayedTasks) totalTasks else 100

theorem rateOf_eq (rate : Option Int) : rateOf rate = rounded (givenRate rate) := by
  cases rate with
  | none =>
    have fifty : rounded ((50 : Int) : ℚ) = 50 := rounded_intCast (by norm_num)
    exact fifty.symm
  | some v => rfl

theorem onTrack_eq {totalTasks delayedTasks : Int} (most : delayedTasks ≤ totalTasks)
    (small : 300 * (totalTasks - delayedTasks) + totalTasks < 2 ^ 52) :
    onTrack totalTasks delayedTasks = rounded (trackRate totalTasks delayedTasks) := by
  unfold onTrack trackRate
  split
  · rw [wrapI64_eq (by omega) (by omega), percentage_eq_completionPct (by omega) small]
  · have hundred : rounded ((100 : Int) : ℚ) = 100 := rounded_intCast (by norm_num)
    exact hundred.symm

theorem trackRate_within {totalTasks delayedTasks : Int} (nonneg : 0 ≤ delayedTasks) (most : delayedTasks ≤ totalTasks) :
    0 ≤ trackRate totalTasks delayedTasks ∧ trackRate totalTasks delayedTasks ≤ 100 := by
  unfold trackRate
  split
  · exact CompletionPct.completionPct_within (by omega) (by omega)
  · omega

section Score
variable {completion start diary : Option Int} {totalTasks delayedTasks : Int}

def exactTwentieths (completion start diary : Option Int) (totalTasks delayedTasks : Int) : Int :=
  weightedTwentieths (givenRate completion) (givenRate start) (givenRate diary) (trackRate totalTasks delayedTasks)

def IsRate (rate : Option Int) : Prop := 0 ≤ givenRate rate ∧ givenRate rate ≤ 100

theorem rateOf_within {rate : Option Int} (within : IsRate rate) :
    rateOf rate = givenRate rate ∧ 0 ≤ rateOf rate ∧ rateOf rate ≤ 100 := by
  have same : rateOf rate = givenRate rate := by rw [rateOf_eq, rounded_rate within.1 within.2]
  rw [same]
  exact ⟨rfl, by exact_mod_cast within.1, by exact_mod_cast within.2⟩

theorem score_near (completionRate : IsRate completion) (startRate : IsRate start) (diaryRate : IsRate diary)
    (nonneg : 0 ≤ delayedTasks) (most : delayedTasks ≤ totalTasks) (few : totalTasks < 2 ^ 43) :
    (¬ 20 ∣ exactTwentieths completion start diary totalTasks delayedTasks →
      performanceScore completion start diary totalTasks delayedTasks =
        exactTwentieths completion start diary totalTasks delayedTasks / 20) ∧
    exactTwentieths completion start diary totalTasks delayedTasks / 20 - 1 ≤
      performanceScore completion start diary totalTasks delayedTasks ∧
    performanceScore completion start diary totalTasks delayedTasks ≤
      exactTwentieths completion start diary totalTasks delayedTasks / 20 ∧
    10 ≤ exactTwentieths completion start diary totalTasks delayedTasks ∧
    exactTwentieths completion start diary totalTasks delayedTasks ≤ 2010 := by
  obtain ⟨same, low, high⟩ := rateOf_within completionRate
  obtain ⟨same', low', high'⟩ := rateOf_within startRate
  obtain ⟨same'', low'', high''⟩ := rateOf_within diaryRate
  have track := trackRate_within nonneg most
  have tracked : onTrack totalTasks delayedTasks = trackRate totalTasks delayedTasks := by
    rw [onTrack_eq most (by omega), rounded_rate track.1 track.2]
  have near := sum_near ⟨low, high⟩ ⟨low', high'⟩ ⟨low'', high''⟩
    (t := onTrack totalTasks delayedTasks) (by rw [tracked]; exact_mod_cast track)
  have twentieths : 7 * rateOf completion + 5 * rateOf start + 5 * rateOf diary + 3 * onTrack totalTasks delayedTasks +
      10 = (exactTwentieths completion start diary totalTasks delayedTasks : ℤ) := by
    rw [same, same', same'', tracked, exactTwentieths, weightedTwentieths]
    push_cast
    ring
  rw [twentieths] at near
  obtain ⟨exact, lower, upper⟩ := floor_near near
  have bounds : 10 ≤ exactTwentieths completion start diary totalTasks delayedTasks ∧
      exactTwentieths completion start diary totalTasks delayedTasks ≤ 2010 := by
    obtain ⟨c, c'⟩ := completionRate
    obtain ⟨s, s'⟩ := startRate
    obtain ⟨d, d'⟩ := diaryRate
    unfold exactTwentieths weightedTwentieths
    omega
  have floor : performanceScore completion start diary totalTasks delayedTasks =
      ⌊rounded (rounded (rounded (rounded (rounded (weightCompletion * rateOf completion) +
        rounded (weightStart * rateOf start)) + rounded (weightDiary * rateOf diary)) +
        rounded (weightOnTrack * onTrack totalTasks delayedTasks)) + 1 / 2)⌋ :=
    saturate_eq (by omega) (by omega)
  rw [floor]
  exact ⟨exact, lower, upper, bounds⟩

theorem score_within (completionRate : IsRate completion) (startRate : IsRate start) (diaryRate : IsRate diary)
    (nonneg : 0 ≤ delayedTasks) (most : delayedTasks ≤ totalTasks) (few : totalTasks < 2 ^ 43) :
    0 ≤ performanceScore completion start diary totalTasks delayedTasks ∧
      performanceScore completion start diary totalTasks delayedTasks ≤ 100 := by
  obtain ⟨exact, lower, upper, least, greatest⟩ := score_near completionRate startRate diaryRate nonneg most few
  by_cases whole : 20 ∣ exactTwentieths completion start diary totalTasks delayedTasks
  · omega
  · have := exact whole
    omega

/-- The score is the weighted mean of the four rates, half up. In binary64 a mean that lies exactly halfway may come out
    one lower; no other does. -/
theorem performance_score_exact (completionRate : IsRate completion) (startRate : IsRate start)
    (diaryRate : IsRate diary) (nonneg : 0 ≤ delayedTasks) (most : delayedTasks ≤ totalTasks)
    (few : totalTasks < 2 ^ 43) :
    (¬ 20 ∣ exactTwentieths completion start diary totalTasks delayedTasks →
      performanceScore completion start diary totalTasks delayedTasks =
        exactTwentieths completion start diary totalTasks delayedTasks / 20) ∧
    exactTwentieths completion start diary totalTasks delayedTasks / 20 - 1 ≤
      performanceScore completion start diary totalTasks delayedTasks ∧
    performanceScore completion start diary totalTasks delayedTasks ≤
      exactTwentieths completion start diary totalTasks delayedTasks / 20 ∧
    0 ≤ performanceScore completion start diary totalTasks delayedTasks ∧
    performanceScore completion start diary totalTasks delayedTasks ≤ 100 := by
  obtain ⟨exact, lower, upper, -⟩ := score_near completionRate startRate diaryRate nonneg most few
  exact ⟨exact, lower, upper, score_within completionRate startRate diaryRate nonneg most few⟩

theorem performance_score_of_ten_tasks : performanceScore (some 80) (some 70) (some 65) 10 3 = 72 := by
  have scored := @performance_score_exact (some 80) (some 70) (some 65) 10 3 ⟨by decide, by decide⟩
    ⟨by decide, by decide⟩ ⟨by decide, by decide⟩ (by decide) (by decide) (by decide)
  have sum : exactTwentieths (some 80) (some 70) (some 65) 10 3 = 1455 := by decide
  rw [sum] at scored
  omega

/-- A mean of exactly six and a half. -/
example : performanceScore (some 1) (some 0) (some 0) 100 59 = 6 := by decide +kernel

/- The order of scores. -/

theorem saturate_mono {m n : Int} (le : m ≤ n) : saturate m ≤ saturate n := by
  unfold saturate
  omega

theorem roundHalfUp_mono {v w : ℚ} (le : v ≤ w) : roundHalfUp v ≤ roundHalfUp w :=
  saturate_mono (Int.floor_mono (rounded_mono (by linarith)))

theorem percentage_mono {part more whole : Int} (le : part ≤ more) : percentage part whole ≤ percentage more whole := by
  unfold percentage
  split
  · exact Int.le_refl 0
  · next some =>
    have divisor : 0 ≤ rounded (whole : ℚ) := rounded_nonneg (by exact_mod_cast (by omega : 0 ≤ whole))
    apply roundHalfUp_mono
    apply rounded_mono
    apply div_le_div_of_nonneg_right _ divisor
    apply rounded_mono
    exact mul_le_mul_of_nonneg_right (rounded_mono (by exact_mod_cast le)) (by norm_num)

theorem onTrack_anti {fewer : Int} (counted : 0 ≤ fewer) (le : fewer ≤ delayedTasks) (delays : delayedTasks < 2 ^ 63)
    (total : totalTasks < 2 ^ 63) : onTrack totalTasks delayedTasks ≤ onTrack totalTasks fewer := by
  unfold onTrack
  split
  · have share : percentage (wrapI64 (totalTasks - delayedTasks)) totalTasks ≤
        percentage (wrapI64 (totalTasks - fewer)) totalTasks := by
      rw [wrapI64_eq (by omega) (by omega), wrapI64_eq (by omega) (by omega)]
      exact percentage_mono (by omega)
    exact rounded_mono (by exact_mod_cast share)
  · exact le_refl 100

theorem weighted_mono (weight : ℚ) {rate better : ℚ} (le : rate ≤ better) (nonneg : 0 ≤ weight) :
    rounded (rounded weight * rate) ≤ rounded (rounded weight * better) :=
  rounded_mono (mul_le_mul_of_nonneg_left le (rounded_nonneg nonneg))

theorem rateOf_mono {rate better : Option Int} (le : givenRate rate ≤ givenRate better) : rateOf rate ≤ rateOf better := by
  rw [rateOf_eq, rateOf_eq]
  exact rounded_mono (by exact_mod_cast le)

/-- Nobody's score falls because a rate of theirs rose or a task of theirs is no longer late, whatever the roundings do. The
    tasks are counts that fit their 64 bits. -/
theorem performance_score_mono {completion' start' diary' : Option Int} {fewer : Int}
    (completionRises : givenRate completion ≤ givenRate completion') (startRises : givenRate start ≤ givenRate start')
    (diaryRises : givenRate diary ≤ givenRate diary') (counted : 0 ≤ fewer) (delaysFall : fewer ≤ delayedTasks)
    (delays : delayedTasks < 2 ^ 63) (total : totalTasks < 2 ^ 63) :
    performanceScore completion start diary totalTasks delayedTasks ≤
      performanceScore completion' start' diary' totalTasks fewer := by
  have one := weighted_mono (35 / 100) (rateOf_mono completionRises) (by norm_num)
  have two := weighted_mono (25 / 100) (rateOf_mono startRises) (by norm_num)
  have three := weighted_mono (25 / 100) (rateOf_mono diaryRises) (by norm_num)
  have four := weighted_mono (15 / 100) (onTrack_anti counted delaysFall delays total) (by norm_num)
  apply roundHalfUp_mono
  apply rounded_mono
  apply add_le_add _ four
  apply rounded_mono
  apply add_le_add _ three
  apply rounded_mono
  exact add_le_add one two

theorem performance_score_recovers : performanceScore (some 40) none (some 90) 10 4 ≤
    performanceScore (some 40) (some 60) (some 90) 10 3 :=
  performance_score_mono (by decide) (by decide) (by decide) (by decide) (by decide) (by decide) (by decide)

end Score

end Performance
