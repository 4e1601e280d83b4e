import PmKonstruct.Dashboard.DelayBuckets
import PmKonstruct.Reports.ReportsService

/- The share of the work that is done, in whole percent. On unbounded integers it is the nearest one; the machine's products
   have to stay within 64 bits for that, as those of any programme that is stored do. -/
namespace CompletionPct
open Dashboard DelayBuckets CalendarDate ReportsStore
open ReportsService (dailyProgressReport)

/-- On 64-bit numbers of a release build. -/
def completionPctI64 (completed total : Int) : Int :=
  if total ≤ 0 then 0
  else wrapI64 ((wrapI64 (wrapI64 (completed * 200) + total)).tdiv (wrapI64 (total * 2)))

/-- The two products and the sum are 64-bit numbers. -/
def Fits (completed total : Int) : Prop := completed * 200 + total < 2 ^ 63 ∧ total * 2 < 2 ^ 63

/-- What a percentage of items done has to be, however it is computed. -/
structure Faithful (pct : Int → Int → Int) (completed total : Int) : Prop where
  within : 0 ≤ pct completed total ∧ pct completed total ≤ 100
  empty : total = 0 → pct completed total = 0
  nearest : 0 < total → pct completed total = round ((100 * completed : ℚ) / total)
  full : 0 < total → (pct completed total = 100 ↔ 199 * total ≤ 200 * completed)
  monotone : ∀ fewer, 0 ≤ fewer → fewer ≤ completed → pct fewer total ≤ pct completed total

variable {completed total : Int}

theorem completionPct_eq (some : 0 < total) : completionPct completed total = roundDiv (100 * completed) total := by
  rw [completionPct, if_neg (by omega), roundDiv]
  congr 1
  omega

theorem completionPct_within (nonneg : 0 ≤ completed) (most : completed ≤ total) :
    0 ≤ completionPct completed total ∧ completionPct completed total ≤ 100 := by
  by_cases some : 0 < total
  · rw [completionPct_eq some]
    exact roundDiv_between some (by omega) (by omega) (by omega)
  · rw [completionPct, if_pos (by omega)]
    decide

/-- The last half percent counts as done. -/
theorem completionPct_full_iff (some : 0 < total) (nonneg : 0 ≤ completed) (most : completed ≤ total) :
    completionPct completed total = 100 ↔ 199 * total ≤ 200 * completed := by
  have bound := (completionPct_within nonneg most).2
  have reached : 100 ≤ completionPct completed total ↔ 100 * (total * 2) ≤ completed * 200 + total := by
    rw [completionPct, if_neg (by omega), Int.tdiv_eq_ediv_of_nonneg (by omega), Int.le_ediv_iff_mul_le (by omega)]
  omega

theorem completionPct_mono {fewer : Int} (nonneg : 0 ≤ fewer) (least : fewer ≤ completed) :
    completionPct fewer total ≤ completionPct completed total := by
  unfold completionPct
  split
  · exact Int.le_refl 0
  · rw [Int.tdiv_eq_ediv_of_nonneg (by omega), Int.tdiv_eq_ediv_of_nonneg (by omega)]
    exact Int.ediv_le_ediv (by omega) (by omega)

theorem completionPct_faithful (nonneg : 0 ≤ completed) (most : completed ≤ total) :
    Faithful completionPct completed total where
  within := completionPct_within nonneg most
  empty none := by rw [completionPct, if_pos (by omega)]
  nearest some := by
    obtain ⟨items, rfl⟩ := Int.eq_ofNat_of_zero_le some.le
    rw [completionPct_eq some, roundDiv_eq (by omega) (by omega)]
    push_cast
    rfl
  full some := completionPct_full_iff some nonneg most
  monotone _ low least := completionPct_mono low least

/- The same on the machine. -/

theorem completionPctI64_eq (nonneg : 0 ≤ completed) (most : completed ≤ total) (fits : Fits completed total) :
    completionPctI64 completed total = completionPct completed total := by
  obtain ⟨sum, product⟩ := fits
  have scaled : wrapI64 (completed * 200) = completed * 200 := wrapI64_eq (by omega) (by omega)
  have added : wrapI64 (completed * 200 + total) = completed * 200 + total := wrapI64_eq (by omega) (by omega)
  have divisor : wrapI64 (total * 2) = total * 2 := wrapI64_eq (by omega) (by omega)
  have quotient := completionPct_within nonneg most
  unfold completionPctI64
  rw [scaled, added, divisor]
  unfold completionPct at quotient ⊢
  split
  · rfl
  · rename_i some
    rw [if_neg some] at quotient
    exact wrapI64_eq (by omega) (by omega)

theorem completionPctI64_faithful (nonneg : 0 ≤ completed) (most : completed ≤ total) (fits : Fits completed total) :
    Faithful completionPctI64 completed total := by
  have same := completionPctI64_eq nonneg most fits
  have unbounded := completionPct_faithful nonneg most
  constructor
  · rw [same]
    exact unbounded.within
  · rw [same]
    exact unbounded.empty
  · rw [same]
    exact unbounded.nearest
  · rw [same]
    exact unbounded.full
  · intro fewer low least
    have smaller : Fits fewer total := ⟨by have := fits.1; omega, fits.2⟩
    rw [same, completionPctI64_eq low (Int.le_trans least most) smaller]
    exact unbounded.monotone fewer low least

theorem completionPctI64_third : Faithful completionPctI64 2 3 :=
  completionPctI64_faithful (by decide) (by decide) ⟨by decide, by decide⟩

/-- All of 2^56 items done wraps to a negative percentage. -/
theorem completionPctI64_wraps : ¬ ∀ completed total : Int, total < 2 ^ 63 → 0 ≤ completed → completed ≤ total →
    Faithful completionPctI64 completed total := by
  intro claimed
  have within := (claimed (2 ^ 56) (2 ^ 56) (by decide) (by decide) (by decide)).within.1
  exact absurd within (by decide)

/- The report of a day. -/

/-- The counts of any programme in memory are far from the bound. -/
theorem dailyProgressReport_faithful {today date : Date} {data : DailyProgressData} {items : Int}
    (few : data.tasks.length < 2 ^ 55) (counted : items = (ReportsService.workTasks data.tasks).length) :
    (dailyProgressReport today date data).completionPct =
        completionPctI64 (dailyProgressReport today date data).completedTasks items ∧
      Faithful completionPctI64 (dailyProgressReport today date data).completedTasks items := by
  have fewer : (ReportsService.workTasks data.tasks).length ≤ data.tasks.length := List.length_filter_le _ _
  have nonneg : 0 ≤ (dailyProgressReport today date data).completedTasks := Int.natCast_nonneg _
  have most : (dailyProgressReport today date data).completedTasks ≤ items := by
    rw [counted]
    exact Int.ofNat_le.mpr List.countP_le_length
  have fits : Fits (dailyProgressReport today date data).completedTasks items := by
    constructor <;> omega
  refine ⟨?_, completionPctI64_faithful nonneg most fits⟩
  rw [completionPctI64_eq nonneg most fits, counted]
  rfl

end CompletionPct
