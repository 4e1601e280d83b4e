import Mathlib.Algebra.Order.BigOperators.Group.List
import Mathlib.Algebra.Order.Round
import Mathlib.Data.Rat.Floor
import PmKonstruct.Dashboard.Severity

/- What the four buckets say of the days they were given. Sums are 64-bit numbers that are doubled before they are divided, so
   the averages ask for sums that stay below half of the range; counts and largest entries ask for nothing. -/
namespace DelayBuckets
open Dashboard

def InRange : DelayBucket → Int → Prop
  | .underOneWeek, days => days ≤ 7
  | .oneToTwoWeeks, days => 7 < days ∧ days ≤ 14
  | .twoToFourWeeks, days => 14 < days ∧ days ≤ 28
  | .overFourWeeks, days => 28 < days

instance (bucket : DelayBucket) (days : Int) : Decidable (InRange bucket days) := by
  unfold InRange
  cases bucket <;> exact inferInstance

theorem of_eq_iff {bucket : DelayBucket} {days : Int} : DelayBucket.of days = bucket ↔ InRange bucket days := by
  unfold DelayBucket.of InRange
  by_cases first : days ≤ 7
  · cases bucket <;> simp [first] <;> omega
  · by_cases second : days ≤ 14
    · cases bucket <;> simp [first, second] <;> omega
    · by_cases third : days ≤ 28
      · cases bucket <;> simp [first, second, third]
        omega
      · cases bucket <;> simp [first, second, third]
        omega

def entries (bucket : DelayBucket) (daysLate : List Int) : List Int := daysLate.filter fun days => InRange bucket days

/-- A bucket is told of its own entries, in their order. -/
theorem tallies_eq_foldl (start : DelayBucket → Tally) (daysLate : List Int) (bucket : DelayBucket) :
    tallies start daysLate bucket = (entries bucket daysLate).foldl Tally.add (start bucket) := by
  induction daysLate generalizing start with
  | nil => rfl
  | cons days rest ih =>
    rw [tallies, ih]
    unfold entries
    rw [List.filter_cons]
    by_cases here : InRange bucket days
    · have same : DelayBucket.of days = bucket := of_eq_iff.mpr here
      simp [here, same]
    · have elsewhere : bucket ≠ DelayBucket.of days := fun same => here (of_eq_iff.mp same.symm)
      simp [here, elsewhere, Function.update_of_ne]

theorem wrapI64_eq {n : Int} (low : -2 ^ 63 ≤ n) (high : n < 2 ^ 63) : wrapI64 n = n :=
  Int.bmod_eq_of_le_mul_two (by omega) (by omega)

/-- Wrapping at each step comes to wrapping once, at the end. -/
theorem foldl_add {tally : Tally} (held : wrapI64 tally.sum = tally.sum) (days : List Int) : days.foldl Tally.add tally =
    ⟨tally.count + days.length, wrapI64 (tally.sum + days.sum), days.foldl max tally.most⟩ := by
  induction days generalizing tally with
  | nil => simp [held]
  | cons first rest ih =>
    have next : wrapI64 (tally.add first).sum = (tally.add first).sum := Int.bmod_bmod
    rw [List.foldl_cons, ih next]
    simp only [Tally.add, List.length_cons, List.sum_cons, List.foldl_cons, Tally.mk.injEq, and_true]
    constructor
    · omega
    · rw [wrapI64, wrapI64, Int.bmod_add_bmod, wrapI64, Int.add_assoc]

/- The average and the largest. -/

theorem roundDiv_eq {sum : Int} {count : Nat} (positive : 0 ≤ sum) (some : 0 < count) :
    roundDiv sum count = round ((sum : ℚ) / count) := by
  have whole : (sum : ℚ) / count + 1 / 2 = ((sum * 2 + count : Int) : ℚ) / ((count * 2 : Nat) : ℚ) := by
    have apart : (count : ℚ) ≠ 0 := by exact_mod_cast some.ne'
    push_cast
    field_simp
  rw [round_eq, whole, Rat.floor_intCast_div_natCast, roundDiv, Int.tdiv_eq_ediv_of_nonneg (by omega)]
  push_cast
  rfl

/-- The rounded mean of numbers between two bounds lies between them. -/
theorem roundDiv_between {sum count low high : Int} (some : 0 < count) (least : count * low ≤ sum)
    (most : sum ≤ count * high) (positive : 0 ≤ sum) : low ≤ roundDiv sum count ∧ roundDiv sum count ≤ high := by
  rw [roundDiv, Int.tdiv_eq_ediv_of_nonneg (by omega)]
  constructor
  · rw [Int.le_ediv_iff_mul_le (by omega)]
    linarith
  · have below : (sum * 2 + count) / (count * 2) < high + 1 := by
      rw [Int.ediv_lt_iff_lt_mul (by omega)]
      linarith
    omega

/-- Twice the sum of the entries and their number is a 64-bit number. -/
def Fits (entries : List Int) : Prop := entries.sum * 2 + entries.length < 2 ^ 63

theorem roundDivI64_eq {sum count : Int} (some : 0 < count) (least : count ≤ sum) (fits : sum * 2 + count < 2 ^ 63) :
    roundDivI64 sum count = roundDiv sum count := by
  have doubled : wrapI64 (sum * 2) = sum * 2 := wrapI64_eq (by omega) (by omega)
  have added : wrapI64 (sum * 2 + count) = sum * 2 + count := wrapI64_eq (by omega) (by omega)
  have divisor : wrapI64 (count * 2) = count * 2 := wrapI64_eq (by omega) (by omega)
  have quotient : 0 ≤ roundDiv sum count ∧ roundDiv sum count ≤ sum :=
    roundDiv_between some (by omega) (le_mul_of_one_le_left (by omega) (by omega)) (by omega)
  unfold roundDivI64
  rw [doubled, added, divisor]
  exact wrapI64_eq (by unfold roundDiv at quotient; omega) (by unfold roundDiv at quotient; omega)

/-- What a bucket reports of the number of its entries and of the largest. -/
structure Counts (entries : List Int) (severity : DelaySeverity) : Prop where
  counted : severity.count = entries.length
  largest : severity.maxDays = entries.max?.getD 0

/-- What a bucket reports of their mean. -/
structure Averages (entries : List Int) (severity : DelaySeverity) : Prop where
  average : severity.avgDays = round ((entries.sum : ℚ) / entries.length)
  below : ∀ least, entries.min? = some least → least ≤ severity.avgDays
  above : ∀ most, entries.max? = some most → severity.avgDays ≤ most
  empty : entries = [] → severity.avgDays = 0

def reported (bucket : DelayBucket) (tally : Tally) : DelaySeverity :=
  ⟨bucket.label, tally.count, if tally.count > 0 then roundDivI64 tally.sum tally.count else 0, tally.most⟩

theorem delaySeverity_eq (daysLate : List Int) : delaySeverity daysLate =
    DelayBucket.all.map fun bucket => reported bucket ((entries bucket daysLate).foldl Tally.add ⟨0, 0, 0⟩) := by
  unfold delaySeverity reported
  simp only [tallies_eq_foldl]

theorem foldl_fresh (days : List Int) :
    days.foldl Tally.add ⟨0, 0, 0⟩ = ⟨days.length, wrapI64 days.sum, days.foldl max 0⟩ := by
  have fresh : wrapI64 (⟨0, 0, 0⟩ : Tally).sum = (⟨0, 0, 0⟩ : Tally).sum := rfl
  rw [foldl_add fresh, Int.zero_add, Int.zero_add]

theorem reported_counts {bucket : DelayBucket} {days : List Int} (positive : ∀ d ∈ days, 0 < d) :
    Counts days (reported bucket (days.foldl Tally.add ⟨0, 0, 0⟩)) := by
  rw [foldl_fresh, List.foldl_max]
  refine ⟨rfl, ?_⟩
  cases largest : days.max? with
  | none => simp [reported]
  | some most =>
    have reached := positive most (List.max?_eq_some_iff.mp largest).1
    simp only [reported, Option.getD_some]
    omega

theorem reported_averages {bucket : DelayBucket} {days : List Int} (positive : ∀ d ∈ days, 0 < d) (fits : Fits days) :
    Averages days (reported bucket (days.foldl Tally.add ⟨0, 0, 0⟩)) := by
  rw [foldl_fresh]
  unfold reported
  cases days with
  | nil => constructor <;> simp
  | cons first rest =>
    have some : 0 < (first :: rest).length := by simp
    have many : (0 : Int) < ((first :: rest).length : Int) := by exact_mod_cast some
    have ones : ((first :: rest).length : Int) * 1 ≤ (first :: rest).sum := by
      simpa using List.card_nsmul_le_sum (first :: rest) 1 positive
    have sum : wrapI64 (first :: rest).sum = (first :: rest).sum :=
      wrapI64_eq (by omega) (by unfold Fits at fits; omega)
    rw [if_pos many, sum, roundDivI64_eq many (by omega) fits]
    obtain ⟨most, largest⟩ : ∃ most, (first :: rest).max? = Option.some most := ⟨_, rfl⟩
    have above : (first :: rest).sum ≤ ((first :: rest).length : Int) * most := by
      simpa using List.sum_le_card_nsmul (first :: rest) most (List.max?_eq_some_iff.mp largest).2
    refine ⟨roundDiv_eq (by omega) some, ?_, ?_, by simp⟩
    · intro least smallest
      have below : ((first :: rest).length : Int) * least ≤ (first :: rest).sum := by
        simpa using List.card_nsmul_le_sum (first :: rest) least (List.min?_eq_some_iff.mp smallest).2
      exact (roundDiv_between many below above (by omega)).1
    · intro other same
      rw [largest] at same
      cases same
      exact (roundDiv_between many ones above (by omega)).2

/-- The days the store hands on are of 32 bits, in at most as many rows as there are 32-bit keys: these always fit. -/
theorem fits_of_stored {entries : List Int} (bounded : ∀ d ∈ entries, d < 2 ^ 31) (few : entries.length < 2 ^ 31) :
    Fits entries := by
  have below : ∀ d ∈ entries, d ≤ 2147483647 := fun d member => Int.le_of_lt_add_one (bounded d member)
  have sum : entries.sum ≤ (entries.length : Int) * 2147483647 := by
    simpa using List.sum_le_card_nsmul entries 2147483647 below
  unfold Fits
  omega

/-- Four buckets in their order that together count every item, each with its own entries, the largest of them and, where
    twice their sum fits, their rounded mean. Days that the store hands on always fit. -/
theorem delay_severity_buckets {daysLate : List Int} (positive : ∀ d ∈ daysLate, 0 < d) :
    (delaySeverity daysLate).map (·.label) = DelayBucket.all.map DelayBucket.label ∧
    ((delaySeverity daysLate).map (·.count)).sum = daysLate.length ∧
    ∀ (i : Nat) bucket, DelayBucket.all[i]? = some bucket → ∃ severity, (delaySeverity daysLate)[i]? = some severity ∧
      Counts (daysLate.filter fun days => InRange bucket days) severity ∧
      (Fits (daysLate.filter fun days => InRange bucket days) →
        Averages (daysLate.filter fun days => InRange bucket days) severity) ∧
      ((∀ d ∈ daysLate, d < 2 ^ 31) → daysLate.length < 2 ^ 31 →
        Fits (daysLate.filter fun days => InRange bucket days)) := by
  refine ⟨?_, severity_counts_sum daysLate, ?_⟩
  · rw [delaySeverity_eq, List.map_map]
    rfl
  · intro i bucket there
    rw [delaySeverity_eq, List.getElem?_map, there]
    have own : ∀ d ∈ entries bucket daysLate, 0 < d := fun d member => positive d (List.mem_filter.mp member).1
    refine ⟨_, rfl, reported_counts own, reported_averages own, fun bounded few => ?_⟩
    exact fits_of_stored (fun d member => bounded d (List.mem_filter.mp member).1)
      (lt_of_le_of_lt (List.length_filter_le _ _) few)

theorem sample_buckets :
    (delaySeverity [1, 3, 10, 10, 40]).map (fun severity => (severity.count, severity.avgDays, severity.maxDays)) =
      [(2, 2, 3), (2, 10, 10), (0, 0, 0), (1, 40, 40)] ∧
    ∀ (i : Nat) bucket, DelayBucket.all[i]? = some bucket →
      ∃ severity, (delaySeverity [1, 3, 10, 10, 40])[i]? = some severity ∧
        Averages (([1, 3, 10, 10, 40] : List Int).filter fun days => InRange bucket days) severity := by
  refine ⟨by decide, fun i bucket there => ?_⟩
  have positive : ∀ d ∈ ([1, 3, 10, 10, 40] : List Int), 0 < d := by decide
  obtain ⟨severity, found, -, averages, fits⟩ := (delay_severity_buckets positive).2.2 i bucket there
  exact ⟨severity, found, averages (fits (by decide) (by decide))⟩

/-- One item late by 2^62 days gives a negative average. -/
theorem averages_wrap : ¬ ∀ daysLate : List Int, (∀ d ∈ daysLate, 0 < d ∧ d < 2 ^ 63) →
    ∀ (i : Nat) bucket, DelayBucket.all[i]? = some bucket → ∃ severity, (delaySeverity daysLate)[i]? = some severity ∧
      Counts (daysLate.filter fun days => InRange bucket days) severity ∧
      Averages (daysLate.filter fun days => InRange bucket days) severity := by
  intro claimed
  obtain ⟨severity, found, -, averages⟩ := claimed [2 ^ 62] (by decide) 3 .overFourWeeks rfl
  cases found
  exact absurd (averages.below (2 ^ 62) rfl) (by decide)

end DelayBuckets
