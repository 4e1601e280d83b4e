import PmKonstruct.Forms.EtoReading
import PmKonstruct.Library.DelimitedFields

/- Purchase order numbers are told apart by the job number and the number of the extra. A job number may have hyphens and
   digits of its own: what is appended starts at the last hyphen, for the digits of a positive number have none. -/
namespace PoNumbers
open PlainText DecimalText DelimitedFields DomainErrors EtoNote EtoReading
open CalendarDate (padded parseDigits_padded)

/-- A job number as it is given: with nothing blank around it, and not empty. -/
structure GivenNumber (jobNumber : Text) : Prop where
  trimmed : trim jobNumber = jobNumber
  nonblank : jobNumber ≠ []

variable {a b : Text} {n m : Int} {job other : JobId}

theorem GivenNumber.poNumber_eq (given : GivenNumber a) : poNumber n a job = a ++ '-' :: padded 2 n := by
  have nonblank : trim a ≠ [] := by
    rw [given.trimmed]
    exact given.nonblank
  rw [poNumber_given nonblank, given.trimmed]

theorem padded_digits (positive : 1 ≤ n) : ∀ c ∈ padded 2 n, c.isDigit = true := by
  obtain ⟨k, rfl⟩ := Int.eq_ofNat_of_zero_le (Int.le_trans (by decide) positive)
  exact (parseDigits_eq_some.mp (parseDigits_padded 2 k)).1.2

theorem hyphen_notMem_padded (positive : 1 ≤ n) : '-' ∉ padded 2 n :=
  fun member => absurd (padded_digits positive _ member) (by decide)

/-- Padding adds zeros and takes nothing away, however many digits there are. -/
theorem padded_injective (left : 1 ≤ n) (right : 1 ≤ m) (same : padded 2 n = padded 2 m) : n = m := by
  obtain ⟨k, rfl⟩ := Int.eq_ofNat_of_zero_le (Int.le_trans (by decide) left)
  obtain ⟨l, rfl⟩ := Int.eq_ofNat_of_zero_le (Int.le_trans (by decide) right)
  have values := congrArg parseDigits same
  rw [parseDigits_padded, parseDigits_padded] at values
  exact congrArg Int.ofNat (Option.some.inj values)

theorem poNumber_inj (given : GivenNumber a) (otherGiven : GivenNumber b) (positive : 1 ≤ n) (otherPositive : 1 ≤ m) :
    poNumber n a job = poNumber m b other ↔ a = b ∧ n = m := by
  rw [given.poNumber_eq, otherGiven.poNumber_eq]
  constructor
  · intro same
    obtain ⟨numbers, counts⟩ :=
      after_mark (hyphen_notMem_padded positive) (hyphen_notMem_padded otherPositive) same
    exact ⟨numbers, padded_injective positive otherPositive counts⟩
  · rintro ⟨rfl, rfl⟩
    rfl

theorem poNumber_inj_hyphens : poNumber 2 (text "J-7-01") 4 = poNumber 102 (text "J-7") 5 ↔
    text "J-7-01" = text "J-7" ∧ (2 : Int) = 102 :=
  poNumber_inj ⟨by decide, by decide⟩ ⟨by decide, by decide⟩ (by decide) (by decide)

/- A job without a number takes its id, which another job may have as its number. -/
example : poNumber 1 [] 7 = poNumber 1 (text "7") 8 := by decide

end PoNumbers
