import Mathlib.Data.List.Forall2
import PmKonstruct.Domain.Errors
import PmKonstruct.Library.DecimalText

/- The time of a diary entry. It is split at its colons and each part is parsed as a number, so besides two digits a part
   may have one, or three, or a plus sign. -/
namespace ClockTimes
open PlainText DecimalText DomainErrors

/-- The fields of an entry that are checked. -/
structure DiaryEntryInput where
  jobId : JobId
  time : Option Text
  workforce : Option Int
  deriving DecidableEq, Repr

def inClock : Option Nat → Option Nat → Option Nat → Bool
  | some h, some m, some sec => h < 24 && m < 60 && sec < 60
  | _, _, _ => false

def looksLikeTime (s : Text) : Bool :=
  match (trim s).splitOn ':' with
  | [h, m] => inClock (parseU32 h) (parseU32 m) (some 0)
  | [h, m, sec] => inClock (parseU32 h) (parseU32 m) (parseU32 sec)
  | _ => false

def DiaryEntryInput.validate (input : DiaryEntryInput) : Except DomainError Unit :=
  if input.jobId ≤ 0 then .error (.invalid "jobId" "is required")
  else if input.workforce.any (· < 0) then .error (.invalid "workforce" "cannot be negative")
  else if input.workforce.any (· > 10000) then .error (.invalid "workforce" "is implausibly large")
  else if input.time.any fun t => trim t ≠ [] && !looksLikeTime t then
    .error (.invalid "time" "must be HH:MM or HH:MM:SS")
  else .ok ()

/- The grammar. -/

/-- A numeral of a value below a bound: any number of digits, after a plus sign or without one. -/
def Numeral (part : Text) (bound : Nat) : Prop :=
  ∃ digits n, (part = digits ∨ part = '+' :: digits) ∧ parseDigits digits = some n ∧ n < bound

def TwoDigits (part : Text) (bound : Nat) : Prop :=
  part.length = 2 ∧ ∃ n, parseDigits part = some n ∧ n < bound

/-- An hour and a minute, and a second if there is one. -/
def Ruled (Part : Text → Nat → Prop) (parts : List Text) : Prop :=
  List.Forall₂ Part parts [24, 60] ∨ List.Forall₂ Part parts [24, 60, 60]

/-- `HH:MM` or `HH:MM:SS`, by what a part may be. -/
def Clock (Part : Text → Nat → Prop) (t : Text) : Prop := ∃ parts, t = [':'].intercalate parts ∧ Ruled Part parts

/-- A time by its values in which a part is spelled with a plus sign or not in two characters. -/
def Loose (t : Text) : Prop :=
  ∃ parts, t = [':'].intercalate parts ∧ Ruled Numeral parts ∧ ∃ part ∈ parts, part.length ≠ 2 ∨ '+' ∈ part

section Parts
variable {part t : Text} {parts : List Text} {bound n : Nat}

theorem digits_plain (parsed : parseDigits part = some n) : ':' ∉ part ∧ '+' ∉ part := by
  have digits := (parseDigits_eq_some.mp parsed).1.2
  constructor
  · intro colon
    exact absurd (digits _ colon) (by decide)
  · intro plus
    exact absurd (digits _ plus) (by decide)

theorem numeral_iff (small : bound ≤ 2 ^ 32) : Numeral part bound ↔ ∃ n, parseU32 part = some n ∧ n < bound := by
  constructor
  · rintro ⟨digits, n, spelled, parsed, below⟩
    exact ⟨n, parseU32_eq_some.mpr ⟨by omega, digits, parsed, spelled⟩, below⟩
  · rintro ⟨n, read, below⟩
    obtain ⟨-, digits, parsed, spelled⟩ := parseU32_eq_some.mp read
    exact ⟨digits, n, spelled, parsed, below⟩

theorem colon_notMem_numeral (numeral : Numeral part bound) : ':' ∉ part := by
  obtain ⟨digits, n, rfl | rfl, parsed, -⟩ := numeral
  · exact (digits_plain parsed).1
  · exact List.not_mem_cons_of_ne_of_not_mem (by decide) (digits_plain parsed).1

/-- Two digits are a numeral of two characters without a plus sign. -/
theorem twoDigits_iff : TwoDigits part bound ↔ (part.length = 2 ∧ '+' ∉ part) ∧ Numeral part bound := by
  constructor
  · rintro ⟨long, n, parsed, below⟩
    exact ⟨⟨long, (digits_plain parsed).2⟩, part, n, .inl rfl, parsed, below⟩
  · rintro ⟨⟨long, unsigned⟩, digits, n, rfl | rfl, parsed, below⟩
    · exact ⟨long, n, parsed, below⟩
    · exact absurd List.mem_cons_self unsigned

theorem ruled_twoDigits_iff :
    Ruled TwoDigits parts ↔ (∀ part ∈ parts, part.length = 2 ∧ '+' ∉ part) ∧ Ruled Numeral parts := by
  have each : TwoDigits = fun part bound => (part.length = 2 ∧ '+' ∉ part) ∧ Numeral part bound :=
    funext₂ fun _ _ => propext twoDigits_iff
  unfold Ruled
  rw [each, List.forall₂_and_left, List.forall₂_and_left, and_or_left]

theorem forall₂_separated {bounds : List Nat} (ruled : List.Forall₂ Numeral parts bounds) : ∀ part ∈ parts, ':' ∉ part := by
  induction ruled with
  | nil => exact fun _ member => absurd member List.not_mem_nil
  | cons first _ ih => exact List.forall_mem_cons.mpr ⟨colon_notMem_numeral first, ih⟩

/-- No numeral has a colon, so the parts are found again. -/
theorem ruled_split (ruled : Ruled Numeral parts) : ([':'].intercalate parts).splitOn ':' = parts := by
  rcases ruled with short | long
  · exact List.splitOn_intercalate ':' (forall₂_separated short) fun none => by cases none ▸ short
  · exact List.splitOn_intercalate ':' (forall₂_separated long) fun none => by cases none ▸ long

theorem clock_iff : Clock Numeral t ↔ Ruled Numeral (t.splitOn ':') := by
  constructor
  · rintro ⟨parts, rfl, ruled⟩
    rwa [ruled_split ruled]
  · intro ruled
    exact ⟨t.splitOn ':', (List.intercalate_splitOn ':').symm, ruled⟩

theorem inClock_iff {h m sec : Option Nat} : inClock h m sec = true ↔
    (∃ n, h = some n ∧ n < 24) ∧ (∃ n, m = some n ∧ n < 60) ∧ ∃ n, sec = some n ∧ n < 60 := by
  cases h <;> cases m <;> cases sec <;> simp [inClock, and_assoc]

/-- What the parser takes: the values of the parts are checked, and not their spelling. -/
theorem looksLikeTime_iff : looksLikeTime t = true ↔ Clock Numeral (trim t) := by
  rw [clock_iff, looksLikeTime, Ruled]
  have hours : (24 : Nat) ≤ 2 ^ 32 := by decide
  have sixtieths : (60 : Nat) ≤ 2 ^ 32 := by decide
  cases (trim t).splitOn ':' with
  | nil => simp
  | cons h rest =>
    cases rest with
    | nil => simp
    | cons m rest =>
      cases rest with
      | nil => simp [inClock_iff, numeral_iff hours, numeral_iff sixtieths]
      | cons sec rest =>
        cases rest with
        | nil => simp [inClock_iff, numeral_iff hours, numeral_iff sixtieths]
        | cons more rest => simp

theorem clock_twoDigits_numeral (clock : Clock TwoDigits t) : Clock Numeral t := by
  obtain ⟨parts, shown, ruled⟩ := clock
  exact ⟨parts, shown, (ruled_twoDigits_iff.mp ruled).2⟩

/-- A time by its values is in two digits throughout, or loose. -/
theorem clock_numeral_cases (clock : Clock Numeral t) : Clock TwoDigits t ↔ ¬ Loose t := by
  obtain ⟨parts, rfl, ruled⟩ := clock
  constructor
  · rintro ⟨others, same, exactly⟩ ⟨loose, again, numerals, part, member, spelled⟩
    obtain ⟨tidy, named⟩ := ruled_twoDigits_iff.mp exactly
    have equal : others = loose := by rw [← ruled_split named, ← ruled_split numerals, ← same, again]
    obtain ⟨long, unsigned⟩ := tidy part (equal ▸ member)
    rcases spelled with short | plus
    · exact short long
    · exact unsigned plus
  · intro tidy
    refine ⟨parts, rfl, ruled_twoDigits_iff.mpr ⟨fun part member => ?_, ruled⟩⟩
    by_contra untidy
    exact tidy ⟨parts, rfl, ruled, part, member, by tauto⟩

end Parts

/- Validation. -/

section Validation
variable {input : DiaryEntryInput} {t : Text}

/-- With the other fields valid the time decides. -/
theorem validate_time (others : { input with time := none }.validate = .ok ()) (given : input.time = some t)
    (nonblank : trim t ≠ []) : input.validate = .ok () ↔ looksLikeTime t = true := by
  have earlier : ¬ input.jobId ≤ 0 ∧ ¬ input.workforce.any (· < 0) = true ∧ ¬ input.workforce.any (· > 10000) = true := by
    unfold DiaryEntryInput.validate at others
    split_ifs at others with job negative large
    exact ⟨job, negative, large⟩
  obtain ⟨job, negative, large⟩ := earlier
  rw [DiaryEntryInput.validate, if_neg job, if_neg negative, if_neg large, given, Option.any_some]
  simp [nonblank]

theorem time_accepted_iff (others : { input with time := none }.validate = .ok ()) (given : input.time = some t)
    (nonblank : trim t ≠ []) :
    (input.validate = .ok () ↔ Clock TwoDigits (trim t)) ↔ ¬ Loose (trim t) := by
  rw [validate_time others given nonblank, looksLikeTime_iff]
  constructor
  · intro agrees loose
    obtain ⟨parts, shown, ruled, spelled⟩ := loose
    have clock : Clock Numeral (trim t) := ⟨parts, shown, ruled⟩
    exact (clock_numeral_cases clock).mp (agrees.mp clock) ⟨parts, shown, ruled, spelled⟩
  · intro tidy
    constructor
    · intro clock
      exact (clock_numeral_cases clock).mpr tidy
    · exact clock_twoDigits_numeral

theorem time_accepted_iff_padded : (DiaryEntryInput.validate ⟨1, some (text "07:30"), none⟩ = .ok () ↔
    Clock TwoDigits (trim (text "07:30"))) ↔ ¬ Loose (trim (text "07:30")) :=
  @time_accepted_iff ⟨1, some (text "07:30"), none⟩ (text "07:30") rfl rfl (by decide)

/-- An hour in one digit is taken. -/
theorem one_digit_taken : ¬ ∀ (input : DiaryEntryInput) (t : Text), { input with time := none }.validate = .ok () →
    input.time = some t → trim t ≠ [] → (input.validate = .ok () ↔ Clock TwoDigits (trim t)) := by
  intro claimed
  have taken := (claimed ⟨1, some (text "7:30"), none⟩ (text "7:30") rfl rfl (by decide)).mp rfl
  have hour : Numeral (text "7") 24 := ⟨text "7", 7, .inl rfl, by decide, by decide⟩
  have minute : Numeral (text "30") 60 := ⟨text "30", 30, .inl rfl, by decide, by decide⟩
  have loose : Loose (trim (text "7:30")) :=
    ⟨[text "7", text "30"], rfl, .inl (.cons hour (.cons minute .nil)), text "7", List.mem_cons_self, .inl (by decide)⟩
  exact (clock_numeral_cases (clock_twoDigits_numeral taken)).mp taken loose

end Validation

end ClockTimes
