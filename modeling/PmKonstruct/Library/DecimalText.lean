import Mathlib.Data.Nat.Notation
import PmKonstruct.Library.PlainText

/- Decimal numerals of signed integers as text, and the checked parse of a 32-bit one. -/
namespace DecimalText
open PlainText

def decimal : Int → Text
  | .ofNat n => Nat.toDigits 10 n
  | .negSucc n => '-' :: Nat.toDigits 10 (n + 1)

def parseDigits (t : Text) : Option Nat :=
  if t ≠ [] ∧ t.all Char.isDigit then some (Nat.ofDigitChars 10 t 0) else none

def InI32 (n : Int) : Prop := -2147483648 ≤ n ∧ n ≤ 2147483647

instance (n : Int) : Decidable (InI32 n) := inferInstanceAs (Decidable (_ ∧ _))

def signedValue : Text → Option Int
  | '-' :: digits => (parseDigits digits).map fun n => -Int.ofNat n
  | '+' :: digits => (parseDigits digits).map Int.ofNat
  | digits => (parseDigits digits).map Int.ofNat

/-- An optional sign, at least one digit, and a value in range. -/
def parseI32 (t : Text) : Option Int := (signedValue t).filter fun n => InI32 n

/-- An unsigned parse takes a plus sign, and no minus sign. -/
def unsignedValue : Text → Option Nat
  | '+' :: digits => parseDigits digits
  | digits => parseDigits digits

def parseU32 (t : Text) : Option Nat := (unsignedValue t).filter fun n => n < 2 ^ 32

theorem length_decimal_le {n : Int} (within : InI32 n) : (decimal n).length ≤ 11 := by
  have digits : ∀ size : Nat, size < 10 ^ 10 → (Nat.toDigits 10 size).length ≤ 10 := fun size few =>
    (Nat.length_toDigits_le_iff (by decide) (by decide)).mpr few
  obtain ⟨least, most⟩ := within
  cases n with
  | ofNat size =>
    rw [Int.ofNat_eq_natCast] at most
    exact Nat.le_succ_of_le (digits size (by omega))
  | negSucc size =>
    rw [Int.negSucc_eq] at least
    exact Nat.succ_le_succ (digits (size + 1) (by omega))

theorem parseDigits_toDigits (n : Nat) : parseDigits (Nat.toDigits 10 n) = some n := by
  have digits : (Nat.toDigits 10 n).all Char.isDigit := by
    simp only [List.all_eq_true]
    exact fun c member => Nat.isDigit_of_mem_toDigits (by decide) (by decide) member
  simp [parseDigits, Nat.toDigits_ne_nil, digits, Nat.ofDigitChars_toDigits]

theorem parseDigits_eq_some {t : Text} {n : Nat} :
    parseDigits t = some n ↔ (t ≠ [] ∧ ∀ c ∈ t, c.isDigit = true) ∧ Nat.ofDigitChars 10 t 0 = n := by
  rw [parseDigits, Option.ite_none_right_eq_some, Option.some.injEq, List.all_eq_true]

theorem parseDigits_replicate {t : Text} {n : Nat} (parsed : parseDigits t = some n) (zeros : Nat) :
    parseDigits (List.replicate zeros '0' ++ t) = some n := by
  obtain ⟨⟨nonempty, digits⟩, value⟩ := parseDigits_eq_some.mp parsed
  refine parseDigits_eq_some.mpr ⟨⟨List.append_ne_nil_of_right_ne_nil _ nonempty, ?_⟩, ?_⟩
  · intro c member
    rcases List.mem_append.mp member with zero | digit
    · rw [List.eq_of_mem_replicate zero]
      rfl
    · exact digits c digit
  · rw [Nat.ofDigitChars_append, Nat.ofDigitChars_replicate_zero, Nat.mul_zero, value]

theorem unsigned_of_digits {t rest : Text} {c : Char} {n : Nat} (parsed : parseDigits t = some n) (shown : t = c :: rest) :
    c ≠ '-' ∧ c ≠ '+' := by
  have digit : c.isDigit = true := (parseDigits_eq_some.mp parsed).1.2 c (shown ▸ List.mem_cons_self)
  constructor
  · rintro rfl
    exact absurd digit (by decide)
  · rintro rfl
    exact absurd digit (by decide)

theorem signedValue_digits {t : Text} {n : Nat} (parsed : parseDigits t = some n) : signedValue t = some (n : Int) := by
  unfold signedValue
  split
  · exact absurd rfl (unsigned_of_digits parsed rfl).1
  · exact absurd rfl (unsigned_of_digits parsed rfl).2
  · rw [parsed]
    rfl

theorem unsignedValue_digits {t : Text} {n : Nat} (parsed : parseDigits t = some n) : unsignedValue t = some n := by
  unfold unsignedValue
  split
  · exact absurd rfl (unsigned_of_digits parsed rfl).2
  · exact parsed

theorem signedValue_decimal (n : Int) : signedValue (decimal n) = some n := by
  cases n with
  | ofNat n => exact signedValue_digits (parseDigits_toDigits n)
  | negSucc n =>
    simp only [decimal, signedValue, parseDigits_toDigits]
    rfl

theorem parseI32_decimal {n : Int} (bound : InI32 n) : parseI32 (decimal n) = some n := by
  simp [parseI32, signedValue_decimal, bound]

theorem parseI32_decimal_eq {n m : Int} (parsed : parseI32 (decimal n) = some m) : m = n := by
  simp only [parseI32, signedValue_decimal] at parsed
  exact (Option.some.inj (Option.filter_eq_some_iff.mp parsed).1).symm

/-- Only a minus sign makes a negative number. -/
theorem parseI32_nonneg {t : Text} {n : Int} (unsigned : '-' ∉ t) (parsed : parseI32 t = some n) : 0 ≤ n := by
  rw [parseI32, Option.filter_eq_some_iff] at parsed
  obtain ⟨value, -⟩ := parsed
  unfold signedValue at value
  split at value
  · exact absurd List.mem_cons_self unsigned
  · obtain ⟨m, -, rfl⟩ := Option.map_eq_some_iff.mp value
    exact Int.natCast_nonneg m
  · obtain ⟨m, -, rfl⟩ := Option.map_eq_some_iff.mp value
    exact Int.natCast_nonneg m

theorem parseI32_digits {t : Text} {n : Nat} (parsed : parseDigits t = some n) (bound : InI32 n) :
    parseI32 t = some (n : Int) := by
  rw [parseI32, signedValue_digits parsed, Option.filter_eq_some_iff]
  exact ⟨rfl, decide_eq_true bound⟩

theorem parseU32_digits {t : Text} {n : Nat} (parsed : parseDigits t = some n) (bound : n < 2 ^ 32) :
    parseU32 t = some n := by
  rw [parseU32, unsignedValue_digits parsed, Option.filter_eq_some_iff]
  exact ⟨rfl, decide_eq_true bound⟩

/-- An unsigned parse reads digits, of any count, after a plus sign or without one. -/
theorem parseU32_eq_some {t : Text} {n : Nat} : parseU32 t = some n ↔
    n < 2 ^ 32 ∧ ∃ digits, parseDigits digits = some n ∧ (t = digits ∨ t = '+' :: digits) := by
  constructor
  · intro parsed
    rw [parseU32, Option.filter_eq_some_iff, decide_eq_true_iff] at parsed
    obtain ⟨value, bound⟩ := parsed
    refine ⟨bound, ?_⟩
    unfold unsignedValue at value
    split at value
    · exact ⟨_, value, .inr rfl⟩
    · exact ⟨_, value, .inl rfl⟩
  · rintro ⟨bound, digits, value, rfl | rfl⟩
    · exact parseU32_digits value bound
    · rw [parseU32, Option.filter_eq_some_iff]
      exact ⟨value, decide_eq_true bound⟩

theorem decimal_injective {n m : Int} (same : decimal n = decimal m) : n = m := by
  have values := congrArg signedValue same
  rw [signedValue_decimal, signedValue_decimal] at values
  exact Option.some.inj values

theorem mem_decimal {n : Int} {c : Char} (member : c ∈ decimal n) : c = '-' ∨ c.isDigit = true := by
  cases n with
  | ofNat n => exact .inr (Nat.isDigit_of_mem_toDigits (by decide) (by decide) member)
  | negSucc n =>
    rcases List.mem_cons.mp member with rfl | digit
    · exact .inl rfl
    · exact .inr (Nat.isDigit_of_mem_toDigits (by decide) (by decide) digit)

end DecimalText
