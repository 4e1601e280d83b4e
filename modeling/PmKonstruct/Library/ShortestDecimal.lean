import PmKonstruct.Library.Binary64
import PmKonstruct.Library.DecimalText

/- The text of a binary64 number: the decimal with the fewest places that is read back as the same number, and of those
   the nearest. Of two that are equally near either might be shown, and the lower is taken here. Numbers from 2^53 on, whose
   last digits before the point are not their own, stay outside. -/
namespace ShortestDecimal
open PlainText Binary64

/-- The decimals around the number that have this many places, the nearer first, as far as they are read back as it. -/
def decimalWith (x : ℚ) (places : Nat) : Option Nat :=
  let low := ⌊x * 10 ^ places⌋₊
  let around := if x * 10 ^ places - low ≤ 1 / 2 then [low, low + 1] else [low + 1, low]
  around.find? fun digits => rounded (digits / 10 ^ places) = x

/-- No number of 53 binary digits has more than 1074 places. -/
def shortest (x : ℚ) : Option (Nat × Nat) :=
  (List.range 1075).findSome? fun places => (decimalWith x places).map fun digits => (digits, places)

def digitsShown (digits places : Nat) : Text := (Nat.toDigits 10 digits).leftpad (places + 1) '0'

/-- `digits / 10 ^ places`, with all of its places. -/
def fixed (digits places : Nat) : Text :=
  let shown := digitsShown digits places
  if places = 0 then shown
  else shown.take (shown.length - places) ++ '.' :: shown.drop (shown.length - places)

def display (x : ℚ) : Text := ((shortest x).map fun shown => fixed shown.1 shown.2).getD []

/- What is read back. -/

section Digits
variable {digits places other more : Nat} {c : Char}

theorem digitsShown_digit (member : c ∈ digitsShown digits places) : c.isDigit = true := by
  rw [digitsShown, List.leftpad] at member
  rcases List.mem_append.mp member with zero | digit
  · rw [List.eq_of_mem_replicate zero]
    rfl
  · exact Nat.isDigit_of_mem_toDigits (by decide) (by decide) digit

theorem digitsShown_value : Nat.ofDigitChars 10 (digitsShown digits places) 0 = digits := by
  rw [digitsShown, List.leftpad, Nat.ofDigitChars_append, Nat.ofDigitChars_replicate_zero, Nat.mul_zero,
    Nat.ofDigitChars_ten_toDigits]

theorem places_lt_length : places < (digitsShown digits places).length := by
  rw [digitsShown, List.length_leftpad]
  omega

theorem fixed_char (member : c ∈ fixed digits places) : c = '.' ∨ c.isDigit = true := by
  unfold fixed at member
  simp only at member
  split at member
  · exact .inr (digitsShown_digit member)
  · rcases List.mem_append.mp member with front | back
    · exact .inr (digitsShown_digit (List.mem_of_mem_take front))
    · rcases List.mem_cons.mp back with point | back
      · exact .inl point
      · exact .inr (digitsShown_digit (List.mem_of_mem_drop back))

theorem fixed_digits : (fixed digits places).filter Char.isDigit = digitsShown digits places := by
  have all : (digitsShown digits places).filter Char.isDigit = digitsShown digits places :=
    List.filter_eq_self.mpr fun c member => digitsShown_digit member
  unfold fixed
  simp only
  split
  · exact all
  · have point : Char.isDigit '.' = false := rfl
    rw [List.filter_append, List.filter_cons_of_neg (by rw [point]; exact Bool.false_ne_true), ← List.filter_append,
      List.take_append_drop, all]

theorem fixed_places : ((fixed digits places).dropWhile (· ≠ '.')).length = if places = 0 then 0 else places + 1 := by
  have plain : ∀ c ∈ digitsShown digits places, decide (c ≠ '.') = true := by
    intro c member
    refine decide_eq_true fun point => ?_
    have digit := digitsShown_digit member
    rw [point] at digit
    cases digit
  unfold fixed
  simp only
  split
  · rw [List.dropWhile_eq_nil_iff.mpr plain, List.length_nil]
  · have long := @places_lt_length digits places
    rw [List.dropWhile_append_of_pos fun c member => plain c (List.mem_of_mem_take member),
      List.dropWhile_cons_of_neg (by simp), List.length_cons, List.length_drop]
    omega

/-- The text tells the digits and how many of them are places. -/
theorem fixed_injective (same : fixed digits places = fixed other more) : digits = other ∧ places = more := by
  have tail := congrArg (fun t : Text => (t.dropWhile (· ≠ '.')).length) same
  simp only [fixed_places] at tail
  have shown := congrArg (fun t : Text => Nat.ofDigitChars 10 (t.filter Char.isDigit) 0) same
  simp only [fixed_digits, digitsShown_value] at shown
  refine ⟨shown, ?_⟩
  split at tail <;> split at tail <;> omega

end Digits

section Display
variable {x y : ℚ} {digits places : Nat}

theorem decimalWith_rounded (found : decimalWith x places = some digits) : rounded (digits / 10 ^ places) = x := by
  simpa using List.find?_some found

theorem shortest_rounded {shown : Nat × Nat} (found : shortest x = some shown) : rounded (shown.1 / 10 ^ shown.2) = x := by
  obtain ⟨places, -, among⟩ := List.exists_of_findSome?_eq_some found
  obtain ⟨digits, read, rfl⟩ := Option.map_eq_some_iff.mp among
  exact decimalWith_rounded read

theorem display_char {c : Char} (member : c ∈ display x) : c = '.' ∨ c.isDigit = true := by
  unfold display at member
  cases found : shortest x with
  | none => simp [found] at member
  | some shown =>
    rw [found] at member
    exact fixed_char member

/-- Numbers that are read back are told apart by their texts. -/
theorem display_injective (left : (shortest x).isSome = true) (right : (shortest y).isSome = true)
    (same : display x = display y) : x = y := by
  obtain ⟨shown, found⟩ := Option.isSome_iff_exists.mp left
  obtain ⟨other, also⟩ := Option.isSome_iff_exists.mp right
  rw [display, display, found, also] at same
  obtain ⟨digits, places⟩ := fixed_injective same
  rw [← shortest_rounded found, ← shortest_rounded also, digits, places]

/-- A decimal that is closer to the number than half a unit of its last place is one of the two around it. -/
theorem decimalWith_isSome (nonneg : 0 ≤ x) (near : |x * 10 ^ places - digits| < 1 / 2)
    (read : rounded (digits / 10 ^ places) = x) : (decimalWith x places).isSome = true := by
  obtain ⟨below, above⟩ := abs_lt.mp near
  have scaled : 0 ≤ x * 10 ^ places := by positivity
  have floor : ⌊x * 10 ^ places⌋₊ = digits ∨ ⌊x * 10 ^ places⌋₊ + 1 = digits := by
    have lower := Nat.floor_le scaled
    have upper := Nat.lt_floor_add_one (x * 10 ^ places)
    have least : ((⌊x * 10 ^ places⌋₊ : ℕ) : ℚ) < (digits + 1 : ℕ) := by push_cast; linarith
    have most : (digits : ℚ) < (⌊x * 10 ^ places⌋₊ + 2 : ℕ) := by push_cast; linarith
    have least := Nat.cast_lt.mp least
    have most := Nat.cast_lt.mp most
    omega
  unfold decimalWith
  rw [List.find?_isSome]
  refine ⟨digits, ?_, by simpa using read⟩
  rcases floor with low | high
  · split <;> simp [low]
  · split <;> simp [high]

theorem shortest_isSome (found : (decimalWith x places).isSome = true) (few : places < 1075) :
    (shortest x).isSome = true := by
  rw [shortest, List.findSome?_isSome_iff]
  exact ⟨places, List.mem_range.mpr few, by simpa using found⟩

end Display

end ShortestDecimal
