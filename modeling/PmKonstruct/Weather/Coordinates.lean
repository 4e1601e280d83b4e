import PmKonstruct.Domain.Errors
import PmKonstruct.Library.DelimitedFields
import PmKonstruct.Library.ShortestDecimal

/- A place on Earth, rounded to about a kilometre. The rounded pair is what goes upstream, and its text is the key of the
   cache. -/
namespace Weather
open PlainText DomainErrors Binary64 ShortestDecimal DelimitedFields

/-- A finite number of 64 bits: a sign, which zero has as well, and a size. -/
structure Number where
  negative : Bool
  size : ℚ
  nonneg : 0 ≤ size
  deriving DecidableEq

/-- Half goes away from zero. -/
def roundHalfAway (size : ℚ) : Nat := ⌊size + 1 / 2⌋₊

def round2dp (v : Number) : Number where
  negative := v.negative
  size := rounded (roundHalfAway (rounded (v.size * 100)) / 100)
  nonneg := rounded_nonneg (by positivity)

def displayNumber (v : Number) : Text := (if v.negative then ['-'] else []) ++ display v.size

/- The hundredths of a rounded number. -/

section Hundredths
variable {n m : Nat} {v w : Number}

theorem hundredths_near (few : n ≤ 18000) : |rounded (n / 100) * 100 - n| ≤ 1 / 4 := by
  have most : (n : ℚ) ≤ 18000 := by exact_mod_cast few
  have nonneg : (0 : ℚ) ≤ n := Nat.cast_nonneg n
  have small : |(n : ℚ) / 100| < 2 ^ (8 : ℤ) := by
    rw [abs_of_nonneg (by positivity)]
    norm_num
    linarith
  have near := abs_rounded_sub_le_of_lt (k := 8) (by norm_num) small
  have unit : (2 : ℚ) ^ ((8 : ℤ) - 54) ≤ 1 / 400 := by norm_num
  obtain ⟨below, above⟩ := abs_le.mp near
  rw [abs_le]
  constructor <;> linarith

theorem round_hundredths (few : n ≤ 18000) : roundHalfAway (rounded (rounded (n / 100) * 100)) = n := by
  have most : (n : ℚ) ≤ 18000 := by exact_mod_cast few
  have nonneg : (0 : ℚ) ≤ n := Nat.cast_nonneg n
  obtain ⟨below, above⟩ := abs_le.mp (hundredths_near few)
  have small : |rounded (n / 100) * 100| < 2 ^ (15 : ℤ) := by
    rw [abs_lt]
    norm_num
    constructor <;> linarith
  obtain ⟨below', above'⟩ := abs_le.mp (abs_rounded_sub_le_of_lt (k := 15) (by norm_num) small)
  have unit : (2 : ℚ) ^ ((15 : ℤ) - 54) ≤ 1 / 8 := by norm_num
  have least : 0 ≤ rounded (rounded (n / 100) * 100) + 1 / 2 := by linarith
  rw [roundHalfAway, Nat.floor_eq_iff least]
  constructor <;> linarith

theorem roundHalfAway_le (bound : v.size ≤ m) (few : m ≤ 180) : roundHalfAway (rounded (v.size * 100)) ≤ m * 100 := by
  have fits : |((m * 100 : ℕ) : ℤ)| < 2 ^ 53 := by
    rw [abs_of_nonneg (by positivity)]
    norm_num
    omega
  have whole : rounded ((m * 100 : ℕ) : ℚ) = (m * 100 : ℕ) := by exact_mod_cast rounded_intCast fits
  have least : rounded (v.size * 100) ≤ (m * 100 : ℕ) := by
    rw [← whole]
    apply rounded_mono
    push_cast
    linarith
  have nonneg : 0 ≤ rounded (v.size * 100) := rounded_nonneg (by have := v.nonneg; positivity)
  have above : ⌊rounded (v.size * 100) + 1 / 2⌋₊ < m * 100 + 1 := by
    rw [Nat.floor_lt (by positivity)]
    push_cast at least ⊢
    linarith
  exact Nat.le_of_lt_succ above

theorem round2dp_le (bound : v.size ≤ m) (few : m ≤ 180) : (round2dp v).size ≤ m := by
  have fits : |((m : ℕ) : ℤ)| < 2 ^ 53 := by
    rw [abs_of_nonneg (by positivity)]
    norm_num
    omega
  have whole : rounded (m : ℚ) = m := by exact_mod_cast rounded_intCast fits
  have most : ((roundHalfAway (rounded (v.size * 100)) : ℕ) : ℚ) ≤ (m * 100 : ℕ) :=
    Nat.cast_le.mpr (roundHalfAway_le bound few)
  rw [← whole]
  apply rounded_mono
  push_cast at most
  linarith

/-- What has two places is its own rounding. -/
theorem round2dp_round2dp (bound : v.size ≤ 180) : round2dp (round2dp v) = round2dp v := by
  have few := roundHalfAway_le (m := 180) (by exact_mod_cast bound) (Nat.le_refl _)
  have same := round_hundredths few
  unfold round2dp
  simp only [same]

theorem shortest_round2dp (bound : v.size ≤ 180) : (shortest (round2dp v).size).isSome = true := by
  have few := roundHalfAway_le (m := 180) (by exact_mod_cast bound) (Nat.le_refl _)
  have near := hundredths_near few
  have square : (10 : ℚ) ^ 2 = 100 := by norm_num
  have read : rounded (roundHalfAway (rounded (v.size * 100)) / 10 ^ 2) = (round2dp v).size := by
    rw [square]
    rfl
  refine shortest_isSome (decimalWith_isSome (round2dp v).nonneg ?_ read) (by norm_num)
  rw [square]
  exact lt_of_le_of_lt near (by norm_num)

theorem displayNumber_char {c : Char} (member : c ∈ displayNumber v) : c = '-' ∨ c = '.' ∨ c.isDigit = true := by
  rcases List.mem_append.mp member with sign | shown
  · split at sign
    · exact .inl (List.mem_singleton.mp sign)
    · cases sign
  · exact .inr (display_char shown)

theorem displayNumber_injective (left : (shortest v.size).isSome = true) (right : (shortest w.size).isSome = true)
    (same : displayNumber v = displayNumber w) : v = w := by
  have unsigned : ∀ u : ℚ, '-' ∉ display u := by
    intro u member
    rcases display_char member with point | digit
    · cases point
    · cases digit
  have signs : v.negative = w.negative := by
    have marked : ∀ u : Number, '-' ∈ displayNumber u ↔ u.negative = true := by
      intro u
      cases sign : u.negative <;> simp [displayNumber, sign, unsigned]
    exact Bool.eq_iff_iff.mpr ((marked v).symm.trans (by rw [same]; exact marked w))
  rw [displayNumber, displayNumber, signs] at same
  have sizes := display_injective left right (List.append_cancel_left same)
  cases v
  cases w
  cases signs
  cases sizes
  rfl

end Hundredths

/- The pair. -/

structure Coordinates where
  lat : Number
  lon : Number
  latWithin : lat.size ≤ 90
  lonWithin : lon.size ≤ 180
  deriving DecidableEq

namespace Coordinates

/-- Only finite numbers are parsed, so no test for other ones is needed. -/
def new (lat lon : Number) : Except DomainError Coordinates :=
  if latWithin : lat.size ≤ 90 then
    if lonWithin : lon.size ≤ 180 then .ok ⟨lat, lon, latWithin, lonWithin⟩
    else .error (.invalid "lon" "must be a number between -180 and 180")
  else .error (.invalid "lat" "must be a number between -90 and 90")

/-- About a kilometre. -/
def rounded (c : Coordinates) : Coordinates where
  lat := round2dp c.lat
  lon := round2dp c.lon
  latWithin := round2dp_le (m := 90) (by exact_mod_cast c.latWithin) (by norm_num)
  lonWithin := round2dp_le (m := 180) (by exact_mod_cast c.lonWithin) (by norm_num)

def cacheKey (c : Coordinates) : Text :=
  let r := c.rounded
  displayNumber r.lat ++ ',' :: displayNumber r.lon

theorem latBelow (c : Coordinates) : c.lat.size ≤ 180 := le_trans c.latWithin (by norm_num)

@[simp] theorem rounded_rounded (c : Coordinates) : c.rounded.rounded = c.rounded := by
  unfold rounded
  simp only [round2dp_round2dp c.latBelow, round2dp_round2dp c.lonWithin]

theorem new_eq (c : Coordinates) : new c.lat c.lon = .ok c := by
  rw [new, dif_pos c.latWithin, dif_pos c.lonWithin]

/-- One key is one rounded pair. -/
theorem cacheKey_eq_iff {a b : Coordinates} : a.cacheKey = b.cacheKey ↔ a.rounded = b.rounded := by
  constructor
  · intro same
    have plain : ∀ v : Number, ',' ∉ displayNumber v := by
      intro v member
      rcases displayNumber_char member with sign | point | digit
      · cases sign
      · cases point
      · cases digit
    obtain ⟨lats, lons⟩ := before_mark (plain _) (plain _) same
    have lat := displayNumber_injective (shortest_round2dp a.latBelow) (shortest_round2dp b.latBelow) lats
    have lon := displayNumber_injective (shortest_round2dp a.lonWithin) (shortest_round2dp b.lonWithin) lons
    cases a
    cases b
    simp only [rounded, mk.injEq]
    exact ⟨lat, lon⟩
  · intro same
    rw [cacheKey, cacheKey, same]

end Coordinates

end Weather
