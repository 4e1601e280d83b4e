import PmKonstruct.Identity.RecoveryCodes

/- What becomes of a recovery code between the manager who reads it out and the comparison with its hash. The filter compares
   the alphabet with one byte of every character, so a character far outside the alphabet can be kept for its low byte. -/
namespace TypedCodes
open PlainText Accounts AuthService RecoveryCodes

/-- Upper-casing is ASCII's own on ASCII. -/
def UppercasesAscii (platform : Platform) : Prop := ∀ c : Char, c.toNat < 128 → platform.uppercase c = [c.toUpper]

/-- Some character of the upper-cased text is not in the alphabet, but its low byte is. -/
def Narrowed (platform : Platform) (raw : Text) : Prop :=
  ∃ c ∈ raw.flatMap platform.uppercase, c ∉ recoveryCodeAlphabet ∧ ∃ a ∈ recoveryCodeAlphabet, a.toNat = c.toNat % 256

/-- The code with its letters in any case, and characters among them that no case brings into the alphabet. -/
inductive Typed (platform : Platform) : Text → Text → Prop
  | done : Typed platform [] []
  | letter {x c : Char} {code typed : Text} : platform.uppercase c = [x] → Typed platform code typed →
      Typed platform (x :: code) (c :: typed)
  | inserted {c : Char} {code typed : Text} : (∀ x ∈ platform.uppercase c, x ∉ recoveryCodeAlphabet) →
      Typed platform code typed → Typed platform code (c :: typed)

theorem alphabet_ascii {c : Char} (member : c ∈ recoveryCodeAlphabet) :
    c.toNat < 128 ∧ c.toUpper = c ∧ c.toLower.toNat < 128 ∧ c.toLower.toUpper = c := by
  have all : recoveryCodeAlphabet.all (fun c => decide (c.toNat < 128 ∧ c.toUpper = c ∧ c.toLower.toNat < 128 ∧
      c.toLower.toUpper = c)) = true := by decide +kernel
  exact of_decide_eq_true (List.all_eq_true.mp all c member)

theorem recoveryCodeFrom_mem {bytes : List UInt8} {c : Char} (member : c ∈ recoveryCodeFrom bytes) :
    c ∈ recoveryCodeAlphabet := by
  obtain ⟨b, -, rfl⟩ := List.mem_map.mp member
  have bound : b.toNat % recoveryCodeAlphabet.length < recoveryCodeAlphabet.length := Nat.mod_lt _ (by decide)
  rw [List.getD_eq_getElem?_getD, List.getElem?_eq_getElem bound, Option.getD_some]
  exact List.getElem_mem bound

section Filter
variable {platform : Platform} {raw : Text} {c : Char}

theorem mem_normalise : c ∈ normaliseRecoveryCode platform raw ↔
    c ∈ raw.flatMap platform.uppercase ∧ ∃ a ∈ recoveryCodeAlphabet, a.toNat = c.toNat % 256 := by
  simp only [normaliseRecoveryCode, List.mem_filter, List.any_eq_true, decide_eq_true_eq]

theorem low_byte_mem (member : c ∈ recoveryCodeAlphabet) : ∃ a ∈ recoveryCodeAlphabet, a.toNat = c.toNat % 256 := by
  have ascii := (alphabet_ascii member).1
  exact ⟨c, member, by omega⟩

theorem within_alphabet_iff : (∀ c ∈ normaliseRecoveryCode platform raw, c ∈ recoveryCodeAlphabet) ↔
    ¬ Narrowed platform raw := by
  constructor
  · rintro within ⟨c, upper, outside, low⟩
    exact outside (within c (mem_normalise.mpr ⟨upper, low⟩))
  · intro unnarrowed c kept
    obtain ⟨upper, low⟩ := mem_normalise.mp kept
    by_contra outside
    exact unnarrowed ⟨c, upper, outside, low⟩

/-- Without such a character the filter keeps the alphabet's characters and no others. -/
theorem normalise_unnarrowed (unnarrowed : ¬ Narrowed platform raw) : normaliseRecoveryCode platform raw =
    (raw.flatMap platform.uppercase).filter fun c => recoveryCodeAlphabet.contains c := by
  refine List.filter_congr fun c upper => ?_
  rw [Bool.eq_iff_iff, List.contains_iff_mem, List.any_eq_true]
  simp only [decide_eq_true_eq]
  constructor
  · intro low
    by_contra outside
    exact unnarrowed ⟨c, upper, outside, low⟩
  · exact low_byte_mem

theorem letter_uppercase (ascii : UppercasesAscii platform) (member : c ∈ recoveryCodeAlphabet) :
    platform.uppercase c = [c] ∧ platform.uppercase c.toLower = [c] := by
  obtain ⟨small, upper, smallLower, upperLower⟩ := alphabet_ascii member
  exact ⟨(ascii c small).trans (by rw [upper]), (ascii _ smallLower).trans (by rw [upperLower])⟩

theorem uppercase_usable (ascii : UppercasesAscii platform) (usable : ∀ c ∈ raw, c ∈ recoveryCodeAlphabet) :
    raw.flatMap platform.uppercase = raw := by
  induction raw with
  | nil => rfl
  | cons c rest ih =>
    obtain ⟨first, others⟩ := List.forall_mem_cons.mp usable
    rw [List.flatMap_cons, (letter_uppercase ascii first).1, ih others, List.singleton_append]

theorem normalise_usable (ascii : UppercasesAscii platform) (usable : ∀ c ∈ raw, c ∈ recoveryCodeAlphabet) :
    normaliseRecoveryCode platform raw = raw := by
  have unnarrowed : ¬ Narrowed platform raw := by
    rintro ⟨c, upper, outside, -⟩
    rw [uppercase_usable ascii usable] at upper
    exact outside (usable c upper)
  rw [normalise_unnarrowed unnarrowed, uppercase_usable ascii usable]
  exact List.filter_eq_self.mpr fun c member => List.contains_iff_mem.mpr (usable c member)

end Filter

section Typing
variable {platform : Platform} {code typed : Text}

theorem typed_filter (relation : Typed platform code typed) (usable : ∀ c ∈ code, c ∈ recoveryCodeAlphabet) :
    (typed.flatMap platform.uppercase).filter (fun c => recoveryCodeAlphabet.contains c) = code := by
  induction relation with
  | done => rfl
  | letter upper rest ih =>
    obtain ⟨first, others⟩ := List.forall_mem_cons.mp usable
    rw [List.flatMap_cons, upper, List.singleton_append, List.filter_cons, if_pos (List.contains_iff_mem.mpr first),
      ih others]
  | inserted foreign rest ih =>
    rw [List.flatMap_cons, List.filter_append, ih usable, List.filter_eq_nil_iff.mpr, List.nil_append]
    intro x member kept
    exact foreign x member (List.contains_iff_mem.mp kept)

theorem typed_normalise_iff (relation : Typed platform code typed) (usable : ∀ c ∈ code, c ∈ recoveryCodeAlphabet) :
    normaliseRecoveryCode platform typed = code ↔ ¬ Narrowed platform typed := by
  constructor
  · intro same
    rw [← within_alphabet_iff, same]
    exact usable
  · intro unnarrowed
    rw [normalise_unnarrowed unnarrowed, typed_filter relation usable]

end Typing

/-- A submission comes out within the alphabet and stable, and a typed code comes back, exactly when nothing in it is
    narrowed into the alphabet. -/
theorem normalise_iff_unnarrowed {platform : Platform} (ascii : UppercasesAscii platform) :
    (∀ raw, ((∀ c ∈ normaliseRecoveryCode platform raw, c ∈ recoveryCodeAlphabet) ∧
        normaliseRecoveryCode platform (normaliseRecoveryCode platform raw) = normaliseRecoveryCode platform raw) ↔
      ¬ Narrowed platform raw) ∧
    ∀ bytes typed, Typed platform (recoveryCodeFrom bytes) typed →
      (normaliseRecoveryCode platform typed = recoveryCodeFrom bytes ↔ ¬ Narrowed platform typed) := by
  constructor
  · intro raw
    rw [← within_alphabet_iff]
    exact ⟨And.left, fun within => ⟨within, normalise_usable ascii within⟩⟩
  · intro bytes typed relation
    exact typed_normalise_iff relation fun c => recoveryCodeFrom_mem

theorem digestPlatform_ascii : UppercasesAscii digestPlatform := fun _ _ => rfl

theorem typed_sample : Typed digestPlatform (recoveryCodeFrom [0, 8, 9]) (text "2-a B") := by
  refine .letter rfl (.inserted ?_ (.letter rfl (.inserted ?_ (.letter rfl .done))))
  · exact fun x member => by cases List.mem_singleton.mp member; decide
  · exact fun x member => by cases List.mem_singleton.mp member; decide

theorem typed_sample_normalise : normaliseRecoveryCode digestPlatform (text "2-a B") = recoveryCodeFrom [0, 8, 9] ↔
    ¬ Narrowed digestPlatform (text "2-a B") :=
  (normalise_iff_unnarrowed digestPlatform_ascii).2 [0, 8, 9] (text "2-a B") typed_sample

/-- The Polish L with a stroke is no letter of the alphabet, and stays because its code point ends in the byte of an A. -/
theorem stroke_kept : ¬ ((∀ c ∈ normaliseRecoveryCode digestPlatform [Char.ofNat 0x141], c ∈ recoveryCodeAlphabet) ∧
      normaliseRecoveryCode digestPlatform (normaliseRecoveryCode digestPlatform [Char.ofNat 0x141]) =
        normaliseRecoveryCode digestPlatform [Char.ofNat 0x141]) ∧
    Typed digestPlatform (recoveryCodeFrom [0]) [Char.ofNat 0x141, '2'] ∧
    normaliseRecoveryCode digestPlatform [Char.ofNat 0x141, '2'] ≠ recoveryCodeFrom [0] := by
  refine ⟨?_, .inserted ?_ (.letter rfl .done), by decide +kernel⟩
  · rintro ⟨within, -⟩
    have outside : Char.ofNat 0x141 ∉ recoveryCodeAlphabet := by decide +kernel
    exact outside (within _ (by decide +kernel))
  · exact fun x member => by cases List.mem_singleton.mp member; decide +kernel

end TypedCodes
