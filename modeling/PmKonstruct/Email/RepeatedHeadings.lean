import PmKonstruct.Email.Redaction
import PmKonstruct.Library.TextSearch

/- Redaction of notes that people have edited: one pass takes out what stands between the first internal heading and the
   next shareable one, and whatever comes after that is kept as it is. -/
namespace RepeatedHeadings
open PlainText DomainErrors TextSearch EtoNote EmailRedaction

/-- An internal heading stands below a shareable heading that stands below an internal heading. -/
def Resurfaces (content : Text) : Prop :=
  ∃ a b c d, content = a ++ (internalHeading ++ (b ++ (resumeHeading ++ (c ++ (internalHeading ++ d)))))

theorem heading_infix_trim {t : Text} : internalHeading <:+: trim t ↔ internalHeading <:+: t :=
  infix_trim (show internalHeading = 'I' :: text "NTERNAL REASON — DO NOT EMAIL OR SHARE" by decide +kernel)
    (show internalHeading = text "INTERNAL REASON — DO NOT EMAIL OR SHAR" ++ ['E'] by decide +kernel) (by decide) (by decide)

theorem heading_newline {xs ys : Text} :
    internalHeading <:+: xs ++ '\n' :: ys ↔ internalHeading <:+: xs ∨ internalHeading <:+: ys :=
  infix_append_separator (by decide) (by decide)

/-- The shareable heading holds no letter pair that an internal heading could begin in. -/
theorem heading_after_resume {rest : Text} :
    internalHeading <:+: resumeHeading ++ rest ↔ internalHeading <:+: rest := by
  have apart : resumeHeading ++ rest = text "WHAT IS REQ" ++ 'U' :: (text "IRED" ++ rest) := rfl
  have front : find internalHeading (text "WHAT IS REQ") = none := by decide
  have back : find internalHeading (text "IRED" ++ rest) = (find internalHeading rest).map (· + 4) := by
    have second : find internalHeading (text "RED" ++ rest) = (find internalHeading rest).map (· + 3) :=
      find_append_of_not_head (by decide)
    rw [show text "IRED" ++ rest = 'I' :: (text "RED" ++ rest) from rfl, find, second, Option.map_map]
    rfl
  rw [← not_iff_not, ← find_eq_none_iff (by decide), apart, find_append_separator (by decide) (by decide), front, back,
    Option.none_or, Option.map_map, Option.map_eq_none_iff, find_eq_none_iff (by decide)]

theorem keptTail_heading_iff {after : Text} : internalHeading <:+: keptTail after ↔
    ∃ b c d, after = b ++ (resumeHeading ++ (c ++ (internalHeading ++ d))) := by
  constructor
  · intro inside
    unfold keptTail at inside
    cases found : find resumeHeading after with
    | none =>
      rw [found] at inside
      exact absurd (List.infix_nil.mp inside) (by decide)
    | some k =>
      rw [found] at inside
      dsimp only at inside
      rw [find_drop found, heading_after_resume] at inside
      obtain ⟨c, d, shown⟩ := inside
      exact ⟨after.take k, c, d, by rw [← List.append_assoc c, shown, ← find_split found]⟩
  · rintro ⟨b, c, d, rfl⟩
    have there : resumeHeading <:+: b ++ (resumeHeading ++ (c ++ (internalHeading ++ d))) :=
      ⟨b, _, List.append_assoc ..⟩
    cases found : find resumeHeading (b ++ (resumeHeading ++ (c ++ (internalHeading ++ d)))) with
    | none => exact absurd there ((find_eq_none_iff (by decide)).mp found)
    | some k =>
      have left := find_leftmost found rfl
      unfold keptTail
      rw [found]
      dsimp only
      rw [List.drop_append_of_le_length left]
      exact ⟨b.drop k ++ (resumeHeading ++ c), d, by simp only [List.append_assoc]⟩

section Found
variable {content : Text} {start : Nat}

theorem resurfaces_iff (found : find internalHeading content = some start) : Resurfaces content ↔
    internalHeading <:+: keptTail (content.drop (start + internalHeading.length)) := by
  rw [keptTail_heading_iff]
  constructor
  · rintro ⟨a, b, c, d, split⟩
    have left := find_leftmost found split
    refine ⟨(a ++ (internalHeading ++ b)).drop (start + internalHeading.length), c, d, ?_⟩
    have within : start + internalHeading.length ≤ (a ++ (internalHeading ++ b)).length := by
      simp only [List.length_append]
      omega
    rw [← List.drop_append_of_le_length within, split]
    simp only [List.append_assoc]
  · rintro ⟨b, c, d, below⟩
    exact ⟨content.take start, b, c, d, by rw [← below, ← find_split found]⟩

/-- What comes out holds an internal heading exactly when the kept text does. -/
theorem redacted_heading_iff (recognised : isEtoNote content = true)
    (found : find internalHeading content = some start) :
    internalHeading <:+: redactInternalEtoReason content ↔ Resurfaces content := by
  have opening : ¬ internalHeading <:+: trimEnd (content.take start) := by
    intro inside
    obtain ⟨spaces, split, -⟩ := trimEnd_split (content.take start)
    exact not_infix_before (by decide) found (split ▸ inside.trans (List.prefix_append _ _).isInfix)
  rw [resurfaces_iff found, redactInternalEtoReason, if_pos recognised, found]
  dsimp only
  rw [heading_infix_trim]
  split
  · next empty =>
    rw [empty, List.infix_nil]
    exact iff_of_false opening (by decide)
  · rw [show text "\n\n" = '\n' :: ['\n'] from rfl, List.cons_append, List.singleton_append, heading_newline,
      ← List.nil_append ('\n' :: keptTail _), heading_newline, List.infix_nil]
    exact ⟨fun inside => (inside.resolve_left opening).resolve_left (by decide), fun inside => .inr (.inr inside)⟩

end Found

theorem redact_without_heading {content : Text} (absent : ¬ internalHeading <:+: content) :
    redactInternalEtoReason content = content := by
  have missing := (find_eq_none_iff (by decide)).mpr absent
  rw [redactInternalEtoReason, missing]
  split <;> rfl

/-- Redaction leaves no internal heading, and nothing for a second redaction, exactly when none resurfaces. -/
theorem redacted_clean_iff (content : Text) :
    (isEtoNote content = true →
      ((¬ internalHeading <:+: redactInternalEtoReason content ∧
          redactInternalEtoReason (redactInternalEtoReason content) = redactInternalEtoReason content) ↔
        ¬ Resurfaces content)) ∧
    (¬ isEtoNote content = true → redactInternalEtoReason content = content) := by
  refine ⟨fun recognised => ?_, fun unrecognised => if_neg unrecognised⟩
  have clean : ¬ internalHeading <:+: redactInternalEtoReason content ↔ ¬ Resurfaces content := by
    cases found : find internalHeading content with
    | none =>
      have absent := (find_eq_none_iff (by decide)).mp found
      rw [redact_without_heading absent]
      refine iff_of_true absent ?_
      rintro ⟨a, b, c, d, split⟩
      exact absent ⟨a, _, (List.append_assoc ..).trans split.symm⟩
    | some start => exact not_congr (redacted_heading_iff recognised found)
  rw [← clean]
  exact ⟨And.left, fun absent => ⟨absent, redact_without_heading absent⟩⟩

/-- A note with a second internal section, as an edit can leave it. -/
def editedNote : Text :=
  text "ETO J-1-01 — EXTRA TO ORDER\n\nINTERNAL REASON — DO NOT EMAIL OR SHARE\nfirst\n\nWHAT IS REQUIRED\nNew tiles\n\n" ++
    text "INTERNAL REASON — DO NOT EMAIL OR SHARE\nsecond"

theorem second_reason_kept : isEtoNote editedNote = true ∧
    internalHeading <:+: redactInternalEtoReason editedNote ∧
    redactInternalEtoReason (redactInternalEtoReason editedNote) ≠ redactInternalEtoReason editedNote := by
  have kept : redactInternalEtoReason editedNote =
      text "ETO J-1-01 — EXTRA TO ORDER\n\nWHAT IS REQUIRED\nNew tiles\n\n" ++ (internalHeading ++ text "\nsecond") := by
    decide +kernel
  refine ⟨by decide +kernel, ⟨_, _, (List.append_assoc ..).trans kept.symm⟩, by decide +kernel⟩

end RepeatedHeadings
