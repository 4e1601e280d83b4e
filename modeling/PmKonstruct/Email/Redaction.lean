import PmKonstruct.Forms.EtoNote

/- What leaves the company by email: the redaction of an extras-to-order note, followed from the writer of
   the note to the text the recipient reads. -/
namespace EmailRedaction
open PlainText DomainErrors EtoNote

def internalHeading : Text := text "INTERNAL REASON — DO NOT EMAIL OR SHARE"

def resumeHeading : Text := text "WHAT IS REQUIRED"

/-- The first line of a note: `ETO `, a nonblank number, an em dash, `EXTRA TO ORDER`. -/
def isEtoBanner (line : Text) : Bool :=
  match stripPrefix (text "ETO ") line with
  | none => false
  | some rest =>
    match splitOnce '—' rest with
    | none => false
    | some (number, tail) => trim number ≠ [] && (text "EXTRA TO ORDER").isPrefixOf (trimStart tail)

def isEtoNote (content : Text) : Bool := (lines content).any isEtoBanner

/-- The text from the first shareable heading on, or nothing when there is none. -/
def keptTail (after : Text) : Text :=
  match find resumeHeading after with
  | none => []
  | some offset => after.drop offset

def redactInternalEtoReason (content : Text) : Text :=
  if isEtoNote content then
    match find internalHeading content with
    | none => content
    | some start =>
      let kept := keptTail (content.drop (start + internalHeading.length))
      let out := trimEnd (content.take start)
      trim (if kept = [] then out else out ++ (text "\n\n" ++ kept))
  else content

/- Recognition of the note. -/

theorem banner_append_return (body : Text) : isEtoBanner (body ++ ['\r']) = isEtoBanner body := by
  have mark : '\r' ∉ text "ETO " := by decide
  have order : '\r' ∉ text "EXTRA TO ORDER" := by decide
  have same := isPrefixOf_append_separator mark body []
  unfold isEtoBanner stripPrefix
  rw [same]
  by_cases here : (text "ETO ").isPrefixOf body = true
  · have short := (List.isPrefixOf_iff_prefix.mp here).length_le
    simp only [here, if_true]
    rw [List.drop_append_of_le_length short, splitOnce_append (by decide)]
    cases splitOnce '—' (body.drop (text "ETO ").length) with
    | none => rfl
    | some parts =>
      obtain ⟨number, tail⟩ := parts
      simp only [Option.map_some, trimStart_append_isPrefixOf (show isWhitespace '\r' = true by decide) order]
  · simp [here]

theorem banner_ignores_return (line : Text) : isEtoBanner (stripReturn line) = isEtoBanner line := by
  unfold stripReturn
  split
  · next ends =>
    obtain ⟨body, rfl⟩ := List.getLast?_eq_some_iff.mp ends
    rw [List.dropLast_concat, banner_append_return]
  · rfl

theorem isEtoNote_append_newline (xs ys : Text) :
    isEtoNote (xs ++ '\n' :: ys) = (isEtoNote xs || isEtoNote ys) :=
  lines_any_append_newline (by decide) banner_ignores_return xs ys

section Note
variable {poNumber raisedBy : Text} {job : JobHeader} {jobId : JobId} {reason details : Text}

theorem isEtoNote_etoNote : isEtoNote (etoNote poNumber raisedBy job ⟨jobId, reason, details⟩) =
    (isEtoNote (noteHead poNumber raisedBy job) || isEtoNote (trim reason) || isEtoNote (trim details)) := by
  have heading : isEtoNote internalHeading = false := by decide
  have resume : isEtoNote resumeHeading = false := by decide
  have empty : isEtoNote [] = false := by decide
  have approval : isEtoNote (text "Manager approval required before sharing.") = false := by decide
  have blank (ys : Text) : isEtoNote ('\n' :: ys) = isEtoNote ys := by
    have := isEtoNote_append_newline [] ys
    rwa [List.nil_append, empty, Bool.false_or] at this
  rw [etoNote_sections, noteTail]
  change isEtoNote (_ ++ '\n' :: (internalHeading ++ '\n' :: (_ ++ '\n' :: '\n' ::
    (resumeHeading ++ '\n' :: (_ ++ '\n' :: '\n' :: _))))) = _
  simp only [isEtoNote_append_newline, blank, heading, resume, approval, Bool.false_or, Bool.or_false,
    Bool.or_assoc]

/- The text the recipient reads. -/

theorem keptTail_append_newline (xs ys : Text) : keptTail (xs ++ '\n' :: ys) =
    match find resumeHeading xs with
    | none => keptTail ys
    | some offset => xs.drop offset ++ '\n' :: ys := by
  unfold keptTail
  rw [find_append_separator (by decide) (by decide)]
  cases found : find resumeHeading xs with
  | none =>
    cases find resumeHeading ys with
    | none => rfl
    | some offset => simp [Nat.add_comm offset, ← List.drop_drop]
  | some offset =>
    have short := find_some_le found
    simp only [Option.some_or]
    exact List.drop_append_of_le_length (by omega)

theorem keptTail_newline (ys : Text) : keptTail ('\n' :: ys) = keptTail ys :=
  keptTail_append_newline [] ys

/-- The part of a reason that the redaction takes for shareable text. -/
def disclosedReason (reason : Text) : Text := keptTail (trim reason)

/-- The header itself contains the internal heading and, below it, the shareable one. -/
def HeadReveals (head : Text) : Prop :=
  ∃ start, find internalHeading head = some start ∧
    find resumeHeading (head.drop (start + internalHeading.length)) ≠ none

def openingText (head : Text) : Text :=
  match find internalHeading head with
  | none => head ++ ['\n']
  | some start => head.take start

def noteBody (reason details : Text) : Text := '\n' :: (trim reason ++ '\n' :: '\n' :: noteTail details)

def resumedText (head reason details : Text) : Text :=
  match find internalHeading head with
  | none => keptTail (noteBody reason details)
  | some start =>
    keptTail (head.drop (start + internalHeading.length) ++ '\n' :: (internalHeading ++ noteBody reason details))

theorem keptTail_noteTail : keptTail (noteTail details) = noteTail details := by
  have here : find resumeHeading (noteTail details) = some 0 := find_self_append
  simp [keptTail, here]

theorem keptTail_noteBody : keptTail (noteBody reason details) =
    if disclosedReason reason = [] then noteTail details
    else disclosedReason reason ++ '\n' :: '\n' :: noteTail details := by
  rw [noteBody, keptTail_newline, keptTail_append_newline, keptTail_newline, keptTail_noteTail]
  unfold disclosedReason keptTail
  cases found : find resumeHeading (trim reason) with
  | none => rfl
  | some offset =>
    have short := find_some_le found
    have nonempty : (trim reason).drop offset ≠ [] := by
      intro empty
      have := List.drop_eq_nil_iff.mp empty
      have positive : 0 < resumeHeading.length := by decide
      omega
    simp only [nonempty, if_false]

theorem keptTail_noteBody_inj {first second : Text} :
    keptTail (noteBody first details) = keptTail (noteBody second details) ↔
      disclosedReason first = disclosedReason second := by
  rw [keptTail_noteBody, keptTail_noteBody]
  constructor
  · intro same
    split at same <;> split at same
    · next left right => rw [left, right]
    · have := congrArg List.length same
      simp at this
      omega
    · have := congrArg List.length same
      simp at this
      omega
    · exact List.append_cancel_right same
  · intro same
    rw [same]

theorem resumedText_inj {head first second : Text} :
    resumedText head first details = resumedText head second details ↔
      trim first = trim second ∨ (¬ HeadReveals head ∧ disclosedReason first = disclosedReason second) := by
  have hidden (none : ∀ start, find internalHeading head = some start →
      find resumeHeading (head.drop (start + internalHeading.length)) = .none) : ¬ HeadReveals head := by
    rintro ⟨start, found, revealed⟩
    exact revealed (none start found)
  have trimmed : trim first = trim second → disclosedReason first = disclosedReason second :=
    fun same => congrArg keptTail same
  unfold resumedText
  cases found : find internalHeading head with
  | none =>
    have unrevealed := hidden (by simp [found])
    simp only [keptTail_noteBody_inj, unrevealed, not_false_eq_true, true_and]
    exact ⟨Or.inr, fun either => either.elim trimmed id⟩
  | some start =>
    simp only [keptTail_append_newline]
    cases below : find resumeHeading (head.drop (start + internalHeading.length)) with
    | none =>
      have unrevealed := hidden (by intro i same; rw [found] at same; cases same; exact below)
      have absent : find resumeHeading internalHeading = none := by decide
      have skip (reason : Text) : keptTail (internalHeading ++ noteBody reason details) =
          keptTail (noteBody reason details) := by
        rw [noteBody, keptTail_append_newline, absent, keptTail_newline]
      simp only [skip, keptTail_noteBody_inj, unrevealed, not_false_eq_true, true_and]
      exact ⟨Or.inr, fun either => either.elim trimmed id⟩
    | some offset =>
      have revealed : HeadReveals head := ⟨start, found, by simp [below]⟩
      simp only [revealed, not_true_eq_false, false_and, or_false, List.append_cancel_left_eq,
        List.cons.injEq, true_and, noteBody, List.append_cancel_right_eq]

theorem keptTail_edges (details xs : Text) : ∃ front rest,
    keptTail (xs ++ '\n' :: noteTail details) = 'W' :: rest ∧
    keptTail (xs ++ '\n' :: noteTail details) = front ++ ['.'] := by
  obtain ⟨body, ends⟩ : ∃ body, noteTail details = body ++ ['.'] :=
    ⟨resumeHeading ++ '\n' :: (trim details ++ '\n' :: '\n' :: text "Manager approval required before sharing"),
      by simp [noteTail, resumeHeading, text]⟩
  rw [keptTail_append_newline, keptTail_noteTail]
  cases found : find resumeHeading xs with
  | none => exact ⟨body, _, rfl, ends⟩
  | some offset =>
    obtain ⟨rest, shown⟩ := find_some_prefix found
    refine ⟨xs.drop offset ++ '\n' :: body, (resumeHeading ++ rest ++ '\n' :: noteTail details).tail, ?_, ?_⟩
    · simp only [← shown]
      rfl
    · simp [ends]

theorem resumedText_edges (head reason details : Text) : ∃ front rest,
    resumedText head reason details = 'W' :: rest ∧ resumedText head reason details = front ++ ['.'] := by
  unfold resumedText
  split
  · have edges := keptTail_edges details ('\n' :: (trim reason ++ ['\n']))
    simpa [noteBody] using edges
  · next start _ =>
    have edges := keptTail_edges details (head.drop (start + internalHeading.length) ++
      '\n' :: (internalHeading ++ ('\n' :: (trim reason ++ ['\n']))))
    simpa [noteBody] using edges

theorem openingText_edge (head : Text) : ∃ rest, trimEnd (openingText ('E' :: head)) = 'E' :: rest := by
  unfold openingText
  split
  · exact trimEnd_cons (by decide)
  · next start found =>
    cases start with
    | zero =>
      obtain ⟨rest, shown⟩ := find_some_prefix found
      have first : 'I' = 'E' := (List.cons.inj shown).1
      exact absurd first (by decide)
    | succ start => exact trimEnd_cons (by decide)

theorem noteHead_edge (poNumber raisedBy : Text) (job : JobHeader) :
    ∃ rest, noteHead poNumber raisedBy job = 'E' :: rest := ⟨_, rfl⟩

/-- Where the redactor cuts the note: at the first internal heading, the writer's own or one in the header. -/
theorem note_cut (head reason details : Text) : ∃ start,
    find internalHeading (head ++ '\n' :: (internalHeading ++ noteBody reason details)) = some start ∧
    (head ++ '\n' :: (internalHeading ++ noteBody reason details)).take start = openingText head ∧
    keptTail ((head ++ '\n' :: (internalHeading ++ noteBody reason details)).drop
      (start + internalHeading.length)) = resumedText head reason details := by
  rw [find_append_separator (by decide) (by decide), find_self_append]
  unfold openingText resumedText
  cases found : find internalHeading head with
  | none =>
    refine ⟨head.length + 1, by simp, ?_, ?_⟩
    · rw [List.take_append, List.take_of_length_le (by omega)]
      simp
    · rw [List.drop_append, List.drop_eq_nil_of_le (by omega),
        show head.length + 1 + internalHeading.length - head.length = internalHeading.length + 1 by omega]
      simp
  | some start =>
    have short := find_some_le found
    refine ⟨start, rfl, ?_, ?_⟩
    · exact List.take_append_of_le_length (by omega)
    · rw [List.drop_append_of_le_length short]

theorem redact_recognised (recognised : isEtoNote (etoNote poNumber raisedBy job ⟨jobId, reason, details⟩) = true) :
    redactInternalEtoReason (etoNote poNumber raisedBy job ⟨jobId, reason, details⟩) =
      trimEnd (openingText (noteHead poNumber raisedBy job)) ++
        (text "\n\n" ++ resumedText (noteHead poNumber raisedBy job) reason details) := by
  have sections : etoNote poNumber raisedBy job ⟨jobId, reason, details⟩ =
      noteHead poNumber raisedBy job ++ '\n' :: (internalHeading ++ noteBody reason details) :=
    etoNote_sections poNumber raisedBy job ⟨jobId, reason, details⟩
  obtain ⟨start, found, above, below⟩ := note_cut (noteHead poNumber raisedBy job) reason details
  obtain ⟨first, opened⟩ := noteHead_edge poNumber raisedBy job
  obtain ⟨opening, openingShape⟩ := openingText_edge first
  obtain ⟨front, rest, resumedStart, resumedEnd⟩ :=
    resumedText_edges (noteHead poNumber raisedBy job) reason details
  rw [← opened] at openingShape
  have starts : trimEnd (openingText (noteHead poNumber raisedBy job)) ++ (text "\n\n" ++
      resumedText (noteHead poNumber raisedBy job) reason details) =
      'E' :: (opening ++ (text "\n\n" ++ resumedText (noteHead poNumber raisedBy job) reason details)) := by
    rw [openingShape, List.cons_append]
  have ends : trimEnd (openingText (noteHead poNumber raisedBy job)) ++ (text "\n\n" ++
      resumedText (noteHead poNumber raisedBy job) reason details) =
      (trimEnd (openingText (noteHead poNumber raisedBy job)) ++ (text "\n\n" ++ front)) ++ ['.'] := by
    rw [resumedEnd]
    simp only [List.append_assoc]
  unfold redactInternalEtoReason
  rw [if_pos recognised, sections, found]
  simp only [above, below]
  rw [if_neg (by rw [resumedStart]; exact List.cons_ne_nil _ _)]
  exact trim_of_edges starts ends (by decide) (by decide)

theorem redact_unrecognised
    (unrecognised : ¬ isEtoNote (etoNote poNumber raisedBy job ⟨jobId, reason, details⟩) = true) :
    redactInternalEtoReason (etoNote poNumber raisedBy job ⟨jobId, reason, details⟩) =
      etoNote poNumber raisedBy job ⟨jobId, reason, details⟩ := by
  rw [redactInternalEtoReason, if_neg unrecognised]

/-- A redacted note continues with `WHAT` where an unredacted one continues with `INTERNAL`. -/
theorem redacted_ne_unredacted {first second : Text}
    (recognised : isEtoNote (etoNote poNumber raisedBy job ⟨jobId, first, details⟩) = true)
    (unrecognised : ¬ isEtoNote (etoNote poNumber raisedBy job ⟨jobId, second, details⟩) = true) :
    redactInternalEtoReason (etoNote poNumber raisedBy job ⟨jobId, first, details⟩) ≠
      redactInternalEtoReason (etoNote poNumber raisedBy job ⟨jobId, second, details⟩) := by
  rw [redact_recognised recognised, redact_unrecognised unrecognised]
  intro same
  have sections : etoNote poNumber raisedBy job ⟨jobId, second, details⟩ =
      noteHead poNumber raisedBy job ++ '\n' :: (internalHeading ++ noteBody second details) :=
    etoNote_sections poNumber raisedBy job ⟨jobId, second, details⟩
  obtain ⟨start, found, above, -⟩ := note_cut (noteHead poNumber raisedBy job) second details
  obtain ⟨more, continued⟩ := find_some_prefix found
  obtain ⟨spaces, split, blank⟩ := trimEnd_split (openingText (noteHead poNumber raisedBy job))
  obtain ⟨-, rest, resumed, -⟩ := resumedText_edges (noteHead poNumber raisedBy job) first details
  have cut : etoNote poNumber raisedBy job ⟨jobId, second, details⟩ =
      trimEnd (openingText (noteHead poNumber raisedBy job)) ++ (spaces ++ (internalHeading ++ more)) := by
    rw [← List.append_assoc, ← split, ← above, continued, List.take_append_drop, sections]
  rw [cut, resumed, List.append_cancel_left_eq] at same
  have letters : 'W' = 'I' := visible_after_spaces (by decide) blank (by decide) (by decide) same
  exact absurd letters (by decide)

end Note

/-- Some line of the header, the reason or the requirements reads as a banner. -/
def Recognised (head reason details : Text) : Prop :=
  isEtoNote head = true ∨ isEtoNote (trim reason) = true ∨ isEtoNote (trim details) = true

theorem etoNote_inj (poNumber raisedBy : Text) (job : JobHeader) (jobId : JobId) (first second details : Text) :
    etoNote poNumber raisedBy job ⟨jobId, first, details⟩ = etoNote poNumber raisedBy job ⟨jobId, second, details⟩ ↔
      trim first = trim second := by
  simp only [etoNote_sections, List.append_cancel_left_eq, List.cons.injEq, true_and,
    List.append_cancel_right_eq]

theorem isEtoNote_iff (poNumber raisedBy : Text) (job : JobHeader) (jobId : JobId) (reason details : Text) :
    isEtoNote (etoNote poNumber raisedBy job ⟨jobId, reason, details⟩) = true ↔
      Recognised (noteHead poNumber raisedBy job) reason details := by
  simp only [isEtoNote_etoNote, Bool.or_eq_true, Recognised, or_assoc]

theorem emailed_note_equal_iff (poNumber raisedBy : Text) (job : JobHeader) (jobId : JobId)
    (first second details : Text) :
    redactInternalEtoReason (etoNote poNumber raisedBy job ⟨jobId, first, details⟩) =
        redactInternalEtoReason (etoNote poNumber raisedBy job ⟨jobId, second, details⟩) ↔
      trim first = trim second ∨
      (Recognised (noteHead poNumber raisedBy job) first details ∧
        Recognised (noteHead poNumber raisedBy job) second details ∧
        ¬ HeadReveals (noteHead poNumber raisedBy job) ∧ disclosedReason first = disclosedReason second) := by
  rw [← isEtoNote_iff poNumber raisedBy job jobId first, ← isEtoNote_iff poNumber raisedBy job jobId second,
    ← etoNote_inj poNumber raisedBy job jobId first second details]
  by_cases left : isEtoNote (etoNote poNumber raisedBy job ⟨jobId, first, details⟩) = true
  · by_cases right : isEtoNote (etoNote poNumber raisedBy job ⟨jobId, second, details⟩) = true
    · rw [redact_recognised left, redact_recognised right]
      simp only [List.append_cancel_left_eq, resumedText_inj, etoNote_inj, left, right, true_and]
    · have different := redacted_ne_unredacted left right
      have distinct : etoNote poNumber raisedBy job ⟨jobId, first, details⟩ ≠
          etoNote poNumber raisedBy job ⟨jobId, second, details⟩ := by
        intro same
        exact right (same ▸ left)
      simp [different, distinct, right]
  · by_cases right : isEtoNote (etoNote poNumber raisedBy job ⟨jobId, second, details⟩) = true
    · have different := (redacted_ne_unredacted right left).symm
      have distinct : etoNote poNumber raisedBy job ⟨jobId, first, details⟩ ≠
          etoNote poNumber raisedBy job ⟨jobId, second, details⟩ := by
        intro same
        exact left (same ▸ right)
      simp [different, distinct, left]
    · rw [redact_unrecognised left, redact_unrecognised right]
      simp [left]

theorem emailed_note_reveals_reason : ¬ ∀ (poNumber raisedBy : Text) (job : JobHeader) (jobId : JobId)
    (first second details : Text), EtoInput.validate ⟨jobId, first, details⟩ = .ok () →
    EtoInput.validate ⟨jobId, second, details⟩ = .ok () →
    redactInternalEtoReason (etoNote poNumber raisedBy job ⟨jobId, first, details⟩) =
      redactInternalEtoReason (etoNote poNumber raisedBy job ⟨jobId, second, details⟩) := by
  intro hidden
  have same := hidden (text "J-100-01") (text "Sarah") ⟨text "J-100", text "Smith", []⟩ 1
    (text "Client was told. WHAT IS REQUIRED is margin") (text "Client was told.") (text "Extra waterproofing")
    (by decide) (by decide)
  exact absurd same (by decide +kernel)

end EmailRedaction
