import PmKonstruct.Forms.InspectionNote
import PmKonstruct.Library.TextSearch

/- The three places where an inspection's items are counted: the header of its note, the rows below the header and the
   flag of the note. -/
namespace InspectionCounts
open PlainText DecimalText DomainErrors CalendarDate TextSearch InspectionNote

/-- An item that is kept, and has a room, a description or a photo. -/
def counted (photos : Text → Nat) (item : InspectionItemInput) : Bool :=
  trim item.clientKey ≠ [] && (trim item.room ≠ [] || trim item.description ≠ [] || photos (trim item.clientKey) > 0)

def total (input : InspectionDraftInput) (photos : Text → Nat) : Nat := input.items.countP (counted photos)

def ticked (input : InspectionDraftInput) (photos : Text → Nat) : Nat :=
  input.items.countP fun i => i.actioned && counted photos i

def countsHeader (total actioned : Nat) : Text :=
  text "INSPECTION ITEMS (" ++ decimal total ++ text " total, " ++ decimal actioned ++ text " actioned):"

/-- The lines above the header. -/
def noteTop (input : InspectionDraftInput) (date : Date) : List Text :=
  let details := ([(text "👤 Inspector: ", trim input.inspector), (text "🏷 Type: ", trim input.inspectionType),
    (text "📍 Stage/Area: ", trim input.stage)].filter (·.2 ≠ [])).map fun (label, value) => label ++ value
  [text "📋 SITE INSPECTION", text "📅 " ++ isoDate date] ++
    (if details.isEmpty then [] else [join (text "  |  ") details]) ++ [[]]

/-- The lines below the rows, which say so when there are none. -/
def noteBottom (input : InspectionDraftInput) (total : Nat) : List Text :=
  (if total = 0 then [text "Draft started — no inspection items entered yet."] else []) ++
    if trim input.observations = [] then [] else [text "\n📝 OBSERVATIONS:\n" ++ trim input.observations]

section Counting
variable {input : InspectionDraftInput} {photos : Text → Nat} {date : Date}

theorem filledItems_retained : filledItems input.retained photos = input.items.filter (counted photos) := by
  rw [filledItems, InspectionDraftInput.retained, List.filter_filter]
  refine List.filter_congr fun item _ => ?_
  rw [counted, InspectionItemInput.hasContent, Bool.and_comm]

theorem filled_length : (filledItems input.retained photos).length = total input photos := by
  rw [filledItems_retained, total, List.countP_eq_length_filter]

theorem filled_ticked : ((filledItems input.retained photos).filter (·.actioned)).length = ticked input photos := by
  rw [filledItems_retained, List.filter_filter, ticked, List.countP_eq_length_filter]

theorem ticked_le_total : ticked input photos ≤ total input photos :=
  List.countP_mono_left fun _ _ both => (Bool.and_eq_true_iff.mp both).2

/-- Everything that is counted is ticked exactly when the counts are equal. -/
theorem outstanding_iff : (filledItems input.retained photos).any (!·.actioned) = true ↔
    ticked input photos < total input photos := by
  have split := List.length_eq_length_filter_add (l := filledItems input.retained photos) (·.actioned)
  rw [filled_length, filled_ticked] at split
  have outstanding : (filledItems input.retained photos).any (!·.actioned) = true ↔
      0 < ((filledItems input.retained photos).filter (!·.actioned)).length := by
    rw [List.any_eq_true, List.length_filter_pos_iff]
  rw [outstanding]
  omega

theorem filled_isEmpty : (filledItems input.retained photos).isEmpty = true ↔ total input photos = 0 := by
  rw [List.isEmpty_iff, ← List.length_eq_zero_iff, filled_length]

/-- The lines of the note, with a line for each row. -/
theorem note_lines : inspectionNote input date photos = join ['\n'] (noteTop input date ++
    countsHeader (total input photos) (ticked input photos) ::
      ((filledItems input.retained photos).mapIdx (itemLine photos) ++ noteBottom input (total input photos))) := by
  rw [← @filled_length input photos, ← @filled_ticked input photos]
  generalize items : filledItems input.retained photos = filled
  rw [inspectionNote, items]
  cases filled with
  | nil => simp [noteTop, noteBottom, countsHeader, List.append_assoc]
  | cons item others =>
    have rows : (item :: others).mapIdx (itemLine photos) ≠ [] := by simp
    have joined := @join_joined ['\n'] (noteTop input date ++ [countsHeader (item :: others).length
      ((item :: others).filter (·.actioned)).length]) _ (noteBottom input (item :: others).length) rows
    simpa [noteTop, noteBottom, countsHeader, List.append_assoc] using joined

end Counting

/-- The header of the note gives the two counts, the rows are the counted items, numbered from one in their order, and
    the flag follows from the counts. -/
theorem note_counts (input : InspectionDraftInput) (date : Date) (photos : Text → Nat) :
    (∃ rows, inspectionNote input date photos = join ['\n'] (noteTop input date ++
          countsHeader (total input photos) (ticked input photos) :: (rows ++ noteBottom input (total input photos))) ∧
        rows.length = total input photos ∧
        ∀ (index : Nat) item, (input.items.filter (counted photos))[index]? = some item → ∃ cells, rows[index]? =
          some ('#' :: (decimal (index + 1) ++ (text " | " ++ (nonBlank item.room ++ (text " | " ++
            (nonBlank item.description ++ cells))))))) ∧
    (inspectionActionStatus input.retained photos = none ↔ total input photos = 0) ∧
    (inspectionActionStatus input.retained photos = some .action ↔ ticked input photos < total input photos) ∧
    (inspectionActionStatus input.retained photos = some .completed ↔
      ticked input photos = total input photos ∧ 0 < total input photos) := by
  refine ⟨⟨_, note_lines, by rw [List.length_mapIdx, filled_length], ?_⟩, ?_⟩
  · intro index item here
    rw [List.getElem?_mapIdx, filledItems_retained, here, Option.map_some]
    simp only [itemLine, List.append_assoc]
    exact ⟨_, rfl⟩
  · have below := @ticked_le_total input photos
    rw [inspectionActionStatus]
    split
    · next empty =>
      have zero := filled_isEmpty.mp empty
      simp only [reduceCtorEq, false_iff, true_iff]
      omega
    · next nonempty =>
      have positive := mt filled_isEmpty.mpr nonempty
      split
      · next outstanding =>
        have fewer := outstanding_iff.mp outstanding
        simp only [reduceCtorEq, Option.some.injEq, false_iff, true_iff]
        omega
      · next done =>
        have all := mt outstanding_iff.mpr done
        simp only [reduceCtorEq, Option.some.injEq, false_iff, true_iff]
        omega

end InspectionCounts
