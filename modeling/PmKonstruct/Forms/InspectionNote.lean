import PmKonstruct.Domain.Errors
import PmKonstruct.Library.CalendarDate

/- The property inspection: the checklist a client saves, and the body of the diary note written from it. A
   rendering asks for the photos of an item by the key its client gave it. -/
namespace InspectionNote
open PlainText DecimalText DomainErrors CalendarDate

structure InspectionItemInput where
  clientKey : Text
  room : Text
  description : Text
  actioned : Bool
  sortOrder : Option Int
  deriving DecidableEq, Repr

/-- A blank row is ignored, not refused: the client keeps one at the bottom of the list. -/
def InspectionItemInput.hasContent (item : InspectionItemInput) (photos : Nat) : Bool :=
  trim item.room ≠ [] || trim item.description ≠ [] || photos > 0

structure InspectionDraftInput where
  inspector : Text
  inspectionType : Text
  stage : Text
  observations : Text
  weatherData : Option Text
  revision : Int
  items : List InspectionItemInput
  deriving DecidableEq, Repr

def keyProblem (item : InspectionItemInput) : Option DomainError :=
  if trim item.clientKey = [] then some (.invalid "items.clientKey" "every inspection item needs a client key")
  else if item.clientKey.length > 100 then some (.invalid "items.clientKey" "must be 100 characters or fewer")
  else none

def InspectionDraftInput.validate (input : InspectionDraftInput) : Except DomainError Unit :=
  if input.revision < 0 then .error (.invalid "revision" "a valid inspection revision is required")
  else
    match input.items.findSome? keyProblem with
    | some problem => .error problem
    | none =>
      if (input.items.map fun i => trim i.clientKey).Nodup then .ok ()
      else .error (.invalid "items.clientKey" "inspection items must have distinct client keys")

/-- Items with a key that is not blank, in the order the client sent them. -/
def InspectionDraftInput.retained (input : InspectionDraftInput) : List InspectionItemInput :=
  input.items.filter fun i => trim i.clientKey ≠ []

inductive ActionStatus where
  | action
  | completed
  deriving DecidableEq, Repr

def filledItems (items : List InspectionItemInput) (photos : Text → Nat) : List InspectionItemInput :=
  items.filter fun i => i.hasContent (photos (trim i.clientKey))

/-- A draft nobody has typed into carries no action at all. -/
def inspectionActionStatus (items : List InspectionItemInput) (photos : Text → Nat) : Option ActionStatus :=
  let filled := filledItems items photos
  if filled.isEmpty then none
  else if filled.any (!·.actioned) then some .action
  else some .completed

def inspectionEntrySummary (inspectionType stage : Text) : Text :=
  text "Site Inspection" ++
    (([trim inspectionType, trim stage].filter (· ≠ [])).map fun part => text " — " ++ part).flatten

/-- An em dash stands in for an empty cell. -/
def nonBlank (s : Text) : Text := if trim s = [] then text "—" else trim s

def itemLine (photos : Text → Nat) (index : Nat) (item : InspectionItemInput) : Text :=
  let count := photos (trim item.clientKey)
  let photoText := if count > 0 then text " [" ++ decimal count ++ text " photo(s)]" else []
  let state := if item.actioned then text "✅ Actioned" else text "⬜ Pending"
  '#' :: (decimal (index + 1) ++ text " | " ++ nonBlank item.room ++ text " | " ++ nonBlank item.description ++
    photoText ++ text " | " ++ state)

def inspectionNote (input : InspectionDraftInput) (inspectionDate : Date) (photos : Text → Nat) : Text :=
  let filled := filledItems input.retained photos
  let itemLines := filled.mapIdx (itemLine photos)
  let details := ([(text "👤 Inspector: ", trim input.inspector), (text "🏷 Type: ", trim input.inspectionType),
    (text "📍 Stage/Area: ", trim input.stage)].filter (·.2 ≠ [])).map fun (label, value) => label ++ value
  let actioned := (filled.filter (·.actioned)).length
  let observations := trim input.observations
  join ['\n'] (
    [text "📋 SITE INSPECTION", text "📅 " ++ isoDate inspectionDate] ++
    (if details.isEmpty then [] else [join (text "  |  ") details]) ++
    [[], text "INSPECTION ITEMS (" ++ decimal filled.length ++ text " total, " ++ decimal actioned ++
        text " actioned):",
      if itemLines.isEmpty then text "Draft started — no inspection items entered yet." else join ['\n'] itemLines] ++
    if observations = [] then [] else [text "\n📝 OBSERVATIONS:\n" ++ observations])

/- What a rendering reads of an item. -/

/-- The key is trimmed wherever it is read, and the place in the list is never read. -/
def shown (item : InspectionItemInput) : InspectionItemInput :=
  { item with
    clientKey := trim item.clientKey
    sortOrder := none }

section Renderings
variable {item other : InspectionItemInput} {items others : List InspectionItemInput} {photos counts : Text → Nat}

theorem hasContent_shown {n : Nat} : (shown item).hasContent n = item.hasContent n := rfl

theorem itemLine_shown {index : Nat} : itemLine photos index (shown item) = itemLine photos index item := by
  simp only [itemLine, shown, trim_trim]
  rfl

theorem filledItems_shown : filledItems (items.map shown) photos = (filledItems items photos).map shown := by
  simp only [filledItems, List.filter_map, Function.comp_def, hasContent_shown]
  simp only [shown, trim_trim]

/-- Two lists that show the same fill the same items, under counts that agree on their keys. -/
theorem filledItems_same (same : items.map shown = others.map shown)
    (agree : ∀ item ∈ items, photos (trim item.clientKey) = counts (trim item.clientKey)) :
    (filledItems items photos).map shown = (filledItems others counts).map shown := by
  have counted : filledItems items photos = filledItems items counts :=
    List.filter_congr fun item member => by rw [agree item member]
  rw [counted, ← filledItems_shown, ← filledItems_shown, same]

theorem actionStatus_of_filled (same : (filledItems items photos).map shown = (filledItems others counts).map shown) :
    inspectionActionStatus items photos = inspectionActionStatus others counts := by
  have ignores (list : List InspectionItemInput) : (list.map shown).any (!·.actioned) = list.any (!·.actioned) := by
    rw [List.any_map]
    rfl
  have empty : (filledItems items photos).isEmpty = (filledItems others counts).isEmpty := by
    rw [← @List.isEmpty_map _ _ (filledItems items photos) shown, same, List.isEmpty_map]
  have outstanding : (filledItems items photos).any (!·.actioned) = (filledItems others counts).any (!·.actioned) := by
    rw [← ignores, same, ignores]
  simp only [inspectionActionStatus, empty, outstanding]

theorem itemLines_of_filled (same : items.map shown = others.map shown)
    (agree : ∀ item ∈ items, photos (trim item.clientKey) = counts (trim item.clientKey)) :
    items.mapIdx (itemLine photos) = others.mapIdx (itemLine counts) := by
  apply List.ext_getElem?
  intro index
  rw [List.getElem?_mapIdx, List.getElem?_mapIdx]
  have here := congrArg (·[index]?) same
  simp only [List.getElem?_map] at here
  cases left : items[index]? with
  | none =>
    rw [left] at here
    rw [Option.map_eq_none_iff.mp here.symm]
    rfl
  | some item =>
    rw [left] at here
    obtain ⟨other, right, alike⟩ := Option.map_eq_some_iff.mp here.symm
    have counted : itemLine photos index item = itemLine counts index item := by
      simp only [itemLine, agree item (List.mem_of_getElem? left)]
    rw [right, Option.map_some, Option.map_some, counted, ← itemLine_shown, ← alike, itemLine_shown]

/-- Two drafts that show the same are written the same. -/
theorem inspectionNote_of_shown {stored input : InspectionDraftInput} {date : Date}
    (inspector : stored.inspector = input.inspector) (inspectionType : stored.inspectionType = input.inspectionType)
    (stage : stored.stage = input.stage) (observations : stored.observations = input.observations)
    (same : stored.retained.map shown = input.retained.map shown)
    (agree : ∀ item ∈ stored.retained, photos (trim item.clientKey) = counts (trim item.clientKey)) :
    inspectionNote stored date photos = inspectionNote input date counts := by
  have filled := filledItems_same same agree
  have lines := itemLines_of_filled filled fun item member => agree item (List.mem_filter.mp member).1
  have total : (filledItems stored.retained photos).length = (filledItems input.retained counts).length := by
    simpa only [List.length_map] using congrArg List.length filled
  have ticked : ((filledItems stored.retained photos).filter (·.actioned)).length =
      ((filledItems input.retained counts).filter (·.actioned)).length := by
    have counted (list : List InspectionItemInput) :
        ((list.map shown).filter (·.actioned)).length = (list.filter (·.actioned)).length := by
      rw [List.filter_map, List.length_map]
      rfl
    rw [← counted, filled, counted]
  simp only [inspectionNote, inspector, inspectionType, stage, observations, lines, total, ticked]

end Renderings

end InspectionNote
