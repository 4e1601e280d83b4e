import PmKonstruct.CallForward.Delay

/- Items of a call-forward programme and the checks on them. A HEADER groups other items and stands at the top;
   the rule relates two rows, so no constraint of the table can hold it. -/
namespace CallForwardItem
open PlainText DomainErrors CalendarDate Schema Delay

def ItemType.parse (s : Text) : Option ItemType :=
  if s = text "HEADER" then some .header
  else if s = text "STAGE_CLAIM" then some .stageClaim
  else if s = text "TASK" then some .task
  else none

def ItemType.asStr : ItemType → Text
  | .header => text "HEADER"
  | .stageClaim => text "STAGE_CLAIM"
  | .task => text "TASK"

def ItemType.canParent (t : ItemType) : Bool := t = .header

structure CallForwardItemWithDelay where
  item : CallForwardRow
  delay : DelayInfo
  deriving DecidableEq, Repr

def withDelay (today : Date) (item : CallForwardRow) : CallForwardItemWithDelay :=
  ⟨item, computeDelayInfo ⟨some item.status, item.estStart, item.estFinish, item.actualStart, item.actualFinish⟩
    today⟩

structure CallForwardInput where
  title : Text
  itemType : Option ItemType
  supplierTrade : Option Text
  estStart : Option Date
  estFinish : Option Date
  actualStart : Option Date
  actualFinish : Option Date
  status : Option CfStatus
  notes : Option Text
  sortOrder : Option Int
  parentId : Option CallForwardItemId
  deriving DecidableEq, Repr

def inverted (start finish : Option Date) : Bool := start.any fun s => finish.any fun f => s > f

/-- The limits count bytes. -/
def CallForwardInput.validate (input : CallForwardInput) : Except DomainError Unit :=
  if trim input.title = [] then .error (.invalid "title" "is required")
  else if byteLength input.title > 500 then .error (.invalid "title" "must be 500 characters or fewer")
  else if input.supplierTrade.any fun t => byteLength t > 150 then
    .error (.invalid "supplierTrade" "must be 150 characters or fewer")
  else if inverted input.estStart input.estFinish then
    .error (.invalid "estFinish" "must be on or after the estimated start")
  else if inverted input.actualStart input.actualFinish then
    .error (.invalid "actualFinish" "must be on or after the actual start")
  else .ok ()

def validateParent (childType : ItemType) (childId : Option CallForwardItemId)
    (parent : Option (CallForwardItemId × ItemType × JobId)) (childJob : JobId) : Except DomainError Unit :=
  match parent with
  | none => .ok ()
  | some (parentId, parentType, parentJob) =>
    if some parentId = childId then .error (.invalid "parentId" "an item cannot be its own parent")
    else if parentJob ≠ childJob then .error (.invalid "parentId" "must be an item on the same job")
    else if !ItemType.canParent parentType then .error (.invalid "parentId" "only a HEADER can contain other items")
    else if childType = .header then .error (.invalid "parentId" "a HEADER cannot be nested inside another item")
    else .ok ()

theorem parse_asStr (t : ItemType) : ItemType.parse (ItemType.asStr t) = some t := by
  cases t <;> rfl

theorem parse_eq_some_iff {s : Text} {t : ItemType} : ItemType.parse s = some t ↔ s = ItemType.asStr t := by
  constructor
  · intro parsed
    unfold ItemType.parse at parsed
    split at parsed
    · next same => cases parsed; exact same
    · split at parsed
      · next same => cases parsed; exact same
      · split at parsed
        · next same => cases parsed; exact same
        · cases parsed
  · intro same
    rw [same]
    exact parse_asStr t

/-- A link that passes joins an item that is no HEADER to a HEADER of its job. -/
theorem validateParent_ok_iff {childType : ItemType} {childId : Option CallForwardItemId}
    {parentId : CallForwardItemId} {parentType : ItemType} {parentJob childJob : JobId} :
    validateParent childType childId (some (parentId, parentType, parentJob)) childJob = .ok () ↔
      some parentId ≠ childId ∧ parentJob = childJob ∧ parentType = .header ∧ childType ≠ .header := by
  simp only [validateParent, ItemType.canParent]
  by_cases own : some parentId = childId
  · simp [own]
  · by_cases job : parentJob = childJob
    · by_cases header : parentType = .header
      · by_cases nested : childType = .header <;> simp [own, job, header, nested]
      · simp [own, job, header]
    · simp [own, job]

end CallForwardItem
