import PmKonstruct.CallForward.ProgrammeStore
import PmKonstruct.Library.PatchBody

/- Partial updates of a programme item: the board sends the fields that changed. -/
namespace ItemPatch
open PlainText DomainErrors Accounts CalendarDate Schema CallForwardItem Delay ProgrammeStore
open ReadMergeWrite (decideFields merge)
open PatchBody

structure CallForwardPatchRequest where
  title : Option Text
  itemType : Option Text
  status : Option Text
  supplierTrade : Option (Option Text)
  estStart : Option (Option Date)
  estFinish : Option (Option Date)
  actualStart : Option (Option Date)
  actualFinish : Option (Option Date)
  notes : Option (Option Text)
  sortOrder : Option Int
  parentId : Option (Option CallForwardItemId)
  deriving DecidableEq, Repr

/-- The patch that names nothing. -/
def CallForwardPatchRequest.empty : CallForwardPatchRequest :=
  ⟨none, none, none, none, none, none, none, none, none, none, none⟩

/-- A word of a closed set: an absent one stands for the current, and an empty one for none. -/
def patchedWord {α : Type} (parse : Text → Option α) (refusal : DomainError) (given : Option Text) (current : α) :
    Except DomainError (Option α) :=
  match given with
  | none => .ok (some current)
  | some s =>
    if s = [] then .ok none
    else
      match parse s with
      | none => .error refusal
      | some word => .ok (some word)

def CallForwardPatchRequest.apply (req : CallForwardPatchRequest) (current : CallForwardRow) :
    Except DomainError CallForwardInput :=
  match patchedWord ItemType.parse (.invalid "itemType" "must be one of HEADER, STAGE_CLAIM, TASK") req.itemType
    current.itemType with
  | .error e => .error e
  | .ok itemType =>
    match patchedWord CfStatus.parse (.invalid "status" "must be one of not_started, in_progress, completed, on_hold")
      req.status current.status with
    | .error e => .error e
    | .ok status => .ok {
        title := req.title.getD current.title
        itemType := itemType
        supplierTrade := req.supplierTrade.getD current.supplierTrade
        estStart := req.estStart.getD current.estStart
        estFinish := req.estFinish.getD current.estFinish
        actualStart := req.actualStart.getD current.actualStart
        actualFinish := req.actualFinish.getD current.actualFinish
        status := status
        notes := req.notes.getD current.notes
        sortOrder := some (req.sortOrder.getD current.sortOrder)
        parentId := req.parentId.getD current.parentId }

/- An item as its fields. -/

inductive ItemField where
  | title
  | itemType
  | status
  | supplierTrade
  | estStart
  | estFinish
  | actualStart
  | actualFinish
  | notes
  | sortOrder
  | parentId
  deriving DecidableEq, Repr

abbrev ItemField.Value : ItemField → Type
  | .title => Text
  | .itemType => ItemType
  | .status => CfStatus
  | .estStart | .estFinish | .actualStart | .actualFinish => Option Date
  | .sortOrder => Int
  | .supplierTrade | .notes => Option Text
  | .parentId => Option CallForwardItemId

instance (f : ItemField) : DecidableEq f.Value := by
  cases f <;> exact inferInstance

abbrev ItemFields : Type := ∀ f : ItemField, f.Value

def ItemField.all : List ItemField :=
  [.title, .itemType, .status, .supplierTrade, .estStart, .estFinish, .actualStart, .actualFinish, .notes, .sortOrder,
    .parentId]

instance : DecidableEq ItemFields := decideFields ItemField.all fun f => by cases f <;> decide

def fieldsOf (row : CallForwardRow) : ItemFields
  | .title => row.title
  | .itemType => row.itemType
  | .status => row.status
  | .supplierTrade => row.supplierTrade
  | .estStart => row.estStart
  | .estFinish => row.estFinish
  | .actualStart => row.actualStart
  | .actualFinish => row.actualFinish
  | .notes => row.notes
  | .sortOrder => row.sortOrder
  | .parentId => row.parentId

/-- The fields after an update with this input. -/
def written (input : CallForwardInput) (before : ItemFields) : ItemFields
  | .title => input.title
  | .itemType => input.itemType.getD (before .itemType)
  | .status => input.status.getD (before .status)
  | .supplierTrade => input.supplierTrade
  | .estStart => input.estStart
  | .estFinish => input.estFinish
  | .actualStart => input.actualStart
  | .actualFinish => input.actualFinish
  | .notes => input.notes
  | .sortOrder => input.sortOrder.getD (before .sortOrder)
  | .parentId => input.parentId

/-- The value a request gives each field it names. -/
def CallForwardPatchRequest.named (req : CallForwardPatchRequest) : ∀ f : ItemField, Option f.Value
  | .title => req.title
  | .itemType => req.itemType.bind ItemType.parse
  | .status => req.status.bind CfStatus.parse
  | .supplierTrade => req.supplierTrade
  | .estStart => req.estStart
  | .estFinish => req.estFinish
  | .actualStart => req.actualStart
  | .actualFinish => req.actualFinish
  | .notes => req.notes
  | .sortOrder => req.sortOrder
  | .parentId => req.parentId

theorem fieldsOf_changedItem (now : Instant) (input : CallForwardInput) (row : CallForwardRow) :
    fieldsOf (changedItem now input row) = written input (fieldsOf row) := by
  funext f
  cases f <;> rfl

/-- The word that is written is the one named, else the one the copy has. -/
theorem patchedWord_getD {α : Type} {parse : Text → Option α} {refusal : DomainError} {given : Option Text} {current : α}
    {word : Option α} (empty : parse [] = none) (patched : patchedWord parse refusal given current = .ok word) :
    word.getD current = (given.bind parse).getD current := by
  cases given with
  | none =>
    cases patched
    rfl
  | some s =>
    simp only [patchedWord] at patched
    split at patched
    · next blank =>
      cases patched
      rw [blank, Option.bind_some, empty]
    · cases parsed : parse s with
      | none => simp [parsed] at patched
      | some named =>
        rw [parsed] at patched
        cases patched
        rw [Option.bind_some, parsed]

/-- Written back over the row it was merged into, an input carries what the request names and nothing else. -/
theorem apply_merges {req : CallForwardPatchRequest} {current : CallForwardRow} {input : CallForwardInput}
    (applied : req.apply current = .ok input) :
    written input (fieldsOf current) = merge (fun _ v => v) req.named (fieldsOf current) := by
  unfold CallForwardPatchRequest.apply at applied
  split at applied
  · cases applied
  · next itemType typed =>
    split at applied
    · cases applied
    · next status stated =>
      cases applied
      have emptyType : ItemType.parse [] = none := by decide
      have emptyStatus : CfStatus.parse [] = none := by decide
      funext f
      cases f with
      | itemType => exact patchedWord_getD emptyType typed
      | status => exact patchedWord_getD emptyStatus stated
      | _ => rfl

/- The body of the request, key by key. -/

abbrev ItemField.Given : ItemField → Type
  | .estStart | .estFinish | .actualStart | .actualFinish => Date
  | .sortOrder => Int
  | .parentId => CallForwardItemId
  | .title | .itemType | .status | .supplierTrade | .notes => Text

abbrev CallForwardPatchBody : Type := ∀ f : ItemField, Sent (ItemField.Given f)

def CallForwardPatchBody.read (body : CallForwardPatchBody) : CallForwardPatchRequest where
  title := (body .title).single
  itemType := (body .itemType).single
  status := (body .status).single
  supplierTrade := (body .supplierTrade).double
  estStart := (body .estStart).double
  estFinish := (body .estFinish).double
  actualStart := (body .actualStart).double
  actualFinish := (body .actualFinish).double
  notes := (body .notes).double
  sortOrder := (body .sortOrder).single
  parentId := (body .parentId).double

def normalise : ∀ f : ItemField, ItemField.Given f → Option f.Value
  | .title, t => some t
  | .itemType, word => ItemType.parse word
  | .status, word => CfStatus.parse word
  | .supplierTrade, t => some (some t)
  | .estStart, date => some (some date)
  | .estFinish, date => some (some date)
  | .actualStart, date => some (some date)
  | .actualFinish, date => some (some date)
  | .notes, t => some (some t)
  | .sortOrder, order => some order
  | .parentId, item => some (some item)

def cleared : ∀ f : ItemField, Option f.Value
  | .title | .itemType | .status | .sortOrder => none
  | .supplierTrade | .estStart | .estFinish | .actualStart | .actualFinish | .notes | .parentId => some none

def blankWord : ∀ f : ItemField, ItemField.Given f → Bool
  | .itemType, word => word = []
  | .status, word => word = []
  | _, _ => false

def naming : Naming ItemField ItemField.Given ItemField.Value where
  normalise := normalise
  cleared := cleared
  blank := blankWord
  blank_none := by
    intro f g blank
    cases f with
    | itemType =>
      have empty : g = [] := by simpa [blankWord] using blank
      rw [empty]
      decide
    | status =>
      have empty : g = [] := by simpa [blankWord] using blank
      rw [empty]
      decide
    | _ => cases blank

/-- What a request names is what its body names. -/
theorem read_named (body : CallForwardPatchBody) : body.read.named = naming.named body := by
  funext f
  cases f <;> simp only [CallForwardPatchRequest.named, CallForwardPatchBody.read, Naming.named, naming, normalise,
    cleared] <;> cases body _ <;> rfl

theorem patchedWord_accepts {α : Type} {parse : Text → Option α} {refusal : DomainError} {word : Text} {current : α}
    {patched : Option α} (accepted : patchedWord parse refusal (some word) current = .ok patched) :
    decide (word = []) = true ∨ (parse word).isSome = true := by
  simp only [patchedWord] at accepted
  split at accepted
  · next blank => exact .inl (by simpa using blank)
  · right
    cases parsed : parse word with
    | none => simp [parsed] at accepted
    | some named => rfl

/-- A body that is merged gives no words but those of the two sets, or the empty one. -/
theorem apply_accepts {body : CallForwardPatchBody} {current : CallForwardRow} {input : CallForwardInput}
    (applied : body.read.apply current = .ok input) : naming.Accepts body := by
  unfold CallForwardPatchRequest.apply at applied
  split at applied
  · cases applied
  · next itemType typed =>
    split at applied
    · cases applied
    · next status stated =>
      intro f g sent
      cases f with
      | itemType =>
        have given : body.read.itemType = some g := by
          simp only [CallForwardPatchBody.read, sent, Sent.single]
        rw [given] at typed
        exact patchedWord_accepts typed
      | status =>
        have given : body.read.status = some g := by
          simp only [CallForwardPatchBody.read, sent, Sent.single]
        rw [given] at stated
        exact patchedWord_accepts stated
      | _ => exact .inr rfl

end ItemPatch
