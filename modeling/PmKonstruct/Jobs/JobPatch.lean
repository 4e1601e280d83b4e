import PmKonstruct.CallForward.ItemPatch
import PmKonstruct.Jobs.JobStore

/- Partial updates of a job. An absent key leaves a field alone, and a null clears it. -/
namespace JobPatch
open PlainText DomainErrors Accounts CalendarDate Schema JobStore
open ReadMergeWrite (decideFields merge)
open ItemPatch (patchedWord patchedWord_getD patchedWord_accepts)
open PatchBody

def JobStatus.parse (s : Text) : Option JobStatus :=
  if s = text "active" then some .active
  else if s = text "completed" then some .completed
  else if s = text "archived" then some .archived
  else if s = text "on_hold" then some .onHold
  else none

structure JobPatchRequest where
  name : Option Text
  jobNumber : Option Text
  client : Option Text
  address : Option Text
  status : Option Text
  clientNumber : Option (Option Text)
  clientEmail : Option (Option Text)
  startDate : Option (Option Date)
  endDate : Option (Option Date)
  managerId : Option (Option UserId)
  supervisorId : Option (Option UserId)
  dropboxPath : Option (Option Text)
  description : Option (Option Text)
  contact2Name : Option (Option Text)
  contact2Phone : Option (Option Text)
  contact2Email : Option (Option Text)
  deriving DecidableEq, Repr

/-- The patch that names nothing. -/
def JobPatchRequest.empty : JobPatchRequest :=
  ⟨none, none, none, none, none, none, none, none, none, none, none, none, none, none, none, none⟩

def JobPatchRequest.apply (req : JobPatchRequest) (current : JobRow) : Except DomainError JobInput :=
  match patchedWord JobStatus.parse (.invalid "status" "must be one of active, completed, archived, on_hold") req.status
    current.status with
  | .error e => .error e
  | .ok status => .ok {
      name := req.name.getD current.name
      jobNumber := req.jobNumber.getD current.jobNumber
      client := req.client.getD current.client
      address := req.address.getD current.address
      status := status
      clientNumber := req.clientNumber.getD current.clientNumber
      clientEmail := req.clientEmail.getD current.clientEmail
      startDate := req.startDate.getD current.startDate
      endDate := req.endDate.getD current.endDate
      managerId := req.managerId.getD current.managerId
      supervisorId := req.supervisorId.getD current.supervisorId
      dropboxPath := req.dropboxPath.getD current.dropboxPath
      description := req.description.getD current.description
      contact2Name := req.contact2Name.getD current.contact2Name
      contact2Phone := req.contact2Phone.getD current.contact2Phone
      contact2Email := req.contact2Email.getD current.contact2Email }

/- A job as its fields: all that an update writes besides the time of the write. -/

inductive JobField where
  | name
  | jobNumber
  | client
  | address
  | status
  | clientNumber
  | clientEmail
  | startDate
  | endDate
  | managerId
  | supervisorId
  | dropboxPath
  | description
  | contact2Name
  | contact2Phone
  | contact2Email
  deriving DecidableEq, Repr

abbrev JobField.Value : JobField → Type
  | .name | .jobNumber | .client | .address => Text
  | .status => JobStatus
  | .startDate | .endDate => Option Date
  | .managerId | .supervisorId => Option UserId
  | .clientNumber | .clientEmail | .dropboxPath | .description | .contact2Name | .contact2Phone | .contact2Email =>
    Option Text

instance (f : JobField) : DecidableEq f.Value := by
  cases f <;> exact inferInstance

abbrev JobFields : Type := ∀ f : JobField, f.Value

def JobField.all : List JobField :=
  [.name, .jobNumber, .client, .address, .status, .clientNumber, .clientEmail, .startDate, .endDate, .managerId,
    .supervisorId, .dropboxPath, .description, .contact2Name, .contact2Phone, .contact2Email]

instance : DecidableEq JobFields := decideFields JobField.all fun f => by cases f <;> decide

def fieldsOf (job : JobRow) : JobFields
  | .name => job.name
  | .jobNumber => job.jobNumber
  | .client => job.client
  | .address => job.address
  | .status => job.status
  | .clientNumber => job.clientNumber
  | .clientEmail => job.clientEmail
  | .startDate => job.startDate
  | .endDate => job.endDate
  | .managerId => job.managerId
  | .supervisorId => job.supervisorId
  | .dropboxPath => job.dropboxPath
  | .description => job.description
  | .contact2Name => job.contact2Name
  | .contact2Phone => job.contact2Phone
  | .contact2Email => job.contact2Email

/-- The fields after an update with this input. -/
def written (input : JobInput) (before : JobFields) : JobFields
  | .name => input.name
  | .jobNumber => input.jobNumber
  | .client => input.client
  | .address => input.address
  | .status => input.status.getD (before .status)
  | .clientNumber => input.clientNumber
  | .clientEmail => input.clientEmail
  | .startDate => input.startDate
  | .endDate => input.endDate
  | .managerId => input.managerId
  | .supervisorId => input.supervisorId
  | .dropboxPath => input.dropboxPath
  | .description => input.description
  | .contact2Name => input.contact2Name
  | .contact2Phone => input.contact2Phone
  | .contact2Email => input.contact2Email

/-- What normalising an input does to each field. -/
def tidy : ∀ f : JobField, f.Value → f.Value
  | .name, t => trim t
  | .jobNumber, t => trim t
  | .client, t => trim t
  | .address, t => trim t
  | .status, status => status
  | .clientNumber, t => t
  | .clientEmail, t => t
  | .startDate, date => date
  | .endDate, date => date
  | .managerId, user => user
  | .supervisorId, user => user
  | .dropboxPath, t => t
  | .description, t => t
  | .contact2Name, t => t
  | .contact2Phone, t => t
  | .contact2Email, t => t

/-- The value a request gives each field it names. -/
def JobPatchRequest.named (req : JobPatchRequest) : ∀ f : JobField, Option f.Value
  | .name => req.name.map trim
  | .jobNumber => req.jobNumber.map trim
  | .client => req.client.map trim
  | .address => req.address.map trim
  | .status => req.status.bind JobStatus.parse
  | .clientNumber => req.clientNumber
  | .clientEmail => req.clientEmail
  | .startDate => req.startDate
  | .endDate => req.endDate
  | .managerId => req.managerId
  | .supervisorId => req.supervisorId
  | .dropboxPath => req.dropboxPath
  | .description => req.description
  | .contact2Name => req.contact2Name
  | .contact2Phone => req.contact2Phone
  | .contact2Email => req.contact2Email

theorem fieldsOf_changedJob (now : Instant) (input : JobInput) (job : JobRow) :
    fieldsOf (changedJob now input job) = written input (fieldsOf job) := by
  funext f
  cases f <;> rfl

theorem named_tidy (req : JobPatchRequest) : ∀ f v, req.named f = some v → tidy f v = v := by
  have trimmed : ∀ (given : Option Text) v, given.map trim = some v → trim v = v := by
    intro given v same
    obtain ⟨t, -, rfl⟩ := Option.map_eq_some_iff.mp same
    exact trim_trim t
  intro f v given
  cases f with
  | name => exact trimmed req.name v given
  | jobNumber => exact trimmed req.jobNumber v given
  | client => exact trimmed req.client v given
  | address => exact trimmed req.address v given
  | _ => rfl

theorem map_trim_getD (given : Option Text) (current : Text) :
    trim (given.getD current) = (given.map trim).getD (trim current) := by
  cases given <;> rfl

/-- Written back over the row it was merged into, an input carries what the request names and tidies the rest. -/
theorem apply_merges {req : JobPatchRequest} {current : JobRow} {input : JobInput} (applied : req.apply current = .ok input) :
    written input.normalised (fieldsOf current) = merge tidy req.named (fieldsOf current) := by
  unfold JobPatchRequest.apply at applied
  split at applied
  · cases applied
  · next status patched =>
    cases applied
    have empty : JobStatus.parse [] = none := by decide
    funext f
    cases f with
    | name => exact map_trim_getD req.name current.name
    | jobNumber => exact map_trim_getD req.jobNumber current.jobNumber
    | client => exact map_trim_getD req.client current.client
    | address => exact map_trim_getD req.address current.address
    | status => exact patchedWord_getD empty patched
    | _ => rfl

/- The body of the request, key by key. -/

abbrev JobField.Given : JobField → Type
  | .startDate | .endDate => Date
  | .managerId | .supervisorId => UserId
  | .name | .jobNumber | .client | .address | .status | .clientNumber | .clientEmail | .dropboxPath | .description
  | .contact2Name | .contact2Phone | .contact2Email => Text

abbrev JobPatchBody : Type := ∀ f : JobField, Sent (JobField.Given f)

def JobPatchBody.read (body : JobPatchBody) : JobPatchRequest where
  name := (body .name).single
  jobNumber := (body .jobNumber).single
  client := (body .client).single
  address := (body .address).single
  status := (body .status).single
  clientNumber := (body .clientNumber).double
  clientEmail := (body .clientEmail).double
  startDate := (body .startDate).double
  endDate := (body .endDate).double
  managerId := (body .managerId).double
  supervisorId := (body .supervisorId).double
  dropboxPath := (body .dropboxPath).double
  description := (body .description).double
  contact2Name := (body .contact2Name).double
  contact2Phone := (body .contact2Phone).double
  contact2Email := (body .contact2Email).double

def normalise : ∀ f : JobField, JobField.Given f → Option f.Value
  | .name, t => some (trim t)
  | .jobNumber, t => some (trim t)
  | .client, t => some (trim t)
  | .address, t => some (trim t)
  | .status, word => JobStatus.parse word
  | .clientNumber, t => some (some t)
  | .clientEmail, t => some (some t)
  | .startDate, date => some (some date)
  | .endDate, date => some (some date)
  | .managerId, user => some (some user)
  | .supervisorId, user => some (some user)
  | .dropboxPath, t => some (some t)
  | .description, t => some (some t)
  | .contact2Name, t => some (some t)
  | .contact2Phone, t => some (some t)
  | .contact2Email, t => some (some t)

def cleared : ∀ f : JobField, Option f.Value
  | .name | .jobNumber | .client | .address | .status => none
  | .clientNumber | .clientEmail | .startDate | .endDate | .managerId | .supervisorId | .dropboxPath | .description
  | .contact2Name | .contact2Phone | .contact2Email => some none

def blankWord : ∀ f : JobField, JobField.Given f → Bool
  | .status, word => word = []
  | _, _ => false

def naming : Naming JobField JobField.Given JobField.Value where
  normalise := normalise
  cleared := cleared
  blank := blankWord
  blank_none := by
    intro f g blank
    cases f with
    | status =>
      have empty : g = [] := by simpa [blankWord] using blank
      rw [empty]
      decide
    | _ => cases blank

/-- What a request names is what its body names. -/
theorem read_named (body : JobPatchBody) : body.read.named = naming.named body := by
  funext f
  cases f <;> simp only [JobPatchRequest.named, JobPatchBody.read, Naming.named, naming, normalise, cleared] <;>
    cases body _ <;> rfl

/-- A body that is merged gives no word but those of the set, or the empty one. -/
theorem apply_accepts {body : JobPatchBody} {current : JobRow} {input : JobInput}
    (applied : body.read.apply current = .ok input) : naming.Accepts body := by
  intro f g sent
  cases f with
  | status =>
    unfold JobPatchRequest.apply at applied
    split at applied
    · cases applied
    · next status patched =>
      have given : body.read.status = some g := by
        simp only [JobPatchBody.read, sent, Sent.single]
      rw [given] at patched
      exact patchedWord_accepts patched
  | _ => exact .inr rfl

end JobPatch
