import Mathlib.Data.List.Sort
import PmKonstruct.Media.DeletionQueue

/- The users of a company: who is told of a job, and what the foreign keys of the other tables do with the rows that
   name a deleted user. -/
namespace UserStore
open PlainText DomainErrors Accounts AuthStore Schema KeyedTable RowSecurity DeletionQueue

section Repository
variable (db : Db) (scope : CompanyId)

def visibleUser (user : UserId) : Option UserRow := db.users.reach (·.companyId = scope) user

def find (user : UserId) : Except PortError (Option User) :=
  match visibleUser db scope user with
  | none => .ok none
  | some row => row.intoDomain.map some

/-- Inactive accounts are excluded. The order is the one of the database's collation. -/
def emailRecipientsForJob (collation : Text → Text → Bool) (job : JobId) : List Text :=
  let supervisor := (db.jobs.reach (·.companyId = scope) job).bind (·.supervisorId)
  let recipients := db.users.select fun u => u.companyId = scope && u.active &&
    (u.role = text "MANAGER" || u.role = text "OFFICE" || supervisor = some u.id ||
      (jobInScope db scope job && assigned db job u.id))
  (recipients.map (·.email)).insertionSort fun a b => collation a b = true

/-- `ON DELETE SET NULL`. -/
def setNull (user : UserId) (named : Option UserId) : Option UserId := if named = some user then none else named

/-- Assignments and inspection drafts of the user go along; everything else forgets the name. -/
def cascadeUser (user : UserId) (db : Db) : Db :=
  let cleared := cascadeForms (fun f => f.createdBy = user) db
  { cleared with
    users := cleared.users.delete fun u => u.id = user
    jobAssignments := cleared.jobAssignments.delete fun a => a.userId = user
    jobs := cleared.jobs.update (fun _ => true)
      (fun j => { j with
        managerId := setNull user j.managerId
        supervisorId := setNull user j.supervisorId })
      (fun _ => rfl)
    siteDiary := cleared.siteDiary.update (fun _ => true)
      (fun e => { e with
        authorId := setNull user e.authorId
        actionRaisedBy := setNull user e.actionRaisedBy })
      (fun _ => rfl)
    diaryNotes := cleared.diaryNotes.update (fun _ => true)
      (fun n => { n with actionRaisedBy := setNull user n.actionRaisedBy }) (fun _ => rfl)
    diaryNoteComments := cleared.diaryNoteComments.update (fun _ => true)
      (fun c => { c with authorId := setNull user c.authorId }) (fun _ => rfl)
    diaryMedia := cleared.diaryMedia.update (fun _ => true)
      (fun m => { m with uploadedBy := setNull user m.uploadedBy }) (fun _ => rfl)
    jobMedia := cleared.jobMedia.update (fun _ => true)
      (fun m => { m with uploadedBy := setNull user m.uploadedBy }) (fun _ => rfl) }

def delete (user : UserId) : Bool × Db :=
  match visibleUser db scope user with
  | none => (false, db)
  | some _ => (true, cascadeUser user db)

end Repository

section Cascade
variable {db : Db} {user : UserId}

theorem cascadeUser_users : (cascadeUser user db).users = db.users.delete fun u => u.id = user := rfl

theorem cascadeUser_jobs : (cascadeUser user db).jobs = db.jobs.update (fun _ => true)
    (fun j => { j with
      managerId := setNull user j.managerId
      supervisorId := setNull user j.supervisorId }) (fun _ => rfl) := rfl

theorem cascadeUser_notes : (cascadeUser user db).diaryNotes = db.diaryNotes.update (fun _ => true)
    (fun n => { n with actionRaisedBy := setNull user n.actionRaisedBy }) (fun _ => rfl) := rfl

end Cascade

end UserStore
