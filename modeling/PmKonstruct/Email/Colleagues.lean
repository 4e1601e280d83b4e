import PmKonstruct.Diary.DiaryService
import PmKonstruct.Email.Recipients
import PmKonstruct.Email.Redaction
import PmKonstruct.Jobs.Visibility
import PmKonstruct.Media.MediaService

/- The two requests that send email. Each may be addressed to colleagues on the job and to nobody else. -/
namespace Colleagues
open PlainText CalendarDate DecimalText DomainErrors Accounts AuthStore Schema KeyedTable RowSecurity Requests Recipients
open AuthService (SessionUser)
open DiaryStore (DiaryNote)
open EmailRedaction (redactInternalEtoReason)
open MediaService (assertJobAccess)
open UserStore (emailRecipientsForJob)
open Visibility (sees findJob_iff sees_all_iff job_found job_reached)

structure Message where
  recipients : List Text
  subject : Text
  body : Text
  html : Bool
  deriving DecidableEq, Repr

structure DiaryEmailRequest where
  recipients : List Text
  subject : Text
  customMessage : Option Text
  deriving DecidableEq, Repr

/-- The columns of an entry that only its email reads. -/
structure Conditions where
  time : Option Text
  weather : Option Text
  workforce : Option Int
  deriving DecidableEq, Repr

def NoteCategory.asStr : NoteCategory → Text
  | .general => text "general"
  | .client => text "client"
  | .trades => text "trades"
  | .siteConditions => text "site_conditions"
  | .issues => text "issues"
  | .safety => text "safety"
  | .materials => text "materials"
  | .eto => text "eto"

def labelled (label : String) (value : Option Text) : List Text :=
  ((value.filter fun v => v ≠ []).map fun v => text label ++ v).toList

def renderDiaryEmail (entry : SiteDiaryRow) (conditions : Conditions) (notes : List DiaryNote)
    (customMessage : Option Text) : Text :=
  let opening := match (customMessage.map trim).filter fun m => m ≠ [] with
    | none => []
    | some message => [message, []]
  let noteLines := if notes = [] then []
    else [[], text "NOTES"] ++ notes.map fun note =>
      text "- [" ++ NoteCategory.asStr note.category ++ text "] " ++ redactInternalEtoReason note.content
  join (text "\n") (opening ++ [text "Site Diary — " ++ isoDate entry.date] ++ labelled "Time: " conditions.time ++
    labelled "Weather: " conditions.weather ++ (conditions.workforce.map fun w => text "Workforce: " ++ decimal w).toList ++
    [[], text "WORK COMPLETED", entry.workCompleted] ++ noteLines)

/-- What a request answers, and the message it handed to the company's relay, if any. -/
structure Sending where
  answer : Except AppError (List Text)
  handed : Option Message

def onceOk {α : Type} (check : Except AppError α) (next : α → Sending) : Sending :=
  match check with
  | .error e => ⟨.error e, none⟩
  | .ok value => next value

section Service
variable (platform : Platform) (collation : Text → Text → Bool) (relay : Message → Except AppError Unit)
  (conditions : DiaryEntryId → Conditions) (db : Db) (s : SessionUser)

/-- The relay may still refuse what it is handed. -/
def send (message : Message) : Sending := ⟨(relay message).map fun _ => message.recipients, some message⟩

def emailEntry (entry : DiaryEntryId) (request : DiaryEmailRequest) : Sending :=
  onceOk (DiaryService.get db s entry) fun parent =>
    onceOk (inDomain (normaliseRecipients platform request.recipients)) fun recipients =>
      let allowed := emailRecipientsForJob db s.principal.companyId collation parent.jobId
      onceOk (inDomain (assertRecipientsAllowed recipients allowed)) fun _ =>
        let notes := DiaryStore.notes db s.principal.companyId entry false
        let subject := if trim request.subject = [] then
            text "Site Diary — Job #" ++ decimal parent.jobId ++ text " — " ++ isoDate parent.date
          else trim request.subject
        send relay ⟨recipients, subject, renderDiaryEmail parent (conditions entry) notes request.customMessage, false⟩

def emailForm (job : JobId) (recipients : List Text) (subject body : Text) : Sending :=
  onceOk (assertJobAccess db s job) fun _ =>
    onceOk (inDomain (normaliseRecipients platform recipients)) fun recipients =>
      let allowed := emailRecipientsForJob db s.principal.companyId collation job
      onceOk (inDomain (assertRecipientsAllowed recipients allowed)) fun _ =>
        if trim subject = [] then ⟨.error (.domain (.invalid "subject" "a subject is required")), none⟩
        else if trim body = [] then ⟨.error (.domain (.invalid "body" "a message is required")), none⟩
        else send relay ⟨recipients, trim subject, redactInternalEtoReason body, false⟩

end Service

inductive EmailRequest where
  | entry (id : DiaryEntryId) (request : DiaryEmailRequest)
  | form (id : JobId) (submitted : List Text) (subject body : Text)
  deriving DecidableEq, Repr

def EmailRequest.recipients : EmailRequest → List Text
  | .entry _ request => request.recipients
  | .form _ submitted _ _ => submitted

/-- The job a request is about; that of a diary entry is the entry's. -/
def EmailRequest.job (db : Db) : EmailRequest → Option JobId
  | .entry id _ => (db.siteDiary.find id).map (·.jobId)
  | .form id _ _ _ => some id

def perform (platform : Platform) (collation : Text → Text → Bool) (relay : Message → Except AppError Unit)
    (conditions : DiaryEntryId → Conditions) (db : Db) (s : SessionUser) : EmailRequest → Sending
  | .entry id request => emailEntry platform collation relay conditions db s id request
  | .form job recipients subject body => emailForm platform collation relay db s job recipients subject body

section Rule
variable (db : Db) (scope : CompanyId)

/-- The job lookup answers this user, under the role of the account, with a job. -/
def CanSee (user : UserRow) (job : JobId) : Prop :=
  ∃ role row, Role.parse user.role = some role ∧ findJob db scope user.id role.seesAllCompanyJobs job = .ok (some row)

def Entitled (job : JobId) (address : Text) : Prop :=
  ∃ user ∈ db.users.rows, user.companyId = scope ∧ user.active = true ∧ CanSee db scope user job ∧
    eqIgnoreAsciiCase user.email address = true

/-- What may become of a submitted list: the same addresses, each once and in one spelling, all of colleagues. -/
structure Addressed (platform : Platform) (job : JobId) (submitted sent : List Text) : Prop where
  entitled : ∀ address ∈ sent, Entitled db scope job address
  nonempty : sent ≠ []
  distinct : sent.Nodup
  few : sent.length ≤ 10
  wellFormed : ∀ address ∈ sent, looksLikeEmail address = true
  normalised : sent = (submitted.map (normaliseEmail platform)).eraseDups

end Rule

section Gate
variable {platform : Platform} {db : Db} {scope : CompanyId} {job : JobRow}

/-- The list of those to be told, read from the side of its users. -/
theorem mem_recipients_iff {collation : Text → Text → Bool}
    (roles : ∀ u ∈ db.users.rows, (Role.parse u.role).isSome = true) (there : job ∈ db.jobs.rows)
    (owned : job.companyId = scope) {address : Text} : address ∈ emailRecipientsForJob db scope collation job.id ↔
      ∃ user ∈ db.users.rows, user.companyId = scope ∧ user.active = true ∧ CanSee db scope user job.id ∧
        user.email = address := by
  have visible : jobInScope db scope job.id = true := jobInScope_iff.mpr ⟨job, job_found there, owned⟩
  have opened (user : UserRow) (known : user ∈ db.users.rows) : CanSee db scope user job.id ↔
      (user.role = text "MANAGER" ∨ user.role = text "OFFICE") ∨ job.supervisorId = some user.id ∨
        assigned db job.id user.id = true := by
    obtain ⟨role, parsed⟩ := Option.isSome_iff_exists.mp (roles user known)
    have seen : sees db role user.id job = true ↔ (user.role = text "MANAGER" ∨ user.role = text "OFFICE") ∨
        job.supervisorId = some user.id ∨ assigned db job.id user.id = true := by
      rw [← sees_all_iff parsed, sees, supervises, Bool.or_eq_true, Bool.or_eq_true, decide_eq_true_eq]
    rw [← seen, ← findJob_iff there owned]
    constructor
    · rintro ⟨own, row, same, found⟩
      cases parsed.symm.trans same
      have reached := found
      rw [findJob] at reached
      split at reached
      · rw [job_reached there owned] at reached
        cases reached
        exact found
      · cases reached
      · cases reached
    · intro found
      exact ⟨role, job, parsed, found⟩
  rw [emailRecipientsForJob, List.mem_insertionSort, List.mem_map]
  simp only [job_reached there owned, Option.bind_some, visible, Bool.true_and, Table.mem_select, Bool.and_eq_true,
    Bool.or_eq_true, decide_eq_true_eq, or_assoc]
  constructor
  · rintro ⟨user, ⟨known, ⟨member, active⟩, told⟩, same⟩
    exact ⟨user, known, member, active, (opened user known).mpr (or_assoc.mpr told), same⟩
  · rintro ⟨user, known, member, active, sees, same⟩
    exact ⟨user, ⟨known, ⟨member, active⟩, or_assoc.mp ((opened user known).mp sees)⟩, same⟩

/-- The two checks in a row pass a list exactly when it is addressed as it may be. -/
theorem gate_iff (collation : Text → Text → Bool)
    (roles : ∀ u ∈ db.users.rows, (Role.parse u.role).isSome = true) (there : job ∈ db.jobs.rows)
    (owned : job.companyId = scope) {submitted sent : List Text} :
    normaliseRecipients platform submitted = .ok sent ∧
      assertRecipientsAllowed sent (emailRecipientsForJob db scope collation job.id) = .ok () ↔
    Addressed db scope platform job.id submitted sent := by
  have listed (address : Text) : (∃ a ∈ emailRecipientsForJob db scope collation job.id, eqIgnoreAsciiCase a address = true) ↔
      Entitled db scope job.id address := by
    constructor
    · rintro ⟨a, told, same⟩
      obtain ⟨user, known, member, active, sees, rfl⟩ := (mem_recipients_iff roles there owned).mp told
      exact ⟨user, known, member, active, sees, same⟩
    · rintro ⟨user, known, member, active, sees, same⟩
      exact ⟨user.email, (mem_recipients_iff roles there owned).mpr ⟨user, known, member, active, sees, rfl⟩, same⟩
  rw [normaliseRecipients_ok, assertRecipientsAllowed_ok]
  constructor
  · rintro ⟨⟨nonempty, rfl, few, wellFormed⟩, allowed⟩
    refine ⟨fun address sent => (listed address).mp (allowed address sent), ?_, collect_nodup submitted List.nodup_nil, few,
      wellFormed, collect_nil submitted⟩
    obtain ⟨first, rest, rfl⟩ := List.exists_cons_of_ne_nil nonempty
    exact List.ne_nil_of_mem (mem_collect.mpr ⟨first, List.mem_cons_self, rfl⟩)
  · intro addressed
    have normalised := addressed.normalised
    refine ⟨⟨?_, normalised.trans (collect_nil submitted).symm, addressed.few, addressed.wellFormed⟩,
      fun address sent => (listed address).mpr (addressed.entitled address sent)⟩
    rintro rfl
    exact addressed.nonempty normalised

theorem onceOk_handed {α : Type} {check : Except AppError α} {next : α → Sending} {message : Message} :
    (onceOk check next).handed = some message ↔ ∃ value, check = .ok value ∧ (next value).handed = some message := by
  cases check with
  | error e => simp [onceOk]
  | ok value => simp [onceOk]

theorem inDomain_ok_iff {α : Type} {check : Except DomainError α} {value : α} :
    inDomain check = .ok value ↔ check = .ok value := by
  constructor
  · exact inDomain_ok
  · rintro rfl
    rfl

end Gate

section Requests
variable {platform : Platform} {collation : Text → Text → Bool} {relay : Message → Except AppError Unit}
  {conditions : DiaryEntryId → Conditions} {db : Db} {s : SessionUser}

theorem assertJobAccess_ok {job : JobId} : assertJobAccess db s job = .ok () ↔ SeesJob db s job := by
  rw [← getJob_ok_iff, assertJobAccess]
  cases getJob db s job with
  | error e => simp [Except.map]
  | ok row => simp [Except.map]

theorem get_ok_iff {entry : DiaryEntryId} {row : SiteDiaryRow} :
    DiaryService.get db s entry = .ok row ↔ db.siteDiary.find entry = some row ∧ SeesJob db s row.jobId := by
  rw [← DiaryService.findEntry_iff, DiaryService.get]
  cases DiaryStore.findEntry db s.principal.companyId (visibleJobs db s) entry with
  | none => simp
  | some found => simp

/-- When a form leaves, and as what. -/
theorem emailForm_handed (roles : ∀ u ∈ db.users.rows, (Role.parse u.role).isSome = true) {job : JobId}
    {submitted : List Text} {subject body : Text} {message : Message} :
    (emailForm platform collation relay db s job submitted subject body).handed = some message ↔
      SeesJob db s job ∧ Addressed db s.principal.companyId platform job submitted message.recipients ∧
      trim subject ≠ [] ∧ trim body ≠ [] ∧
      message = ⟨message.recipients, trim subject, redactInternalEtoReason body, false⟩ := by
  simp only [emailForm, onceOk_handed, inDomain_ok_iff]
  constructor
  · rintro ⟨_, opened, sent, normal, _, allowed, handed⟩
    have visible := assertJobAccess_ok.mp opened
    obtain ⟨row, found, owned, -⟩ := visible
    obtain ⟨there, rfl⟩ := Table.find_eq_some_iff.mp found
    have addressed := (gate_iff collation roles there owned).mp ⟨normal, allowed⟩
    split at handed
    · cases handed
    · next titled =>
      split at handed
      · cases handed
      · next written =>
        cases handed
        exact ⟨assertJobAccess_ok.mp opened, addressed, titled, written, rfl⟩
  · rintro ⟨visible, addressed, titled, written, same⟩
    have opened := assertJobAccess_ok.mpr visible
    obtain ⟨row, found, owned, -⟩ := visible
    obtain ⟨there, rfl⟩ := Table.find_eq_some_iff.mp found
    obtain ⟨normal, allowed⟩ := (gate_iff collation roles there owned).mpr addressed
    refine ⟨(), opened, message.recipients, normal, (), allowed, ?_⟩
    rw [if_neg titled, if_neg written, send, ← same]

/-- When an entry leaves, and to whom. -/
theorem emailEntry_handed (roles : ∀ u ∈ db.users.rows, (Role.parse u.role).isSome = true) {entry : DiaryEntryId}
    {request : DiaryEmailRequest} {sent : List Text} :
    (∃ message, (emailEntry platform collation relay conditions db s entry request).handed = some message ∧
      message.recipients = sent) ↔
    ∃ row, db.siteDiary.find entry = some row ∧ SeesJob db s row.jobId ∧
      Addressed db s.principal.companyId platform row.jobId request.recipients sent := by
  simp only [emailEntry, onceOk_handed, inDomain_ok_iff]
  constructor
  · rintro ⟨message, ⟨row, got, sent, normal, _, allowed, handed⟩, rfl⟩
    obtain ⟨found, visible⟩ := get_ok_iff.mp got
    have opened := visible
    obtain ⟨job, located, owned, -⟩ := opened
    obtain ⟨there, same⟩ := Table.find_eq_some_iff.mp located
    rw [← same] at allowed
    have addressed := (gate_iff collation roles there owned).mp ⟨normal, allowed⟩
    cases handed
    exact ⟨row, found, visible, same ▸ addressed⟩
  · rintro ⟨row, found, visible, addressed⟩
    have opened := visible
    obtain ⟨job, located, owned, -⟩ := opened
    obtain ⟨there, same⟩ := Table.find_eq_some_iff.mp located
    rw [← same] at addressed
    obtain ⟨normal, allowed⟩ := (gate_iff collation roles there owned).mpr addressed
    exact ⟨_, ⟨row, get_ok_iff.mpr ⟨found, visible⟩, sent, normal, (), same ▸ allowed, rfl⟩, rfl⟩

end Requests

/-- In every state that `users_role_check` admits, whatever the relay answers. -/
theorem never_a_relay (platform : Platform) (collation : Text → Text → Bool) (relay : Message → Except AppError Unit)
    (conditions : DiaryEntryId → Conditions) (db : Db)
    (roles : ∀ u ∈ db.users.rows, (Role.parse u.role).isSome = true) (s : SessionUser) (request : EmailRequest) :
    (∀ message, (perform platform collation relay conditions db s request).handed = some message →
      ∃ job, request.job db = some job ∧
        Addressed db s.principal.companyId platform job request.recipients message.recipients) ∧
    ∀ address ∈ request.recipients,
      looksLikeEmail (normaliseEmail platform address) = false ∨
        (∀ job, request.job db = some job → ¬ Entitled db s.principal.companyId job (normaliseEmail platform address)) →
      (perform platform collation relay conditions db s request).handed = none := by
  have colleagues (message : Message)
      (handed : (perform platform collation relay conditions db s request).handed = some message) :
      ∃ job, request.job db = some job ∧
        Addressed db s.principal.companyId platform job request.recipients message.recipients := by
    cases request with
    | entry id request =>
      obtain ⟨row, found, -, addressed⟩ := (emailEntry_handed roles).mp ⟨message, handed, rfl⟩
      exact ⟨row.jobId, by simp only [EmailRequest.job, found, Option.map_some], addressed⟩
    | form job submitted subject body => exact ⟨job, rfl, ((emailForm_handed roles).mp handed).2.1⟩
  refine ⟨colleagues, fun address submitted refused => ?_⟩
  cases handed : (perform platform collation relay conditions db s request).handed with
  | none => rfl
  | some message =>
    obtain ⟨job, about, addressed⟩ := colleagues message handed
    have sent : normaliseEmail platform address ∈ message.recipients := by
      rw [addressed.normalised, List.mem_eraseDups]
      exact List.mem_map_of_mem submitted
    rcases refused with malformed | stranger
    · rw [addressed.wellFormed _ sent] at malformed
      cases malformed
    · exact absurd (addressed.entitled _ sent) (stranger job about)

/- A supervisor writes to himself, in another spelling, about the job he is assigned to. -/

def lowering : Platform := { AuthService.samplePlatform with lowercase := fun t => t.map Char.toLower }

def tom : SessionUser where
  user := ⟨8, 1, text "Tom", text "tom@example.com", .supervisor, none, true, none⟩
  principal := ⟨8, 1, .supervisor⟩
  permissions := []
  entitlement := ⟨true, true, true, none⟩

def walkthrough (submitted : List Text) : EmailRequest := .form 2 submitted (text "Walkthrough") (text "All good.")

def tried (submitted : List Text) : Sending :=
  perform lowering (fun _ _ => true) (fun _ => .ok ()) (fun _ => ⟨none, none, none⟩) Visibility.oneAssigned tom
    (walkthrough submitted)

theorem tom_written_once :
    (∃ message, (tried [text " TOM@example.com", text "tom@example.com"]).handed = some message ∧
      message.recipients = [text "tom@example.com"] ∧ Entitled Visibility.oneAssigned 1 2 (text "tom@example.com")) ∧
    (tried [text "tom@example.com", text "tom@"]).handed = none := by
  have roles : ∀ u ∈ Visibility.oneAssigned.users.rows, (Role.parse u.role).isSome = true := by decide
  have checked (submitted : List Text) := never_a_relay lowering (fun _ _ => true) (fun _ => .ok ())
    (fun _ => ⟨none, none, none⟩) Visibility.oneAssigned roles tom (walkthrough submitted)
  have handed : (tried [text " TOM@example.com", text "tom@example.com"]).handed =
      some ⟨[text "tom@example.com"], text "Walkthrough", text "All good.", false⟩ := by decide +kernel
  constructor
  · obtain ⟨job, about, addressed⟩ := (checked _).1 _ handed
    cases about
    exact ⟨_, handed, rfl, addressed.entitled _ (List.mem_singleton_self _)⟩
  · exact (checked _).2 (text "tom@") (by decide) (.inl (by decide))

end Colleagues
