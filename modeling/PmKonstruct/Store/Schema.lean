import PmKonstruct.Identity.AuthStore
import PmKonstruct.Library.CalendarDate

/- The tables behind jobs, the site diary, media, the call-forward programme and the trade scheduler. A column
   under a `CHECK` on a closed set is an enumeration, so a row outside the set cannot be written down. -/
namespace Schema
open PlainText DomainErrors Accounts AuthStore KeyedTable CalendarDate

inductive JobStatus where
  | active
  | completed
  | archived
  | onHold
  deriving DecidableEq, Repr

inductive NoteCategory where
  | general
  | client
  | trades
  | siteConditions
  | issues
  | safety
  | materials
  | eto
  deriving DecidableEq, Repr

/-- What the category column admits: the categories a client may send, and the one inspections write. -/
inductive StoredCategory where
  | listed (category : NoteCategory)
  | propertyInspection
  deriving DecidableEq, Repr

inductive ActionStatus where
  | action
  | processing
  | completed
  deriving DecidableEq, Repr

inductive FileType where
  | photo
  | video
  | document
  deriving DecidableEq, Repr

inductive ItemType where
  | header
  | stageClaim
  | task
  deriving DecidableEq, Repr

inductive CfStatus where
  | notStarted
  | inProgress
  | completed
  | onHold
  deriving DecidableEq, Repr

inductive AbsenceType where
  | sick
  | leave
  | tradeSchool
  deriving DecidableEq, Repr

structure JobRow where
  id : JobId
  companyId : CompanyId
  name : Text
  jobNumber : Text
  client : Text
  clientNumber : Option Text
  clientEmail : Option Text
  address : Text
  status : JobStatus
  startDate : Option Date
  endDate : Option Date
  managerId : Option UserId
  supervisorId : Option UserId
  dropboxPath : Option Text
  description : Option Text
  contact2Name : Option Text
  contact2Phone : Option Text
  contact2Email : Option Text
  createdAt : Instant
  updatedAt : Instant
  deriving DecidableEq, Repr

structure JobAssignmentRow where
  id : JobAssignmentId
  jobId : JobId
  userId : UserId
  isPrimary : Bool
  assignedAt : Instant
  deriving DecidableEq, Repr

structure JobTaskRow where
  id : JobTaskId
  jobId : JobId
  title : Text
  status : Text
  notes : Option Text
  sortOrder : Int
  createdAt : Instant
  updatedAt : Instant
  deriving DecidableEq, Repr

/-- `job_dropbox_folders`. -/
structure JobLinkRow where
  id : JobLinkId
  jobId : JobId
  companyId : CompanyId
  label : Text
  path : Text
  sortOrder : Int
  createdAt : Instant
  deriving DecidableEq, Repr

structure SiteDiaryRow where
  id : DiaryEntryId
  jobId : JobId
  authorId : Option UserId
  date : Date
  workCompleted : Text
  actionStatus : Option ActionStatus
  actionRaisedBy : Option UserId
  deriving DecidableEq, Repr

structure DiaryNoteRow where
  id : DiaryNoteId
  diaryEntryId : DiaryEntryId
  category : StoredCategory
  content : Text
  actionStatus : Option ActionStatus
  actionRaisedBy : Option UserId
  sortOrder : Int
  archived : Bool
  createdAt : Instant
  deriving DecidableEq, Repr

structure DiaryNoteCommentRow where
  id : DiaryNoteCommentId
  noteId : DiaryNoteId
  authorId : Option UserId
  content : Text
  createdAt : Instant
  deriving DecidableEq, Repr

structure DiaryMediaRow where
  id : MediaId
  diaryEntryId : DiaryEntryId
  noteId : Option DiaryNoteId
  fileType : FileType
  mimeType : Text
  originalName : Text
  storedName : Text
  fileSize : Int
  url : Text
  uploadedBy : Option UserId
  createdAt : Instant
  deriving DecidableEq, Repr

structure JobMediaRow where
  id : MediaId
  jobId : JobId
  fileType : FileType
  mimeType : Text
  originalName : Text
  storedName : Text
  fileSize : Int
  url : Text
  uploadedBy : Option UserId
  createdAt : Instant
  deriving DecidableEq, Repr

structure InspectionFormRow where
  id : InspectionFormId
  companyId : CompanyId
  jobId : JobId
  createdBy : UserId
  diaryEntryId : DiaryEntryId
  diaryNoteId : DiaryNoteId
  inspectionDate : Date
  inspector : Text
  inspectionType : Text
  stage : Text
  observations : Text
  weatherData : Option Text
  revision : Int
  createdAt : Instant
  updatedAt : Instant
  deriving DecidableEq, Repr

structure InspectionFormItemRow where
  id : Int
  formId : InspectionFormId
  clientKey : Text
  room : Text
  description : Text
  actioned : Bool
  sortOrder : Int
  deriving DecidableEq, Repr

structure InspectionFormMediaRow where
  id : Int
  formId : InspectionFormId
  itemId : Int
  diaryMediaId : MediaId
  sortOrder : Int
  deriving DecidableEq, Repr

structure EtoJobSequenceRow where
  jobId : JobId
  nextNumber : Int
  deriving DecidableEq, Repr

structure CallForwardRow where
  id : CallForwardItemId
  jobId : JobId
  title : Text
  itemType : ItemType
  supplierTrade : Option Text
  estStart : Option Date
  estFinish : Option Date
  actualStart : Option Date
  actualFinish : Option Date
  status : CfStatus
  notes : Option Text
  sortOrder : Int
  parentId : Option CallForwardItemId
  createdAt : Instant
  updatedAt : Instant
  deriving DecidableEq, Repr

/-- One line of a template document. -/
structure TemplateItem where
  localId : Int
  localParentId : Option Int
  title : Text
  itemType : Text
  supplierTrade : Option Text
  sortOrder : Int
  deriving DecidableEq, Repr

structure CallForwardTemplateRow where
  id : CallForwardTemplateId
  companyId : CompanyId
  name : Text
  description : Option Text
  items : List TemplateItem
  createdAt : Instant
  updatedAt : Instant
  deriving DecidableEq, Repr

structure SchedulerWorkerRow where
  id : SchedulerWorkerId
  companyId : CompanyId
  deriving DecidableEq, Repr

structure SchedulerMaintenanceJobRow where
  id : Int
  companyId : CompanyId
  deriving DecidableEq, Repr

structure SchedulerAllocationRow where
  id : SchedulerAllocationId
  companyId : CompanyId
  workerId : SchedulerWorkerId
  jobId : Option JobId
  maintenanceJobId : Option Int
  assignedDate : Date
  note : Option Text
  deriving DecidableEq, Repr

structure SchedulerAbsenceRow where
  id : SchedulerAbsenceId
  companyId : CompanyId
  workerId : SchedulerWorkerId
  absenceType : AbsenceType
  startDate : Date
  endDate : Date
  deriving DecidableEq, Repr

instance : Keyed JobRow := ⟨JobRow.id⟩
instance : Keyed JobAssignmentRow := ⟨JobAssignmentRow.id⟩
instance : Keyed JobTaskRow := ⟨JobTaskRow.id⟩
instance : Keyed JobLinkRow := ⟨JobLinkRow.id⟩
instance : Keyed SiteDiaryRow := ⟨SiteDiaryRow.id⟩
instance : Keyed DiaryNoteRow := ⟨DiaryNoteRow.id⟩
instance : Keyed DiaryNoteCommentRow := ⟨DiaryNoteCommentRow.id⟩
instance : Keyed DiaryMediaRow := ⟨DiaryMediaRow.id⟩
instance : Keyed JobMediaRow := ⟨JobMediaRow.id⟩
instance : Keyed InspectionFormRow := ⟨InspectionFormRow.id⟩
instance : Keyed InspectionFormItemRow := ⟨InspectionFormItemRow.id⟩
instance : Keyed InspectionFormMediaRow := ⟨InspectionFormMediaRow.id⟩
instance : Keyed CallForwardRow := ⟨CallForwardRow.id⟩
instance : Keyed CallForwardTemplateRow := ⟨CallForwardTemplateRow.id⟩
instance : Keyed SchedulerWorkerRow := ⟨SchedulerWorkerRow.id⟩
instance : Keyed SchedulerMaintenanceJobRow := ⟨SchedulerMaintenanceJobRow.id⟩
instance : Keyed SchedulerAllocationRow := ⟨SchedulerAllocationRow.id⟩
instance : Keyed SchedulerAbsenceRow := ⟨SchedulerAbsenceRow.id⟩

/-- The deletion queue is a set of object keys: the application may add to it and never reads it. The numbers of
    extras to order are kept under the id of their job. -/
structure Db where
  users : Table UserRow
  jobs : Table JobRow
  jobAssignments : Table JobAssignmentRow
  jobTasks : Table JobTaskRow
  jobLinks : Table JobLinkRow
  siteDiary : Table SiteDiaryRow
  diaryNotes : Table DiaryNoteRow
  diaryNoteComments : Table DiaryNoteCommentRow
  diaryMedia : Table DiaryMediaRow
  jobMedia : Table JobMediaRow
  mediaDeletionQueue : List Text
  inspectionForms : Table InspectionFormRow
  inspectionFormItems : Table InspectionFormItemRow
  inspectionFormMedia : Table InspectionFormMediaRow
  etoJobSequences : List EtoJobSequenceRow
  callForward : Table CallForwardRow
  callForwardTemplates : Table CallForwardTemplateRow
  schedulerWorkers : Table SchedulerWorkerRow
  schedulerMaintenanceJobs : Table SchedulerMaintenanceJobRow
  schedulerAllocations : Table SchedulerAllocationRow
  schedulerAbsences : Table SchedulerAbsenceRow

def Db.empty : Db where
  users := .empty
  jobs := .empty
  jobAssignments := .empty
  jobTasks := .empty
  jobLinks := .empty
  siteDiary := .empty
  diaryNotes := .empty
  diaryNoteComments := .empty
  diaryMedia := .empty
  jobMedia := .empty
  mediaDeletionQueue := []
  inspectionForms := .empty
  inspectionFormItems := .empty
  inspectionFormMedia := .empty
  etoJobSequences := []
  callForward := .empty
  callForwardTemplates := .empty
  schedulerWorkers := .empty
  schedulerMaintenanceJobs := .empty
  schedulerAllocations := .empty
  schedulerAbsences := .empty

end Schema
