import Mathlib.Init

/- The error taxonomies of the three layers and the identifiers that travel between them. Identifiers are
   signed 32-bit columns handed out by sequences; only their equality and sign are ever inspected. -/
namespace DomainErrors

abbrev CompanyId := Int
abbrev UserId := Int
abbrev JobId := Int
abbrev JobAssignmentId := Int
abbrev JobTaskId := Int
abbrev JobLinkId := Int
abbrev DiaryEntryId := Int
abbrev DiaryNoteId := Int
abbrev DiaryNoteCommentId := Int
abbrev MediaId := Int
abbrev InspectionFormId := Int
abbrev CallForwardItemId := Int
abbrev CallForwardTemplateId := Int
abbrev SchedulerWorkerId := Int
abbrev SchedulerAllocationId := Int
abbrev SchedulerAbsenceId := Int

inductive DomainError where
  | forbidden (message : String)
  | notFound (entity : String)
  | invalid (field reason : String)
  | ruleViolation (message : String)
  | conflict (message : String)
  | billingRequired (message : String)
  deriving DecidableEq, Repr

/-- A driver error after translation, with the constraint name when the driver reports one. -/
inductive PortError where
  | notFound
  | conflict (constraint : Option String)
  | checkViolation (constraint : Option String)
  | storage (detail : String)
  | unavailable (service detail : String)
  | rejected (service detail : String)
  deriving DecidableEq, Repr

inductive AppError where
  | domain (error : DomainError)
  | invalidCredentials
  | unauthenticated
  | invalidToken
  | rateLimited (retryAfterSecs : Nat)
  | tooManyRequests (message : String)
  | featureUnavailable (message : String)
  | port (error : PortError)
  | internal (detail : String)
  deriving DecidableEq, Repr

end DomainErrors
