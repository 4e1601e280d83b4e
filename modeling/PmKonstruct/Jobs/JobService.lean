import PmKonstruct.Jobs.JobStore

/- The use cases that create, change and delete a job and assign people to it. -/
namespace JobService
open DomainErrors Accounts Schema RowSecurity Requests
open JobStore (JobInput JobAssignment)
open AuthService (SessionUser)

section Service
variable (db : Db) (s : SessionUser) (now : Instant)

def create (input : JobInput) : Outcome JobRow :=
  attempt db (inDomain input.normalised.validate) fun _ =>
    committed db (JobStore.create db s.principal.companyId now input.normalised)

def update (id : JobId) (input : JobInput) : Outcome JobRow :=
  attempt db (getJob db s id) fun _ =>
    attempt db (inDomain input.normalised.validate) fun _ =>
      orNotFound "Job" (committed db (JobStore.update db s.principal.companyId now id input.normalised))

/-- Neither here nor below is the user looked up. -/
def addAssignment (id : JobId) (user : UserId) (primary : Bool) : Outcome (List JobAssignment) :=
  attempt db (getJob db s id) fun _ =>
    committed db (JobStore.addAssignment db s.principal.companyId now id user primary)

def removeAssignment (id : JobId) (user : UserId) : Outcome (List JobAssignment) :=
  attempt db (getJob db s id) fun _ =>
    committed db (.ok (JobStore.removeAssignment db s.principal.companyId now id user))

def setPrimary (id : JobId) (user : UserId) : Outcome (List JobAssignment) :=
  attempt db (getJob db s id) fun _ =>
    committed db (JobStore.setPrimaryAssignment db s.principal.companyId now id user)

/-- Deletes a job and everything hanging off it. -/
def purge (id : JobId) : Outcome Unit :=
  attempt db (getJob db s id) fun _ => deletedOrNotFound "Job" (JobStore.purge db s.principal.companyId id)

end Service

end JobService
