import PmKonstruct.Store.Requests
import PmKonstruct.Store.RowSecurity
import PmKonstruct.Users.UserStore

/- The use cases of a manager on the accounts of the company. -/
namespace UsersService
open DomainErrors Accounts Schema Requests
open AuthService (SessionUser)

def assertNotSelf (actor target : UserId) (what : String) : Except DomainError Unit :=
  if actor = target then .error (.invalid "id" what) else .ok ()

section Service
variable (db : Db) (s : SessionUser)

def get (id : UserId) : Except AppError User :=
  match UserStore.find db s.principal.companyId id with
  | .error e => .error (.port e)
  | .ok none => .error (.domain (.notFound "User"))
  | .ok (some user) => .ok user

def delete (id : UserId) : Outcome Unit :=
  attempt db (inDomain (assertNotSelf s.user.id id "You cannot delete your own account")) fun _ =>
    attempt db (get db s id) fun _ => deletedOrNotFound "User" (UserStore.delete db s.principal.companyId id)

end Service

end UsersService
