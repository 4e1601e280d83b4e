import PmKonstruct.Library.ReadCommitted
import PmKonstruct.Settings.BrandingStore

/- The calls that replace one image of a company's branding, under READ COMMITTED. The upsert answers the old value from a
   sub-select, which sees what the statement saw when it started; the row it overwrites is the one it finds once it has
   its lock. What a call discards follows from its answer, after its commit. -/
namespace BrandingPrograms
open PlainText DomainErrors Accounts KeyedTable ReadCommitted BrandingStore
open StatementProgram (Program)

/-- What the check of an uploaded object comes to. A refused object may be removed from the bucket. -/
inductive Verdict where
  | accepted
  | refused (removed : Bool)
  deriving DecidableEq, Repr

inductive Statement where
  | verify (key : Text)
  | setImage (key : Option Text)

abbrev Answer : Statement → Type
  | .verify _ => Verdict
  | .setImage _ => Except PortError (Option Text)

/-- The verdict of the bucket, a fault of the driver, and the time of the database. -/
structure Env where
  verdict : Verdict
  fault : Option PortError
  now : Instant

/-- The row of the company, or its place in the unique index. -/
inductive Lock where
  | brandingOf (company : CompanyId)
  deriving DecidableEq

inductive Result where
  | replaced (previous : Option Text)
  | refused (removed : Bool)
  | failed (e : PortError)
  deriving DecidableEq, Repr

abbrev Steps : Type := Program Statement Answer (Ending Result)

abbrev Branded : Type := Table CompanyBrandingRow

section Slot
variable (scope : CompanyId) (banner : Bool)

/-- The key that is stored in the slot. -/
def slotOf (t : Branded) : Option Text := (rowOf t scope).bind (·.branding.image banner)

/-- `INSERT .. ON CONFLICT DO UPDATE .. RETURNING (SELECT ..)`. -/
def setImage (now : Instant) (key : Option Text) (snapshot : Branded) :
    Effect (Except PortError (Option Text)) Branded Lock where
  answer := .ok (slotOf scope banner snapshot)
  change t := (setBrandingImage t scope now banner key).2
  awaits := []
  takes := [.brandingOf scope]
  drawn := 0

def execute (env : Env) (_ : Int) (statement : Statement) (snapshot _ : Branded) :
    Effect (Answer statement) Branded Lock :=
  match statement with
  | .verify _ => .answers env.verdict
  | .setImage key =>
    match env.fault with
    | some e => .answers (.error e)
    | none => setImage scope banner env.now key snapshot

end Slot

/-- An uploaded object goes by its key, which is made of the company, the slot and the stored name. -/
inductive Request where
  | confirm (key : Text)
  | clear
  deriving DecidableEq, Repr

def Request.key : Request → Option Text
  | .confirm key => some key
  | .clear => none

def replaceImage (key : Option Text) : Steps :=
  .stmt (.setImage key) fun
  | .error e => .done (.rollback (.failed e))
  | .ok previous => .done (.commit (.replaced previous))

def confirmImage (key : Text) : Steps :=
  .stmt (.verify key) fun
  | .refused removed => .done (.rollback (.refused removed))
  | .accepted => replaceImage (some key)

def clearImage : Steps := replaceImage none

def Request.program : Request → Steps
  | .confirm key => confirmImage key
  | .clear => clearImage

abbrev Replacing : Type := Transaction Statement Answer Result Request Branded Lock

abbrev Replacings : Type := Config Statement Answer Result Request Branded Lock

/-- A displaced object is removed, unless it is the one just stored. -/
def sweep (previous : Option Text) (keep : Text) : Option Text := previous.filter fun old => old ≠ [] && old ≠ keep

/-- What an ended call was told that it displaced. -/
def returned (tx : Replacing) : Option Text :=
  match tx.phase with
  | .committed (.replaced previous) => previous
  | _ => none

/-- The object that an ended call has removed from the bucket. -/
def discarded (tx : Replacing) : Option Text :=
  match tx.phase with
  | .committed (.replaced previous) => sweep previous (tx.request.key.getD [])
  | .undone (some (.refused true)) => tx.request.key
  | _ => none

/-- Any number of calls for one slot of one company, on any branding that has the given key there. -/
def replacings (scope : CompanyId) (banner : Bool) (first : Option Text)
    (permits : Replacings → Label Request Env → Bool) :
    Database Statement Answer Result Request Env Branded Lock where
  program := Request.program
  execute := execute scope banner
  conflicts a b := a = b
  initial t _ := slotOf scope banner t = first
  permits := permits

end BrandingPrograms
