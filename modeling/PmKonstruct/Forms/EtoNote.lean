import PmKonstruct.Domain.Errors
import PmKonstruct.Library.CalendarDate

/- The extras-to-order note: what the client submits, and the body of the diary note written from it. The
   internal reason and the shareable requirements live in one text under labelled headings. -/
namespace EtoNote
open PlainText DecimalText DomainErrors
open CalendarDate (padded)

/-- `{job_number}-{NN}`, under the job's id when it has no number. -/
def poNumber (etoNumber : Int) (jobNumber : Text) (job : JobId) : Text :=
  let given := trim jobNumber
  (if given = [] then decimal job else given) ++ ('-' :: padded 2 etoNumber)

structure EtoInput where
  jobId : JobId
  reason : Text
  details : Text
  deriving DecidableEq, Repr

def EtoInput.validate (input : EtoInput) : Except DomainError Unit :=
  if input.jobId ≤ 0 then .error (.invalid "jobId" "a valid job is required")
  else if trim input.reason = [] then .error (.invalid "reason" "an internal ETO reason is required")
  else if trim input.details = [] then .error (.invalid "details" "ETO requirements are required")
  else .ok ()

structure JobHeader where
  jobNumber : Text
  name : Text
  address : Text
  deriving DecidableEq, Repr

/-- `job_number — name — address`, skipping blanks. -/
def JobHeader.line (job : JobHeader) : Text :=
  join (text " — ") (([job.jobNumber, job.name, job.address].map trim).filter (· ≠ []))

def etoNote (poNumber raisedBy : Text) (job : JobHeader) (input : EtoInput) : Text :=
  join ['\n']
    [ text "ETO " ++ poNumber ++ text " — EXTRA TO ORDER",
      text "PURCHASE ORDER: " ++ poNumber,
      text "Raised by: " ++ raisedBy,
      text "Job: " ++ job.line,
      [],
      text "INTERNAL REASON — DO NOT EMAIL OR SHARE",
      trim input.reason,
      [],
      text "WHAT IS REQUIRED",
      trim input.details,
      [],
      text "Manager approval required before sharing." ]

def etoEntrySummary (poNumber : Text) : Text := text "ETO " ++ poNumber ++ text " — Pending Manager Approval"

/-- The number stands in no column, so it is read back out of the note. -/
def parseEtoNumber (content : Text) (note : DiaryNoteId) : Text :=
  let numbers := (lines content).filterMap fun line => do
    let rest ← stripPrefix (text "ETO ") line
    let (number, _) ← splitAtText (text " — ") rest
    if trim number = [] then none else some (trim number)
  numbers.head?.getD (text "ETO-" ++ decimal note)

def parseEtoRaisedBy (content : Text) : Option Text :=
  let names := (lines content).filterMap fun line => do
    let rest ← stripPrefix (text "Raised by:") line
    if trim rest = [] then none else some (trim rest)
  names.head?

/-- The part of the note above the internal heading. -/
def noteHead (poNumber raisedBy : Text) (job : JobHeader) : Text :=
  join ['\n']
    [ text "ETO " ++ poNumber ++ text " — EXTRA TO ORDER",
      text "PURCHASE ORDER: " ++ poNumber,
      text "Raised by: " ++ raisedBy,
      text "Job: " ++ job.line,
      [] ]

/-- The part of the note from the shareable heading on. -/
def noteTail (details : Text) : Text :=
  text "WHAT IS REQUIRED" ++ '\n' :: (trim details ++ '\n' :: '\n' ::
    text "Manager approval required before sharing.")

theorem etoNote_sections (poNumber raisedBy : Text) (job : JobHeader) (input : EtoInput) :
    etoNote poNumber raisedBy job input =
      noteHead poNumber raisedBy job ++ '\n' :: (text "INTERNAL REASON — DO NOT EMAIL OR SHARE" ++
        '\n' :: (trim input.reason ++ '\n' :: '\n' :: noteTail input.details)) := by
  simp only [etoNote, noteHead, noteTail, join_cons_cons, join_singleton, List.append_assoc,
    List.cons_append, List.nil_append]

end EtoNote
