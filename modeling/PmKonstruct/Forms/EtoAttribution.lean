import PmKonstruct.Diary.DiaryService
import PmKonstruct.Forms.EtoStore
import PmKonstruct.Library.TransitionRuns
import PmKonstruct.Media.MediaService
import PmKonstruct.Users.UsersService

/- Who raised an extra to order. The column that says so is also the column a status change writes, with whoever
   makes it. -/
namespace EtoAttribution
open PlainText DomainErrors Accounts AuthStore CalendarDate Schema KeyedTable RowSecurity Requests TransitionRuns
open EtoNote EtoStore
open AuthService (SessionUser)
open MediaService (assertJobAccess)
open UserStore (visibleUser)

section Service
variable (db : Db) (s : SessionUser)

def raiseEto (now : Instant) (today : Date) (input : EtoInput) : Outcome EtoRaised :=
  attempt db (inDomain input.validate) fun _ =>
    attempt db (assertJobAccess db s input.jobId) fun _ =>
      committed db (EtoStore.raiseEto db s.principal.companyId now s.user.id s.user.name input today)

def etosForJob (job : JobId) : Except AppError (List EtoListItem) :=
  (assertJobAccess db s job).map fun _ => EtoStore.etosForJob db s.principal.companyId job

end Service

inductive Call where
  | raiseEto (input : EtoInput)
  | setNoteActionStatus (entry : DiaryEntryId) (note : DiaryNoteId) (status : Option ActionStatus)
  | deleteUser (id : UserId)
  deriving DecidableEq, Repr

structure Request where
  now : Instant
  today : Date
  session : SessionUser
  call : Call

/-- The store, and who raised which note in the run so far. -/
structure State where
  db : Db
  raised : List (DiaryNoteId × UserId)

def serve (state : State) (r : Request) : State :=
  match r.call with
  | .raiseEto input =>
    match raiseEto state.db r.session r.now r.today input with
    | (.ok eto, after) => ⟨after, (eto.noteId, r.session.user.id) :: state.raised⟩
    | (.error _, after) => ⟨after, state.raised⟩
  | .setNoteActionStatus entry note status =>
    ⟨(DiaryService.setNoteActionStatus state.db r.session entry note status).2, state.raised⟩
  | .deleteUser id => ⟨(UsersService.delete state.db r.session id).2, state.raised⟩

/-- Every listing gives a raised note the name of its raiser, while the company has the account. -/
def RaiserNamed (state : State) : Prop :=
  ∀ raised ∈ state.raised, ∀ s job items, etosForJob state.db s job = .ok items →
    ∀ item ∈ items, item.noteId = raised.1 →
      ∀ user, visibleUser state.db s.principal.companyId raised.2 = some user → item.raisedBy = user.name

/-- The note is there for the session to change. -/
def changes (db : Db) (s : SessionUser) (entry : DiaryEntryId) (note : DiaryNoteId) : Bool :=
  (DiaryService.get db s entry).isOk &&
    (db.diaryNotes.reach (DiaryStore.noteVisible db s.principal.companyId) note).isSome

/-- A raised note is completed by its raiser alone. -/
def completedByRaiser (state : State) (r : Request) : Bool :=
  match r.call with
  | .setNoteActionStatus entry note (some .completed) =>
    !changes state.db r.session entry note ||
      state.raised.all fun raised => raised.1 ≠ note || raised.2 = r.session.user.id
  | _ => true

def etos (allowed : State → Request → Bool) : Machine State Request where
  initial state := state.raised = []
  step state r := some (serve state r)
  allowed := allowed

/-- A completed note that was raised in the run is in its raiser's name, or the raiser is gone. -/
structure Attributed (state : State) : Prop where
  known : ∀ raised ∈ state.raised, raised.1 < state.db.diaryNotes.serial
  named : ∀ raised ∈ state.raised, ∀ note ∈ state.db.diaryNotes.rows, note.id = raised.1 →
    note.actionStatus = some .completed → note.actionRaisedBy = some raised.2 ∨ state.db.users.find raised.2 = none

section Steps
variable {db after : Db} {scope : CompanyId} {s : SessionUser} {now : Instant} {today : Date} {state : State}
    {raised : List (DiaryNoteId × UserId)}

theorem allocateNumber_after {job : JobId} {number : Int} (allocated : allocateNumber db job = .ok (number, after)) :
    after.diaryNotes = db.diaryNotes ∧ after.users = db.users := by
  unfold allocateNumber at allocated
  simp only at allocated
  split at allocated
  · cases allocated
    exact ⟨rfl, rfl⟩
  · cases allocated

theorem raiseEto_committed {input : EtoInput} {eto : EtoRaised} (served : raiseEto db s now today input = (.ok eto, after)) :
    EtoStore.raiseEto db s.principal.companyId now s.user.id s.user.name input today = .ok (eto, after) := by
  unfold raiseEto attempt at served
  split at served
  · cases served
  · split at served
    · cases served
    · unfold committed at served
      split at served
      · cases served
      · next done =>
        cases served
        exact done

theorem raiseEto_failed {input : EtoInput} {e : AppError} (served : raiseEto db s now today input = (.error e, after)) :
    after = db := by
  unfold raiseEto attempt at served
  split at served
  · cases served
    rfl
  · split at served
    · cases served
      rfl
    · unfold committed at served
      split at served
      · cases served
        rfl
      · cases served

/-- A raised note is new, and its action is open. -/
theorem raiseEto_after {author : UserId} {name : Text} {input : EtoInput} {eto : EtoRaised}
    (done : EtoStore.raiseEto db scope now author name input today = .ok (eto, after)) :
    after.users = db.users ∧ eto.noteId = db.diaryNotes.serial ∧
      after.diaryNotes.serial = db.diaryNotes.serial + 1 ∧
      ∀ note ∈ after.diaryNotes.rows, note ∈ db.diaryNotes.rows ∨
        note.id = db.diaryNotes.serial ∧ note.actionStatus = some .action := by
  unfold EtoStore.raiseEto at done
  split at done
  · cases done
  · obtain ⟨⟨number, first⟩, allocated, done⟩ := bind_ok done
    obtain ⟨⟨entry, second⟩, entered, done⟩ := bind_ok done
    obtain ⟨⟨note, third⟩, noted, done⟩ := bind_ok done
    cases done
    obtain ⟨notes, users⟩ := allocateNumber_after allocated
    obtain ⟨-, rfl⟩ := insertRow_ok entered
    have written := insertRow_value noted
    obtain ⟨-, rfl⟩ := insertRow_ok noted
    subst written
    refine ⟨users, ?_, ?_, ?_⟩
    · exact congrArg Table.serial notes
    · exact congrArg (fun t => Table.serial t + 1) notes
    · intro note member
      rcases Table.mem_insert.mp member with old | rfl
      · exact .inl (notes ▸ old)
      · exact .inr ⟨congrArg Table.serial notes, rfl⟩

theorem raise_attributed {input : EtoInput} (attributed : Attributed state) :
    Attributed (serve state ⟨now, today, s, .raiseEto input⟩) := by
  unfold serve
  simp only
  split
  · next eto after served =>
    -- the request succeeded, so every check passed and the transaction committed
    have committed : EtoStore.raiseEto state.db s.principal.companyId now s.user.id s.user.name input today =
        .ok (eto, after) := raiseEto_committed served
    obtain ⟨users, fresh, serial, rows⟩ := raiseEto_after committed
    constructor
    · intro raised member
      rw [serial]
      rcases List.mem_cons.mp member with rfl | before
      · rw [fresh]
        exact Int.lt_succ _
      · exact Int.lt_trans (attributed.known raised before) (Int.lt_succ _)
    · intro raised member note there same completed
      rcases rows note there with old | ⟨new, opened⟩
      · rw [users]
        rcases List.mem_cons.mp member with rfl | before
        · have below := state.db.diaryNotes.below note old
          rw [show Keyed.key note = note.id from rfl, same, fresh] at below
          exact absurd below (Int.lt_irrefl _)
        · exact attributed.named raised before note old same completed
      · rw [opened] at completed
        cases completed
  · next e after served =>
    have unchanged : after = state.db := raiseEto_failed served
    rw [unchanged]
    exact attributed

theorem setStatus_attributed {entry : DiaryEntryId} {note : DiaryNoteId} {status : Option ActionStatus}
    (attributed : Attributed state)
    (own : completedByRaiser state ⟨now, today, s, .setNoteActionStatus entry note status⟩ = true) :
    Attributed (serve state ⟨now, today, s, .setNoteActionStatus entry note status⟩) := by
  apply attempt_keeps (fun db => Attributed ⟨db, state.raised⟩) attributed
  intro row seen
  rw [orNotFound_after]
  apply committed_keeps (fun db => Attributed ⟨db, state.raised⟩) attributed
  intro value after changed
  obtain ⟨users, serial, rows⟩ := DiaryStore.setNoteActionStatus_ok changed
  constructor
  · intro raised member
    exact serial.symm ▸ attributed.known raised member
  · intro raised member n there same completed
    rw [users]
    rcases rows n there with old | ⟨old, before, id, visible, rfl⟩
    · exact attributed.named raised member n old same completed
    · have set : status = some .completed := completed
      subst set
      have reached : state.db.diaryNotes.reach (DiaryStore.noteVisible state.db s.principal.companyId) note = some old :=
        Table.reach_eq_some_iff.mpr ⟨Table.find_eq_some_iff.mpr ⟨before, id⟩, visible⟩
      have accepted : changes state.db s entry note = true := by
        simp [changes, seen, reached, Except.isOk, Except.toBool]
      simp only [completedByRaiser, accepted, Bool.not_true, Bool.false_or, List.all_eq_true, Bool.or_eq_true,
        decide_eq_true_eq] at own
      have author := (own raised member).resolve_left fun apart => apart (same.symm.trans id)
      exact .inl (congrArg some author.symm)

theorem deleteUser_attributed {user : UserId} (attributed : Attributed state) :
    Attributed (serve state ⟨now, today, s, .deleteUser user⟩) := by
  apply attempt_keeps (fun db => Attributed ⟨db, state.raised⟩) attributed
  intro _ _
  apply attempt_keeps (fun db => Attributed ⟨db, state.raised⟩) attributed
  intro _ _
  rw [deletedOrNotFound_after]
  unfold UserStore.delete
  split
  · exact attributed
  · constructor
    · exact attributed.known
    · intro raised member note there same completed
      rw [UserStore.cascadeUser_notes] at there
      obtain ⟨old, before, rfl⟩ := Table.mem_update.mp there
      simp only [if_true] at same completed ⊢
      rw [UserStore.cascadeUser_users]
      rcases attributed.named raised member old before same completed with named | gone
      · rw [named]
        by_cases deleted : raised.2 = user
        · exact .inr (Table.find_delete_gone fun row same => decide_eq_true (same.trans deleted))
        · exact .inl (if_neg fun present => deleted (Option.some.inj present))
      · exact .inr (Table.find_delete_absent gone)

/-- What one request preserves. -/
theorem serve_attributed {r : Request} (attributed : Attributed state) (own : completedByRaiser state r = true) :
    Attributed (serve state r) := by
  obtain ⟨now, today, s, call⟩ := r
  cases call with
  | raiseEto input => exact raise_attributed attributed
  | setNoteActionStatus entry note status => exact setStatus_attributed attributed own
  | deleteUser id => exact deleteUser_attributed attributed

/-- A listed item was made from a completed note. -/
theorem listed_note {job : JobId} {items : List EtoListItem} {item : EtoListItem}
    (listed : etosForJob db s job = .ok items) (member : item ∈ items) :
    ∃ note ∈ db.diaryNotes.rows, note.id = item.noteId ∧ note.actionStatus = some .completed ∧
      item.raisedBy = raiserName db s.principal.companyId note := by
  obtain ⟨_, -, rfl⟩ := map_ok listed
  obtain ⟨note, there, made⟩ := List.mem_filterMap.mp member
  have selected := Table.mem_select.mp ((List.mem_insertionSort _).mp there)
  simp only [Bool.and_eq_true, decide_eq_true_eq] at selected
  obtain ⟨entry, -, made⟩ := Option.bind_eq_some_iff.mp made
  obtain ⟨row, -, made⟩ := Option.bind_eq_some_iff.mp made
  split at made
  · cases made
    exact ⟨note, selected.1, rfl, selected.2.1.2, rfl⟩
  · cases made

theorem raiserNamed_of_attributed (attributed : Attributed state) : RaiserNamed state := by
  intro raised member s job items listed item there same user account
  obtain ⟨note, stored, id, completed, name⟩ := listed_note listed there
  have found := (Table.reach_eq_some_iff.mp account).1
  rcases attributed.named raised member note stored (id.trans same) completed with named | gone
  · rw [name, raiserName, named, Option.bind_some, account]
    rfl
  · rw [gone] at found
    cases found

end Steps

/-- As long as nobody but the raiser completes a raised note, every list names the raiser. -/
theorem raiser_named (state : State) (reached : (etos completedByRaiser).Reachable state) : RaiserNamed state := by
  have attributed : Attributed state := by
    apply Reachable.invariant Attributed reached
    · intro start none
      constructor
      · intro raised member
        rw [none] at member
        cases member
      · intro raised member
        rw [none] at member
        cases member
    · intro before after request attributed own served
      cases served
      exact serve_attributed attributed own
  exact raiserNamed_of_attributed attributed

/- Tom supervises a job and raises an extra on it. Sarah, who manages the company, approves it. -/

def sessionOf (id : UserId) (name : Text) (role : Role) : SessionUser where
  user := ⟨id, 1, name, name, role, none, true, none⟩
  principal := ⟨id, 1, role⟩
  permissions := []
  entitlement := ⟨true, true, true, none⟩

def sarah : SessionUser := sessionOf 7 (text "Sarah") .manager

def tom : SessionUser := sessionOf 8 (text "Tom") .supervisor

def oneJob : State where
  db :=
    { Db.empty with
      users := .of [.plain 7 1 (text "Sarah") (text "Sarah") (text "MANAGER") (Eq.refl true),
        .plain 8 1 (text "Tom") (text "Tom") (text "SUPERVISOR") (Eq.refl true)] 9 (Eq.refl true)
      jobs := .of [⟨1, 1, [], text "J1", text "Smith", none, none, text "1 St", .active, none, none, none, some 8, none,
        none, none, none, none, 0, 0⟩] 2 (Eq.refl true) }
  raised := []

def extra : Request := ⟨0, 0, tom, .raiseEto ⟨1, text "Rock", text "Hire a breaker"⟩⟩

def approval (s : SessionUser) : Request := ⟨1, 0, s, .setNoteActionStatus 1 1 (some .completed)⟩

theorem nothing_raised : oneJob.raised = [] := rfl

theorem own_approval_named : ∃ state, (etos completedByRaiser).execute oneJob [extra, approval tom] = some state ∧
    state.raised = [(1, 8)] ∧ RaiserNamed state := by
  have run : ∃ state, (etos completedByRaiser).execute oneJob [extra, approval tom] = some state ∧
      state.raised = [(1, 8)] := ⟨_, rfl, rfl⟩
  obtain ⟨state, ran, who⟩ := run
  exact ⟨state, ran, who, raiser_named state (execute_reachable nothing_raised ran)⟩

theorem approval_takes_the_name : ∃ state, (etos fun _ _ => true).Reachable state ∧ ¬ RaiserNamed state := by
  have run : ∃ state, (etos fun _ _ => true).execute oneJob [extra, approval sarah] = some state ∧
      (1, 8) ∈ state.raised ∧ ∃ items item user, etosForJob state.db sarah 1 = .ok items ∧ item ∈ items ∧
        item.noteId = 1 ∧ visibleUser state.db 1 8 = some user ∧ item.raisedBy ≠ user.name :=
    ⟨_, rfl, by decide, _, _, _, rfl, List.mem_singleton_self _, rfl, rfl, by decide⟩
  obtain ⟨state, ran, raised, items, item, user, listed, member, same, account, other⟩ := run
  refine ⟨state, execute_reachable nothing_raised ran, ?_⟩
  intro named
  exact other (named (1, 8) raised sarah 1 items listed item member same user account)

end EtoAttribution
