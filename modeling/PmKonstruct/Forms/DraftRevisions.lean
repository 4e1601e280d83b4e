import PmKonstruct.Diary.NoteIsolation
import PmKonstruct.Forms.DraftPrograms

/- The revision of a draft under any interleaving: the conditional update of the claim is the one lock that every change
   of a form takes, so whoever holds it writes the form alone, from the revision that was expected. -/
namespace DraftRevisions
open DomainErrors Accounts Schema KeyedTable TransitionRuns ReadCommitted DraftPrograms
open StatementProgram (Event getElem?_append_cases getElem?_set_cases)
open InspectionStore (InspectionForm InspectionPhotoRecord nextRevision)
open PlainText (text)

/- What a trace says of the draft: found, claimed, and never missed afterwards. -/

inductive Progress where
  | begun
  | owned
  | claimed
  | lost
  deriving DecidableEq

abbrev Trace : Type := List (Event Statement Answer)

def advance (progress : Progress) (event : Event Statement Answer) : Progress :=
  match progress, event with
  | .begun, ⟨⟨_, .selectForm _ _⟩, .ok (some _)⟩ => .owned
  | .owned, ⟨⟨_, .claimRevision _ _ _⟩, .ok true⟩ => .claimed
  | .claimed, ⟨⟨_, .selectForm _ _⟩, .ok none⟩ => .lost
  | progress, _ => progress

def progress (trace : Trace) : Progress := trace.foldl advance .begun

theorem progress_snoc {trace : Trace} {event : Event Statement Answer} :
    progress (trace ++ [event]) = advance (progress trace) event := by
  rw [progress, List.foldl_append]
  rfl

/-- The statements that neither look for the form nor write it. -/
def aside : Query → Bool
  | .selectForm _ _ => false
  | .claimRevision _ _ _ => false
  | .writeFields _ _ => false
  | _ => true

theorem advance_aside {p : Progress} {scope : CompanyId} {query : Query} (other : aside query = true)
    (answer : Answer ⟨scope, query⟩) : advance p ⟨⟨scope, query⟩, answer⟩ = p := by
  cases query with
  | selectForm => cases other
  | claimRevision => cases other
  | writeFields => cases other
  | _ => cases p <;> rfl

theorem advance_fields {p : Progress} {scope : CompanyId} {form : InspectionFormId}
    {input : InspectionNote.InspectionDraftInput} (answer : Answer ⟨scope, .writeFields form input⟩) :
    advance p ⟨⟨scope, .writeFields form input⟩, answer⟩ = p := by
  cases p <;> rfl

/- The programs, whatever they are answered. -/

/-- What holds when a statement of the request is issued. -/
def At (request : Request) (past : Trace) (statement : Statement) : Prop :=
  statement.scope = request.scope ∧
    match statement.query with
    | .selectForm form user => form = request.id ∧ user = request.user
    | .claimRevision form expected _ => form = request.id ∧ expected = request.expected ∧ progress past = .owned
    | .writeFields form _ => form = request.id ∧ progress past = .claimed
    | _ => True

/-- A commit comes after the claim and returns the form; nothing else does. -/
def Ends (past : Trace) : Ending Result → Prop
  | .commit result => (progress past = .claimed ∧ ∃ form, result = .ok (some form)) ∨ progress past = .lost
  | .rollback result => ∀ form, result ≠ .ok (some form)

section Programs
variable {request : Request} {p : Progress}

def Runs (request : Request) (p : Progress) (steps : Steps) : Prop :=
  ∀ past, progress past = p → steps.Obeys (At request) Ends past

theorem runs_fail {e : PortError} : Runs request p (fail e) := by
  intro past _ form same
  cases same

theorem runs_stale : Runs request p stale := by
  intro past _ form same
  cases same

theorem runs_saved {form : InspectionForm} : Runs request .claimed (saved (some form)) :=
  fun _ here => .inl ⟨here, form, rfl⟩

theorem runs_lost : Runs request .lost (saved none) := fun _ here => .inr here

theorem obeys_ask {query : Query} {next : Reply query → Steps} {past : Trace} (here : At request past ⟨request.scope, query⟩)
    (later : ∀ reply, (next reply).Obeys (At request) Ends (past ++ [⟨⟨request.scope, query⟩, .ok reply⟩])) :
    (ask request.scope query next).Obeys (At request) Ends past := by
  refine ⟨here, fun answer => ?_⟩
  cases answer with
  | error e => exact runs_fail _ rfl
  | ok reply => exact later reply

theorem runs_ask {query : Query} {next : Reply query → Steps} (other : aside query = true)
    (later : ∀ reply, Runs request p (next reply)) : Runs request p (ask request.scope query next) := by
  intro past here
  apply obeys_ask
  · refine ⟨rfl, ?_⟩
    cases query with
    | selectForm => cases other
    | claimRevision => cases other
    | writeFields => cases other
    | _ => trivial
  · intro reply
    exact later reply _ (by rw [progress_snoc, here, advance_aside other])

/-- The form has been found, and its items and photos are read. -/
theorem runs_rest {next : Option InspectionForm → Steps} {row : InspectionFormRow}
    (found : ∀ form, Runs request p (next (some form))) :
    Runs request p (ask request.scope (.selectItems request.id) fun items =>
      ask request.scope (.selectPhotos request.id) fun photos => next (some (assemble row items photos))) :=
  runs_ask rfl fun _ => runs_ask rfl fun _ => found _

theorem runs_load_begun {next : Option InspectionForm → Steps} (missing : Runs request .begun (next none))
    (found : ∀ form, Runs request .owned (next (some form))) :
    Runs request .begun (load request.scope request.id request.user next) := by
  intro past here
  rw [load]
  refine obeys_ask ⟨rfl, rfl, rfl⟩ fun reply => ?_
  cases reply with
  | none => exact missing _ (by rw [progress_snoc, here]; rfl)
  | some row => exact runs_rest found _ (by rw [progress_snoc, here]; rfl)

/-- The draft is loaded again before the commit. -/
theorem runs_load_claimed : Runs request .claimed (load request.scope request.id request.user saved) := by
  intro past here
  rw [load]
  refine obeys_ask ⟨rfl, rfl, rfl⟩ fun reply => ?_
  cases reply with
  | none => exact runs_lost _ (by rw [progress_snoc, here]; rfl)
  | some row => exact runs_rest (fun _ => runs_saved) _ (by rw [progress_snoc, here]; rfl)

theorem runs_claiming {now : Instant} {next : InspectionForm → Steps}
    (later : ∀ form, Runs request .claimed (next form)) :
    Runs request .begun (claiming request.scope request.id request.user request.expected now next) := by
  rw [claiming]
  refine runs_load_begun runs_fail fun form past here => ?_
  refine obeys_ask ⟨rfl, rfl, rfl, here⟩ fun reply => ?_
  cases reply with
  | false => exact runs_stale _ rfl
  | true => exact later form _ (by rw [progress_snoc, here]; rfl)

theorem runs_detach {ids : List MediaId} {next : Steps} (later : Runs request p next) :
    Runs request p (detachMedia request.scope ids next) := by
  rw [detachMedia]
  split
  · exact later
  · refine runs_ask rfl fun rows => ?_
    dsimp only
    split
    · exact later
    · exact runs_ask rfl fun _ => later

theorem runs_attachEach {now : Instant} {form : InspectionForm} {next : Steps} {photos : List InspectionPhotoRecord}
    (later : Runs request p next) : Runs request p (attachEach request.scope request.id now form next photos) := by
  induction photos with
  | nil => exact later
  | cons photo rest ih =>
    refine runs_ask rfl fun item => ?_
    cases item with
    | none => exact runs_fail
    | some item => exact runs_ask rfl fun media => runs_ask rfl fun _ => ih

theorem runs_program : Runs request .begun (program request) := by
  rw [program]
  split
  · next input rendered shape =>
    have expected : request.expected = input.revision := by rw [Request.expected, shape]
    rw [saveDraft, ← expected]
    refine runs_claiming fun form past here => ?_
    refine obeys_ask ⟨rfl, rfl, here⟩ fun reply => ?_
    have written : Runs request .claimed
        (ask request.scope (.updateNote form.form.diaryNoteId request.user rendered) fun _ =>
          ask request.scope (.updateEntry form.form.diaryEntryId request.user rendered) fun _ =>
            load request.scope request.id request.user saved) :=
      runs_ask rfl fun _ => runs_ask rfl fun _ => runs_load_claimed
    refine (?_ : Runs request .claimed _) _ (by rw [progress_snoc, here]; rfl)
    refine runs_ask rfl fun orphaned => runs_detach (runs_ask rfl fun _ => ?_)
    split
    · exact written
    · exact runs_ask rfl fun _ => written
  · next expectedRevision photos shape =>
    have expected : request.expected = expectedRevision := by rw [Request.expected, shape]
    rw [attachPhotos, ← expected]
    exact runs_claiming fun form => runs_attachEach runs_load_claimed
  · next expectedRevision photoId shape =>
    have expected : request.expected = expectedRevision := by rw [Request.expected, shape]
    rw [deletePhoto, ← expected]
    refine runs_claiming fun form => runs_ask rfl fun media => ?_
    cases media with
    | none => exact runs_fail
    | some media => exact runs_detach runs_load_claimed

end Programs

/- What the statements write. -/

section Effects
variable {snapshot current db : Db} {scope : CompanyId} {serial : Int}

/-- An update changes nothing, or writes the image of a row that matched twice. -/
theorem updateOne_cases {Row : Type} [Keyed Row] {before now : Table Row} {p : Row → Bool} {id : Int} {lock : Lock}
    {change : Row → Except PortError Row} {put : Row → Db → Db} {effect : Effect (Except PortError Bool) Db Lock}
    (runs : effect = updateOne before now p id lock change put) :
    (effect.answer ≠ .ok true ∧ effect.change = fun db => db) ∨
    ∃ row image, now.reach p id = some row ∧ change row = .ok image ∧
      effect = ⟨.ok true, put image, [lock], [lock], 0⟩ := by
  rw [updateOne] at runs
  split at runs
  · subst runs
    exact .inl ⟨by simp [reading], rfl⟩
  · split at runs
    · subst runs
      exact .inl ⟨by simp, rfl⟩
    · next row reached =>
      split at runs
      · subst runs
        exact .inl ⟨by simp, rfl⟩
      · next image changed => exact .inr ⟨row, image, reached, changed, runs⟩

theorem updateOne_forms {Row : Type} [Keyed Row] {before now : Table Row} {p : Row → Bool} {id : Int} {lock : Lock}
    {change : Row → Except PortError Row} {put : Row → Db → Db}
    (keeps : ∀ image db, (put image db).inspectionForms = db.inspectionForms) :
    ((updateOne before now p id lock change put).change db).inspectionForms = db.inspectionForms := by
  have runs : updateOne before now p id lock change put = updateOne before now p id lock change put := rfl
  rcases updateOne_cases runs with ⟨-, same⟩ | ⟨row, image, -, -, same⟩
  · rw [same]
  · rw [same]
    exact keeps image db

theorem perform_forms {query : Query} (other : aside query = true) :
    ((perform snapshot current scope serial query).change db).inspectionForms = db.inspectionForms := by
  cases query with
  | selectForm => cases other
  | claimRevision => cases other
  | writeFields => cases other
  | upsertItems form items =>
    simp only [perform, upsertItems]
    split <;> rfl
  | updateNote => exact updateOne_forms fun _ _ => rfl
  | updateEntry => exact updateOne_forms fun _ _ => rfl
  | insertMedia form photo now =>
    simp only [perform, insertMedia]
    split <;> rfl
  | linkPhoto form item media =>
    simp only [perform, linkPhoto]
    split
    · rfl
    · split <;> rfl
  | _ => rfl

end Effects

/- Where a call stands against the committed forms. -/

def Untouched (pending : Db → Db) : Prop := ∀ db, (pending db).inspectionForms = db.inspectionForms

/-- The draft is there, and it is the user's. -/
def Owned (db : Db) (request : Request) : Prop :=
  db.inspectionForms.Has (fun f => (f.companyId, f.createdBy)) request.id (request.scope, request.user)

/-- The call holds the form, which stands at the revision it expected, and writes its next one. -/
structure Claim (stored : Db) (request : Request) (held : List Lock) (pending : Db → Db) (image : InspectionFormRow) :
    Prop where
  standing : stored.inspectionForms.Has (·.revision) request.id request.expected
  same : image.id = request.id
  next : image.revision = request.expected + 1
  owner : (image.companyId, image.createdBy) = (request.scope, request.user)
  writes : ∀ db, (pending db).inspectionForms = db.inspectionForms.put image
  held : .form request.id ∈ held

def Stands (stored : Db) (tx : Editing) : Prop :=
  match progress tx.trace with
  | .begun => Untouched tx.pending
  | .owned => Untouched tx.pending ∧ Owned stored tx.request
  | .claimed => Owned stored tx.request ∧ ∃ image, Claim stored tx.request tx.held tx.pending image
  | .lost => False

/-- A snapshot shows the draft once it has been found, and no draft that is not there. -/
def Views (stored : Db) (tx : Editing) (snapshot : Db) : Prop :=
  (progress tx.trace ≠ .begun → Owned snapshot tx.request) ∧ (Owned snapshot tx.request → Owned stored tx.request)

def Sound (stored : Db) (tx : Editing) : Prop :=
  match tx.phase with
  | .ready _ => Stands stored tx
  | .started snapshot _ _ => Stands stored tx ∧ Views stored tx snapshot
  | .committed result => (∃ form, result = .ok (some form)) ∧
      ∃ revision, stored.inspectionForms.Has (·.revision) tx.request.id revision ∧ tx.request.expected < revision
  | .undone _ => True

section Step
variable {stored snapshot : Db} {tx : Editing} {serial : Int} {statement : Statement}
    {next : Answer statement → Steps} {effect : Effect (Answer statement) Db Lock}

theorem owned_of_forms {db : Db} {request : Request} (same : db.inspectionForms = stored.inspectionForms)
    (owned : Owned stored request) : Owned db request := by
  rw [Owned, same]
  exact owned

theorem Claim.owned {request : Request} {held : List Lock} {pending : Db → Db} {image : InspectionFormRow}
    (claim : Claim stored request held pending image) : Owned (pending stored) request := by
  rw [Owned, claim.writes]
  exact ⟨image, Table.find_put_self claim.same, claim.owner⟩

theorem views_started (stands : Stands stored tx) : Views stored tx (tx.pending stored) := by
  rw [Stands] at stands
  rw [Views]
  split at stands
  · next begun =>
    exact ⟨fun found => absurd begun found, owned_of_forms (stands stored).symm⟩
  · exact ⟨fun _ => owned_of_forms (stands.1 stored) stands.2, fun _ => stands.2⟩
  · obtain ⟨owned, image, claim⟩ := stands
    exact ⟨fun _ => claim.owned, fun _ => owned⟩
  · exact stands.elim

/-- A statement that neither moves the call on nor writes a form. -/
theorem stands_same (stands : Stands stored tx)
    (still : progress (tx.trace ++ [⟨statement, effect.answer⟩]) = progress tx.trace)
    (forms : ∀ db, (effect.change db).inspectionForms = db.inspectionForms) :
    Stands stored (tx.ran serial next effect) := by
  rw [Stands] at stands ⊢
  simp only [Transaction.ran, still]
  split at stands
  · exact fun db => (forms _).trans (stands db)
  · exact ⟨fun db => (forms _).trans (stands.1 db), stands.2⟩
  · obtain ⟨owned, image, claim⟩ := stands
    exact ⟨owned, image, { claim with
      writes := fun db => (forms _).trans (claim.writes db)
      held := List.mem_append_left _ claim.held }⟩
  · exact stands.elim

theorem advance_error {p : Progress} {e : PortError} : advance p ⟨statement, .error e⟩ = p := by
  obtain ⟨scope, query⟩ := statement
  cases p <;> cases query <;> rfl

theorem stands_aside (snapshot : Db) {query : Query} {scope : CompanyId} {next : Answer ⟨scope, query⟩ → Steps}
    (other : aside query = true) (stands : Stands stored tx) :
    Stands stored (tx.ran serial next (perform snapshot (tx.pending stored) scope serial query)) :=
  stands_same stands (by rw [progress_snoc, advance_aside other]) fun _ => perform_forms other

theorem owned_of_select {form : InspectionFormRow} {request : Request}
    (found : selectForm snapshot request.scope request.id request.user = some form) : Owned snapshot request := by
  obtain ⟨located, visible⟩ := Table.reach_eq_some_iff.mp found
  simp only [Bool.and_eq_true, decide_eq_true_eq] at visible
  exact ⟨form, located, Prod.ext visible.1 visible.2⟩

theorem select_of_owned {request : Request} (owned : Owned snapshot request) :
    selectForm snapshot request.scope request.id request.user ≠ none := by
  obtain ⟨form, located, same⟩ := owned
  obtain ⟨company, creator⟩ := Prod.mk.inj same
  have reached : selectForm snapshot request.scope request.id request.user = some form :=
    Table.reach_eq_some_iff.mpr ⟨located, by simp [company, creator]⟩
  rw [reached]
  exact Option.some_ne_none form

theorem stands_selected {form : InspectionFormId} {user : UserId} {scope : CompanyId}
    {next : Answer ⟨scope, .selectForm form user⟩ → Steps} (stands : Stands stored tx) (views : Views stored tx snapshot)
    (here : At tx.request tx.trace ⟨scope, .selectForm form user⟩) :
    Stands stored (tx.ran serial next (perform snapshot (tx.pending stored) scope serial (.selectForm form user))) := by
  obtain ⟨rfl, rfl, rfl⟩ := here
  by_cases still : progress (tx.trace ++ [⟨⟨tx.request.scope, .selectForm tx.request.id tx.request.user⟩,
      .ok (selectForm snapshot tx.request.scope tx.request.id tx.request.user)⟩]) = progress tx.trace
  · exact stands_same stands still fun _ => rfl
  · rw [progress_snoc] at still
    rw [Stands] at stands ⊢
    simp only [Transaction.ran, progress_snoc, perform, reading]
    cases answer : selectForm snapshot tx.request.scope tx.request.id tx.request.user with
    | none =>
      rw [answer] at still
      cases place : progress tx.trace with
      | claimed =>
        have owned := views.1 (by rw [place]; exact Progress.noConfusion)
        exact absurd answer (select_of_owned owned)
      | _ =>
        rw [place] at still
        exact absurd rfl still
    | some row =>
      rw [answer] at still
      cases place : progress tx.trace with
      | begun =>
        rw [place] at stands
        exact ⟨stands, views.2 (owned_of_select answer)⟩
      | _ =>
        rw [place] at still
        exact absurd rfl still

theorem stands_claimed {form : InspectionFormId} {expected : Int} {now : Instant} {scope : CompanyId}
    {next : Answer ⟨scope, .claimRevision form expected now⟩ → Steps} (stands : Stands stored tx)
    (here : At tx.request tx.trace ⟨scope, .claimRevision form expected now⟩) :
    Stands stored (tx.ran serial next
      (perform snapshot (tx.pending stored) scope serial (.claimRevision form expected now))) := by
  obtain ⟨rfl, rfl, rfl, place⟩ := here
  have runs : perform snapshot (tx.pending stored) tx.request.scope serial
      (.claimRevision tx.request.id tx.request.expected now) = claimRevision snapshot (tx.pending stored)
        tx.request.scope tx.request.id tx.request.expected now := rfl
  rcases updateOne_cases runs with ⟨refused, same⟩ | ⟨row, image, reached, changed, same⟩
  · refine stands_same stands ?_ fun db => by rw [same]
    rw [progress_snoc, place]
    cases answer : (perform snapshot (tx.pending stored) tx.request.scope serial
        (.claimRevision tx.request.id tx.request.expected now)).answer with
    | error e => rfl
    | ok claimed =>
      cases claimed with
      | false => rfl
      | true => exact absurd answer refused
  · rw [Stands, place] at stands
    obtain ⟨untouched, owned⟩ := stands
    rw [Stands, same]
    simp only [Transaction.ran, progress_snoc, place]
    obtain ⟨found, matched⟩ := Table.reach_eq_some_iff.mp reached
    rw [untouched stored] at found
    simp only [Bool.and_eq_true, decide_eq_true_eq] at matched
    have owner := owned.unique ⟨row, found, rfl⟩
    have key := (Table.find_eq_some_iff.mp found).2
    split at changed
    · cases changed
      refine ⟨owned, nextRevision now row, ⟨row, found, matched.1⟩, key, ?_, owner.symm, ?_, ?_⟩
      · rw [nextRevision, matched.1]
      · intro db
        exact congrArg (·.put (nextRevision now row)) (untouched db)
      · exact List.mem_append_right _ List.mem_cons_self
    · cases changed

theorem stands_fields {form : InspectionFormId} {input : InspectionNote.InspectionDraftInput} {scope : CompanyId}
    {next : Answer ⟨scope, .writeFields form input⟩ → Steps} (stands : Stands stored tx)
    (here : At tx.request tx.trace ⟨scope, .writeFields form input⟩) :
    Stands stored (tx.ran serial next
      (perform snapshot (tx.pending stored) scope serial (.writeFields form input))) := by
  obtain ⟨rfl, rfl, place⟩ := here
  have runs : perform snapshot (tx.pending stored) tx.request.scope serial (.writeFields tx.request.id input) =
      writeFields snapshot (tx.pending stored) tx.request.scope tx.request.id input := rfl
  rcases updateOne_cases runs with ⟨-, same⟩ | ⟨row, image, reached, changed, same⟩
  · refine stands_same stands ?_ fun db => by rw [same]
    rw [progress_snoc, advance_fields]
  · rw [Stands, place] at stands
    obtain ⟨owned, before, claim⟩ := stands
    rw [Stands, same]
    simp only [Transaction.ran, progress_snoc, advance_fields, place]
    obtain ⟨found, -⟩ := Table.reach_eq_some_iff.mp reached
    rw [claim.writes, Table.find_put_self claim.same] at found
    cases found
    obtain ⟨key, revision, owner⟩ : image.id = row.id ∧ image.revision = row.revision ∧
        (image.companyId, image.createdBy) = (row.companyId, row.createdBy) := by
      cases changed
      exact ⟨rfl, rfl, rfl⟩
    refine ⟨owned, image, claim.standing, key.trans claim.same, revision.trans claim.next, owner.trans claim.owner, ?_,
      List.mem_append_left _ claim.held⟩
    intro db
    exact (congrArg (·.put image) (claim.writes db)).trans (Table.put_put key)

end Step

/- Every call of every run. -/

section Calls
variable {config after : Edits} {stored : Db} {tx mover : Editing} {result : Result}

theorem calls_obey (reached : edits.machine.Reachable config) :
    ∀ (i : Nat) tx, config.transactions[i]? = some tx → tx.Obeys (At tx.request) Ends :=
  transactions_obey At (fun _ => Ends) (fun _ => runs_program [] rfl) reached

/-- A commit comes from a call that holds its form and returns it. -/
theorem committing (obeys : mover.Obeys (At mover.request) Ends) (sound : Sound stored mover)
    (shape : mover.phase = .ready (.done (.commit result))) :
    (∃ form, result = .ok (some form)) ∧ Owned stored mover.request ∧
      ∃ image, Claim stored mover.request mover.held mover.pending image := by
  rw [Sound, shape] at sound
  rw [Transaction.Obeys, shape] at obeys
  rw [Stands] at sound
  rcases obeys with ⟨place, returned⟩ | place
  · rw [place] at sound
    exact ⟨returned, sound⟩
  · rw [place] at sound
    exact sound.elim

theorem sound_kept {i : Nat} {later : Editing} {label : Label Request (Option PortError)} {committed : Db} {serial : Int}
    (acts : Acts edits config i tx label committed serial later) (obeys : tx.Obeys (At tx.request) Ends)
    (sound : Sound config.committed tx) : Sound committed later := by
  cases acts with
  | start shape =>
    rw [Sound, shape] at sound
    exact ⟨sound, views_started sound⟩
  | @run env snapshot statement next effect shape runs free =>
    rw [Sound, shape] at sound
    rw [Transaction.Obeys, shape] at obeys
    obtain ⟨stands, views⟩ := sound
    obtain ⟨here, -⟩ := obeys
    obtain ⟨scope, query⟩ := statement
    cases env with
    | some e =>
      subst runs
      exact stands_same stands (by rw [progress_snoc]; exact advance_error) fun _ => rfl
    | none =>
      subst runs
      cases query with
      | selectForm => exact stands_selected stands views here
      | claimRevision => exact stands_claimed stands here
      | writeFields => exact stands_fields stands here
      | _ => exact stands_aside snapshot rfl stands
  | commit shape =>
    obtain ⟨returned, -, image, claim⟩ := committing obeys sound shape
    refine ⟨returned, image.revision, ?_, by rw [claim.next]; exact Int.lt_succ _⟩
    exact ⟨image, by rw [claim.writes]; exact Table.find_put_self claim.same, rfl⟩
  | rollback shape => trivial
  | abort live => trivial

theorem owned_after {request : Request} {image : InspectionFormRow} (owned : Owned stored request)
    (claim : Claim stored mover.request mover.held mover.pending image)
    (same : mover.request.id = request.id → Owned stored mover.request) : Owned (mover.pending stored) request := by
  rw [Owned, claim.writes]
  refine Table.Has.put owned fun here => ?_
  have equal : mover.request.id = request.id := claim.same.symm.trans here
  have other := same equal
  rw [Owned, equal] at other
  exact claim.owner.trans (other.unique owned)

theorem stands_after {image : InspectionFormRow} (stands : Stands stored tx)
    (claim : Claim stored mover.request mover.held mover.pending image) (owned : Owned stored mover.request)
    (apart : ∀ a ∈ tx.held, ∀ b ∈ mover.held, a ≠ b) : Stands (mover.pending stored) tx := by
  rw [Stands] at stands ⊢
  split at stands
  · exact stands
  · exact ⟨stands.1, owned_after stands.2 claim fun _ => owned⟩
  · obtain ⟨mine, own, held⟩ := stands
    refine ⟨owned_after mine claim fun _ => owned, own, { held with standing := ?_ }⟩
    rw [claim.writes]
    refine Table.Has.put held.standing fun here => ?_
    have equal : mover.request.id = tx.request.id := claim.same.symm.trans here
    exact absurd (congrArg Lock.form equal.symm) (apart _ held.held _ claim.held)
  · exact stands.elim

theorem sound_after {image : InspectionFormRow} (sound : Sound stored tx)
    (claim : Claim stored mover.request mover.held mover.pending image) (owned : Owned stored mover.request)
    (apart : ∀ a ∈ tx.held, ∀ b ∈ mover.held, a ≠ b) : Sound (mover.pending stored) tx := by
  rw [Sound] at sound ⊢
  split at sound
  · exact stands_after sound claim owned apart
  · obtain ⟨stands, found, there⟩ := sound
    exact ⟨stands_after stands claim owned apart, found, fun seen => owned_after (there seen) claim fun _ => owned⟩
  · obtain ⟨returned, revision, standing, later⟩ := sound
    by_cases same : mover.request.id = tx.request.id
    · refine ⟨returned, image.revision, ?_, ?_⟩
      · rw [claim.writes]
        exact ⟨image, Table.find_put_self (claim.same.trans same), rfl⟩
      · have current := claim.standing
        rw [same] at current
        have := current.unique standing
        rw [claim.next]
        omega
    · refine ⟨returned, revision, ?_, later⟩
      rw [claim.writes]
      exact Table.Has.put standing fun here => absurd (claim.same.symm.trans here) same
  · trivial

theorem calls_sound (reached : edits.machine.Reachable config) :
    ∀ (i : Nat) tx, config.transactions[i]? = some tx → Sound config.committed tx := by
  apply transactions_keep Sound ?_ ?_ ?_ reached
  · intro config request _ _ db
    rfl
  · intro config i tx label committed serial later visited _ found acts sound
    exact sound_kept acts (calls_obey visited i tx found) sound
  · intro config i j tx mover result visited _ elsewhere found moves shape sound moverSound
    obtain ⟨-, owned, image, claim⟩ := committing (calls_obey visited j mover moves) moverSound shape
    have exclusive := locks_exclusive (fun a b => by simp [edits, eq_comm]) visited i j tx mover found moves elsewhere
    exact sound_after sound claim owned fun a held b other => of_decide_eq_false (exclusive a held b other)

/-- The call committed, and returned the draft. -/
def Succeeded (tx : Editing) : Prop := ∃ form, tx.phase = .committed (.ok (some form))

/-- No two calls succeeded from one revision of a form. -/
def Exclusive (config : Edits) : Prop :=
  ∀ (i j : Nat) left right, config.transactions[i]? = some left → config.transactions[j]? = some right → i ≠ j →
    Succeeded left → Succeeded right → left.request.id = right.request.id →
      left.request.expected ≠ right.request.expected

/-- The call moves its form from the revision it expected to the next one, and no other form. -/
def Raises (before after : Db) (request : Request) : Prop :=
  before.inspectionForms.Has (·.revision) request.id request.expected ∧
    after.inspectionForms.Has (·.revision) request.id (request.expected + 1) ∧
    ∀ other, other ≠ request.id → after.inspectionForms.find other = before.inspectionForms.find other

/-- A step commits the success of one call, or leaves everything that is stored as it was. -/
def OneSuccess (before after : Edits) : Prop :=
  (∃ (i : Nat) (tx later : Editing), before.transactions[i]? = some tx ∧
    after.transactions = before.transactions.set i later ∧
    later.request = tx.request ∧ Succeeded later ∧ Raises before.committed after.committed tx.request) ∨
  (after.committed = before.committed ∧ ∀ (i : Nat) tx, after.transactions[i]? = some tx → Succeeded tx →
    before.transactions[i]? = some tx)

theorem raised {image : InspectionFormRow} (claim : Claim stored mover.request mover.held mover.pending image) :
    Raises stored (mover.pending stored) mover.request := by
  refine ⟨claim.standing, ?_, fun other elsewhere => ?_⟩
  · rw [claim.writes]
    exact ⟨image, Table.find_put_self claim.same, claim.next⟩
  · rw [claim.writes]
    exact Table.find_put_apart fun same => elsewhere (same.symm.trans claim.same)

theorem one_success {label : Label Request (Option PortError)} (reached : edits.machine.Reachable config)
    (step : edits.step config label = some after) : OneSuccess config after := by
  rcases step_cases step with ⟨request, -, rfl⟩ | ⟨i, tx, committed, serial, later, found, acts, rfl⟩
  · refine .inr ⟨rfl, fun j tx there ⟨form, shape⟩ => ?_⟩
    rcases getElem?_append_cases there with old | rfl
    · exact old
    · cases shape
  · have quiet : ∀ store serial, (∀ form, later.phase ≠ .committed (.ok (some form))) → store = config.committed →
        OneSuccess config ⟨store, serial, config.transactions.set i later⟩ := by
      intro store serial running same
      refine .inr ⟨same, fun j other there ⟨form, shape⟩ => ?_⟩
      rcases getElem?_set_cases found there with ⟨-, rfl⟩ | ⟨-, old⟩
      · exact absurd shape (running form)
      · exact old
    cases acts with
    | start shape => exact quiet _ _ (fun form shape => by cases shape) rfl
    | run effect shape runs free => exact quiet _ _ (fun form shape => by cases shape) rfl
    | rollback shape => exact quiet _ _ (fun form shape => by cases shape) rfl
    | abort live => exact quiet _ _ (fun form shape => by cases shape) rfl
    | commit shape =>
      obtain ⟨⟨form, rfl⟩, -, image, claim⟩ :=
        committing (calls_obey reached i tx found) (calls_sound reached i tx found) shape
      exact .inl ⟨i, tx, _, found, rfl, rfl, ⟨form, rfl⟩, raised claim⟩

/-- Whoever succeeded before expected an earlier revision. -/
theorem expected_before {i : Nat} {other : Editing} (reached : edits.machine.Reachable config)
    (found : config.transactions[i]? = some other) (succeeded : Succeeded other) (same : other.request.id = mover.request.id)
    (standing : config.committed.inspectionForms.Has (·.revision) mover.request.id mover.request.expected) :
    other.request.expected < mover.request.expected := by
  obtain ⟨form, shape⟩ := succeeded
  have sound := calls_sound reached i other found
  rw [Sound, shape] at sound
  obtain ⟨-, revision, there, later⟩ := sound
  rw [same] at there
  rwa [there.unique standing] at later

theorem successes_exclusive (reached : edits.machine.Reachable config) : Exclusive config := by
  apply Reachable.induction Exclusive reached
  · intro start ⟨_, idle⟩ i j left right found
    simp [idle] at found
  · intro before after label visited exclusive permitted step j k left right foundLeft foundRight distinct one two same
    rcases one_success visited step with ⟨i, tx, later, found, placed, kept, -, raises, -⟩ | ⟨-, old⟩
    · rw [placed] at foundLeft foundRight
      rcases getElem?_set_cases found foundLeft with ⟨rfl, rfl⟩ | ⟨-, earlier⟩
      · rcases getElem?_set_cases found foundRight with ⟨rfl, rfl⟩ | ⟨-, also⟩
        · exact absurd rfl distinct
        · rw [kept] at same ⊢
          exact (expected_before visited also two same.symm raises).ne'
      · rcases getElem?_set_cases found foundRight with ⟨rfl, rfl⟩ | ⟨-, also⟩
        · rw [kept] at same ⊢
          exact (expected_before visited earlier one same raises).ne
        · exact exclusive j k left right earlier also distinct one two same
    · exact exclusive j k left right (old j left foundLeft one) (old k right foundRight two) distinct one two same

/-- What a call was told: the draft when it committed, and never when it did not. -/
def Honest (tx : Editing) : Prop :=
  (∀ result, tx.phase = .committed result → Succeeded tx) ∧
    ∀ result, tx.phase = .undone (some result) → ∀ form, result ≠ .ok (some form)

theorem calls_honest (reached : edits.machine.Reachable config) :
    ∀ (i : Nat) tx, config.transactions[i]? = some tx → Honest tx := by
  intro i tx found
  have sound := calls_sound reached i tx found
  have obeys := calls_obey reached i tx found
  constructor
  · intro result shape
    rw [Sound, shape] at sound
    obtain ⟨⟨form, rfl⟩, -⟩ := sound
    exact ⟨form, shape⟩
  · intro result shape
    rw [Transaction.Obeys, shape] at obeys
    exact obeys

theorem drafts_serialised (reached : edits.machine.Reachable config) :
    Exclusive config ∧ (∀ (i : Nat) tx, config.transactions[i]? = some tx → Honest tx) ∧
      ∀ label after, edits.step config label = some after → OneSuccess config after :=
  ⟨successes_exclusive reached, calls_honest reached, fun _ _ step => one_success reached step⟩

end Calls

/- Two sessions of one inspector delete the photo of a draft. -/

def onePhoto : Db :=
  { Db.empty with
    users := ⟨[⟨7, 1, text "Ann", text "ann@example.com", text "SUPERVISOR", none, true, none, none, by decide⟩], 8,
      by decide, by decide⟩
    jobs := ⟨[NoteIsolation.jobOf 1 1 none], 2, by decide, by decide⟩
    siteDiary := ⟨[⟨2, 1, some 7, 20588, [], none, none⟩], 3, by decide, by decide⟩
    diaryNotes := ⟨[⟨3, 2, .propertyInspection, [], none, none, 0, false, 0⟩], 4, by decide, by decide⟩
    diaryMedia := ⟨[⟨30, 2, some 3, .photo, text "image/jpeg", text "slab.jpg", text "x.jpg", 1024, [], some 7, 0⟩], 31,
      by decide, by decide⟩
    inspectionForms := ⟨[⟨10, 1, 1, 7, 2, 3, 20588, [], [], [], [], none, 0, 0, 0⟩], 11, by decide, by decide⟩
    inspectionFormItems := ⟨[⟨20, 10, text "a", [], [], false, 0⟩], 21, by decide, by decide⟩
    inspectionFormMedia := ⟨[⟨40, 10, 20, 30, 0⟩], 41, by decide, by decide⟩ }

def quiet : Edits := ⟨onePhoto, 50, []⟩

theorem quiet_initial : edits.machine.initial quiet := ⟨⟨by decide, by decide, by decide⟩, rfl⟩

/-- Both have loaded the draft at its first revision when one of them claims it. -/
def overlapping : List (Label Request (Option PortError)) :=
  [.begin ⟨1, 10, 7, 0, .deletePhoto 0 40⟩, .begin ⟨1, 10, 7, 0, .deletePhoto 0 40⟩] ++ turns none 0 4 ++ turns none 1 3 ++
    [.start 1] ++ turns none 0 6 ++ [.finish 0, .run 1 none, .finish 1]

def succeeded (tx : Editing) : Bool :=
  match tx.phase with
  | .committed (.ok (some _)) => true
  | _ => false

theorem one_deletion_succeeds : ∃ config, edits.machine.Reachable config ∧ Exclusive config ∧
    config.committed.inspectionForms.rows.map (·.revision) = [1] ∧ config.committed.diaryMedia.rows = [] ∧
    config.transactions.map succeeded = [true, false] := by
  have run : ∃ config, edits.machine.execute quiet overlapping = some config ∧
      config.committed.inspectionForms.rows.map (·.revision) = [1] ∧ config.committed.diaryMedia.rows = [] ∧
      config.transactions.map succeeded = [true, false] :=
    ⟨_, rfl, by decide +kernel, by decide +kernel, by decide +kernel⟩
  obtain ⟨config, ran, revision, removed, second⟩ := run
  have reached := execute_reachable quiet_initial ran
  exact ⟨config, reached, (drafts_serialised reached).1, revision, removed, second⟩

end DraftRevisions
