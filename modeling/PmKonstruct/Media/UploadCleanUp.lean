import PmKonstruct.Media.UploadPrograms

/- What cleaning up after an upload may remove. A call decides on its own what to remove, so all depends on which
   keys the calls present: the name in a key is the client's, and can come again. -/
namespace UploadCleanUp
open PlainText DomainErrors Schema KeyedTable RowSecurity Requests MediaStore BrandingStore
open StatementProgram TransitionRuns UploadPrograms DraftTables
open DeletionQueue (objectKey mediaKeys)
open InspectionStore (InspectionPhotoRecord InspectionForm load attachEach)
open Accounts (Instant)
open Upload (VerifiedUpload signatureProbeBytes)
open InspectionService (InspectionPhotoUpload findDraft_load)
open AuthService (SessionUser)

abbrev Past : Type := List (Event Statement Answer)

abbrev State : Type := Config Statement Answer Outcome Request Store

def presentedBy : Event Statement Answer → Option Text
  | ⟨.head key, _⟩ => some key
  | _ => none

/-- The keys a call has asked the bucket about. -/
def presented (past : Past) : List Text := past.filterMap presentedBy

/-- The statement committed a row that names an object. -/
def wrote : Event Statement Answer → Bool
  | ⟨.record _ _, .ok _⟩ => true
  | ⟨.attachPhotos _ _ _ _, .ok (some _)⟩ => true
  | ⟨.setBrandingImage _ _ _, .ok _⟩ => true
  | _ => false

def unfinished (call : StatementProgram.Call Statement Answer Outcome Request) : Bool :=
  match call.running with
  | .done _ => false
  | .stmt _ _ => true

/-- Whenever a call asks the bucket about an object, no row names the object and no other call in progress has asked
    about it. -/
def presentsNew (config : State) : Label Request Env → Bool
  | .invoke _ => true
  | .advance i _ =>
    match config.calls[i]? with
    | none => true
    | some call =>
      match call.running with
      | .stmt (.head key) _ => !decide (Referenced config.store key) &&
          (config.calls.eraseIdx i).all fun other => !unfinished other || key ∉ presented other.trace
      | _ => true

/-- No call is about to clean up an object that a row names. -/
def SparesReferenced (config : State) : Prop :=
  ∀ call ∈ config.calls, ∀ key next, call.running = .stmt (.discard key) next → ¬ Referenced config.store key

/- What a call does by itself: it removes only what it presented and before it wrote a row, and it writes rows only
   for what it presented. -/

def Sound (past : Past) : Statement → Prop
  | .discard key => key ∈ presented past ∧ ∀ e ∈ past, wrote e = false
  | .record s record => MediaService.keyFor s record.owner record.storedName ∈ presented past
  | .attachPhotos s form _ records => ∀ r ∈ records, ∃ draft, ⟨.findDraft s form, .ok draft⟩ ∈ past ∧
      InspectionService.keyFor s draft r.media.storedName ∈ presented past
  | .setBrandingImage _ _ key => key ∈ presented past
  | _ => True

def Obeys (program : Steps) (past : Past) : Prop := program.Obeys Sound (fun _ _ => True) past

section Calls
variable {past more : Past} {key : Text} {e : Event Statement Answer} {s : SessionUser}

theorem presented_append : presented (past ++ more) = presented past ++ presented more := List.filterMap_append

theorem presented_past (there : key ∈ presented past) : key ∈ presented (past ++ more) := by
  rw [presented_append]
  exact List.mem_append_left _ there

theorem presented_more (there : key ∈ presented more) : key ∈ presented (past ++ more) := by
  rw [presented_append]
  exact List.mem_append_right _ there

theorem fail_obeys {error : AppError} : Obeys (fail error) past := trivial

/-- A statement that neither removes nor writes is always in order. -/
theorem obeys_stmt {statement : Statement} {next : Answer statement → Steps} (sound : Sound past statement)
    (later : ∀ answer, Obeys (next answer) (past ++ [⟨statement, answer⟩])) : Obeys (.stmt statement next) past :=
  ⟨sound, later⟩

/-- Nothing is written yet, and an event that writes nothing leaves it so. -/
theorem unwritten_snoc {event : Event Statement Answer} (unwritten : ∀ e ∈ past, wrote e = false)
    (silent : wrote event = false) : ∀ e ∈ past ++ [event], wrote e = false := by
  intro e member
  rcases List.mem_append.mp member with before | last
  · exact unwritten e before
  · rw [List.mem_singleton.mp last]
    exact silent

theorem discardEach_obeys {keys : List Text} {next : Steps} (own : ∀ k ∈ keys, k ∈ presented past)
    (unwritten : ∀ e ∈ past, wrote e = false)
    (later : ∀ more, (∀ e ∈ past ++ more, wrote e = false) → Obeys next (past ++ more)) :
    Obeys (discardEach keys next) past := by
  induction keys generalizing past with
  | nil =>
    have here := later []
    rw [List.append_nil] at here
    exact here unwritten
  | cons k rest ih =>
    obtain ⟨first, others⟩ := List.forall_mem_cons.mp own
    have sound : Sound past (.discard k) := ⟨first, unwritten⟩
    apply obeys_stmt sound
    intro answer
    apply ih
    · intro other member
      exact presented_past (others other member)
    · exact unwritten_snoc unwritten rfl
    · intro more silent
      rw [List.append_assoc] at silent ⊢
      exact later _ silent

theorem verify_obeys {mimeType originalName : Text} {next : Except AppError VerifiedUpload → Steps}
    (unwritten : ∀ e ∈ past, wrote e = false)
    (later : ∀ outcome more, (∀ e ∈ past ++ more, wrote e = false) →
      (∀ verified, outcome = .ok verified → key ∈ presented (past ++ more)) → Obeys (next outcome) (past ++ more)) :
    Obeys (verify key mimeType originalName next) past := by
  have unread : ∀ error more, (∀ e ∈ past ++ more, wrote e = false) → Obeys (next (.error error)) (past ++ more) := by
    intro error more silent
    apply later _ more silent
    intro verified ok
    cases ok
  have rejected : ∀ {before : Past} {field reason : String}, (∃ more, before = past ++ more) → key ∈ presented before →
      (∀ e ∈ before, wrote e = false) →
        Obeys (discardEach [key] (next (.error (.domain (.invalid field reason))))) before := by
    rintro before field reason ⟨more, rfl⟩ there quiet
    apply discardEach_obeys
    · intro k member
      rw [List.mem_singleton.mp member]
      exact there
    · exact quiet
    · intro later quiet
      rw [List.append_assoc] at quiet ⊢
      exact unread _ _ quiet
  unfold verify
  split
  · have here := unread (.domain (.invalid "mimeType" "is not an accepted type")) []
    rw [List.append_nil] at here
    exact here unwritten
  · have asking : Sound past (.head key) := trivial
    have reading : ∀ before, Sound before (.readPrefix key signatureProbeBytes) := fun _ => trivial
    apply obeys_stmt asking
    intro headed
    have asked : key ∈ presented (past ++ [⟨.head key, headed⟩]) := presented_more (List.mem_singleton_self key)
    have quiet := unwritten_snoc unwritten (show wrote ⟨.head key, headed⟩ = false from rfl)
    split
    · exact unread _ _ quiet
    · exact unread _ _ quiet
    · split
      · exact rejected ⟨_, rfl⟩ asked quiet
      · split
        · exact rejected ⟨_, rfl⟩ asked quiet
        · apply obeys_stmt (reading _)
          intro read
          have still := unwritten_snoc quiet (show wrote ⟨.readPrefix key signatureProbeBytes, read⟩ = false from rfl)
          split
          · rw [List.append_assoc] at still ⊢
            exact unread _ _ still
          · split
            · rw [List.append_assoc] at still ⊢
              apply later _ _ still
              intro verified _
              rw [← List.append_assoc]
              exact presented_past asked
            · exact rejected ⟨_, List.append_assoc _ _ _⟩ (presented_past asked) still

theorem confirmUpload_obeys {owner : MediaOwner} {storedName originalName mimeType : Text} :
    Obeys (confirmUpload s owner storedName originalName mimeType) [] := by
  have opening : Sound [] (.ownerAccess s owner) := trivial
  apply obeys_stmt opening
  intro access
  split
  · exact fail_obeys
  · apply verify_obeys
    · intro e member
      cases List.mem_singleton.mp member
      rfl
    · intro outcome more silent there
      split
      · exact fail_obeys
      · next verified =>
        apply obeys_stmt
        · exact there verified rfl
        · intro recorded
          split
          · exact fail_obeys
          · trivial

theorem verifyEach_obeys {draft : InspectionForm} {clientKey : Text} {keys : List Text}
    {records : List InspectionPhotoRecord} {next : List Text → List InspectionPhotoRecord → Steps}
    {uploads : List InspectionPhotoUpload} (unwritten : ∀ e ∈ past, wrote e = false)
    (own : ∀ k ∈ keys, k ∈ presented past)
    (written : ∀ r ∈ records, InspectionService.keyFor s draft r.media.storedName ∈ presented past)
    (later : ∀ keys records more, (∀ e ∈ past ++ more, wrote e = false) → (∀ k ∈ keys, k ∈ presented (past ++ more)) →
      (∀ r ∈ records, InspectionService.keyFor s draft r.media.storedName ∈ presented (past ++ more)) →
        Obeys (next keys records) (past ++ more)) :
    Obeys (verifyEach s draft clientKey keys records next uploads) past := by
  induction uploads generalizing past keys records with
  | nil =>
    have here := later keys records []
    rw [List.append_nil] at here
    exact here unwritten own written
  | cons u rest ih =>
    rw [verifyEach]
    apply verify_obeys unwritten
    intro outcome more silent there
    have still : ∀ k ∈ keys, k ∈ presented (past ++ more) := fun k member => presented_past (own k member)
    split
    · exact discardEach_obeys still silent fun _ _ => fail_obeys
    · next verified =>
      have here := there verified rfl
      split
      · apply discardEach_obeys still silent
        intro after quiet
        apply discardEach_obeys
        · intro k member
          rw [List.mem_singleton.mp member]
          exact presented_past here
        · exact quiet
        · exact fun _ _ => fail_obeys
      · apply ih silent
        · intro k member
          rcases List.mem_append.mp member with before | new
          · exact still k before
          · rw [List.mem_singleton.mp new]
            exact here
        · intro r member
          rcases List.mem_append.mp member with before | new
          · exact presented_past (written r before)
          · rw [List.mem_singleton.mp new]
            exact here
        · intro keys records after quiet own written
          rw [List.append_assoc] at quiet own written ⊢
          exact later keys records _ quiet own written

theorem attachPhotos_obeys {form : InspectionFormId} {clientKey : Text} {expected : Int}
    {uploads : List InspectionPhotoUpload} : Obeys (attachPhotos s form clientKey expected uploads) [] := by
  unfold UploadPrograms.attachPhotos
  split
  · exact fail_obeys
  · have opening : Sound [] (.findDraft s form) := trivial
    apply obeys_stmt opening
    intro found
    split
    · exact fail_obeys
    · next draft =>
      split
      · exact fail_obeys
      · split
        · exact fail_obeys
        · apply verifyEach_obeys
          · intro e member
            cases List.mem_singleton.mp member
            rfl
          · exact fun k member => absurd member List.not_mem_nil
          · exact fun r member => absurd member List.not_mem_nil
          · intro keys records more silent own written
            have sound : Sound ([⟨.findDraft s form, .ok draft⟩] ++ more) (.attachPhotos s form expected records) := by
              intro r member
              exact ⟨draft, List.mem_append_left _ List.mem_cons_self, written r member⟩
            apply obeys_stmt sound
            intro attached
            have turned : (∀ saved, attached ≠ .ok (some saved)) → ∀ error,
                Obeys (discardEach keys (fail error)) ([⟨.findDraft s form, .ok draft⟩] ++ more ++
                  [⟨.attachPhotos s form expected records, attached⟩]) := by
              intro refused error
              apply discardEach_obeys
              · exact fun k member => presented_past (own k member)
              · apply unwritten_snoc silent
                cases attached with
                | error e => rfl
                | ok saved =>
                  cases saved with
                  | none => rfl
                  | some saved => exact absurd rfl (refused saved)
              · exact fun _ _ => fail_obeys
            split
            · trivial
            · apply turned
              intro saved same
              cases same
            · apply turned
              intro saved same
              cases same

theorem sweepPrevious_obeys {previous : Option Text} {keep : Text} {next : Steps} (later : ∀ past, Obeys next past) :
    Obeys (sweepPrevious previous keep next) past := by
  unfold sweepPrevious
  split
  · exact later _
  · split
    · exact ⟨trivial, fun _ => later _⟩
    · exact later _

theorem confirmImage_obeys {banner : Bool} {storedName originalName mimeType : Text} :
    Obeys (confirmImage s banner storedName originalName mimeType) [] := by
  unfold confirmImage
  split
  · exact fail_obeys
  · apply verify_obeys
    · exact fun e member => absurd member List.not_mem_nil
    · intro outcome more silent there
      split
      · exact fail_obeys
      · next verified =>
        have here := there verified rfl
        split
        · apply discardEach_obeys
          · intro k member
            rw [List.mem_singleton.mp member]
            exact here
          · exact silent
          · exact fun _ _ => fail_obeys
        · apply obeys_stmt
          · exact here
          · intro replaced
            split
            · exact fail_obeys
            · apply sweepPrevious_obeys
              intro past
              have reading : Sound past (.readBranding s) := trivial
              apply obeys_stmt reading
              intro found
              cases found with
              | error e => exact fail_obeys
              | ok found => trivial

theorem programs_obey (request : Request) : Obeys (programOf request) [] := by
  cases request with
  | confirmUpload s owner storedName originalName mimeType => exact confirmUpload_obeys
  | attachPhotos s form clientKey expected uploads => exact attachPhotos_obeys
  | confirmImage s banner storedName originalName mimeType => exact confirmImage_obeys
  | put key content => exact ⟨trivial, fun _ => trivial⟩

end Calls

/- What a statement does to the rows: a key that is new to them is a key it writes. -/

def Writes (store : Store) (key : Text) : Statement → Prop
  | .record s record => key = MediaService.keyFor s record.owner record.storedName
  | .attachPhotos s form _ records => ∃ r ∈ records, ∃ row, store.db.inspectionForms.find form = some row ∧
      key = objectKey s.principal.companyId (text "diary") row.diaryEntryId r.media.storedName
  | .setBrandingImage _ _ image => key = image
  | _ => False

section Rows
variable {db after : Db} {scope : CompanyId} {now : Instant} {key : Text} {s : SessionUser} {env : Env}
    {store : Store} {statement : Statement}

theorem record_keys {rec : MediaRecord} {media : Media}
    (recorded : MediaStore.record db s.principal.companyId now rec = .ok (media, after))
    (named : key ∈ mediaKeys after) : key ∈ mediaKeys db ∨ key = MediaService.keyFor s rec.owner rec.storedName := by
  unfold MediaStore.record at recorded
  cases owner : rec.owner with
  | diary entry note =>
    rw [owner] at recorded
    obtain ⟨⟨row, stored⟩, inserted, pair⟩ := map_ok recorded
    cases pair
    have visible := inserted_visible inserted
    obtain ⟨-, rfl⟩ := insertRow_ok inserted
    exact DeletionQueue.mediaKeys_addMedia visible named
  | job job =>
    rw [owner] at recorded
    obtain ⟨⟨row, stored⟩, inserted, pair⟩ := map_ok recorded
    cases pair
    have visible := insertedFile_visible inserted
    obtain ⟨-, rfl⟩ := insertRow_ok inserted
    exact DeletionQueue.mediaKeys_addFile visible named

theorem attachEach_keys {row : InspectionFormRow} {photos : List InspectionPhotoRecord}
    (done : attachEach scope now row db photos = .ok after) (named : key ∈ mediaKeys after) :
    key ∈ mediaKeys db ∨
      ∃ r ∈ photos, key = objectKey scope (text "diary") row.diaryEntryId r.media.storedName := by
  induction photos generalizing db with
  | nil =>
    cases done
    exact .inl named
  | cons photo rest ih =>
    rw [InspectionStore.attachEach] at done
    split at done
    · cases done
    · next linked =>
      have visible := attachPhoto_visible linked
      obtain ⟨item, -, order, -, rfl⟩ := attachPhoto_ok linked
      rcases ih done with before | ⟨r, member, same⟩
      · have added : key ∈ mediaKeys { db with
          diaryMedia := db.diaryMedia.insert (photoRow now row photo.media) fun _ => rfl } := before
        rcases DeletionQueue.mediaKeys_addMedia visible added with old | new
        · exact .inl old
        · exact .inr ⟨photo, List.mem_cons_self, new⟩
      · exact .inr ⟨r, List.mem_cons_of_mem _ member, same⟩

theorem transact_cases {α : Type} {result : Except PortError (α × Db)} : (transact env store result).2 = store ∨
    ∃ value after, result = .ok (value, after) ∧ transact env store result = (.ok value, { store with db := after }) := by
  unfold transact
  split
  · exact .inl rfl
  · exact .inl rfl
  · next value after _ => exact .inr ⟨value, after, rfl, rfl⟩

theorem remove_rows : Referenced (remove env store key) = Referenced store := by
  unfold remove
  cases env.fault <;> rfl

theorem execute_references (named : Referenced (execute env statement store).2 key) :
    Referenced store key ∨ wrote ⟨statement, (execute env statement store).1⟩ = true ∧ Writes store key statement := by
  cases statement with
  | record s rec =>
    rcases @transact_cases env store _ (MediaStore.record store.db s.principal.companyId env.now rec) with
      same | ⟨media, after, recorded, done⟩
    · rw [execute, same] at named
      exact .inl named
    · simp only [execute, done] at named ⊢
      rcases named with media | image
      · rcases record_keys recorded media with before | new
        · exact .inl (.inl before)
        · exact .inr ⟨rfl, new⟩
      · exact .inl (.inr image)
  | attachPhotos s form expected records =>
    rcases @transact_cases env store _ (InspectionStore.attachPhotos store.db s.principal.companyId env.now form
      s.user.id expected records) with same | ⟨found, after, attached, done⟩
    · rw [execute, same] at named
      exact .inl named
    · simp only [execute, done] at named ⊢
      cases found with
      | none =>
        rw [attachPhotos_stale attached] at named
        exact .inl named
      | some saved =>
        rcases named with media | image
        · rcases attachPhotos_ok attached with ⟨lost, -⟩ | ⟨draft, loaded, -, each, -⟩
          · cases lost
          · rcases attachEach_keys each media with before | ⟨r, member, new⟩
            · exact .inl (.inl before)
            · exact .inr ⟨rfl, r, member, draft.form, (load_some loaded).1, new⟩
        · exact .inl (.inr image)
  | setBrandingImage s banner image =>
    simp only [execute] at named ⊢
    split at named
    · exact .inl named
    · rcases named with media | image
      · exact .inl (.inl media)
      · rcases imageKeys_set image with before | new
        · exact .inl (.inr before)
        · exact .inr ⟨rfl, (Option.some.inj new).symm⟩
  | discard other =>
    rw [execute, remove_rows] at named
    exact .inl named
  | sweep other =>
    rw [execute, remove_rows] at named
    exact .inl named
  | readPrefix other bytes =>
    simp only [execute] at named
    split at named <;> exact .inl named
  | ownerAccess s owner =>
    simp only [execute] at named
    split at named <;> exact .inl named
  | findDraft s form =>
    simp only [execute] at named
    split at named <;> exact .inl named
  | head other => exact .inl named
  | readBranding s => exact .inl named
  | put other content => exact .inl named

/-- A draft stays in the entry it was read with. -/
def DraftRead (store : Store) : Event Statement Answer → Prop
  | ⟨.findDraft _ form, .ok draft⟩ =>
    store.db.inspectionForms.Has InspectionFormRow.diaryEntryId form draft.form.diaryEntryId
  | _ => True

theorem record_forms {rec : MediaRecord} {media : Media}
    (recorded : MediaStore.record db scope now rec = .ok (media, after)) :
    after.inspectionForms = db.inspectionForms := by
  unfold MediaStore.record at recorded
  split at recorded
  · obtain ⟨⟨row, stored⟩, inserted, pair⟩ := map_ok recorded
    cases pair
    obtain ⟨-, rfl⟩ := insertRow_ok inserted
    rfl
  · obtain ⟨⟨row, stored⟩, inserted, pair⟩ := map_ok recorded
    cases pair
    obtain ⟨-, rfl⟩ := insertRow_ok inserted
    rfl

theorem attachPhotos_forms {form other : InspectionFormId} {user : UserId} {expected : Int}
    {records : List InspectionPhotoRecord} {found : Option InspectionForm} {entry : DiaryEntryId}
    (attached : InspectionStore.attachPhotos db scope now form user expected records = .ok (found, after))
    (has : db.inspectionForms.Has InspectionFormRow.diaryEntryId other entry) :
    after.inspectionForms.Has InspectionFormRow.diaryEntryId other entry := by
  rcases attachPhotos_ok attached with ⟨-, rfl⟩ | ⟨draft, -, -, each, -⟩
  · exact has
  · rw [attachEach_forms each]
    have kept : (claimedForms db.inspectionForms scope now form expected).Has InspectionFormRow.diaryEntryId other entry := by
      unfold claimedForms
      exact has.update fun _ => rfl
    exact kept

theorem execute_forms {form : InspectionFormId} {entry : DiaryEntryId}
    (has : store.db.inspectionForms.Has InspectionFormRow.diaryEntryId form entry) :
    (execute env statement store).2.db.inspectionForms.Has InspectionFormRow.diaryEntryId form entry := by
  cases statement with
  | record s rec =>
    rcases @transact_cases env store _ (MediaStore.record store.db s.principal.companyId env.now rec) with
      same | ⟨media, after, recorded, done⟩
    · rw [execute, same]
      exact has
    · simp only [execute, done, record_forms recorded]
      exact has
  | attachPhotos s form expected records =>
    rcases @transact_cases env store _ (InspectionStore.attachPhotos store.db s.principal.companyId env.now form
      s.user.id expected records) with same | ⟨found, after, attached, done⟩
    · rw [execute, same]
      exact has
    · simp only [execute, done]
      exact attachPhotos_forms attached has
  | discard key =>
    simp only [execute, remove]
    split <;> exact has
  | sweep key =>
    simp only [execute, remove]
    split <;> exact has
  | setBrandingImage s banner key =>
    simp only [execute]
    split <;> exact has
  | readPrefix key bytes =>
    simp only [execute]
    split <;> exact has
  | ownerAccess s owner =>
    simp only [execute]
    split <;> exact has
  | findDraft s form =>
    simp only [execute]
    split <;> exact has
  | head key => exact has
  | readBranding s => exact has
  | put key content => exact has

theorem draft_read : DraftRead (execute env statement store).2 ⟨statement, (execute env statement store).1⟩ := by
  cases statement with
  | findDraft s form =>
    simp only [execute]
    split
    · trivial
    · cases found : InspectionService.findDraft store.db s form with
      | error e => trivial
      | ok draft => exact ⟨draft.form, (load_some (findDraft_load found)).1, rfl⟩
  | _ => trivial

theorem draft_kept {event : Event Statement Answer} (read : DraftRead store event) :
    DraftRead (execute env statement store).2 event := by
  obtain ⟨asked, answer⟩ := event
  cases asked with
  | findDraft s form =>
    cases answer with
    | error e => trivial
    | ok draft => exact execute_forms read
  | _ => trivial

/-- The key of a row that a call writes is a key that the call presented. -/
theorem writes_presented {past : Past} (sound : Sound past statement) (read : ∀ event ∈ past, DraftRead store event)
    (writes : Writes store key statement) : key ∈ presented past := by
  cases statement with
  | record s rec => exact writes ▸ sound
  | attachPhotos s form expected records =>
    obtain ⟨r, member, row, found, rfl⟩ := writes
    obtain ⟨draft, asked, there⟩ := sound r member
    have has : store.db.inspectionForms.Has InspectionFormRow.diaryEntryId form row.diaryEntryId := ⟨row, found, rfl⟩
    have same : row.diaryEntryId = draft.form.diaryEntryId := has.unique (read _ asked)
    rw [same]
    exact there
  | setBrandingImage s banner image => exact writes ▸ sound
  | _ => exact writes.elim

end Rows

/- Runs. -/

/-- Calls in progress have no key in common, and what a call has presented is named by no row before it writes one. -/
structure Disciplined (config : State) : Prop where
  apart : ∀ (i j : Nat) left right, config.calls[i]? = some left → config.calls[j]? = some right → i ≠ j →
    unfinished left = true → unfinished right = true → ∀ key ∈ presented left.trace, key ∉ presented right.trace
  fresh : ∀ (i : Nat) call, config.calls[i]? = some call → unfinished call = true → (∀ e ∈ call.trace, wrote e = false) →
    ∀ key ∈ presented call.trace, ¬ Referenced config.store key

section Runs
variable {config : State}

theorem invoke_disciplined {request : Request} (disciplined : Disciplined config) :
    Disciplined ⟨config.store, config.calls ++ [⟨request, [], programOf request⟩]⟩ where
  apart := by
    intro i j left right found there apart active other key member
    rcases getElem?_append_cases found with before | rfl
    · rcases getElem?_append_cases there with also | rfl
      · exact disciplined.apart i j left right before also apart active other key member
      · exact List.not_mem_nil
    · cases member
  fresh := by
    intro i call found active silent key member
    rcases getElem?_append_cases found with before | rfl
    · exact disciplined.fresh i call before active silent key member
    · cases member

theorem asked_new {i : Nat} {env : Env} {old : StatementProgram.Call Statement Answer Outcome Request}
    {statement : Statement} {next : Answer statement → Steps} {answer : Answer statement} {key : Text}
    (found : config.calls[i]? = some old) (shape : old.running = .stmt statement next)
    (new : presentsNew config (.advance i env) = true) (asked : key ∈ presented [⟨statement, answer⟩]) :
    ¬ Referenced config.store key ∧ ∀ (j : Nat) other, j ≠ i → config.calls[j]? = some other →
      unfinished other = true → key ∉ presented other.trace := by
  cases statement with
  | head k =>
    cases List.mem_singleton.mp asked
    simp only [presentsNew, found, shape, Bool.and_eq_true, Bool.not_eq_true', decide_eq_false_iff_not,
      List.all_eq_true, Bool.or_eq_true, decide_eq_true_eq] at new
    refine ⟨new.1, ?_⟩
    intro j other apart there going
    rcases new.2 other (List.mem_eraseIdx_iff_getElem?.mpr ⟨j, apart, there⟩) with finished | absent
    · rw [going] at finished
      cases finished
    · exact absent
  | _ => cases asked

theorem advance_disciplined {i : Nat} {env : Env} {old : StatementProgram.Call Statement Answer Outcome Request}
    {statement : Statement} {next : Answer statement → Steps} (disciplined : Disciplined config)
    (found : config.calls[i]? = some old) (shape : old.running = .stmt statement next)
    (new : presentsNew config (.advance i env) = true) (sound : Sound old.trace statement)
    (read : ∀ event ∈ old.trace, DraftRead config.store event) :
    Disciplined ⟨(execute env statement config.store).2, config.calls.set i ⟨old.request,
      old.trace ++ [⟨statement, (execute env statement config.store).1⟩], next (execute env statement config.store).1⟩⟩ := by
  have active : unfinished old = true := by rw [unfinished, shape]
  have asks : ∀ key ∈ presented [⟨statement, (execute env statement config.store).1⟩],
      ¬ Referenced config.store key ∧ ∀ (j : Nat) other, j ≠ i → config.calls[j]? = some other →
        unfinished other = true → key ∉ presented other.trace :=
    fun key asked => asked_new found shape new asked
  have own : ∀ key ∈ presented (old.trace ++ [⟨statement, (execute env statement config.store).1⟩]),
      ∀ (j : Nat) other, j ≠ i → config.calls[j]? = some other → unfinished other = true →
        key ∉ presented other.trace := by
    intro key member j other apart there going
    rw [presented_append] at member
    rcases List.mem_append.mp member with before | now
    · exact disciplined.apart i j old other found there apart.symm active going key before
    · exact (asks key now).2 j other apart there going
  constructor
  · intro j k left right foundLeft foundRight apart goingLeft goingRight key member
    rcases getElem?_set_cases found foundLeft with ⟨rfl, rfl⟩ | ⟨elsewhere, before⟩
    · rcases getElem?_set_cases found foundRight with ⟨rfl, rfl⟩ | ⟨other, there⟩
      · exact absurd rfl apart
      · exact own key member k right other there goingRight
    · rcases getElem?_set_cases found foundRight with ⟨rfl, rfl⟩ | ⟨other, there⟩
      · intro shared
        exact own key shared j left elsewhere before goingLeft member
      · exact disciplined.apart j k left right before there apart goingLeft goingRight key member
  · intro j call there going silent key member referenced
    rcases getElem?_set_cases found there with ⟨rfl, rfl⟩ | ⟨elsewhere, before⟩
    · rcases execute_references referenced with named | ⟨written, -⟩
      · rw [presented_append] at member
        rcases List.mem_append.mp member with earlier | now
        · have quiet : ∀ e ∈ old.trace, wrote e = false := fun e past => silent e (List.mem_append_left _ past)
          exact disciplined.fresh j old found active quiet key earlier named
        · exact (asks key now).1 named
      · have quiet := silent _ (List.mem_append_right _ (List.mem_singleton_self _))
        rw [written] at quiet
        cases quiet
    · rcases execute_references referenced with named | ⟨-, writes⟩
      · exact disciplined.fresh j call before going silent key member named
      · exact disciplined.apart j i call old before found elsewhere going active key member
          (writes_presented sound read writes)

theorem reached_disciplined (reached : (uploads.machine.restrict presentsNew).Reachable config) :
    Disciplined config := by
  apply Reachable.induction Disciplined reached
  · rintro start ⟨-, idle⟩
    constructor
    · intro i j left right found
      simp [idle] at found
    · intro i call found
      simp [idle] at found
  · intro before after label visited disciplined allowed step
    obtain ⟨permitted, new⟩ := restrict_allowed.mp allowed
    rcases step_cases permitted step with ⟨request, rfl⟩ | ⟨i, env, old, statement, next, rfl, found, shape, -, rfl⟩
    · exact invoke_disciplined disciplined
    · have member := List.mem_of_getElem? found
      have obeys := calls_obey (fun _ => Sound) (fun _ _ _ => True) programs_obey (restrict_reachable visited) old member
      rw [shape] at obeys
      have read := events_recorded DraftRead (fun _ _ _ _ => draft_read) (fun _ _ _ _ _ => draft_kept)
        (restrict_reachable visited) old member
      exact advance_disciplined disciplined found shape new obeys.1 read

end Runs

/- A manager uploads two photos to a job. -/

def manager : SessionUser where
  user := ⟨7, 1, text "Sarah", text "sarah@example.com", .manager, none, true, none⟩
  principal := ⟨7, 1, .manager⟩
  permissions := []
  entitlement := ⟨true, true, true, none⟩

def oneJob : Store where
  db :=
    { Db.empty with
      users := .of [.plain 7 1 (text "Sarah") (text "sarah@example.com") (text "MANAGER") (Eq.refl true)] 8
        (Eq.refl true)
      jobs := .of [⟨1, 1, [], text "J", text "Smith", none, none, text "1 St", .active, none, none, none, none, none, none,
        none, none, none, 0, 0⟩] 2 (Eq.refl true) }
  branding := .empty
  objects := fun _ => none

def stored (name : String) (content : List UInt8) : Request := .put (text ("1/job/1/" ++ name)) content

def confirmed (name mimeType : String) : Request :=
  .confirmUpload manager (.job 1) (text name) (text "slab.jpg") (text mimeType)

/-- The call at this place, for so many statements. -/
def turns (call count : Nat) : List (Label Request Env) := List.replicate count (.advance call ⟨0, none⟩)

def onePhoto : List (Label Request Env) :=
  [.invoke (stored "x.jpg" [0xff, 0xd8, 0xff, 0xe0])] ++ turns 0 1 ++ [.invoke (confirmed "x.jpg" "image/jpeg")] ++
    turns 1 4

theorem oneJob_idle {permits : State → Label Request Env → Bool} :
    (uploads.machine.restrict permits).initial ⟨oneJob, []⟩ := ⟨trivial, rfl⟩

end UploadCleanUp
