import PmKonstruct.Forms.DraftTables
import PmKonstruct.Library.StatementProgram
import PmKonstruct.Settings.BrandingStore

/- The three calls that end an upload, one statement at a time. A statement is one request to the object store or one
   transaction of the database; a call that turns an upload away removes its objects and reports its own error,
   whatever became of the removal. -/
namespace UploadPrograms
open PlainText DomainErrors Accounts Schema KeyedTable Requests MediaStore Upload InspectionStore BrandingStore
open StatementProgram
open AuthService (SessionUser)
open DeletionQueue (objectKey mediaKeys)
open InspectionService (InspectionPhotoUpload assertItemExists assertPhoto batchOk staleRevision)

/-- The database and the bucket. -/
structure Store where
  db : Db
  branding : Table CompanyBrandingRow
  objects : Text → Option (List UInt8)

inductive Statement where
  | ownerAccess (s : SessionUser) (owner : MediaOwner)
  | findDraft (s : SessionUser) (form : InspectionFormId)
  | record (s : SessionUser) (record : MediaRecord)
  | attachPhotos (s : SessionUser) (form : InspectionFormId) (expected : Int) (records : List InspectionPhotoRecord)
  | setBrandingImage (s : SessionUser) (banner : Bool) (key : Text)
  | readBranding (s : SessionUser)
  | head (key : Text)
  | readPrefix (key : Text) (bytes : Nat)
  | discard (key : Text)
  | sweep (key : Text)
  | put (key : Text) (content : List UInt8)

abbrev Answer : Statement → Type
  | .ownerAccess _ _ => Except AppError Unit
  | .findDraft _ _ => Except AppError InspectionForm
  | .record _ _ => Except PortError Media
  | .attachPhotos _ _ _ _ => Except PortError (Option InspectionForm)
  | .setBrandingImage _ _ _ => Except PortError (Option Text)
  | .readBranding _ => Except PortError Branding
  | .head _ => Except PortError (Option Nat)
  | .readPrefix _ _ => Except PortError (List UInt8)
  | .discard _ => Unit
  | .sweep _ => Unit
  | .put _ _ => Unit

/-- The clock of a statement, and the fault it runs into if there is one. -/
structure Env where
  now : Instant
  fault : Option PortError

def Env.answer {α : Type} (env : Env) (value : α) : Except PortError α :=
  match env.fault with
  | some e => .error e
  | none => .ok value

/-- A transaction commits or leaves the database as it was. -/
def transact {α : Type} (env : Env) (store : Store) (result : Except PortError (α × Db)) : Except PortError α × Store :=
  match env.fault, result with
  | some e, _ => (.error e, store)
  | none, .error e => (.error e, store)
  | none, .ok (value, after) => (.ok value, { store with db := after })

def remove (env : Env) (store : Store) (key : Text) : Store :=
  match env.fault with
  | some _ => store
  | none => { store with objects := fun other => if other = key then none else store.objects other }

def execute (env : Env) (statement : Statement) (store : Store) : Answer statement × Store :=
  match statement with
  | .ownerAccess s owner =>
    match env.fault with
    | some e => (.error (.port e), store)
    | none => (MediaService.assertOwnerAccess store.db s owner, store)
  | .findDraft s form =>
    match env.fault with
    | some e => (.error (.port e), store)
    | none => (InspectionService.findDraft store.db s form, store)
  | .record s record => transact env store (MediaStore.record store.db s.principal.companyId env.now record)
  | .attachPhotos s form expected records => transact env store
      (InspectionStore.attachPhotos store.db s.principal.companyId env.now form s.user.id expected records)
  | .setBrandingImage s banner key =>
    match env.fault with
    | some e => (.error e, store)
    | none =>
      let (previous, rows) := setBrandingImage store.branding s.principal.companyId env.now banner (some key)
      (.ok previous, { store with branding := rows })
  | .readBranding s => (env.answer (branding store.branding s.principal.companyId), store)
  | .head key => (env.answer ((store.objects key).map List.length), store)
  | .readPrefix key bytes =>
    match store.objects key with
    | none => (.error (env.fault.getD (.unavailable "s3" "NoSuchKey")), store)
    | some content => (env.answer (content.take bytes), store)
  | .discard key => ((), remove env store key)
  | .sweep key => ((), remove env store key)
  | .put key content => ((), { store with objects := fun other => if other = key then some content else store.objects other })

inductive Reply where
  | media (media : Media)
  | inspection (form : InspectionForm)
  | branding (branding : Branding)
  | stored
  deriving DecidableEq, Repr

abbrev Outcome : Type := Except AppError Reply

abbrev Steps : Type := Program Statement Answer Outcome

def fail (e : AppError) : Steps := .done (.error e)

/-- The removal of each object, and what comes after it. -/
def discardEach : List Text → Steps → Steps
  | [], next => next
  | key :: rest, next => .stmt (.discard key) fun _ => discardEach rest next

section Service
variable (s : SessionUser)

/-- An object that fails its check is removed; one that is not there, or cannot be read, is left alone. -/
def verify (key mimeType originalName : Text) (next : Except AppError VerifiedUpload → Steps) : Steps :=
  let reject (field reason : String) : Steps :=
    discardEach [key] (next (.error (.domain (.invalid field reason))))
  match kindFor mimeType with
  | none => next (.error (.domain (.invalid "mimeType" "is not an accepted type")))
  | some kind => .stmt (.head key) fun
    | .error e => next (.error (.port e))
    | .ok none => next (.error (.domain (.invalid "storedName" "was not uploaded")))
    | .ok (some size) =>
      if size = 0 then reject "size" "the file is empty"
      else if size > kind.maxBytes then reject "size" sizeMessage
      else .stmt (.readPrefix key signatureProbeBytes) fun
        | .error e => next (.error (.port e))
        | .ok bytes =>
          if signatureMatches kind.mime bytes then next (.ok ⟨kind, size⟩)
          else reject "file"
            ("File content does not match the declared type for: " ++ String.ofList originalName)

def confirmUpload (owner : MediaOwner) (storedName originalName mimeType : Text) : Steps :=
  .stmt (.ownerAccess s owner) fun
  | .error e => fail e
  | .ok () =>
    let key := MediaService.keyFor s owner storedName
    verify key mimeType originalName fun
    | .error e => fail e
    | .ok verified => .stmt (.record s ⟨owner, verified.kind.fileType, verified.kind.mime, originalName, storedName,
        verified.sizeBytes, key, s.user.id⟩) fun
      | .error e => fail (.port e)
      | .ok media => .done (.ok (.media media))

def photoRecord (draft : InspectionForm) (clientKey : Text) (u : InspectionPhotoUpload) (verified : VerifiedUpload) :
    InspectionPhotoRecord :=
  ⟨⟨.diary draft.form.diaryEntryId (some draft.form.diaryNoteId), verified.kind.fileType, verified.kind.mime,
    u.originalName, u.storedName, verified.sizeBytes, InspectionService.keyFor s draft u.storedName, s.user.id⟩,
    clientKey⟩

/-- One bad file fails the batch, and the objects accepted before it go with it. -/
def verifyEach (draft : InspectionForm) (clientKey : Text) (keys : List Text) (records : List InspectionPhotoRecord)
    (next : List Text → List InspectionPhotoRecord → Steps) : List InspectionPhotoUpload → Steps
  | [] => next keys records
  | u :: rest =>
    let key := InspectionService.keyFor s draft u.storedName
    verify key u.mimeType u.originalName fun
    | .error e => discardEach keys (fail e)
    | .ok verified =>
      match assertPhoto verified.kind.fileType with
      | .error e => discardEach keys (discardEach [key] (fail (.domain e)))
      | .ok () => verifyEach draft clientKey (keys ++ [key])
          (records ++ [photoRecord s draft clientKey u verified]) next rest

def attachPhotos (form : InspectionFormId) (clientKey : Text) (expected : Int) (uploads : List InspectionPhotoUpload) :
    Steps :=
  match batchOk uploads with
  | .error e => fail (.domain e)
  | .ok () => .stmt (.findDraft s form) fun
    | .error e => fail e
    | .ok draft =>
      if draft.form.revision ≠ expected then fail (.domain staleRevision)
      else match assertItemExists draft clientKey with
        | .error e => fail (.domain e)
        | .ok () => verifyEach s draft clientKey [] []
            (fun keys records => .stmt (.attachPhotos s form expected records) fun
              | .ok (some saved) => .done (.ok (.inspection saved))
              | .ok none => discardEach keys (fail (.domain staleRevision))
              | .error e => discardEach keys (fail (.port e)))
            uploads

def onlyImages : DomainError := .invalid "mimeType" "Only image files are allowed (JPG, PNG, GIF, WebP)"

def assertImage (mime : Text) : Except DomainError Unit :=
  if (kindFor mime).any (·.fileType = .photo) then .ok () else .error onlyImages

def imageKey (banner : Bool) (storedName : Text) : Text :=
  objectKey s.principal.companyId (text (if banner then "branding/banner" else "branding/logo")) 0 storedName

/-- Removes a displaced object, unless it is the one just stored. -/
def sweepPrevious (previous : Option Text) (keep : Text) (next : Steps) : Steps :=
  match previous with
  | none => next
  | some old => if old ≠ [] ∧ old ≠ keep then .stmt (.sweep old) fun _ => next else next

def confirmImage (banner : Bool) (storedName originalName mimeType : Text) : Steps :=
  match assertImage mimeType with
  | .error e => fail (.domain e)
  | .ok () =>
    let key := imageKey s banner storedName
    verify key mimeType originalName fun
    | .error e => fail e
    | .ok verified =>
      if verified.kind.fileType ≠ .photo then discardEach [key] (fail (.domain onlyImages))
      else .stmt (.setBrandingImage s banner key) fun
        | .error e => fail (.port e)
        | .ok previous => sweepPrevious previous key (.stmt (.readBranding s) fun
          | .error e => fail (.port e)
          | .ok found => .done (.ok (.branding found)))

end Service

/-- A client also writes to the bucket itself, under any key it was ever given a link for. -/
inductive Request where
  | confirmUpload (s : SessionUser) (owner : MediaOwner) (storedName originalName mimeType : Text)
  | attachPhotos (s : SessionUser) (form : InspectionFormId) (clientKey : Text) (expected : Int)
      (uploads : List InspectionPhotoUpload)
  | confirmImage (s : SessionUser) (banner : Bool) (storedName originalName mimeType : Text)
  | put (key : Text) (content : List UInt8)

def programOf : Request → Steps
  | .confirmUpload s owner storedName originalName mimeType => confirmUpload s owner storedName originalName mimeType
  | .attachPhotos s form clientKey expected uploads => attachPhotos s form clientKey expected uploads
  | .confirmImage s banner storedName originalName mimeType => confirmImage s banner storedName originalName mimeType
  | .put key content => .stmt (.put key content) fun _ => .done (.ok .stored)

/-- The object is named by a row of the diary, of a job or of a company's branding. -/
def Referenced (store : Store) (key : Text) : Prop := key ∈ mediaKeys store.db ∨ key ∈ imageKeys store.branding

instance (store : Store) (key : Text) : Decidable (Referenced store key) :=
  inferInstanceAs (Decidable (key ∈ mediaKeys store.db ∨ key ∈ imageKeys store.branding))

def uploads : Service Statement Answer Outcome Request Env Store where
  program := programOf
  execute := execute
  initial _ := True
  admits _ _ _ := true

/- A call that nothing interrupts or fails is the call of the service. -/

section Alone
variable {s : SessionUser} {envs : Nat → Env} {now : Instant} {n : Nat} {store : Store}

def storageOf (store : Store) : ObjectStore where
  head key := .ok ((store.objects key).map List.length)
  readPrefix key bytes :=
    match store.objects key with
    | none => .error (.unavailable "s3" "NoSuchKey")
    | some content => .ok (content.take bytes)

theorem discardEach_alone {keys : List Text} {next : Steps} : ∃ m objects,
    (discardEach keys next).runFrom execute envs n store =
      next.runFrom execute envs m { store with objects := objects } := by
  induction keys generalizing n store with
  | nil => exact ⟨n, store.objects, rfl⟩
  | cons key rest ih =>
    obtain ⟨m, objects, same⟩ := @ih (n + 1) (remove (envs n) store key)
    refine ⟨m, objects, ?_⟩
    rw [discardEach, Program.runFrom, execute]
    refine same.trans ?_
    unfold remove
    split <;> rfl

theorem verify_alone {key mimeType originalName : Text} {next : Except AppError VerifiedUpload → Steps}
    (calm : ∀ n, (envs n).fault = none) : ∃ m objects,
      (∀ verified, Upload.verify (storageOf store) key mimeType originalName = .ok verified →
        objects = store.objects) ∧
      (verify key mimeType originalName next).runFrom execute envs n store =
        (next (Upload.verify (storageOf store) key mimeType originalName)).runFrom execute envs m
          { store with objects := objects } := by
  have turned : ∀ e k, ∃ m objects,
      (∀ verified : VerifiedUpload, (.error e : Except AppError VerifiedUpload) = .ok verified →
        objects = store.objects) ∧
      (discardEach [key] (next (.error e))).runFrom execute envs k store =
        (next (.error e)).runFrom execute envs m { store with objects := objects } := by
    intro e k
    obtain ⟨m, objects, same⟩ := discardEach_alone
    refine ⟨m, objects, ?_, same⟩
    intro verified passed
    cases passed
  unfold verify Upload.verify
  cases kindFor mimeType with
  | none => exact ⟨n, store.objects, fun _ _ => rfl, rfl⟩
  | some kind =>
    simp only [Program.runFrom, execute, Env.answer, calm, storageOf]
    cases there : store.objects key with
    | none => exact ⟨n + 1, store.objects, fun _ _ => rfl, rfl⟩
    | some content =>
      simp only [Option.map_some]
      split
      · exact turned _ _
      · split
        · exact turned _ _
        · simp only [Program.runFrom, execute, Env.answer, calm, there]
          split
          · exact ⟨n + 1 + 1, store.objects, fun _ _ => rfl, rfl⟩
          · exact turned _ _

theorem transact_alone {α : Type} {env : Env} {result : Except PortError (α × Db)} (calm : env.fault = none) :
    (∃ e, result = .error e ∧ transact env store result = (.error e, store)) ∨ ∃ value after,
      result = .ok (value, after) ∧ transact env store result = (.ok value, { store with db := after }) := by
  unfold transact
  rw [calm]
  cases result with
  | error e => exact .inl ⟨e, rfl, rfl⟩
  | ok pair => exact .inr ⟨pair.1, pair.2, rfl, rfl⟩

theorem confirmUpload_alone {owner : MediaOwner} {storedName originalName mimeType : Text}
    (calm : ∀ n, (envs n).fault = none) (clock : ∀ n, (envs n).now = now) :
    (((confirmUpload s owner storedName originalName mimeType).runFrom execute envs n store).1,
      ((confirmUpload s owner storedName originalName mimeType).runFrom execute envs n store).2.db) =
    ((MediaService.confirmUpload store.db s (storageOf store) now owner storedName originalName mimeType).1.map
        Reply.media,
      (MediaService.confirmUpload store.db s (storageOf store) now owner storedName originalName mimeType).2) := by
  unfold confirmUpload MediaService.confirmUpload
  simp only [Program.runFrom, execute, calm]
  cases MediaService.assertOwnerAccess store.db s owner with
  | error e => rfl
  | ok _ =>
    simp only [attempt]
    obtain ⟨m, objects, -, same⟩ := @verify_alone envs (n + 1) store (MediaService.keyFor s owner storedName) mimeType
      originalName _ calm
    rw [same]
    cases Upload.verify (storageOf store) (MediaService.keyFor s owner storedName) mimeType originalName with
    | error e => rfl
    | ok verified =>
      simp only [Program.runFrom, execute, clock]
      rcases transact_alone (calm m) with ⟨e, failed, same⟩ | ⟨media, after, done, same⟩
      · rw [same, failed]
        rfl
      · rw [same, done]
        rfl

theorem verifyEach_alone {draft : InspectionForm} {clientKey : Text} {keys : List Text}
    {records : List InspectionPhotoRecord} {next : List Text → List InspectionPhotoRecord → Steps}
    {uploads : List InspectionPhotoUpload} (calm : ∀ n, (envs n).fault = none) :
    (∃ e m objects, InspectionService.verifyEach s (storageOf store) draft clientKey uploads = .error e ∧
      (verifyEach s draft clientKey keys records next uploads).runFrom execute envs n store =
        (fail e).runFrom execute envs m { store with objects := objects }) ∨
    ∃ added m keys', InspectionService.verifyEach s (storageOf store) draft clientKey uploads = .ok added ∧
      (verifyEach s draft clientKey keys records next uploads).runFrom execute envs n store =
        (next keys' (records ++ added)).runFrom execute envs m store := by
  induction uploads generalizing n keys records with
  | nil => exact .inr ⟨[], n, keys, rfl, by rw [List.append_nil]; rfl⟩
  | cons u rest ih =>
    obtain ⟨m, objects, kept, same⟩ := @verify_alone envs n store (InspectionService.keyFor s draft u.storedName)
      u.mimeType u.originalName _ calm
    rw [verifyEach, same]
    cases verified : Upload.verify (storageOf store) (InspectionService.keyFor s draft u.storedName) u.mimeType
      u.originalName with
    | error e =>
      obtain ⟨k, after, removed⟩ := discardEach_alone
      exact .inl ⟨e, k, after, by rw [InspectionService.verifyEach, verified]; rfl, removed⟩
    | ok found =>
      rw [kept found verified]
      simp only
      cases photo : assertPhoto found.kind.fileType with
      | error e =>
        obtain ⟨k, after, removed⟩ := discardEach_alone
        obtain ⟨l, later, gone⟩ := discardEach_alone
        refine .inl ⟨.domain e, l, later, ?_, removed.trans gone⟩
        simp only [InspectionService.verifyEach, verified, inDomain, bind, Except.bind, photo]
      | ok _ =>
        rcases @ih m (keys ++ [InspectionService.keyFor s draft u.storedName])
          (records ++ [photoRecord s draft clientKey u found]) with ⟨e, k, after, failed, done⟩ | ⟨added, k, all, ok, done⟩
        · refine .inl ⟨e, k, after, ?_, done⟩
          simp only [InspectionService.verifyEach, verified, inDomain, bind, Except.bind, photo, failed]
        · refine .inr ⟨photoRecord s draft clientKey u found :: added, k, all, ?_, ?_⟩
          · simp only [InspectionService.verifyEach, verified, inDomain, bind, Except.bind, photo, ok]
            rfl
          · rw [done, List.append_assoc, List.singleton_append]

theorem attachPhotos_alone {form : InspectionFormId} {clientKey : Text} {expected : Int}
    {uploads : List InspectionPhotoUpload} (calm : ∀ n, (envs n).fault = none) (clock : ∀ n, (envs n).now = now) :
    (((attachPhotos s form clientKey expected uploads).runFrom execute envs n store).1,
      ((attachPhotos s form clientKey expected uploads).runFrom execute envs n store).2.db) =
    ((InspectionService.attachPhotos store.db s (storageOf store) now form clientKey expected uploads).1.map
        Reply.inspection,
      (InspectionService.attachPhotos store.db s (storageOf store) now form clientKey expected uploads).2) := by
  unfold attachPhotos InspectionService.attachPhotos
  cases batchOk uploads with
  | error e => rfl
  | ok _ =>
    simp only [Program.runFrom, execute, calm, inDomain, attempt]
    cases InspectionService.findDraft store.db s form with
    | error e => rfl
    | ok draft =>
      simp only
      split
      · rfl
      · cases assertItemExists draft clientKey with
        | error e => rfl
        | ok _ =>
          simp only
          rcases @verifyEach_alone s envs (n + 1) store draft clientKey [] [] _ uploads calm with
            ⟨e, m, objects, failed, same⟩ | ⟨records, m, keys, verified, same⟩
          · rw [same, failed]
            rfl
          · rw [same, verified]
            simp only [List.nil_append, Program.runFrom, execute, clock]
            rcases transact_alone (calm m) with ⟨e, failed, done⟩ | ⟨found, after, ok, done⟩
            · rw [done, failed]
              obtain ⟨k, objects, removed⟩ := @discardEach_alone envs (m + 1) store keys (fail (.port e))
              simp only [removed]
              rfl
            · rw [done, ok]
              cases found with
              | none =>
                obtain ⟨k, objects, removed⟩ := @discardEach_alone envs (m + 1) { store with db := after } keys
                  (fail (.domain staleRevision))
                simp only [removed]
                rfl
              | some saved => rfl

end Alone

end UploadPrograms
