import PmKonstruct.Media.LiveKeys
import PmKonstruct.Media.SelectionPrograms

/- What the calls that delete media take. Every row that goes is locked by whoever takes it, and goes with all that hangs
   off it, so a row that somebody else has locked stays, and so do the rows it hangs off. -/
namespace MediaTakings
open DomainErrors Accounts Schema KeyedTable RowSecurity DeletionQueue ReadCommitted
open SelectionPrograms
open DeletionPrograms (Root Place Lock gone without taken)
open LiveKeys (mem_visibleMedia)

/- What the statements look at. -/

theorem fileAmong_iff {job : Option JobId} {ids : List MediaId} {f : JobMediaRow} :
    fileAmong job ids f = true ↔ job.all (fun j => f.jobId = j) = true ∧ f.id ∈ ids := by
  rw [fileAmong, Bool.and_eq_true, decide_eq_true_eq]

theorem mediaAmong_iff {db : Db} {job : Option JobId} {ids : List MediaId} {m : DiaryMediaRow} :
    mediaAmong db job ids m = true ↔
      job.all (fun j => (db.siteDiary.find m.diaryEntryId).any (·.jobId = j)) = true ∧ m.id ∈ ids := by
  rw [mediaAmong, Bool.and_eq_true, decide_eq_true_eq]

theorem mem_visibleFiles {db : Db} {scope : CompanyId} {p : JobMediaRow → Bool} {f : JobMediaRow} :
    f ∈ visibleFiles db scope p ↔ f ∈ db.jobMedia.rows ∧ p f = true ∧ jobInScope db scope f.jobId = true := by
  rw [visibleFiles, Table.mem_select, Bool.and_eq_true]

/- Stores that deletions lead through. -/

/-- Rows have gone, and those that are left find the rows they hang off. -/
structure Later (before after : Db) : Prop where
  jobs : ∀ j ∈ after.jobs.rows, j ∈ before.jobs.rows
  files : ∀ f ∈ after.jobMedia.rows, f ∈ before.jobMedia.rows
  media : ∀ m ∈ after.diaryMedia.rows, m ∈ before.diaryMedia.rows
  entries : ∀ e ∈ after.siteDiary.rows, e ∈ before.siteDiary.rows
  jobOfFile : ∀ f ∈ after.jobMedia.rows, after.jobs.find f.jobId = before.jobs.find f.jobId
  entryOfMedia : ∀ m ∈ after.diaryMedia.rows, after.siteDiary.find m.diaryEntryId = before.siteDiary.find m.diaryEntryId
  jobOfEntry : ∀ e ∈ after.siteDiary.rows, after.jobs.find e.jobId = before.jobs.find e.jobId

section Later
variable {before middle after db : Db} {scope : CompanyId} {job : Option JobId} {ids : List MediaId}

theorem Later.refl : Later db db :=
  ⟨fun _ => id, fun _ => id, fun _ => id, fun _ => id, fun _ _ => rfl, fun _ _ => rfl, fun _ _ => rfl⟩

theorem Later.trans (first : Later before middle) (second : Later middle after) : Later before after where
  jobs := fun j there => first.jobs j (second.jobs j there)
  files := fun f there => first.files f (second.files f there)
  media := fun m there => first.media m (second.media m there)
  entries := fun e there => first.entries e (second.entries e there)
  jobOfFile := fun f there => (second.jobOfFile f there).trans (first.jobOfFile f (second.files f there))
  entryOfMedia := fun m there => (second.entryOfMedia m there).trans (first.entryOfMedia m (second.media m there))
  jobOfEntry := fun e there => (second.jobOfEntry e there).trans (first.jobOfEntry e (second.entries e there))

theorem Later.file_scope (later : Later before after) {f : JobMediaRow} (there : f ∈ after.jobMedia.rows) :
    jobInScope after scope f.jobId = jobInScope before scope f.jobId := by
  rw [jobInScope, jobInScope, later.jobOfFile f there]

theorem Later.entry_scope (later : Later before after) {m : DiaryMediaRow} (there : m ∈ after.diaryMedia.rows) :
    entryInScope after scope m.diaryEntryId = entryInScope before scope m.diaryEntryId := by
  rw [entryInScope, entryInScope, ← later.entryOfMedia m there]
  cases found : after.siteDiary.find m.diaryEntryId with
  | none => rfl
  | some entry =>
    rw [Option.any_some, Option.any_some, jobInScope, jobInScope,
      later.jobOfEntry entry (Table.find_eq_some_iff.mp found).1]

theorem Later.media_among (later : Later before after) {m : DiaryMediaRow} (there : m ∈ after.diaryMedia.rows) :
    mediaAmong after job ids m = mediaAmong before job ids m := by
  rw [mediaAmong, mediaAmong, later.entryOfMedia m there]

/-- What a statement listed and still finds is what it would list now. -/
theorem Later.files_found (later : Later before after) :
    after.jobMedia.select (fileAmong job ((visibleFiles before scope (fileAmong job ids)).map (·.id))) =
      visibleFiles after scope (fileAmong job ids) := by
  refine List.filter_congr fun f there => ?_
  rw [Bool.eq_iff_iff, Bool.and_eq_true, fileAmong_iff, fileAmong_iff, later.file_scope there, List.mem_map]
  constructor
  · rintro ⟨own, other, listed, same⟩
    obtain ⟨old, among, visible⟩ := mem_visibleFiles.mp listed
    cases Table.key_inj old (later.files f there) same
    exact ⟨⟨own, (fileAmong_iff.mp among).2⟩, visible⟩
  · rintro ⟨among, visible⟩
    exact ⟨among.1, f, mem_visibleFiles.mpr ⟨later.files f there, fileAmong_iff.mpr among, visible⟩, rfl⟩

theorem Later.media_found (later : Later before after) :
    after.diaryMedia.select
        (mediaAmong after job ((visibleMedia before scope (mediaAmong before job ids)).map (·.id))) =
      visibleMedia after scope (mediaAmong after job ids) := by
  refine List.filter_congr fun m there => ?_
  rw [Bool.eq_iff_iff, Bool.and_eq_true, later.media_among there, later.media_among there, mediaAmong_iff,
    mediaAmong_iff, later.entry_scope there, List.mem_map]
  constructor
  · rintro ⟨own, other, listed, same⟩
    obtain ⟨old, among, visible⟩ := mem_visibleMedia.mp listed
    cases Table.key_inj old (later.media m there) same
    exact ⟨⟨own, (mediaAmong_iff.mp among).2⟩, visible⟩
  · rintro ⟨among, visible⟩
    exact ⟨among.1, m, mem_visibleMedia.mpr ⟨later.media m there, mediaAmong_iff.mpr among, visible⟩, rfl⟩

end Later

/- What a transaction takes. -/

/-- Rows by table. -/
structure Taking where
  jobs : JobRow → Bool
  entries : SiteDiaryRow → Bool
  media : DiaryMediaRow → Bool
  files : JobMediaRow → Bool

def Taking.nothing : Taking := ⟨fun _ => false, fun _ => false, fun _ => false, fun _ => false⟩

def Taking.and (first second : Taking) : Taking where
  jobs j := first.jobs j || second.jobs j
  entries e := first.entries e || second.entries e
  media m := first.media m || second.media m
  files f := first.files f || second.files f

/-- The change deletes these rows, whatever it is applied to. -/
structure Deletes (taking : Taking) (change : Db → Db) : Prop where
  jobs : ∀ db, (change db).jobs = db.jobs.delete taking.jobs
  entries : ∀ db, (change db).siteDiary = db.siteDiary.delete taking.entries
  media : ∀ db, (change db).diaryMedia = db.diaryMedia.delete taking.media
  files : ∀ db, (change db).jobMedia = db.jobMedia.delete taking.files

/-- What stays keeps the row it hangs off. -/
structure Closed (db : Db) (taking : Taking) : Prop where
  files : ∀ f ∈ db.jobMedia.rows, taking.files f = false → ∀ job, db.jobs.find f.jobId = some job →
    taking.jobs job = false
  media : ∀ m ∈ db.diaryMedia.rows, taking.media m = false → ∀ entry, db.siteDiary.find m.diaryEntryId = some entry →
    taking.entries entry = false
  entries : ∀ e ∈ db.siteDiary.rows, taking.entries e = false → ∀ job, db.jobs.find e.jobId = some job →
    taking.jobs job = false

structure Held (db : Db) (taking : Taking) (held : List Lock) : Prop where
  files : ∀ f ∈ db.jobMedia.rows, taking.files f = true → (Place.file f.id).exclusive ∈ held
  media : ∀ m ∈ db.diaryMedia.rows, taking.media m = true → (Place.media m.id).exclusive ∈ held

section Takings
variable {first second taking : Taking} {change next : Db → Db} {db before after : Db} {held more : List Lock}

theorem deletes_nothing (jobs : ∀ db, (change db).jobs = db.jobs) (entries : ∀ db, (change db).siteDiary = db.siteDiary)
    (media : ∀ db, (change db).diaryMedia = db.diaryMedia) (files : ∀ db, (change db).jobMedia = db.jobMedia) :
    Deletes .nothing change where
  jobs := fun db => (jobs db).trans (Table.delete_eq_self fun _ _ => rfl).symm
  entries := fun db => (entries db).trans (Table.delete_eq_self fun _ _ => rfl).symm
  media := fun db => (media db).trans (Table.delete_eq_self fun _ _ => rfl).symm
  files := fun db => (files db).trans (Table.delete_eq_self fun _ _ => rfl).symm

theorem Deletes.comp (earlier : Deletes first change) (later : Deletes second next) :
    Deletes (first.and second) (next ∘ change) where
  jobs := fun db => by rw [Function.comp_apply, later.jobs, earlier.jobs, Table.delete_delete]; rfl
  entries := fun db => by rw [Function.comp_apply, later.entries, earlier.entries, Table.delete_delete]; rfl
  media := fun db => by rw [Function.comp_apply, later.media, earlier.media, Table.delete_delete]; rfl
  files := fun db => by rw [Function.comp_apply, later.files, earlier.files, Table.delete_delete]; rfl

theorem closed_nothing : Closed db .nothing where
  files := fun _ _ _ _ _ => rfl
  media := fun _ _ _ _ _ => rfl
  entries := fun _ _ _ _ _ => rfl

theorem held_nothing : Held db .nothing held where
  files := fun _ _ taken => by cases taken
  media := fun _ _ taken => by cases taken

/-- A deletion leads to a later store. -/
theorem Deletes.later (deletes : Deletes taking change) (closed : Closed db taking) : Later db (change db) where
  jobs := by
    rw [deletes.jobs]
    exact fun j there => (Table.mem_delete.mp there).1
  files := by
    rw [deletes.files]
    exact fun f there => (Table.mem_delete.mp there).1
  media := by
    rw [deletes.media]
    exact fun m there => (Table.mem_delete.mp there).1
  entries := by
    rw [deletes.entries]
    exact fun e there => (Table.mem_delete.mp there).1
  jobOfFile := by
    rw [deletes.files, deletes.jobs]
    intro f there
    obtain ⟨old, kept⟩ := Table.mem_delete.mp there
    exact Table.find_delete_kept (closed.files f old kept)
  entryOfMedia := by
    rw [deletes.media, deletes.entries]
    intro m there
    obtain ⟨old, kept⟩ := Table.mem_delete.mp there
    exact Table.find_delete_kept (closed.media m old kept)
  jobOfEntry := by
    rw [deletes.entries, deletes.jobs]
    intro e there
    obtain ⟨old, kept⟩ := Table.mem_delete.mp there
    exact Table.find_delete_kept (closed.entries e old kept)

/-- The same deletion of a later store. -/
theorem Deletes.both (deletes : Deletes taking change) (later : Later before after) :
    Later (change before) (change after) where
  jobs := by
    rw [deletes.jobs, deletes.jobs]
    intro j there
    obtain ⟨old, kept⟩ := Table.mem_delete.mp there
    exact Table.mem_delete.mpr ⟨later.jobs j old, kept⟩
  files := by
    rw [deletes.files, deletes.files]
    intro f there
    obtain ⟨old, kept⟩ := Table.mem_delete.mp there
    exact Table.mem_delete.mpr ⟨later.files f old, kept⟩
  media := by
    rw [deletes.media, deletes.media]
    intro m there
    obtain ⟨old, kept⟩ := Table.mem_delete.mp there
    exact Table.mem_delete.mpr ⟨later.media m old, kept⟩
  entries := by
    rw [deletes.entries, deletes.entries]
    intro e there
    obtain ⟨old, kept⟩ := Table.mem_delete.mp there
    exact Table.mem_delete.mpr ⟨later.entries e old, kept⟩
  jobOfFile := by
    rw [deletes.files, deletes.jobs, deletes.jobs]
    intro f there
    rw [Table.find_delete, Table.find_delete, later.jobOfFile f (Table.mem_delete.mp there).1]
  entryOfMedia := by
    rw [deletes.media, deletes.entries, deletes.entries]
    intro m there
    rw [Table.find_delete, Table.find_delete, later.entryOfMedia m (Table.mem_delete.mp there).1]
  jobOfEntry := by
    rw [deletes.entries, deletes.jobs, deletes.jobs]
    intro e there
    rw [Table.find_delete, Table.find_delete, later.jobOfEntry e (Table.mem_delete.mp there).1]

theorem Closed.later (closed : Closed before taking) (later : Later before after) : Closed after taking where
  files := by
    intro f there kept job found
    rw [later.jobOfFile f there] at found
    exact closed.files f (later.files f there) kept job found
  media := by
    intro m there kept entry found
    rw [later.entryOfMedia m there] at found
    exact closed.media m (later.media m there) kept entry found
  entries := by
    intro e there kept job found
    rw [later.jobOfEntry e there] at found
    exact closed.entries e (later.entries e there) kept job found

theorem Held.later (locked : Held before taking held) (later : Later before after) : Held after taking held where
  files := fun f there => locked.files f (later.files f there)
  media := fun m there => locked.media m (later.media m there)

/-- A second deletion, of what the first has left. -/
theorem Closed.and (earlier : Closed db first) (deletes : Deletes first change) (next : Closed (change db) second) :
    Closed db (first.and second) where
  files := by
    intro f there kept job found
    obtain ⟨once, twice⟩ := (Bool.or_eq_false_iff).mp kept
    have left : f ∈ (change db).jobMedia.rows := by
      rw [deletes.files]
      exact Table.mem_delete.mpr ⟨there, once⟩
    have standing := ((deletes.later earlier).jobOfFile f left).trans found
    exact Bool.or_eq_false_iff.mpr ⟨earlier.files f there once job found, next.files f left twice job standing⟩
  media := by
    intro m there kept entry found
    obtain ⟨once, twice⟩ := (Bool.or_eq_false_iff).mp kept
    have left : m ∈ (change db).diaryMedia.rows := by
      rw [deletes.media]
      exact Table.mem_delete.mpr ⟨there, once⟩
    have standing := ((deletes.later earlier).entryOfMedia m left).trans found
    exact Bool.or_eq_false_iff.mpr ⟨earlier.media m there once entry found, next.media m left twice entry standing⟩
  entries := by
    intro e there kept job found
    obtain ⟨once, twice⟩ := (Bool.or_eq_false_iff).mp kept
    have left : e ∈ (change db).siteDiary.rows := by
      rw [deletes.entries]
      exact Table.mem_delete.mpr ⟨there, once⟩
    have standing := ((deletes.later earlier).jobOfEntry e left).trans found
    exact Bool.or_eq_false_iff.mpr ⟨earlier.entries e there once job found, next.entries e left twice job standing⟩

theorem Held.and (earlier : Held db first held) (deletes : Deletes first change) (next : Held (change db) second more) :
    Held db (first.and second) (held ++ more) where
  files := by
    intro f there taken
    rcases Bool.eq_false_or_eq_true (first.files f) with before | before
    · exact List.mem_append_left _ (earlier.files f there before)
    · have kept : f ∈ (change db).jobMedia.rows := by
        rw [deletes.files]
        exact Table.mem_delete.mpr ⟨there, before⟩
      simp only [Taking.and, before, Bool.false_or] at taken
      exact List.mem_append_right _ (next.files f kept taken)
  media := by
    intro m there taken
    rcases Bool.eq_false_or_eq_true (first.media m) with before | before
    · exact List.mem_append_left _ (earlier.media m there before)
    · have kept : m ∈ (change db).diaryMedia.rows := by
        rw [deletes.media]
        exact Table.mem_delete.mpr ⟨there, before⟩
      simp only [Taking.and, before, Bool.false_or] at taken
      exact List.mem_append_right _ (next.media m kept taken)

end Takings

/- What a statement takes. -/

/-- Whatever goes, goes under a lock and with all that hangs off it. -/
def Removes {α : Type} (current : Db) (effect : Effect α Db Lock) : Prop :=
  ∃ taking, Deletes taking effect.change ∧ Closed current taking ∧ Held current taking effect.takes

def goneBetween (before after : Db) : Taking where
  jobs := gone before.jobs after.jobs
  entries := gone before.siteDiary after.siteDiary
  media := gone before.diaryMedia after.diaryMedia
  files := gone before.jobMedia after.jobMedia

/-- What is left of a store has left what it hangs off. -/
structure Cascades (before after : Db) : Prop where
  files : ∀ f ∈ after.jobMedia.rows, ∀ job, before.jobs.find f.jobId = some job → job ∈ after.jobs.rows
  media : ∀ m ∈ after.diaryMedia.rows, ∀ entry, before.siteDiary.find m.diaryEntryId = some entry →
    entry ∈ after.siteDiary.rows
  entries : ∀ e ∈ after.siteDiary.rows, ∀ job, before.jobs.find e.jobId = some job → job ∈ after.jobs.rows

section Statements
variable {α : Type} {effect : Effect α Db Lock} {before after snapshot current : Db} {scope : CompanyId} {serial : Int}

theorem mem_of_kept {Row : Type} [Keyed Row] [DecidableEq Row] {old new : Table Row} {row : Row}
    (there : row ∈ old.rows) (kept : gone old new row = false) : row ∈ new.rows := by
  by_contra absent
  simp [gone, there, absent] at kept

theorem gone_of_mem {Row : Type} [Keyed Row] [DecidableEq Row] {old new : Table Row} {row : Row}
    (there : row ∈ new.rows) : gone old new row = false := by
  simp [gone, there]

theorem removes_nothing (jobs : ∀ db, (effect.change db).jobs = db.jobs)
    (entries : ∀ db, (effect.change db).siteDiary = db.siteDiary)
    (media : ∀ db, (effect.change db).diaryMedia = db.diaryMedia)
    (files : ∀ db, (effect.change db).jobMedia = db.jobMedia) : Removes current effect :=
  ⟨.nothing, deletes_nothing jobs entries media files, closed_nothing, held_nothing⟩

theorem deletes_without : Deletes (goneBetween before after) (without before after) :=
  ⟨fun _ => rfl, fun _ => rfl, fun _ => rfl, fun _ => rfl⟩

theorem closed_between (cascades : Cascades before after) : Closed before (goneBetween before after) where
  files := fun f there kept _ found => gone_of_mem (cascades.files f (mem_of_kept there kept) _ found)
  media := fun m there kept _ found => gone_of_mem (cascades.media m (mem_of_kept there kept) _ found)
  entries := fun e there kept _ found => gone_of_mem (cascades.entries e (mem_of_kept there kept) _ found)

theorem held_between {held : List Lock} (locks : ∀ place ∈ taken before after, place.exclusive ∈ held) :
    Held before (goneBetween before after) held where
  files := by
    intro f there went
    exact locks _ (List.mem_append_right _ (List.mem_map.mpr ⟨f, List.mem_filter.mpr ⟨there, went⟩, rfl⟩))
  media := by
    intro m there went
    refine locks _ (List.mem_append_left _ (List.mem_append_right _ ?_))
    exact List.mem_map.mpr ⟨m, List.mem_filter.mpr ⟨there, went⟩, rfl⟩

theorem removes_without (cascades : Cascades current after) (changes : effect.change = without current after)
    (locks : ∀ place ∈ taken current after, place.exclusive ∈ effect.takes) : Removes current effect :=
  ⟨goneBetween current after, by rw [changes]; exact deletes_without, closed_between cascades, held_between locks⟩

theorem cascades_same (jobs : after.jobs = before.jobs) (entries : after.siteDiary = before.siteDiary) :
    Cascades before after where
  files := fun _ _ _ found => jobs ▸ (Table.find_eq_some_iff.mp found).1
  media := fun _ _ _ found => entries ▸ (Table.find_eq_some_iff.mp found).1
  entries := fun _ _ _ found => jobs ▸ (Table.find_eq_some_iff.mp found).1

/-- A row is left where the row it names was not deleted. -/
theorem left_of_spared {Row : Type} [Keyed Row] {t : Table Row} {id : Int} {going : Row → Bool} {row : Row}
    (spared : (t.find id).any going = false) (found : t.find id = some row) : row ∈ (t.delete going).rows := by
  rw [found, Option.any_some] at spared
  exact Table.mem_delete.mpr ⟨(Table.find_eq_some_iff.mp found).1, spared⟩

theorem cascades_root {root : Root} : Cascades current (DeletionPrograms.cascade root current) := by
  cases root with
  | job id =>
    constructor
    · exact fun f there _ found => left_of_spared (Table.mem_delete.mp there).2 found
    · exact fun m there _ found => left_of_spared (LiveKeys.cascadeEntries_media there) found
    · exact fun e there _ found => left_of_spared (Table.mem_delete.mp there).2 found
  | entry id =>
    constructor
    · exact fun _ _ _ found => (Table.find_eq_some_iff.mp found).1
    · exact fun m there _ found => left_of_spared (LiveKeys.cascadeEntries_media there) found
    · exact fun _ _ _ found => (Table.find_eq_some_iff.mp found).1
  | note id => exact cascades_same rfl rfl

def inserts : Query → Bool
  | .cascading (.insert _ _) => true
  | _ => false

theorem cascading_removes {query : DeletionPrograms.Query} (deletes : inserts (.cascading query) = false) :
    Removes current (DeletionPrograms.perform snapshot current scope serial query) := by
  cases query with
  | selectFiles job => exact removes_nothing (fun _ => rfl) (fun _ => rfl) (fun _ => rfl) fun _ => rfl
  | selectMedia root => exact removes_nothing (fun _ => rfl) (fun _ => rfl) (fun _ => rfl) fun _ => rfl
  | enqueue keys => exact removes_nothing (fun _ => rfl) (fun _ => rfl) (fun _ => rfl) fun _ => rfl
  | insert rec now => cases deletes
  | delete root =>
    simp only [DeletionPrograms.perform, DeletionPrograms.deleteRoot]
    split
    · split
      · exact removes_without cascades_root rfl fun place there =>
          List.mem_map_of_mem (List.mem_cons_of_mem _ there)
      · exact removes_nothing (fun _ => rfl) (fun _ => rfl) (fun _ => rfl) fun _ => rfl
    · exact removes_nothing (fun _ => rfl) (fun _ => rfl) (fun _ => rfl) fun _ => rfl

theorem execute_removes {fault : Option PortError} {statement : Statement} (deletes : inserts statement.query = false) :
    Removes current (execute fault serial statement snapshot current) := by
  obtain ⟨scope, query⟩ := statement
  cases fault with
  | some e => exact removes_nothing (fun _ => rfl) (fun _ => rfl) (fun _ => rfl) fun _ => rfl
  | none =>
    cases query with
    | lockFiles job ids => exact removes_nothing (fun _ => rfl) (fun _ => rfl) (fun _ => rfl) fun _ => rfl
    | lockMedia job ids => exact removes_nothing (fun _ => rfl) (fun _ => rfl) (fun _ => rfl) fun _ => rfl
    | deleteFiles job ids =>
      refine removes_without ?_ rfl fun _ => List.mem_map_of_mem
      exact cascades_same rfl rfl
    | deleteMedia job ids =>
      refine removes_without ?_ rfl fun _ => List.mem_map_of_mem
      exact cascades_same rfl rfl
    | cascading query => exact cascading_removes deletes

end Statements

end MediaTakings
