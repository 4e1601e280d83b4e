import PmKonstruct.CallForward.Hierarchy

/- Reordering a programme in one statement. The batch is checked to be visible and of one job; the parents it sets
   are not, so what it leaves depends on them alone. -/
namespace Reordering
open PlainText DomainErrors Accounts Schema KeyedTable RowSecurity Requests ParentForest
open CallForwardItem ProgrammeStore CallForwardService Hierarchy
open AuthService (SessionUser)

/-- The rule in full: every link is allowed and following parents never comes back. -/
structure Settled (t : Table CallForwardRow) : Prop where
  nested : Nested t
  acyclic : Acyclic (parentOf t)

/-- Every entry that the statement applies and that sets a parent names a HEADER on the job of its item, and the
    item is none itself. -/
def SetsHeaders (pick : CallForwardItemId → Nat) (t : Table CallForwardRow) (entries : List ReorderEntry) : Prop :=
  ∀ row ∈ t.rows, ∀ e, chosen pick entries row.id = some e → ∀ p, e.parentId = some (some p) →
    t.Has kindOf p (row.jobId, .header) ∧ row.itemType ≠ .header

section Batches
variable {db after : Db} {s : SessionUser} {now : Instant} {pick : CallForwardItemId → Nat}
    {entries : List ReorderEntry} {t : Table CallForwardRow}

theorem settled_of_nested (nested : Nested t) : Settled t := ⟨nested, (nested_flat nested).acyclic⟩

theorem chosen_mem {id : CallForwardItemId} {e : ReorderEntry} (used : chosen pick entries id = some e) :
    e ∈ entries ∧ e.id = id := by
  have named := List.mem_of_getElem? used
  obtain ⟨member, same⟩ := List.mem_filter.mp named
  exact ⟨member, of_decide_eq_true same⟩

/-- The check walks the whole batch, so every item of it is in reach. -/
theorem sameJob_ok {job : Option JobId} (checked : sameJob db s job entries = .ok ()) :
    ∀ e ∈ entries, ∃ row, findItem db s.principal.companyId (visibleJobs db s) e.id = some row := by
  induction entries generalizing job with
  | nil =>
    intro e member
    cases member
  | cons first rest ih =>
    unfold sameJob at checked
    split at checked
    · cases checked
    · next item got =>
      split at checked
      · cases checked
      · intro e member
        cases List.mem_cons.mp member with
        | inl here =>
          rw [here]
          unfold CallForwardService.get at got
          split at got
          · cases got
          · next row found => exact ⟨row, found⟩
        | inr later => exact ih checked e later

/-- An accepted batch rewrites every row it has an entry for. -/
theorem reorder_ok {count : Nat} (accepted : CallForwardService.reorder db s now pick entries = (.ok count, after)) :
    after.callForward = reordered pick db s.principal.companyId now entries ∧
      ∀ row ∈ db.callForward.rows, ∀ e, chosen pick entries row.id = some e →
        joined pick db s.principal.companyId entries row = true := by
  unfold CallForwardService.reorder at accepted
  split at accepted
  · cases accepted
  · next filled =>
    cases checked : sameJob db s none entries with
    | error e =>
      rw [checked] at accepted
      cases accepted
    | ok _ =>
      rw [checked] at accepted
      simp only [attempt] at accepted
      cases stored : ProgrammeStore.reorder pick db s.principal.companyId now entries with
      | error e =>
        rw [stored] at accepted
        cases accepted
      | ok pair =>
        obtain ⟨n, later⟩ := pair
        rw [stored] at accepted
        cases accepted
        constructor
        · unfold ProgrammeStore.reorder at stored
          rw [if_neg filled] at stored
          simp only at stored
          split at stored
          · cases stored
          · cases stored
            rfl
        · intro row member e used
          obtain ⟨listed, same⟩ := chosen_mem used
          obtain ⟨found, located⟩ := sameJob_ok checked e listed
          obtain ⟨there, visible⟩ := Table.reach_eq_some_iff.mp located
          rw [same] at there
          obtain ⟨foundMember, key⟩ := Table.find_eq_some_iff.mp there
          have one := Table.key_inj member foundMember key.symm
          rw [Bool.and_eq_true, ← one] at visible
          rw [joined, visible.1, used]
          rfl

theorem kindOf_placed (row : CallForwardRow) : kindOf (placed pick now entries row) = kindOf row := by
  unfold placed
  split <;> rfl

theorem has_reordered {scope : CompanyId} {id : CallForwardItemId} {kind : JobId × ItemType} :
    (reordered pick db scope now entries).Has kindOf id kind ↔ db.callForward.Has kindOf id kind :=
  Table.has_update_iff kindOf_placed

/-- A row is under a parent afterwards when it is before, whatever link the row has. -/
theorem under_placed {scope : CompanyId} {row : CallForwardRow} {p : CallForwardItemId} :
    Under (reordered pick db scope now entries) (placed pick now entries row) p ↔ Under db.callForward row p := by
  have job : (placed pick now entries row).jobId = row.jobId := congrArg Prod.fst (kindOf_placed row)
  have type : (placed pick now entries row).itemType = row.itemType := congrArg Prod.snd (kindOf_placed row)
  have id : (placed pick now entries row).id = row.id := placed_id pick row
  constructor
  · intro ⟨header, below, apart⟩
    rw [job, has_reordered] at header
    rw [type] at below
    rw [id] at apart
    exact ⟨header, below, apart⟩
  · intro ⟨header, below, apart⟩
    constructor
    · rw [job, has_reordered]
      exact header
    · rw [type]
      exact below
    · rw [id]
      exact apart

theorem placed_under {row : CallForwardRow} {p : CallForwardItemId} (nested : Nested db.callForward)
    (sets : SetsHeaders pick db.callForward entries) (member : row ∈ db.callForward.rows)
    (named : (placed pick now entries row).parentId = some p) : Under db.callForward row p := by
  unfold placed at named
  split at named
  · exact nested row member p named
  · next e used =>
    cases given : e.parentId with
    | none =>
      -- the entry leaves the parent alone
      rw [given, Option.getD_none] at named
      exact nested row member p named
    | some parent =>
      rw [given, Option.getD_some] at named
      have same : parent = some p := named
      rw [same] at given
      obtain ⟨header, below⟩ := sets row member e used p given
      exact under_of_mem member header below

end Batches

/-- An accepted batch leaves the rule standing exactly when the parents it sets are HEADERs of the job and are set
    on items that are none. -/
theorem reorder_settles_iff (pick : CallForwardItemId → Nat) (db after : Db) (s : SessionUser) (now : Instant)
    (entries : List ReorderEntry) (count : Nat) (settled : Settled db.callForward)
    (accepted : CallForwardService.reorder db s now pick entries = (.ok count, after)) :
    Settled after.callForward ↔ SetsHeaders pick db.callForward entries := by
  obtain ⟨rewritten, rewrites⟩ := reorder_ok accepted
  rw [rewritten]
  constructor
  · intro later row member e used p sets
    have moved : placed pick now entries row ∈ (reordered pick db s.principal.companyId now entries).rows := by
      apply Table.mem_update.mpr
      refine ⟨row, member, ?_⟩
      rw [if_pos (rewrites row member e used)]
    have named : (placed pick now entries row).parentId = some p := by
      simp only [placed, used, sets, Option.getD_some]
    have under := under_placed.mp (later.nested _ moved p named)
    exact ⟨under.header, under.below⟩
  · intro sets
    apply settled_of_nested
    intro row moved p named
    obtain ⟨old, member, made⟩ := Table.mem_update.mp moved
    by_cases hit : joined pick db s.principal.companyId entries old = true
    · rw [if_pos hit] at made
      rw [made] at named ⊢
      exact under_placed.mpr (placed_under settled.nested sets member named)
    · rw [if_neg hit] at made
      rw [made] at named ⊢
      have under := settled.nested old member p named
      exact ⟨has_reordered.mpr under.header, under.below, under.apart⟩

/- A HEADER with one task and a task beside it. Two tasks made each other's parents pass every check. -/

def frame : CallForwardRow := newItem 0 1 (line (text "Frame") .header none) 0 none 1

def walls : CallForwardRow := newItem 0 1 (line (text "Walls") .task (some 1)) 1 (some 1) 2

def roof : CallForwardRow := newItem 0 1 (line (text "Roof") .task none) 2 none 3

def twoTasks : Db :=
  { emptyProgramme with callForward := ⟨[frame, walls, roof], 4, by decide, by decide⟩ }

theorem mem_twoTasks {row : CallForwardRow} (member : row ∈ twoTasks.callForward.rows) :
    row = frame ∨ row = walls ∨ row = roof := by
  simpa [twoTasks] using member

theorem twoTasks_settled : Settled twoTasks.callForward := by
  apply settled_of_nested
  intro row member p named
  rcases mem_twoTasks member with rfl | rfl | rfl
  · cases named
  · cases named
    exact ⟨⟨frame, rfl, rfl⟩, by decide, by decide⟩
  · cases named

theorem roof_joins_frame : ∃ after,
    CallForwardService.reorder twoTasks manager 0 (fun _ => 0) [⟨3, 5, some (some 1)⟩] = (.ok 1, after) ∧
      Settled after.callForward := by
  have sets : SetsHeaders (fun _ => 0) twoTasks.callForward [⟨3, 5, some (some 1)⟩] := by
    intro row member e used p sets
    rcases mem_twoTasks member with rfl | rfl | rfl
    · cases used
    · cases used
    · cases used
      cases sets
      exact ⟨⟨frame, rfl, rfl⟩, by decide⟩
  refine ⟨_, rfl, ?_⟩
  exact (reorder_settles_iff _ _ _ manager 0 _ 1 twoTasks_settled rfl).mpr sets

theorem mutual_parents_accepted : Settled twoTasks.callForward ∧ ∃ after,
    CallForwardService.reorder twoTasks manager 0 (fun _ => 0) [⟨2, 0, some (some 3)⟩, ⟨3, 1, some (some 2)⟩] =
      (.ok 2, after) ∧ ¬ Nested after.callForward ∧ ¬ Acyclic (parentOf after.callForward) := by
  refine ⟨twoTasks_settled, _, rfl, ?_, ?_⟩
  · intro nested
    have header := (nested { walls with sortOrder := 0, parentId := some 3 } (by decide) 3 rfl).header
    obtain ⟨row, found, kind⟩ := header
    cases found
    cases kind
  · intro acyclic
    exact acyclic 2 (.tail (.single rfl) rfl)

end Reordering
