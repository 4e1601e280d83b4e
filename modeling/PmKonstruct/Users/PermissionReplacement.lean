import PmKonstruct.Users.Permissions

/- Saving permissions replaces the stored list, as long as no call commits while another call for the same user has
   begun to delete. A call that has seen its rows deletes those rows and no others, so what is committed in between
   stays, and its own list is added to it. -/
namespace PermissionReplacement
open DomainErrors Accounts KeyedTable TransitionRuns ReadCommitted Permissions
open PlainText (Text text)
open StatementProgram (Event getElem?_set_cases getElem?_append_cases)
open AuthStore (AuthDb Permission UserPermissionRow)
open AuthService (SessionUser)

/- The condition on a run. -/

def deletes : Statement → Bool
  | .deletePermissions _ _ => true
  | _ => false

/-- The other call is for the same user, has started its `DELETE` and has not ended. -/
def clashes (_ : AuthDb) (tx other : Saving) : Bool := other.begun deletes && other.request.id = tx.request.id

/-- Not a text that the column would shorten. -/
def whole (t : Text) : Bool := t.length ≤ 100 || !(t.drop 100).all (· = ' ')

def wholeNames (permission : Permission) : Bool := whole permission.resource && whole permission.action

def savesWhole : Label Save (Option PortError) → Bool
  | .begin save => save.permissions.all wholeNames
  | _ => true

def separate (config : Saves) (label : Label Save (Option PortError)) : Bool :=
  separately clashes config label && savesWhole label

/- What is stored of a list. -/

section Stored
variable {user : UserId} {permission : Permission} {permissions stored taken : List Permission} {serial : Int}
    {row : UserPermissionRow}

theorem column_whole {t u : Text} (kept : whole t = true) (stored : column t = .ok u) : u = t := by
  rw [column] at stored
  split at stored
  · next blank =>
    cases stored
    rw [whole, blank] at kept
    exact List.take_of_length_le (by simpa using kept)
  · cases stored

theorem asStored_whole {later : Permission} (kept : wholeNames permission = true)
    (stored : asStored permission = .ok later) : later = permission := by
  obtain ⟨resource, action⟩ := permission
  obtain ⟨first, second⟩ := Bool.and_eq_true_iff.mp kept
  simp only [asStored] at stored
  cases left : column resource with
  | error e => simp [left, bind, Except.bind] at stored
  | ok newResource =>
    cases right : column action with
    | error e => simp [left, right, bind, Except.bind] at stored
    | ok newAction =>
      simp only [left, right, bind, Except.bind, pure, Except.pure, Except.ok.injEq] at stored
      rw [← stored, column_whole first left, column_whole second right]

theorem mapM_whole (kept : ∀ permission ∈ permissions, wholeNames permission = true)
    (mapped : permissions.mapM asStored = .ok stored) : stored = permissions := by
  induction permissions generalizing stored with
  | nil =>
    cases mapped
    rfl
  | cons permission rest ih =>
    obtain ⟨first, later⟩ := List.forall_mem_cons.mp kept
    rw [List.mapM_cons] at mapped
    cases head : asStored permission with
    | error e => simp [head, bind, Except.bind] at mapped
    | ok new =>
      cases tail : rest.mapM asStored with
      | error e => simp [head, tail, bind, Except.bind] at mapped
      | ok news =>
        simp only [head, tail, bind, Except.bind, pure, Except.pure, Except.ok.injEq] at mapped
        rw [← mapped, asStored_whole first head, ih later tail]

theorem mem_markManaged : permission ∈ markManaged permissions ↔ permission ∈ permissions ∨ permission = managedMarker := by
  rw [markManaged]
  split
  · next there =>
    have marked : managedMarker ∈ permissions := by simpa using there
    constructor
    · exact .inl
    · rintro (old | rfl)
      · exact old
      · exact marked
  · rw [List.mem_append, List.mem_singleton]

theorem markManaged_whole (kept : permissions.all wholeNames = true) :
    ∀ permission ∈ markManaged permissions, wholeNames permission = true := by
  intro permission member
  rcases mem_markManaged.mp member with old | rfl
  · exact List.all_eq_true.mp kept permission old
  · decide

theorem mem_granted : permission ∈ (granted user taken serial permissions).map (·.permission) ↔
    permission ∈ permissions ∧ permission ∉ taken := by
  induction permissions generalizing taken serial with
  | nil => simp [granted]
  | cons first rest ih =>
    rw [granted]
    split
    · next known =>
      have there : first ∈ taken := by simpa using known
      rw [ih, List.mem_cons]
      constructor
      · exact fun ⟨member, new⟩ => ⟨.inr member, new⟩
      · rintro ⟨rfl | member, new⟩
        · exact absurd there new
        · exact ⟨member, new⟩
    · next unknown =>
      have absent : first ∉ taken := by simpa using unknown
      rw [List.map_cons, List.mem_cons, ih, List.mem_cons, List.mem_cons, not_or]
      constructor
      · rintro (rfl | ⟨member, -, new⟩)
        · exact ⟨.inl rfl, absent⟩
        · exact ⟨.inr member, new⟩
      · rintro ⟨rfl | member, new⟩
        · exact .inl rfl
        · by_cases same : permission = first
          · exact .inl same
          · exact .inr ⟨member, same, new⟩

theorem granted_drawn (member : row ∈ granted user taken serial permissions) :
    row.userId = user ∧ serial ≤ row.id ∧ row.id < serial + permissions.length := by
  induction permissions generalizing taken serial with
  | nil => cases member
  | cons first rest ih =>
    rw [List.length_cons]
    rw [granted] at member
    split at member
    · obtain ⟨owner, above, below⟩ := ih member
      exact ⟨owner, by omega, by omega⟩
    · rcases List.mem_cons.mp member with rfl | later
      · refine ⟨rfl, ?_, ?_⟩ <;> dsimp only <;> omega
      · obtain ⟨owner, above, below⟩ := ih later
        exact ⟨owner, by omega, by omega⟩

theorem granted_distinct : (granted user taken serial permissions).Pairwise (Keyed.key · ≠ Keyed.key ·) := by
  induction permissions generalizing taken serial with
  | nil => exact List.Pairwise.nil
  | cons first rest ih =>
    rw [granted]
    split
    · exact ih
    · refine List.pairwise_cons.mpr ⟨fun row member => ?_, ih⟩
      have := (granted_drawn member).2.1
      show serial ≠ row.id
      omega

end Stored

/- The rows of a user, after what a call writes. -/

section Rows
variable {db : AuthDb} {user other : UserId} {removed : List Int} {added : List UserPermissionRow}
    {row : UserPermissionRow}

theorem mem_grantRows : row ∈ grantRows db user ↔ row ∈ db.userPermissions.rows ∧ row.userId = user := by
  simp [grantRows]

theorem mem_clear : row ∈ grantRows (clear user removed db) other ↔
    row ∈ grantRows db other ∧ (other = user → row.id ∉ removed) := by
  simp only [mem_grantRows, clear, Table.mem_delete, Bool.and_eq_false_iff, decide_eq_false_iff_not]
  constructor
  · rintro ⟨⟨there, kept⟩, rfl⟩
    refine ⟨⟨there, rfl⟩, fun same => ?_⟩
    rcases kept with elsewhere | spared
    · exact absurd same elsewhere
    · simpa using spared
  · rintro ⟨⟨there, rfl⟩, spared⟩
    refine ⟨⟨there, ?_⟩, rfl⟩
    by_cases same : row.userId = user
    · exact .inr (by simpa using spared same)
    · exact .inl same

theorem mem_grant (distinct : added.Pairwise (Keyed.key · ≠ Keyed.key ·))
    (unused : ∀ row ∈ added, ∀ old ∈ db.userPermissions.rows, old.id ≠ row.id) :
    row ∈ grantRows (grant added db) other ↔ row ∈ grantRows db other ∨ (row ∈ added ∧ row.userId = other) := by
  simp only [mem_grantRows, grant, Table.mem_putAll distinct]
  constructor
  · rintro ⟨⟨old, -⟩ | new, owner⟩
    · exact .inl ⟨old, owner⟩
    · exact .inr ⟨new, owner⟩
  · rintro (⟨old, owner⟩ | ⟨new, owner⟩)
    · exact ⟨.inl ⟨old, fun row member => unused row member _ old⟩, owner⟩
    · exact ⟨.inr new, owner⟩

end Rows

/- Where a call stands, with what it has written. -/

abbrev Trace : Type := List (Event Statement Answer)

abbrev Point : Type := Phase Statement Answer (Except AppError Unit) AuthDb

/-- From the start of its `DELETE`, nobody else has changed the rows the call replaces. -/
inductive Stands (stored : AuthDb) (save : Save) : Trace → List Int → (AuthDb → AuthDb) → Point → Prop where
  | finding {trace : Trace} {draws : List Int} : Stands stored save trace draws id
      (.ready (.stmt (.find save.session.principal.companyId save.id) (orFail (editing save))))
  | looking {trace : Trace} {draws : List Int} {snapshot : AuthDb} (users : snapshot.users = stored.users) :
      Stands stored save trace draws id (.started snapshot (.find save.session.principal.companyId save.id)
        (orFail (editing save)))
  | replacing {trace : Trace} {draws : List Int}
      (reached : reaches stored save.session.principal.companyId save.id = true) : Stands stored save trace draws id
      (.ready (.stmt (.deletePermissions save.session.principal.companyId save.id)
        (orFail fun _ => inserting save.session.principal.companyId save.id (markManaged save.permissions))))
  | deleting {trace : Trace} {draws : List Int} {snapshot : AuthDb}
      (reached : reaches snapshot save.session.principal.companyId save.id = true)
      (same : ∀ row, row ∈ grantRows stored save.id ↔ row ∈ grantRows snapshot save.id) :
      Stands stored save trace draws id
      (.started snapshot (.deletePermissions save.session.principal.companyId save.id)
        (orFail fun _ => inserting save.session.principal.companyId save.id (markManaged save.permissions)))
  | cleared {trace : Trace} {draws removed : List Int} (past : trace.any (fun event => deletes event.statement) = true)
      (all : ∀ row ∈ grantRows stored save.id, row.id ∈ removed) : Stands stored save trace draws (clear save.id removed)
      (.ready (.stmt (.insertPermissions save.session.principal.companyId save.id (markManaged save.permissions))
        (orFail fun _ => finished)))
  | inserts {trace : Trace} {draws removed : List Int} {snapshot : AuthDb}
      (past : trace.any (fun event => deletes event.statement) = true)
      (all : ∀ row ∈ grantRows stored save.id, row.id ∈ removed) : Stands stored save trace draws (clear save.id removed)
      (.started snapshot (.insertPermissions save.session.principal.companyId save.id (markManaged save.permissions))
        (orFail fun _ => finished))
  | replaced {trace : Trace} {draws removed : List Int} {added : List UserPermissionRow}
      (past : trace.any (fun event => deletes event.statement) = true)
      (all : ∀ row ∈ grantRows stored save.id, row.id ∈ removed)
      (owned : ∀ row ∈ added, row.userId = save.id ∧ row.id ∈ draws)
      (distinct : added.Pairwise (Keyed.key · ≠ Keyed.key ·))
      (listed : ∀ permission, permission ∈ added.map (·.permission) ↔ permission ∈ markManaged save.permissions) :
      Stands stored save trace draws (grant added ∘ clear save.id removed) (.ready (.done (.commit (.ok ()))))
  | failed {trace : Trace} {draws : List Int} {pending : AuthDb → AuthDb} {error : AppError} :
      Stands stored save trace draws pending (.ready (.done (.rollback (.error error))))
  | committed {trace : Trace} {draws : List Int} {result : Except AppError Unit} :
      Stands stored save trace draws id (.committed result)
  | undone {trace : Trace} {draws : List Int} {result : Option (Except AppError Unit)} :
      Stands stored save trace draws id (.undone result)

section Calls
variable {start : AuthDb} {config : Saves}

def Placed (stored : AuthDb) (tx : Saving) : Prop :=
  tx.request.permissions.all wholeNames = true ∧ Stands stored tx.request tx.trace tx.draws tx.pending tx.phase

/-- What a call that has not begun to delete knows is that the users are as they were. -/
theorem placed_after {stored later : AuthDb} {tx : Saving} (placed : Placed stored tx) (users : later.users = stored.users)
    (same : tx.begun deletes = true → ∀ row, row ∈ grantRows later tx.request.id ↔ row ∈ grantRows stored tx.request.id) :
    Placed later tx := by
  obtain ⟨request, trace, held, draws, pending, phase⟩ := tx
  obtain ⟨kept, stands⟩ := placed
  refine ⟨kept, ?_⟩
  dsimp only at stands same ⊢
  cases stands with
  | finding => exact .finding
  | looking before => exact .looking (before.trans users.symm)
  | replacing reached =>
    refine .replacing ?_
    rw [reaches, users]
    exact reached
  | deleting reached before =>
    have unchanged := same (begun_started rfl rfl)
    exact .deleting reached fun row => (unchanged row).trans (before row)
  | cleared past all =>
    have unchanged := same (begun_past rfl (List.any_eq_true.mp past))
    exact .cleared past fun row member => all row ((unchanged row).mp member)
  | inserts past all =>
    have unchanged := same (begun_past rfl (List.any_eq_true.mp past))
    exact .inserts past fun row member => all row ((unchanged row).mp member)
  | replaced past all owned distinct listed =>
    have unchanged := same (begun_past rfl (List.any_eq_true.mp past))
    exact .replaced past (fun row member => all row ((unchanged row).mp member)) owned distinct listed
  | failed => exact .failed
  | committed => exact .committed
  | undone => exact .undone

/- The steps of a call. -/

section Step
variable {stored snapshot current : AuthDb} {save : Save} {trace : Trace} {draws : List Int}

theorem reaches_of_find {scope : CompanyId} {user : UserId} {account : User}
    (found : find snapshot scope user = .ok (some account)) : reaches snapshot scope user = true := by
  rw [find] at found
  split at found
  · cases found
  · next row reached =>
    obtain ⟨located, visible⟩ := Table.reach_eq_some_iff.mp reached
    obtain ⟨member, same⟩ := Table.find_eq_some_iff.mp located
    refine List.any_eq_true.mpr ⟨row, member, ?_⟩
    exact Bool.and_eq_true_iff.mpr ⟨decide_eq_true same, visible⟩

theorem inserting_nonempty {scope : CompanyId} {user : UserId} {permissions : List Permission} :
    inserting scope user (markManaged permissions) =
      .stmt (.insertPermissions scope user (markManaged permissions)) (orFail fun _ => finished) := by
  have marked : managedMarker ∈ markManaged permissions := mem_markManaged.mpr (.inr rfl)
  have nonempty : (markManaged permissions).isEmpty = false := by
    cases shape : markManaged permissions with
    | nil =>
      rw [shape] at marked
      cases marked
    | cons => rfl
  rw [inserting, nonempty]
  rfl

theorem stands_found (users : snapshot.users = stored.users) : Stands stored save trace draws id
    (.ready (orFail (editing save) (find snapshot save.session.principal.companyId save.id))) := by
  cases answer : find snapshot save.session.principal.companyId save.id with
  | error e => exact .failed
  | ok account =>
    cases account with
    | none => exact .failed
    | some user =>
      have reached := reaches_of_find answer
      rw [reaches, users] at reached
      simp only [orFail, editing]
      cases assertPermissionsEditable user.role with
      | error e => exact .failed
      | ok => exact .replacing reached

/-- The `DELETE` finds every row it saw still there. -/
theorem stands_cleared (reached : reaches snapshot save.session.principal.companyId save.id = true)
    (same : ∀ row, row ∈ grantRows stored save.id ↔ row ∈ grantRows snapshot save.id)
    (past : trace.any (fun event => deletes event.statement) = true) : Stands stored save trace draws
    (deletePermissions snapshot stored save.session.principal.companyId save.id).change
    (.ready (inserting save.session.principal.companyId save.id (markManaged save.permissions))) := by
  rw [inserting_nonempty]
  refine .cleared past fun row member => ?_
  rw [if_pos reached]
  have there := (mem_grantRows.mp member).1
  have found : (stored.userPermissions.find row.id).isSome = true := (Table.has_of_mem there (f := id)).isSome
  exact List.mem_map_of_mem (List.mem_filter.mpr ⟨(same row).mp member, found⟩)

theorem stands_inserted {serial : Int} {removed : List Int} (kept : save.permissions.all wholeNames = true)
    (past : trace.any (fun event => deletes event.statement) = true)
    (all : ∀ row ∈ grantRows stored save.id, row.id ∈ removed) {effect : Effect (Except PortError Unit) AuthDb Lock}
    (runs : effect = insertPermissions snapshot (clear save.id removed stored) save.session.principal.companyId save.id
      serial (markManaged save.permissions))
    (drawn : ∀ id, serial ≤ id → id < serial + effect.drawn → id ∈ draws) :
    Stands stored save trace draws (effect.change ∘ clear save.id removed)
      (.ready (orFail (fun _ => finished) effect.answer)) := by
  have nothing : grantRows (clear save.id removed stored) save.id = [] := by
    refine List.eq_nil_iff_forall_not_mem.mpr fun row member => ?_
    obtain ⟨there, spared⟩ := mem_clear.mp member
    exact spared rfl (all row there)
  rw [insertPermissions] at runs
  split at runs
  · rw [runs]
    exact .failed
  · split at runs
    · rw [runs]
      exact .failed
    · next stored mapped =>
      split at runs
      · have listed := mapM_whole (markManaged_whole kept) mapped
        rw [nothing, listed] at runs
        subst runs
        refine .replaced past all ?_ granted_distinct ?_
        · intro row member
          obtain ⟨owner, above, below⟩ := granted_drawn member
          exact ⟨owner, drawn row.id above below⟩
        · intro permission
          rw [mem_granted]
          simp
      · rw [runs]
        exact .failed

end Step

theorem placed_kept {i : Nat} {tx later : Saving} {label : Label Save (Option PortError)} {committed : AuthDb}
    {serial : Int} {permits : Saves → Label Save (Option PortError) → Bool}
    (acts : Acts (saves start permits) config i tx label committed serial later)
    (placed : Placed config.committed tx) : Placed committed later := by
  obtain ⟨request, trace, held, draws, pending, phase⟩ := tx
  obtain ⟨kept, stands⟩ := placed
  refine ⟨by cases acts <;> exact kept, ?_⟩
  cases acts with
  | start shape =>
    dsimp only at shape stands
    subst shape
    cases stands with
    | finding => exact .looking rfl
    | replacing reached => exact .deleting reached fun row => Iff.rfl
    | cleared past all => exact .inserts past all
  | @run env snapshot statement next effect shape runs free =>
    dsimp only at shape stands runs
    subst shape
    cases env with
    | some fault =>
      subst runs
      cases stands <;> exact .failed
    | none =>
      cases stands with
      | looking users =>
        subst runs
        exact stands_found users
      | deleting reached same =>
        subst runs
        exact stands_cleared reached same (by simp [Transaction.ran, deletes])
      | inserts past all =>
        refine stands_inserted kept ?_ all runs ?_
        · simp only [Transaction.ran, List.any_append, past, Bool.true_or]
        · intro id above below
          exact mem_draws.mpr (.inr ⟨above, below⟩)
  | commit shape => exact .committed
  | rollback shape => exact .undone
  | abort live => exact .undone

/- What a commit writes. -/

def Uses (db : AuthDb) (id : Int) : Prop := ∃ row ∈ db.userPermissions.rows, row.id = id

theorem saves_fresh {permits : Saves → Label Save (Option PortError) → Bool}
    (reached : (saves start permits).machine.Reachable config) : Fresh Uses config := by
  apply draws_fresh ?_ ?_ reached
  · rintro store serial ⟨-, below⟩ id ⟨row, member, rfl⟩
    exact below row member
  · intro env serial statement snapshot current store id used
    cases env with
    | some fault => exact .inl used
    | none =>
      cases statement with
      | find scope user => exact .inl used
      | deletePermissions scope user =>
        obtain ⟨row, member, same⟩ := used
        exact .inl ⟨row, (Table.mem_delete.mp member).1, same⟩
      | insertPermissions scope user permissions =>
        dsimp only [saves, execute] at used ⊢
        rw [insertPermissions] at used ⊢
        split at used
        · exact .inl used
        · next sent =>
          rw [if_neg sent]
          split at used
          · exact .inl used
          · next stored mapped =>
            split at used
            · next reached =>
              rw [if_pos reached]
              obtain ⟨row, member, rfl⟩ := used
              rcases (Table.mem_putAll granted_distinct).mp member with ⟨old, -⟩ | new
              · exact .inl ⟨row, old, rfl⟩
              · exact .inr (granted_drawn new).2
            · exact .inl used

section Commit
variable {stored : AuthDb} {tx : Saving} {result : Except AppError Unit}

theorem placed_commit (placed : Placed stored tx) (shape : tx.phase = .ready (.done (.commit result))) :
    result = .ok () ∧ ∃ removed added, tx.pending = grant added ∘ clear tx.request.id removed ∧
      (∀ row ∈ grantRows stored tx.request.id, row.id ∈ removed) ∧
      (∀ row ∈ added, row.userId = tx.request.id ∧ row.id ∈ tx.draws) ∧
      added.Pairwise (Keyed.key · ≠ Keyed.key ·) ∧
      ∀ permission, permission ∈ added.map (·.permission) ↔ permission ∈ markManaged tx.request.permissions := by
  obtain ⟨request, trace, held, draws, pending, phase⟩ := tx
  obtain ⟨-, stands⟩ := placed
  dsimp only at shape stands ⊢
  subst shape
  cases stands with
  | @replaced removed added past all owned distinct listed =>
    exact ⟨rfl, removed, added, rfl, all, owned, distinct, listed⟩

theorem mem_committed (placed : Placed stored tx) (shape : tx.phase = .ready (.done (.commit result)))
    (unused : ∀ id ∈ tx.draws, ¬ Uses stored id) : (tx.pending stored).users = stored.users ∧
    (∀ user row, user ≠ tx.request.id → (row ∈ grantRows (tx.pending stored) user ↔ row ∈ grantRows stored user)) ∧
    ∀ permission, permission ∈ grants (tx.pending stored) tx.request.id ↔
      permission ∈ markManaged tx.request.permissions := by
  obtain ⟨-, removed, added, pending, all, owned, distinct, listed⟩ := placed_commit placed shape
  have apart : ∀ row ∈ added, ∀ old ∈ (clear tx.request.id removed stored).userPermissions.rows, old.id ≠ row.id := by
    intro row member old there same
    exact unused row.id (owned row member).2 ⟨old, (Table.mem_delete.mp there).1, same⟩
  rw [pending]
  refine ⟨rfl, ?_, ?_⟩
  · intro user row elsewhere
    rw [Function.comp_apply, mem_grant distinct apart, mem_clear]
    constructor
    · rintro (⟨old, -⟩ | ⟨new, owner⟩)
      · exact old
      · exact absurd (owner.symm.trans (owned row new).1) elsewhere
    · exact fun old => .inl ⟨old, fun same => absurd same elsewhere⟩
  · intro permission
    rw [← listed permission, Function.comp_apply, grants, List.mem_map, List.mem_map]
    constructor
    · rintro ⟨row, member, rfl⟩
      rcases (mem_grant distinct apart).mp member with left | ⟨new, -⟩
      · obtain ⟨old, spared⟩ := mem_clear.mp left
        exact absurd (all row old) (spared rfl)
      · exact ⟨row, new, rfl⟩
    · rintro ⟨row, new, rfl⟩
      exact ⟨row, (mem_grant distinct apart).mpr (.inr ⟨new, (owned row new).1⟩), rfl⟩

end Commit

/-- A commit comes while nobody else is at the rows of the same user. -/
theorem separate_commit {i j : Nat} {tx mover : Saving} {result : Except AppError Unit}
    (permitted : separate config (.finish j) = true) (elsewhere : i ≠ j) (found : config.transactions[i]? = some tx)
    (moves : config.transactions[j]? = some mover) (shape : mover.phase = .ready (.done (.commit result)))
    (begun : tx.begun deletes = true) : tx.request.id ≠ mover.request.id := by
  have clear := separately_commit (Bool.and_eq_true_iff.mp permitted).1 elsewhere found moves shape
  simpa [clashes, begun] using clear

theorem calls_placed (reached : (saves start separate).machine.Reachable config) :
    ∀ (i : Nat) tx, config.transactions[i]? = some tx → Placed config.committed tx := by
  apply transactions_keep Placed ?_ ?_ ?_ reached
  · intro config save _ permitted
    have allowed : separate config (.begin save) = true := permitted
    exact ⟨(Bool.and_eq_true_iff.mp allowed).2, .finding⟩
  · intro config i tx label committed serial later _ _ _ acts placed
    exact placed_kept acts placed
  · intro config i j tx mover result visited permitted elsewhere found moves shape placed moverPlaced
    have alive : mover.live = true := by rw [Transaction.live, shape]
    obtain ⟨users, others, -⟩ := mem_committed moverPlaced shape ((saves_fresh visited).unused j mover moves alive)
    refine placed_after placed users fun begun row => others _ row ?_
    exact separate_commit permitted elsewhere found moves shape begun

/-- The grants of a user are the ones found there, or the list of one call, with the sentinel. -/
def OneList (start : AuthDb) (config : Saves) (user : UserId) : Prop :=
  ((∀ row, row ∈ grantRows config.committed user ↔ row ∈ grantRows start user) ∧
    ∀ tx ∈ config.transactions, tx.request.id = user → ∀ result, tx.phase ≠ .committed result) ∨
  ∃ tx ∈ config.transactions, tx.request.id = user ∧ tx.phase = .committed (.ok ()) ∧
    ∀ permission, permission ∈ grants config.committed user ↔ permission ∈ markManaged tx.request.permissions

/-- Steps that commit nothing leave the grants and the committed calls as they were. -/
theorem oneList_same {user : UserId} {before after : Saves} (one : OneList start before user)
    (committed : after.committed = before.committed)
    (kept : ∀ tx ∈ before.transactions, tx.live = false → tx ∈ after.transactions)
    (old : ∀ tx ∈ after.transactions, ∀ result, tx.phase = .committed result → tx ∈ before.transactions) :
    OneList start after user := by
  rcases one with ⟨rows, nobody⟩ | ⟨tx, member, owner, shape, listed⟩
  · refine .inl ⟨fun row => by rw [committed, rows], fun tx member owner result shape => ?_⟩
    exact nobody tx (old tx member result shape) owner result shape
  · refine .inr ⟨tx, kept tx member (by rw [Transaction.live, shape]), owner, shape, ?_⟩
    rw [committed]
    exact listed

theorem permissions_replaced (reached : (saves start separate).machine.Reachable config) (user : UserId) :
    OneList start config user := by
  apply Reachable.induction (fun config => OneList start config user) reached
  · rintro config ⟨⟨same, -⟩, idle⟩
    refine .inl ⟨fun row => by rw [same], fun tx member => ?_⟩
    rw [idle] at member
    cases member
  · intro before after label visited one permitted step
    rcases step_cases step with ⟨save, -, rfl⟩ | ⟨i, tx, committed, serial, later, found, acts, rfl⟩
    · refine oneList_same one rfl (fun tx member _ => List.mem_append_left _ member) fun tx member result shape => ?_
      rcases List.mem_append.mp member with old | new
      · exact old
      · rw [List.mem_singleton.mp new] at shape
        cases shape
    · have alive := acts.live
      have kept : ∀ other ∈ before.transactions, other.live = false → other ∈ before.transactions.set i later :=
        fun other member ended => mem_set_ended found alive member ended
      have quiet : ∀ store serial, (∀ result, later.phase ≠ .committed result) → store = before.committed →
          OneList start ⟨store, serial, before.transactions.set i later⟩ user := by
        intro store serial running same
        refine oneList_same one same kept fun other member result shape => ?_
        rcases List.mem_or_eq_of_mem_set member with old | rfl
        · exact old
        · exact absurd shape (running result)
      cases acts with
      | start shape => exact quiet _ _ (fun result shape => by cases shape) rfl
      | run effect shape runs free => exact quiet _ _ (fun result shape => by cases shape) rfl
      | rollback shape => exact quiet _ _ (fun result shape => by cases shape) rfl
      | abort live => exact quiet _ _ (fun result shape => by cases shape) rfl
      | commit shape =>
        have placed := calls_placed visited i tx found
        obtain ⟨-, others, own⟩ := mem_committed placed shape ((saves_fresh visited).unused i tx found alive)
        obtain ⟨rfl, -⟩ := placed_commit placed shape
        by_cases mine : user = tx.request.id
        · subst mine
          have within := (List.getElem?_eq_some_iff.mp found).1
          exact .inr ⟨_, List.mem_set within _, rfl, rfl, own⟩
        · rcases one with ⟨rows, nobody⟩ | ⟨other, member, owner, ended, listed⟩
          · refine .inl ⟨fun row => (others user row mine).trans (rows row), fun other member owner result ended => ?_⟩
            rcases List.mem_or_eq_of_mem_set member with old | rfl
            · exact nobody other old owner result ended
            · exact mine owner.symm
          · refine .inr ⟨other, kept other member (by rw [Transaction.live, ended]), owner, ended, fun permission => ?_⟩
            rw [← listed permission, grants, grants, List.mem_map, List.mem_map]
            simp only [others user _ mine]

end Calls

/- Two managers save the access of one supervisor, who had one grant. -/

def manager : SessionUser where
  user := ⟨1, 1, text "Sarah", text "sarah@example.com", .manager, none, true, none⟩
  principal := ⟨1, 1, .manager⟩
  permissions := []
  entitlement := ⟨true, true, true, none⟩

def jobsWrite : Permission := ⟨text "jobs", text "write"⟩

def reportsRead : Permission := ⟨text "reports", text "read"⟩

def found : AuthDb where
  users := ⟨[⟨4, 1, text "Tom", text "tom@example.com", text "SUPERVISOR", none, true, none, none, by decide⟩], 5,
    by decide, by decide⟩
  companies := .empty
  userPermissions := ⟨[⟨1, 4, jobsWrite⟩], 2, by decide, by decide⟩
  passwordResetTokens := .empty
  refreshTokens := .empty
  familiesDrawn := 0

def idle : Saves := ⟨found, 2, []⟩

theorem idle_initial (permits : Saves → Label Save (Option PortError) → Bool) :
    (saves found permits).machine.initial idle := ⟨⟨rfl, by decide⟩, rfl⟩

def calls : List (Label Save (Option PortError)) :=
  [.begin ⟨manager, 4, [reportsRead]⟩, .begin ⟨manager, 4, [jobsWrite]⟩] ++ turns none 0 1 ++ turns none 1 1

/-- The second `DELETE` starts when the first call has ended. -/
def inTurn : List (Label Save (Option PortError)) :=
  calls ++ turns none 0 2 ++ [.finish 0] ++ turns none 1 2 ++ [.finish 1]

/-- The second `DELETE` starts before the first call commits, and waits for it. -/
def overlapping : List (Label Save (Option PortError)) :=
  calls ++ turns none 0 1 ++ [.start 1] ++ turns none 0 1 ++ [.finish 0, .run 1 none] ++ turns none 1 1 ++ [.finish 1]

theorem in_turn_replaced : ∃ config, (saves found separate).machine.Reachable config ∧ OneList found config 4 ∧
    grants config.committed 4 = [jobsWrite, managedMarker] := by
  have run : ∃ config, (saves found separate).machine.execute idle inTurn = some config ∧
      grants config.committed 4 = [jobsWrite, managedMarker] := ⟨_, rfl, by decide +kernel⟩
  obtain ⟨config, ran, second⟩ := run
  have reached := execute_reachable (idle_initial separate) ran
  exact ⟨config, reached, permissions_replaced reached 4, second⟩

theorem overlapping_merged : ∃ config, (saves found fun _ _ => true).machine.Reachable config ∧
    config.transactions.map (·.phase) = [.committed (.ok ()), .committed (.ok ())] ∧
    grants config.committed 4 = [reportsRead, managedMarker, jobsWrite] ∧ ¬ OneList found config 4 := by
  have run : ∃ config, (saves found fun _ _ => true).machine.execute idle overlapping = some config ∧
      config.transactions.map (·.phase) = [.committed (.ok ()), .committed (.ok ())] ∧
      grants config.committed 4 = [reportsRead, managedMarker, jobsWrite] ∧
      (∃ row ∈ grantRows config.committed 4, row ∉ grantRows found 4) ∧
      ∀ tx ∈ config.transactions, ∃ permission ∈ grants config.committed 4,
        permission ∉ markManaged tx.request.permissions :=
    ⟨_, rfl, rfl, by decide +kernel, by decide +kernel, by decide +kernel⟩
  obtain ⟨config, ran, phases, merged, ⟨row, stored, unknown⟩, foreign⟩ := run
  refine ⟨config, execute_reachable (idle_initial _) ran, phases, merged, ?_⟩
  rintro (⟨same, -⟩ | ⟨tx, member, -, -, listed⟩)
  · exact unknown ((same row).mp stored)
  · obtain ⟨permission, held, absent⟩ := foreign tx member
    exact absent ((listed permission).mp held)

end PermissionReplacement
