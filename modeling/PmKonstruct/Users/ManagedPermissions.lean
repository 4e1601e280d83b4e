import PmKonstruct.Store.Requests
import PmKonstruct.Users.Access
import PmKonstruct.Users.PermissionReplacement

/- What a user may do after a manager has saved a list: the save of one crate, the table it goes through and the reading
   of another crate, put together. -/
namespace ManagedPermissions
open DomainErrors Accounts KeyedTable ReadCommitted Permissions PermissionReplacement Access
open PlainText (Text text)
open Requests (bind_ok)
open AuthStore (AuthDb Permission UserPermissionRow permissionsFor)

abbrev anyTime : Saves → Label Save (Option PortError) → Bool := fun _ _ => true

/-- One save with nobody else at the tables. -/
def saveAlone (start : AuthDb) (faults : Nat → Option PortError) (serial : Int) (save : Save) :
    Except AppError Unit × AuthDb :=
  (saves start anyTime).callAlone faults serial save start

theorem markManaged_same (permissions : List Permission) :
    Access.markManaged permissions = Permissions.markManaged permissions := by
  have same : permissions.any isManagedMarker = permissions.contains managedMarker := by
    rw [Bool.eq_iff_iff, List.any_eq_true, List.contains_iff_mem]
    constructor
    · rintro ⟨permission, member, marker⟩
      exact isManagedMarker_iff.mp marker ▸ member
    · exact fun member => ⟨managedMarker, member, isManagedMarker_iff.mpr rfl⟩
  rw [Access.markManaged, Permissions.markManaged, same]
  rfl

/- What comes through the columns. -/

section Columns
variable {permission : Permission} {permissions stored : List Permission}

theorem column_short {t u : Text} (fits : column t = .ok u) : u.length ≤ 100 := by
  rw [column] at fits
  split at fits
  · cases fits
    rw [List.length_take]
    exact Nat.min_le_left ..
  · cases fits

theorem asStored_short {later : Permission} (fits : asStored permission = .ok later) : wholeNames later = true := by
  obtain ⟨resource, first, fits⟩ := bind_ok fits
  obtain ⟨action, second, fits⟩ := bind_ok fits
  cases fits
  simp [wholeNames, whole, column_short first, column_short second]

theorem mapM_short (mapped : permissions.mapM asStored = .ok stored) : ∀ p ∈ stored, wholeNames p = true := by
  induction permissions generalizing stored with
  | nil =>
    cases mapped
    exact fun p member => absurd member List.not_mem_nil
  | cons first rest ih =>
    rw [List.mapM_cons] at mapped
    obtain ⟨new, head, mapped⟩ := bind_ok mapped
    obtain ⟨news, tail, mapped⟩ := bind_ok mapped
    cases mapped
    exact List.forall_mem_cons.mpr ⟨asStored_short head, ih tail⟩

end Columns

/- What a save leaves. -/

section Saved
variable {start before : AuthDb} {faults : Nat → Option PortError} {serial : Int} {save : Save} {n : Nat}
    {outcome : Ending (Except AppError Unit) × AuthDb}

/-- The transaction was taken back. -/
def Failed (outcome : Ending (Except AppError Unit) × AuthDb) : Prop := ∃ e, outcome.1 = .rollback (.error e)

/-- A statement goes through, or the transaction is taken back. -/
theorem stmt_ends {statement : Statement} {next : Reply statement → Steps}
    (run : (saves start anyTime).alone faults n serial (.stmt statement (orFail next)) before = outcome) :
    Failed outcome ∨ ∃ reply, (execute none serial statement before before).answer = .ok reply ∧
      (saves start anyTime).alone faults (n + 1) (serial + (execute none serial statement before before).drawn) (next reply)
        ((execute none serial statement before before).change before) = outcome := by
  rw [Database.alone] at run
  dsimp only [saves] at run
  cases fault : faults n with
  | some e =>
    rw [fault] at run
    exact .inl ⟨.port e, by rw [← run]; rfl⟩
  | none =>
    rw [fault] at run
    cases answer : (execute none serial statement before before).answer with
    | error e =>
      rw [answer] at run
      exact .inl ⟨.port e, by rw [← run]; rfl⟩
    | ok reply =>
      rw [answer] at run
      exact .inr ⟨reply, rfl, run⟩

theorem insertPermissions_ok {scope : CompanyId} {user : UserId} {permissions : List Permission} {reply : Unit}
    (answer : (insertPermissions start before scope user serial permissions).answer = .ok reply) :
    ∃ stored, permissions.mapM asStored = .ok stored ∧ (insertPermissions start before scope user serial permissions).change =
      grant (granted user ((grantRows before user).map (·.permission)) serial stored) := by
  rw [insertPermissions] at answer ⊢
  split at answer
  · cases answer
  · next sent =>
    rw [if_neg sent]
    split at answer
    · cases answer
    · next stored mapped =>
      rw [mapped]
      split at answer
      · next there => exact ⟨stored, rfl, by rw [if_pos there]⟩
      · cases answer

/-- A `DELETE` on its own finds every row it sees. -/
theorem deletePermissions_change {scope : CompanyId} {user : UserId} (reached : reaches start scope user = true) :
    (deletePermissions start start scope user).change = clear user ((grantRows start user).map (·.id)) := by
  have present : (grantRows start user).filter (fun row => (start.userPermissions.find row.id).isSome) =
      grantRows start user :=
    List.filter_eq_self.mpr fun row member => (Table.has_of_mem (f := id) (mem_grantRows.mp member).1).isSome
  rw [deletePermissions, if_pos reached, present]

/-- The rows of the user are gone. -/
def emptied (start : AuthDb) (user : UserId) : AuthDb := clear user ((grantRows start user).map (·.id)) start

theorem grantRows_emptied (user : UserId) : grantRows (emptied start user) user = [] := by
  refine List.eq_nil_iff_forall_not_mem.mpr fun row member => ?_
  obtain ⟨there, spared⟩ := mem_clear.mp member
  exact spared rfl (List.mem_map_of_mem there)

/-- The rows of the user give way to the rows of the new list. -/
def Replaced (start : AuthDb) (save : Save) (serial : Int) (after : AuthDb) : Prop :=
  reaches start save.session.principal.companyId save.id = true ∧ ∃ stored,
    (Permissions.markManaged save.permissions).mapM asStored = .ok stored ∧
    after = grant (granted save.id [] serial stored) (emptied start save.id)

theorem inserting_ends (reached : reaches start save.session.principal.companyId save.id = true)
    (run : (saves start anyTime).alone faults n serial (inserting save.session.principal.companyId save.id
      (Permissions.markManaged save.permissions)) (emptied start save.id) = outcome) :
    Failed outcome ∨ (outcome.1 = .commit (.ok ()) ∧ Replaced start save serial outcome.2) := by
  rw [inserting_nonempty] at run
  rcases stmt_ends run with failed | ⟨_, answer, run⟩
  · exact .inl failed
  · obtain ⟨stored, mapped, change⟩ := insertPermissions_ok answer
    rw [grantRows_emptied, List.map_nil] at change
    refine .inr ⟨by rw [← run]; rfl, reached, stored, mapped, ?_⟩
    rw [← run]
    exact congrFun change _

theorem setPermissions_ends
    (run : (saves start anyTime).alone faults 0 serial (setPermissions save) start = outcome) :
    Failed outcome ∨ (outcome.1 = .commit (.ok ()) ∧ Replaced start save serial outcome.2) := by
  rcases stmt_ends run with failed | ⟨account, read, run⟩
  · exact .inl failed
  · cases account with
    | none => exact .inl ⟨.domain (.notFound "User"), by rw [← run]; rfl⟩
    | some user =>
      have reached := reaches_of_find read
      simp only [editing] at run
      cases editable : assertPermissionsEditable user.role with
      | error e =>
        rw [editable] at run
        exact .inl ⟨.domain e, by rw [← run]; rfl⟩
      | ok =>
        rw [editable] at run
        rcases stmt_ends run with failed | ⟨_, -, run⟩
        · exact .inl failed
        · have deleted : (execute none (serial + 0) (.deletePermissions save.session.principal.companyId save.id) start
              start).change start = emptied start save.id := congrFun (deletePermissions_change reached) start
          have drawn : serial + 0 + 0 = serial := by omega
          have inserts : (saves start anyTime).alone faults 2 (serial + 0 + 0)
              (inserting save.session.principal.companyId save.id (Permissions.markManaged save.permissions))
              (emptied start save.id) = outcome := by
            rw [← deleted]
            exact run
          rw [drawn] at inserts
          exact inserting_ends reached inserts

theorem saveAlone_ok {after : AuthDb} (saved : saveAlone start faults serial save = (.ok (), after)) :
    Replaced start save serial after := by
  unfold saveAlone Database.callAlone at saved
  generalize ran : (saves start anyTime).alone faults 0 serial ((saves start anyTime).program save) start = outcome at saved
  obtain ⟨ending, written⟩ := outcome
  rcases setPermissions_ends ran with ⟨e, failed⟩ | ⟨done, replaced⟩
  · dsimp only at failed
    rw [failed] at saved
    cases saved
  · dsimp only at done replaced
    rw [done] at saved
    cases saved
    exact replaced

end Saved

/- What the user may do then. -/

section Reading
variable {start after : AuthDb} {serial : Int} {save : Save} {permission : Permission}

theorem mem_permissionsFor (reached : reaches after save.session.principal.companyId save.id = true) :
    permission ∈ permissionsFor after save.session.principal.companyId save.id ↔ permission ∈ grants after save.id := by
  simp only [permissionsFor, grants, List.mem_map, mem_grantRows, Table.mem_select, Bool.and_eq_true, decide_eq_true_eq]
  constructor
  · rintro ⟨row, ⟨there, owner, -⟩, rfl⟩
    exact ⟨row, ⟨there, owner⟩, rfl⟩
  · rintro ⟨row, ⟨there, owner⟩, rfl⟩
    exact ⟨row, ⟨there, owner, by rw [owner]; exact reached⟩, rfl⟩

theorem mem_saved (fresh : ∀ row ∈ start.userPermissions.rows, row.id < serial)
    (replaced : Replaced start save serial after) :
    ∃ stored, (Permissions.markManaged save.permissions).mapM asStored = .ok stored ∧
      ∀ permission, permission ∈ permissionsFor after save.session.principal.companyId save.id ↔ permission ∈ stored := by
  obtain ⟨reached, stored, mapped, rfl⟩ := replaced
  refine ⟨stored, mapped, fun permission => ?_⟩
  have unused : ∀ row ∈ granted save.id [] serial stored, ∀ old ∈ (emptied start save.id).userPermissions.rows,
      old.id ≠ row.id := by
    intro row member old there
    have above := (granted_drawn member).2.1
    have below := fresh old (Table.mem_delete.mp there).1
    omega
  have visible : reaches (grant (granted save.id [] serial stored) (emptied start save.id))
      save.session.principal.companyId save.id = true := reached
  rw [mem_permissionsFor visible, grants, List.mem_map]
  have listed := @mem_granted save.id permission stored [] serial
  rw [List.mem_map] at listed
  constructor
  · rintro ⟨row, member, rfl⟩
    rcases (mem_grant granted_distinct unused).mp member with old | ⟨new, -⟩
    · rw [grantRows_emptied] at old
      cases old
    · exact (mem_granted.mp (List.mem_map_of_mem new)).1
  · intro member
    obtain ⟨row, new, same⟩ := listed.mpr ⟨member, List.not_mem_nil⟩
    exact ⟨row, (mem_grant granted_distinct unused).mpr (.inr ⟨new, (granted_drawn new).1⟩), same⟩

/-- Whatever the role has by default, only what was stored counts, and the sentinel opens nothing. -/
theorem hasPermission_managed {role : Role} {stored : List Permission} (restricted : role ≠ .manager)
    (marked : managedMarker ∈ stored) : hasPermission role stored permission = true ↔
      permission ∈ stored ∧ permission ≠ managedMarker := by
  have checked : role.bypassesPermissionChecks = false := by
    cases role with
    | manager => exact absurd rfl restricted
    | supervisor => rfl
    | office => rfl
  rw [hasPermission_iff checked, mem_effectivePermissions]
  constructor
  · rintro (⟨-, held⟩ | ⟨unmarked, -⟩)
    · exact held
    · exact absurd marked unmarked
  · exact fun held => .inl ⟨marked, held⟩

/-- The sentinel is stored as it is. -/
theorem marker_stored {permissions stored : List Permission} (mapped : (Permissions.markManaged permissions).mapM asStored =
    .ok stored) : managedMarker ∈ stored := by
  have listed : ∀ {ps qs : List Permission}, ps.mapM asStored = .ok qs → managedMarker ∈ ps → managedMarker ∈ qs := by
    intro ps
    induction ps with
    | nil => exact fun _ member => absurd member List.not_mem_nil
    | cons first rest ih =>
      intro qs mapped member
      rw [List.mapM_cons] at mapped
      obtain ⟨new, head, mapped⟩ := bind_ok mapped
      obtain ⟨news, tail, mapped⟩ := bind_ok mapped
      cases mapped
      rcases List.mem_cons.mp member with rfl | later
      · rw [asStored_whole (by decide) head]
        exact List.mem_cons_self
      · exact List.mem_cons_of_mem _ (ih tail later)
  exact listed mapped (mem_markManaged.mpr (.inr rfl))

/-- The user may do exactly what is on the list, the sentinel apart. -/
def AsListed (role : Role) (save : Save) (after : AuthDb) : Prop :=
  ∀ permission, hasPermission role (permissionsFor after save.session.principal.companyId save.id) permission = true ↔
    permission ∈ save.permissions ∧ permission ≠ managedMarker

theorem asListed_iff {role : Role} (restricted : role ≠ .manager)
    (fresh : ∀ row ∈ start.userPermissions.rows, row.id < serial) (replaced : Replaced start save serial after) :
    AsListed role save after ↔ save.permissions.all wholeNames = true := by
  obtain ⟨stored, mapped, listed⟩ := mem_saved fresh replaced
  have marked := (listed managedMarker).mpr (marker_stored mapped)
  simp only [AsListed, hasPermission_managed restricted marked, listed]
  constructor
  · intro same
    refine List.all_eq_true.mpr fun permission member => ?_
    by_cases marker : permission = managedMarker
    · rw [marker]
      decide
    · exact mapM_short mapped permission ((same permission).mpr ⟨member, marker⟩).1
  · intro kept permission
    rw [mapM_whole (markManaged_whole kept) mapped, mem_markManaged]
    constructor
    · rintro ⟨member | marker, other⟩
      · exact ⟨member, other⟩
      · exact absurd marker other
    · exact fun ⟨member, other⟩ => ⟨.inl member, other⟩

end Reading

/-- After a save the user may do exactly what the list says, whatever the role's defaults and the earlier grants, when no
    name on the list is one that the columns cut; an empty list leaves nothing. Both crates mark a list alike. -/
theorem saved_permissions_iff {start after : AuthDb} {faults : Nat → Option PortError} {serial : Int} {save : Save}
    {role : Role} (restricted : role ≠ .manager) (fresh : ∀ row ∈ start.userPermissions.rows, row.id < serial)
    (saved : saveAlone start faults serial save = (.ok (), after)) :
    (AsListed role save after ↔ save.permissions.all wholeNames = true) ∧
    (save.permissions = [] → ∀ permission,
      hasPermission role (permissionsFor after save.session.principal.companyId save.id) permission = false) ∧
    ∀ permissions, Access.markManaged permissions = Permissions.markManaged permissions := by
  have exactly := asListed_iff restricted fresh (saveAlone_ok saved)
  refine ⟨exactly, fun empty permission => ?_, markManaged_same⟩
  have listed := exactly.mpr (by rw [empty]; rfl) permission
  rw [empty] at listed
  rw [Bool.eq_false_iff]
  exact fun held => absurd (listed.mp held).1 List.not_mem_nil

/- A supervisor who had one grant is given another, and one with spaces in its name up to the hundred and first place. -/

def spaced : Permission := ⟨text "reports" ++ List.replicate 94 ' ', text "read"⟩

theorem spaced_lost : ∃ after, saveAlone found (fun _ => none) 2 ⟨manager, 4, [spaced]⟩ = (.ok (), after) ∧
    hasPermission .supervisor (permissionsFor after 1 4) spaced = false ∧
    ¬ AsListed .supervisor ⟨manager, 4, [spaced]⟩ after := by
  have lost : ∃ after, saveAlone found (fun _ => none) 2 ⟨manager, 4, [spaced]⟩ = (.ok (), after) ∧
      hasPermission .supervisor (permissionsFor after 1 4) spaced = false := ⟨_, rfl, by decide +kernel⟩
  obtain ⟨after, saved, refused⟩ := lost
  refine ⟨after, saved, refused, fun same => ?_⟩
  have held := (same spaced).mpr ⟨List.mem_singleton_self _, by decide⟩
  exact Bool.false_ne_true (refused.symm.trans held)

theorem reports_saved : ∃ after, saveAlone found (fun _ => none) 2 ⟨manager, 4, [reportsRead]⟩ = (.ok (), after) ∧
    AsListed .supervisor ⟨manager, 4, [reportsRead]⟩ after := by
  have saved : ∃ after, saveAlone found (fun _ => none) 2 ⟨manager, 4, [reportsRead]⟩ = (.ok (), after) := ⟨_, rfl⟩
  obtain ⟨after, saved⟩ := saved
  have supervised : Role.supervisor ≠ .manager := by decide
  exact ⟨after, saved, (saved_permissions_iff supervised (by decide) saved).1.mpr (by decide)⟩

end ManagedPermissions
