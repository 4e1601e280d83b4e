import PmKonstruct.Users.AccountTraces

/- A company keeps a manager, as long as nobody removes an account as one while a call that this account was let in for
   is under way. The guard looks at the account once, so two managers that were let in together may remove each other. -/
namespace LastManager
open PlainText DomainErrors Accounts KeyedTable StatementProgram TransitionRuns AccountPrograms AccountTraces
open AuthStore (AuthDb UserRow Env findByIdUnscoped)

/-- An active manager of the company. -/
def IsManager (db : AuthDb) (scope : CompanyId) (id : UserId) : Prop :=
  db.users.Has standing id (scope, Role.manager.asStr, true)

/-- Deletes the account, deactivates it or gives it another role. -/
def removes (scope : CompanyId) (id : UserId) : Statement → Bool
  | .update company other input _ => company = scope && other = id && !(input.active && input.role = .manager)
  | .delete company other => company = scope && other = id
  | _ => false

/-- Calls on the accounts, from a store in which the company has a manager. -/
abbrev administration (platform : Platform) (company : CompanyId) : Machine Running (Label Request Env) :=
  (accounts platform fun db => ∃ id, IsManager db company id).machine

/- The condition on a run. -/

/-- The other call was let in for the account that this statement removes. -/
def interrupts (_ : AuthDb) (statement : Statement) (other : Underway) : Bool :=
  (actor other.trace).any fun user => removes user.companyId user.id statement

section Effects
variable {platform : Platform} {env : Env} {db after : AuthDb} {scope company : CompanyId} {id other : UserId}
    {statement : Statement}

theorem manager_stays (changes : Changes platform env db statement after) (manager : IsManager db scope id)
    (spared : removes scope id statement = false) : IsManager after scope id := by
  rw [IsManager] at manager ⊢
  cases changes with
  | same users companies =>
    rw [users]
    exact manager
  | password user hash users companies =>
    rw [users]
    exact manager.update fun _ => rfl
  | created inRange users companies =>
    rw [users]
    refine manager.put fun same => ?_
    have := manager.below
    have serial : db.users.serial = id := same
    omega
  | @updated company target input hash _ row reached users companies =>
    obtain ⟨there, found, stands⟩ := manager
    rw [users]
    refine Table.Has.update_found ⟨there, found, stands⟩ fun old located matched => ?_
    rw [found] at located
    cases located
    obtain ⟨member, keyed⟩ := Table.find_eq_some_iff.mp found
    obtain ⟨own, role, active⟩ : there.companyId = scope ∧ there.role = Role.manager.asStr ∧ there.active = true := by
      simpa [standing] using stands
    obtain ⟨named, within⟩ : there.id = target ∧ there.companyId = company := by simpa using matched
    have target : target = id := named.symm.trans keyed
    have here : company = scope := within.symm.trans own
    have kept : input.active = true ∧ input.role = .manager := by simpa [removes, target, here] using spared
    rw [stands]
    simp only [standing, changedUser, own, kept.1, kept.2]
  | @deleted company target _ users companies =>
    obtain ⟨there, found, stands⟩ := manager
    rw [users]
    refine Table.Has.delete ⟨there, found, stands⟩ ?_
    rw [found, Option.any_some]
    obtain ⟨member, keyed⟩ := Table.find_eq_some_iff.mp found
    have own : there.companyId = scope := congrArg Prod.fst stands
    have named : there.id = id := keyed
    have different : ¬ (company = scope ∧ target = id) := by
      simpa only [removes, Bool.and_eq_false_iff, decide_eq_false_iff_not, ← not_and_or] using spared
    rw [named, own, Bool.and_eq_false_iff, decide_eq_false_iff_not, decide_eq_false_iff_not, ← not_and_or]
    exact fun same => different ⟨same.2.symm, same.1.symm⟩

theorem manager_of_row {row : UserRow} {user : User} (found : db.users.find id = some row)
    (parsed : row.intoDomain = .ok user) (active : user.active = true) (manager : user.role = .manager) :
    IsManager db user.companyId id := by
  obtain ⟨-, company, role, status⟩ := intoDomain_standing parsed
  refine ⟨row, found, ?_⟩
  rw [standing, company, role, status, active, manager]

/-- Who is read while it is a manager is read as one. -/
theorem manager_read {existing : User} (manager : IsManager db scope id) (read : findUser db scope id = .ok (some existing)) :
    existing.role = .manager := by
  obtain ⟨row, found, stands⟩ := manager
  obtain ⟨-, role, -⟩ : row.companyId = scope ∧ row.role = Role.manager.asStr ∧ row.active = true := by
    simpa [standing] using stands
  obtain ⟨other, also, -, parsed⟩ := findUser_ok read
  rw [found] at also
  cases also
  have written : existing.role.asStr = Role.manager.asStr := (intoDomain_standing parsed).2.2.1.symm.trans role
  have read := role_parse_asStr existing.role
  rw [written, role_parse_asStr] at read
  exact (Option.some.inj read).symm

end Effects

/- Whoever was let in stays a manager until the write. -/

structure Stands (db : AuthDb) (call : Underway) : Prop where
  resolved : ∀ scope id existing, ReadAs call.trace scope id existing → actor call.trace ≠ none
  manager : call.live = true → ∀ scope user, Manages call.trace scope user → IsManager db scope user.id ∧
    ∀ existing, ReadAs call.trace scope user.id existing → existing.role = .manager

section Runs
variable {platform : Platform} {env : Env} {db : AuthDb} {call : Underway} {statement : Statement}
    {next : Answer statement → Program Statement Answer Outcome} {scope : CompanyId} {company : CompanyId}

theorem removes_writes {id : UserId} (reads : writes statement = false) : removes scope id statement = false := by
  cases statement with
  | update _ _ _ _ => cases reads
  | delete _ _ => cases reads
  | _ => rfl

/-- Who is resolved to an active manager is one at that moment. -/
theorem session_manager {user : User}
    (read : sessionRead ⟨statement, (execute platform env statement db).1⟩ = some user) (active : user.active = true)
    (manager : user.role = .manager) : IsManager db user.companyId user.id := by
  cases statement with
  | auth inner =>
    cases inner with
    | findByIdUnscoped id =>
      rcases answered : (execute platform env (.auth (.findByIdUnscoped id)) db).1 with e | (_ | found)
      · rw [answered] at read
        cases read
      · rw [answered] at read
        cases read
      · rw [answered] at read
        cases read
        have row : findByIdUnscoped db id = .ok (some user) := auth_ok (execute_ok answered)
        rw [findByIdUnscoped] at row
        split at row
        · cases row
        · next there located =>
          split at row
          · cases row
          · next parsed =>
            cases row
            have keyed := (Table.find_eq_some_iff.mp located).2
            have own : id = user.id := keyed.symm.trans (intoDomain_standing parsed).1
            rw [own] at located
            exact manager_of_row located parsed active manager
    | _ => cases read
  | _ => cases read

theorem own_stands (stands : Stands db call) (live : call.live = true)
    (justified : Justified call.request call.trace statement) :
    Stands (execute platform env statement db).2 ⟨call.request,
      call.trace ++ [⟨statement, (execute platform env statement db).1⟩],
      next (execute platform env statement db).1⟩ := by
  have changes := execute_changes platform env statement db
  refine ⟨fun scope id existing read => ?_, fun _ scope user manages => ?_⟩
  · rcases List.mem_append.mp read with before | now
    · obtain ⟨user, known⟩ := Option.ne_none_iff_exists'.mp (stands.resolved scope id existing before)
      rw [actor_append known]
      exact Option.some_ne_none user
    · obtain ⟨rfl, -⟩ := event_ok (List.mem_singleton.mp now)
      obtain ⟨user, manages⟩ := justified
      rw [actor_append manages.resolved]
      exact Option.some_ne_none user
  · have reads : writes statement = false :=
      manages.quiet _ (List.mem_append_right _ (List.mem_singleton_self _))
    cases known : actor call.trace with
    | some other =>
      have resolved := manages.resolved
      rw [actor_append known] at resolved
      cases resolved
      have before : Manages call.trace scope user := ⟨known, manages.active, manages.manager, manages.company,
        fun event member => manages.quiet event (List.mem_append_left _ member)⟩
      obtain ⟨manager, earlier⟩ := stands.manager live scope user before
      refine ⟨manager_stays changes manager (removes_writes reads), fun existing read => ?_⟩
      rcases List.mem_append.mp read with old | now
      · exact earlier existing old
      · obtain ⟨rfl, answered⟩ := event_ok (List.mem_singleton.mp now)
        exact manager_read manager answered
    | none =>
      have resolved := manages.resolved
      rw [actor, List.findSome?_append, ← actor, known, Option.none_or, List.findSome?_singleton] at resolved
      have manager := session_manager resolved manages.active manages.manager
      rw [manages.company] at manager
      refine ⟨manager_stays changes manager (removes_writes reads), fun existing read => ?_⟩
      rcases List.mem_append.mp read with old | now
      · exact absurd known (stands.resolved scope user.id existing old)
      · obtain ⟨rfl, -⟩ := event_ok (List.mem_singleton.mp now)
        cases resolved

/-- A manager that removes another is left. -/
theorem own_leaves (stands : Stands db call) (live : call.live = true)
    (justified : Justified call.request call.trace statement) (led : ∃ id, IsManager db company id) :
    ∃ id, IsManager (execute platform env statement db).2 company id := by
  have changes := execute_changes platform env statement db
  obtain ⟨id, manager⟩ := led
  by_cases spared : removes company id statement = false
  · exact ⟨id, manager_stays changes manager spared⟩
  · cases statement with
    | update scope target input hash =>
      obtain ⟨-, user, existing, manages, read, own, -⟩ := justified
      obtain ⟨still, reads⟩ := stands.manager live scope user manages
      have here : scope = company := by
        simp only [removes, Bool.and_eq_false_iff, not_or, Bool.not_eq_false, decide_eq_true_eq] at spared
        exact spared.1.1
      subst here
      refine ⟨user.id, manager_stays changes still ?_⟩
      by_cases self : target = user.id
      · obtain ⟨active, role⟩ := own self
        rw [self] at read
        simp [removes, active, role, reads existing read]
      · simp [removes, self]
    | delete scope target =>
      obtain ⟨user, manages, apart⟩ := justified
      obtain ⟨still, -⟩ := stands.manager live scope user manages
      have here : scope = company := by
        simp only [removes, Bool.and_eq_false_iff, not_or, Bool.not_eq_false, decide_eq_true_eq] at spared
        exact spared.1
      subst here
      exact ⟨user.id, manager_stays changes still (by simp [removes, apart])⟩
    | _ => exact absurd rfl spared

theorem company_keeps_manager {config : Running}
    (reached : ((administration platform company).restrict (apart interrupts)).Reachable config) :
    ∃ id, IsManager config.store company id := by
  have kept := store_and_calls_keep (fun db => ∃ id, IsManager db company id) Stands (fun _ initial => initial)
    ?_ ?_ ?_ reached
  · exact kept.1
  · intro store request _
    exact ⟨fun _ _ _ read => absurd read List.not_mem_nil, fun _ _ user manages => by cases manages.resolved⟩
  · intro config i env call statement next visited permitted found shape led stands
    have live : call.live = true := by rw [Call.live, shape]
    have justified := statement_justified visited found shape
    exact ⟨own_leaves stands live justified led, own_stands stands live justified⟩
  · intro config i j env call other statement next visited permitted found shape there elsewhere led stands
    refine ⟨stands.resolved, fun live scope user manages => ?_⟩
    obtain ⟨manager, reads⟩ := stands.manager live scope user manages
    have spared := apart_advance permitted found shape there elsewhere live
    rw [interrupts, manages.resolved, Option.any_some, manages.company] at spared
    exact ⟨manager_stays (execute_changes platform env statement config.store) manager spared, reads⟩

end Runs

/- Two managers delete each other. -/

def deletions : List (Label Request Env) :=
  [.invoke (.change (text "1") (.delete 2)), .invoke (.change (text "2") (.delete 1))]

/-- The second manager is let in after the first has deleted it. -/
def inTurn : List (Label Request Env) := deletions ++ turns 0 6 ++ turns 1 2

/-- Both are let in and have read the other before either deletes. -/
def overlapping : List (Label Request Env) := deletions ++ turns 0 5 ++ turns 1 5 ++ turns 0 1 ++ turns 1 1

theorem twoManagers_initial : (administration bearerPlatform 1).initial ⟨twoManagers, []⟩ := ⟨⟨1, _, rfl, rfl⟩, rfl⟩

theorem in_turn_led : ∃ config : Running,
    ((administration bearerPlatform 1).restrict (apart interrupts)).Reachable config ∧
    config.store.users.rows.map (·.id) = [1] ∧ (∀ call ∈ config.calls, call.live = false) ∧
    ∃ id, IsManager config.store 1 id := by
  have run : ∃ config, ((administration bearerPlatform 1).restrict (apart interrupts)).execute ⟨twoManagers, []⟩ inTurn =
      some config ∧ config.store.users.rows.map (·.id) = [1] ∧ (∀ call ∈ config.calls, call.live = false) :=
    ⟨_, rfl, by decide +kernel, by decide +kernel⟩
  obtain ⟨config, ran, left, ended⟩ := run
  have initial : ((administration bearerPlatform 1).restrict (apart interrupts)).initial ⟨twoManagers, []⟩ :=
    twoManagers_initial
  have reached := execute_reachable initial ran
  exact ⟨config, reached, left, ended, company_keeps_manager reached⟩

theorem overlapping_locked_out : ∃ config : Running, (administration bearerPlatform 1).Reachable config ∧
    (∀ call ∈ config.calls, call.live = false) ∧ config.store.users.rows = [] ∧
    ¬ ∃ id, IsManager config.store 1 id := by
  have run : ∃ config, (administration bearerPlatform 1).execute ⟨twoManagers, []⟩ overlapping = some config ∧
      (∀ call ∈ config.calls, call.live = false) ∧ config.store.users.rows = [] :=
    ⟨_, rfl, by decide +kernel, by decide +kernel⟩
  obtain ⟨config, ran, ended, gone⟩ := run
  refine ⟨config, execute_reachable twoManagers_initial ran, ended, gone, ?_⟩
  rintro ⟨id, row, found, -⟩
  have member := (Table.find_eq_some_iff.mp found).1
  rw [gone] at member
  cases member

end LastManager
