import PmKonstruct.Users.AccountTraces

/- No more active accounts than seats, as long as nobody fills a seat while another call has counted them and has not
   written. An account that was read as active is not counted at all, so taking it out of use in between does the same. -/
namespace SeatLimit
open PlainText DomainErrors Accounts KeyedTable StatementProgram TransitionRuns AccountPrograms AccountTraces
open AuthStore (AuthDb UserRow Env)

/-- The company pays for so many seats and has no more active accounts. -/
structure Seated (company : CompanyId) (limit : Int) (db : AuthDb) : Prop where
  limited : (db.companies.find company).map (·.billingSeatQuantity) = some (some limit)
  within : ((activeUsers db company).length : Int) ≤ limit

/-- Calls on the accounts, from a store in which the company keeps to its seats. -/
abbrev seating (platform : Platform) (company : CompanyId) (limit : Int) : Machine Running (Label Request Env) :=
  (accounts platform (Seated company limit)).machine

/- The condition on a run. -/

/-- Makes one more account active. -/
def activates (db : AuthDb) (company : CompanyId) : Statement → Bool
  | .create scope input _ => scope = company && input.active
  | .update scope id input _ => scope = company && input.active &&
    (db.users.reach (·.companyId = scope) id).any fun row => !row.active
  | _ => false

def deactivates (company : CompanyId) (id : UserId) : Statement → Bool
  | .update scope other input _ => scope = company && other = id && !input.active
  | _ => false

/-- The call will write the account as active. -/
def keepsActive (call : Underway) : Bool :=
  match call.request with
  | .change _ (.update _ input) => input.active
  | _ => false

/-- The other call has counted the seats that this statement changes, or was spared the count by the account that it
    changes. -/
def interrupts (db : AuthDb) (statement : Statement) (other : Underway) : Bool :=
  other.trace.any fun event =>
    match event with
    | ⟨.activeCount scope, .ok _⟩ => activates db scope statement
    | ⟨.find scope id, .ok (some existing)⟩ =>
      existing.active && keepsActive other && deactivates scope id statement
    | _ => false

section Effects
variable {platform : Platform} {env : Env} {db after : AuthDb} {company : CompanyId} {id : UserId}
    {statement : Statement}

theorem setPassword_count {hash : Text} : ((AuthStore.setPassword env db id hash).select
    fun u => u.companyId = company && u.active).length = (activeUsers db company).length := by
  have keeps : ∀ u : UserRow, Keyed.key { u with passwordHash := some hash, passwordChangedAt := some env.now } =
      Keyed.key u := fun _ => rfl
  have same := @Table.select_update_map _ _ db.users (fun u => u.id = id) _ keeps
    (fun u => u.companyId = company && u.active) fun _ => rfl
  rw [AuthStore.setPassword, same, List.length_map]
  rfl

/-- One statement makes at most one more account active. -/
theorem count_after (changes : Changes platform env db statement after) :
    (activeUsers after company).length ≤ (activeUsers db company).length +
      if activates db company statement then 1 else 0 := by
  cases changes with
  | same users companies =>
    rw [activeUsers, users]
    exact Nat.le_add_right _ _
  | password user hash users companies =>
    rw [activeUsers, users, setPassword_count]
    exact Nat.le_add_right _ _
  | created inRange users companies =>
    rw [activeUsers, users]
    exact Table.length_select_put
  | @updated scope target input hash _ row reached users companies =>
    rw [activeUsers, users]
    refine Nat.le_trans Table.length_select_update (Nat.add_le_add_left ?_ _)
    split
    · refine @Table.length_select_key _ _ db.users target _ fun u counted => ?_
      obtain ⟨⟨⟨named, -⟩, -⟩, -⟩ : ((u.id = target ∧ u.companyId = scope) ∧ _) ∧ _ := by simpa using counted
      exact named
    · next spared =>
      refine Nat.le_of_eq (List.length_eq_zero_iff.mpr (List.eq_nil_iff_forall_not_mem.mpr fun u member => spared ?_))
      obtain ⟨there, counted⟩ := Table.mem_select.mp member
      simp only [changedUser, Bool.and_eq_true, decide_eq_true_eq, Bool.not_eq_true', Bool.and_eq_false_iff,
        decide_eq_false_iff_not] at counted
      obtain ⟨⟨⟨named, within⟩, same, active⟩, idle⟩ := counted
      have own : u.companyId = company := of_decide_eq_true same
      have found : db.users.find target = some u := Table.find_eq_some_iff.mpr ⟨there, named⟩
      have reached : db.users.reach (·.companyId = scope) target = some u :=
        Table.reach_eq_some_iff.mpr ⟨found, decide_eq_true within⟩
      have inactive : u.active = false := idle.resolve_left fun apart => apart own
      rw [activates, reached, Option.any_some, inactive, active, decide_eq_true (within.symm.trans own)]
      rfl
  | deleted users companies =>
    rw [activeUsers, users]
    exact Nat.le_trans Table.length_select_delete (Nat.le_add_right _ _)

end Effects

/-- What a seat depends on. -/
def seat (row : UserRow) : CompanyId × Bool := (row.companyId, row.active)

def Idle (db : AuthDb) (company : CompanyId) (id : UserId) : Prop := db.users.Has seat id (company, false)

section Accounts
variable {platform : Platform} {env : Env} {db after : AuthDb} {company : CompanyId} {id : UserId}
    {statement : Statement}

theorem serial_after (changes : Changes platform env db statement after) : db.users.serial ≤ after.users.serial := by
  cases changes with
  | same users companies => rw [users]
  | password user hash users companies =>
    rw [users]
    exact Int.le_refl _
  | created inRange users companies =>
    rw [users]
    exact Int.le_max_left _ _
  | updated row reached users companies =>
    rw [users]
    exact Int.le_refl _
  | deleted users companies =>
    rw [users]
    exact Int.le_refl _

/-- Only an update takes an account out of use. -/
theorem idle_before (changes : Changes platform env db statement after) (known : id < db.users.serial)
    (spared : deactivates company id statement = false) (idle : Idle after company id) : Idle db company id := by
  rw [Idle] at idle ⊢
  cases changes with
  | same users companies =>
    rw [users] at idle
    exact idle
  | password user hash users companies =>
    rw [users] at idle
    have keeps : ∀ u : UserRow, Keyed.key { u with passwordHash := some hash, passwordChangedAt := some env.now } =
        Keyed.key u := fun _ => rfl
    exact (@Table.has_update_iff _ _ db.users id (fun u => u.id = user) _ seat (company, false) _ keeps fun _ => rfl).mp
      idle
  | @created scope input hash _ inRange users companies =>
    rw [users] at idle
    obtain ⟨row, found, stands⟩ := idle
    have apart : Keyed.key (newUser platform scope db.users.serial input hash inRange) ≠ id := by
      intro same
      have serial : db.users.serial = id := same
      rw [serial] at known
      exact Int.lt_irrefl id known
    rw [Table.find_put_apart apart] at found
    exact ⟨row, found, stands⟩
  | @updated scope target input hash _ row reached users companies =>
    rw [users] at idle
    obtain ⟨row, found, stands⟩ := idle
    have keeps : ∀ u : UserRow, Keyed.key (changedUser platform env input hash u) = Keyed.key u := fun _ => rfl
    rw [@Table.find_update _ _ db.users id _ _ keeps] at found
    obtain ⟨old, located, made⟩ := Option.map_eq_some_iff.mp found
    refine ⟨old, located, ?_⟩
    split at made
    · next matched =>
      obtain ⟨named, within⟩ : old.id = target ∧ old.companyId = scope := by simpa using matched
      have keyed : old.id = id := (Table.find_eq_some_iff.mp located).2
      rw [← made] at stands
      obtain ⟨own, inactive⟩ : old.companyId = company ∧ input.active = false := by simpa [seat, changedUser] using stands
      simp [deactivates, inactive, named.symm.trans keyed, within.symm.trans own] at spared
    · rw [made]
      exact stands
  | deleted users companies =>
    rw [users] at idle
    obtain ⟨row, found, stands⟩ := idle
    exact ⟨row, Table.find_of_delete found, stands⟩

end Accounts

/- What a call counted, or was spared counting, still holds at its write. -/

structure Stands (company : CompanyId) (limit : Int) (db : AuthDb) (call : Underway) : Prop where
  limited : ∀ entitlement, (⟨.auth (.entitlement company), .ok entitlement⟩ : Event Statement Answer) ∈ call.trace →
    entitlement.seatLimit = some limit
  known : ∀ scope id existing, ReadAs call.trace scope id existing → id < db.users.serial
  counted : call.live = true → Quiet call.trace → ∀ inUse,
    (⟨.activeCount company, .ok inUse⟩ : Event Statement Answer) ∈ call.trace →
    ((activeUsers db company).length : Int) ≤ inUse
  active : call.live = true → Quiet call.trace → keepsActive call = true → ∀ id existing,
    ReadAs call.trace company id existing → existing.active = true → ¬ Idle db company id

section Runs
variable {platform : Platform} {env : Env} {db after : AuthDb} {call other : Underway} {statement : Statement}
    {next : Answer statement → Program Statement Answer Outcome} {company : CompanyId} {limit : Int}

theorem activates_writes (reads : writes statement = false) : activates db company statement = false := by
  cases statement with
  | create _ _ _ => cases reads
  | update _ _ _ _ => cases reads
  | _ => rfl

theorem deactivates_writes {id : UserId} (reads : writes statement = false) :
    deactivates company id statement = false := by
  cases statement with
  | update _ _ _ _ => cases reads
  | _ => rfl

theorem count_kept (company : CompanyId) (changes : Changes platform env db statement after)
    (spared : activates db company statement = false) :
    (activeUsers after company).length ≤ (activeUsers db company).length := by
  have grown := @count_after _ _ _ _ company _ changes
  rw [spared] at grown
  exact grown

/- The trace after a statement. The calls are served in turns, so an answer in the trace was given then. -/

theorem quiet_before {trace : List (Event Statement Answer)} {event : Event Statement Answer}
    (quiet : Quiet (trace ++ [event])) : Quiet trace ∧ writes event.statement = false :=
  ⟨fun earlier member => quiet earlier (List.mem_append_left _ member),
    quiet event (List.mem_append_right _ (List.mem_singleton_self _))⟩

theorem limit_told (seated : Seated company limit db) (stands : Stands company limit db call)
    {entitlement : AuthStore.Entitlement}
    (asked : (⟨.auth (.entitlement company), .ok entitlement⟩ : Event Statement Answer) ∈
      call.trace ++ [⟨statement, (execute platform env statement db).1⟩]) : entitlement.seatLimit = some limit := by
  rcases List.mem_append.mp asked with before | now
  · exact stands.limited entitlement before
  · obtain ⟨rfl, answered⟩ := event_ok (List.mem_singleton.mp now)
    have read : AuthStore.entitlement env db company = entitlement := Except.ok.inj (auth_ok answered)
    obtain ⟨row, found, limit⟩ := Option.map_eq_some_iff.mp seated.limited
    rw [← read, AuthStore.entitlement, found]
    exact limit

theorem reads_known (stands : Stands company limit db call) {scope : CompanyId} {id : UserId} {existing : User}
    (read : ReadAs (call.trace ++ [⟨statement, (execute platform env statement db).1⟩]) scope id existing) :
    id < db.users.serial := by
  rcases List.mem_append.mp read with before | now
  · exact stands.known scope id existing before
  · obtain ⟨rfl, answered⟩ := event_ok (List.mem_singleton.mp now)
    obtain ⟨row, found, -, -⟩ := findUser_ok answered
    exact Table.find_below found

theorem count_stands (stands : Stands company limit db call) (live : call.live = true)
    (quiet : Quiet (call.trace ++ [⟨statement, (execute platform env statement db).1⟩])) {inUse : Int}
    (counted : (⟨.activeCount company, .ok inUse⟩ : Event Statement Answer) ∈
      call.trace ++ [⟨statement, (execute platform env statement db).1⟩]) :
    ((activeUsers (execute platform env statement db).2 company).length : Int) ≤ inUse := by
  obtain ⟨earlier, reads⟩ := quiet_before quiet
  have fewer := count_kept company (execute_changes platform env statement db) (activates_writes reads)
  rcases List.mem_append.mp counted with before | now
  · have := stands.counted live earlier inUse before
    omega
  · obtain ⟨rfl, answered⟩ := event_ok (List.mem_singleton.mp now)
    have count : ((activeUsers db company).length : Int) = inUse := Except.ok.inj answered
    omega

theorem active_stands (stands : Stands company limit db call) (live : call.live = true)
    (quiet : Quiet (call.trace ++ [⟨statement, (execute platform env statement db).1⟩]))
    (keeps : keepsActive call = true) {id : UserId} {existing : User}
    (read : ReadAs (call.trace ++ [⟨statement, (execute platform env statement db).1⟩]) company id existing)
    (active : existing.active = true) : ¬ Idle (execute platform env statement db).2 company id := by
  intro idle
  obtain ⟨earlier, reads⟩ := quiet_before quiet
  have before : Idle db company id :=
    idle_before (execute_changes platform env statement db) (reads_known stands read) (deactivates_writes reads) idle
  rcases List.mem_append.mp read with past | now
  · exact stands.active live earlier keeps id existing past active before
  · obtain ⟨rfl, answered⟩ := event_ok (List.mem_singleton.mp now)
    obtain ⟨row, found, -, parsed⟩ := findUser_ok answered
    obtain ⟨other, also, idling⟩ := before
    rw [found] at also
    cases also
    have inactive : row.active = false := congrArg Prod.snd idling
    rw [(intoDomain_standing parsed).2.2.2, active] at inactive
    cases inactive

theorem own_stands (seated : Seated company limit db) (stands : Stands company limit db call) (live : call.live = true) :
    Stands company limit (execute platform env statement db).2 ⟨call.request,
      call.trace ++ [⟨statement, (execute platform env statement db).1⟩],
      next (execute platform env statement db).1⟩ where
  limited := fun _ asked => limit_told seated stands asked
  known := fun _ _ _ read =>
    Int.lt_of_lt_of_le (reads_known stands read) (serial_after (execute_changes platform env statement db))
  counted := fun _ quiet _ counted => count_stands stands live quiet counted
  active := fun _ quiet keeps _ _ read active => active_stands stands live quiet keeps read active

/-- A seat is filled only when one was free. -/
theorem own_seated (seated : Seated company limit db) (stands : Stands company limit db call) (live : call.live = true)
    (justified : Justified call.request call.trace statement) :
    Seated company limit (execute platform env statement db).2 := by
  have changes := execute_changes platform env statement db
  refine ⟨by rw [changes.companies]; exact seated.limited, ?_⟩
  have grown := @count_after _ _ _ _ company _ changes
  have within := seated.within
  cases fills : activates db company statement with
  | false =>
    rw [fills] at grown
    simp only [Bool.false_eq_true, if_false] at grown
    omega
  | true =>
    rw [fills, if_pos rfl] at grown
    have room : Quiet call.trace → Counted call.trace company → ((activeUsers db company).length : Int) < limit := by
      rintro quiet ⟨entitlement, inUse, asked, counted, room⟩
      have few := stands.counted live quiet inUse counted
      rw [Seats.hasRoom, stands.limited entitlement asked, Option.all_some, decide_eq_true_eq] at room
      exact Int.lt_of_le_of_lt few room
    cases statement with
    | create scope input hash =>
      obtain ⟨⟨user, manages⟩, seat⟩ := justified
      simp only [activates, Bool.and_eq_true, decide_eq_true_eq] at fills
      have counted := seat fills.2
      rw [fills.1] at counted
      have := room manages.quiet counted
      omega
    | update scope id input hash =>
      obtain ⟨⟨bearer, asked⟩, user, existing, manages, read, -, room_or_seat⟩ := justified
      simp only [activates, Bool.and_eq_true, decide_eq_true_eq] at fills
      obtain ⟨⟨here, active⟩, reached⟩ := fills
      rw [here] at read room_or_seat reached
      rcases room_or_seat active with spared | counted
      · have keeps : keepsActive call = true := by
          rw [keepsActive, asked]
          exact active
        refine absurd ?_ (stands.active live manages.quiet keeps id existing read spared)
        obtain ⟨row, found, inactive⟩ := Option.any_eq_true _ _ |>.mp reached
        obtain ⟨located, own⟩ := Table.reach_eq_some_iff.mp found
        refine ⟨row, located, ?_⟩
        rw [seat, of_decide_eq_true own]
        simpa using inactive
      · have := room manages.quiet counted
        omega
    | _ => cases fills

theorem counted_spared {inUse : Int} (clear : interrupts db statement other = false)
    (counted : (⟨.activeCount company, .ok inUse⟩ : Event Statement Answer) ∈ other.trace) :
    activates db company statement = false := by
  have spared := List.any_eq_false.mp clear _ counted
  simpa using spared

theorem read_spared {id : UserId} {existing : User} (clear : interrupts db statement other = false)
    (read : ReadAs other.trace company id existing) (active : existing.active = true)
    (keeps : keepsActive other = true) : deactivates company id statement = false := by
  have spared := List.any_eq_false.mp clear _ read
  simpa [active, keeps] using spared

theorem seats_kept {config : Running}
    (reached : ((seating platform company limit).restrict (apart interrupts)).Reachable config) :
    ((activeUsers config.store company).length : Int) ≤ limit := by
  have kept := store_and_calls_keep (Seated company limit) (Stands company limit) (fun _ initial => initial) ?_ ?_ ?_
    reached
  · exact kept.1.within
  · intro store request _
    exact ⟨fun _ asked => absurd asked List.not_mem_nil, fun _ _ _ read => absurd read List.not_mem_nil,
      fun _ _ _ counted => absurd counted List.not_mem_nil, fun _ _ _ _ _ read => absurd read List.not_mem_nil⟩
  · intro config i env call statement next visited permitted found shape seated stands
    have live : call.live = true := by rw [Call.live, shape]
    exact ⟨own_seated seated stands live (statement_justified visited found shape), own_stands seated stands live⟩
  · intro config i j env call other statement next visited permitted found shape there elsewhere seated stands
    have changes := execute_changes platform env statement config.store
    refine ⟨stands.limited, fun scope id existing read => ?_, fun live quiet inUse counted => ?_,
      fun live quiet keeps id existing read active idle => ?_⟩
    · exact Int.lt_of_lt_of_le (stands.known scope id existing read) (serial_after changes)
    · have clear := apart_advance permitted found shape there elsewhere live
      have fewer := count_kept company changes (counted_spared clear counted)
      exact Int.le_trans (Int.ofNat_le.mpr fewer) (stands.counted live quiet inUse counted)
    · have clear := apart_advance permitted found shape there elsewhere live
      exact stands.active live quiet keeps id existing read active
        (idle_before changes (stands.known company id existing read) (read_spared clear read active keeps) idle)

end Runs

/- One seat is left, and two managers each add someone. -/

def newcomer (name email : String) : UserInput :=
  ⟨text name, text email, .supervisor, none, true, some (text "password")⟩

def additions : List (Label Request Env) :=
  [.invoke (.change (text "1") (.create (newcomer "Cleo" "cleo@example.com"))),
    .invoke (.change (text "2") (.create (newcomer "Dan" "dan@example.com")))]

/-- The second call counts the seats after the first has written. -/
def inTurn : List (Label Request Env) := additions ++ turns 0 8 ++ turns 1 6

/-- Both calls count the seats before either writes. -/
def overlapping : List (Label Request Env) := additions ++ turns 0 7 ++ turns 1 7 ++ turns 0 1 ++ turns 1 1

theorem twoManagers_initial : (seating bearerPlatform 1 3).initial ⟨twoManagers, []⟩ := ⟨⟨rfl, by decide⟩, rfl⟩

theorem in_turn_seated : ∃ config : Running,
    ((seating bearerPlatform 1 3).restrict (apart interrupts)).Reachable config ∧
    (∀ call ∈ config.calls, call.live = false) ∧ (activeUsers config.store 1).length = 3 ∧
    ((activeUsers config.store 1).length : Int) ≤ 3 := by
  have run : ∃ config, ((seating bearerPlatform 1 3).restrict (apart interrupts)).execute ⟨twoManagers, []⟩ inTurn =
      some config ∧ (∀ call ∈ config.calls, call.live = false) ∧ (activeUsers config.store 1).length = 3 :=
    ⟨_, rfl, by decide +kernel, by decide +kernel⟩
  obtain ⟨config, ran, ended, full⟩ := run
  have initial : ((seating bearerPlatform 1 3).restrict (apart interrupts)).initial ⟨twoManagers, []⟩ :=
    twoManagers_initial
  have reached := execute_reachable initial ran
  exact ⟨config, reached, ended, full, seats_kept reached⟩

theorem overlapping_overfull : ∃ config : Running, (seating bearerPlatform 1 3).Reachable config ∧
    (∀ call ∈ config.calls, call.live = false) ∧ ¬ ((activeUsers config.store 1).length : Int) ≤ 3 := by
  have run : ∃ config, (seating bearerPlatform 1 3).execute ⟨twoManagers, []⟩ overlapping = some config ∧
      (∀ call ∈ config.calls, call.live = false) ∧ (activeUsers config.store 1).length = 4 :=
    ⟨_, rfl, by decide +kernel, by decide +kernel⟩
  obtain ⟨config, ran, ended, count⟩ := run
  refine ⟨config, execute_reachable twoManagers_initial ran, ended, ?_⟩
  rw [count]
  decide

end SeatLimit
