import PmKonstruct.Settings.BrandingPrograms

/- Every key that leaves the slot is handed to one call, as long as nobody commits into the middle of another upsert and
   every confirmation brings a key of its own. -/
namespace DisplacedImages
open PlainText DomainErrors Accounts KeyedTable TransitionRuns ReadCommitted BrandingStore BrandingPrograms
open StatementProgram (Program Event getElem?_append_cases getElem?_set_cases)

/- The condition on a run. -/

def isSet : Statement → Bool
  | .verify _ => false
  | .setImage _ => true

/-- The other call has started its upsert, and has not ended. -/
def overlaps (_ : Store) (_ other : Replacing) : Bool := other.begun isSet

/-- The key that a call may still store, has stored, or has removed. A call that came to nothing may be made again. -/
def standing (tx : Replacing) : Option Text :=
  match tx.phase with
  | .undone none => none
  | .undone (some (.failed _)) => none
  | .undone (some (.refused false)) => none
  | _ => tx.request.key

/-- The key is not that of another call, and not the one that was there at the start. -/
def ownKey (first : Option Text) (config : Replacings) : Label Request Env → Bool
  | .begin request => request.key.all fun key =>
      first ≠ some key && config.transactions.all fun tx => standing tx ≠ some key
  | _ => true

def inTurn (first : Option Text) (config : Replacings) (label : Label Request Env) : Bool :=
  separately overlaps config label && ownKey first config label

/- The slot. -/

section Slot
variable {scope : CompanyId} {banner : Bool} {t : Branded} {now : Instant} {key : Option Text}

theorem setImage_own {branding : Branding} : (branding.setImage banner key now).image banner = key := by
  cases banner <;> rfl

theorem find_map_found {rows : List CompanyBrandingRow} {row : CompanyBrandingRow}
    {change : CompanyBrandingRow → CompanyBrandingRow} (keeps : ∀ r, (change r).companyId = r.companyId)
    (found : rows.find? (·.companyId = scope) = some row) :
    (rows.map fun r => if r.companyId = scope then change r else r).find? (·.companyId = scope) = some (change row) := by
  induction rows with
  | nil => cases found
  | cons r rest ih =>
    by_cases own : r.companyId = scope
    · rw [List.find?_cons_of_pos (by simpa using own)] at found
      cases found
      rw [List.map_cons, if_pos own, List.find?_cons_of_pos (by simpa [keeps] using own)]
    · rw [List.find?_cons_of_neg (by simpa using own)] at found
      rw [List.map_cons, if_neg own, List.find?_cons_of_neg (by simpa using own)]
      exact ih found

/-- Whoever has the lock leaves its own key there. -/
theorem slotOf_set : slotOf scope banner (setBrandingImage t scope now banner key).2 = key := by
  rw [setBrandingImage, slotOf]
  cases found : rowOf t scope with
  | none =>
    have last : (t.rows ++ [(⟨t.serial, scope, defaultBranding.setImage banner key now⟩ : CompanyBrandingRow)]).find?
        (·.companyId = scope) = some ⟨t.serial, scope, defaultBranding.setImage banner key now⟩ := by
      rw [List.find?_append, show t.rows.find? (·.companyId = scope) = none from found, Option.none_or,
        List.find?_cons_of_pos (by simp)]
    show (List.find? _ (t.rows ++ _)).bind _ = key
    rw [last]
    exact setImage_own
  | some row =>
    have changed := @find_map_found scope t.rows row
      (fun r => { r with branding := r.branding.setImage banner key now }) (fun _ => rfl) found
    simp only [rowOf, Table.update, decide_eq_true_eq]
    rw [changed]
    exact setImage_own

end Slot

/- The programs, whatever they are answered. -/

abbrev Trace : Type := List (Event Statement Answer)

/-- One upsert a call, of the key it was given. -/
def At (request : Request) (past : Trace) : Statement → Prop
  | .verify _ => past = []
  | .setImage key => key = request.key ∧ past.any (fun event => isSet event.statement) = false

/-- A call that commits has been told what it displaced. -/
def AtEnd (request : Request) (past : Trace) : Ending Result → Prop
  | .commit result => ∃ previous, result = .replaced previous ∧
      (⟨.setImage request.key, .ok previous⟩ : Event Statement Answer) ∈ past
  | .rollback _ => True

theorem replaceImage_obeys {request : Request} {past : Trace} {key : Option Text} (own : key = request.key)
    (first : past.any (fun event => isSet event.statement) = false) :
    (replaceImage key).Obeys (At request) (AtEnd request) past := by
  refine ⟨⟨own, first⟩, fun answer => ?_⟩
  cases answer with
  | error e => trivial
  | ok previous =>
    rw [own]
    exact ⟨previous, rfl, List.mem_append_right _ (List.mem_singleton_self _)⟩

theorem program_obeys (request : Request) : request.program.Obeys (At request) (AtEnd request) [] := by
  cases request with
  | clear => exact replaceImage_obeys rfl rfl
  | confirm key =>
    refine ⟨rfl, fun verdict => ?_⟩
    cases verdict with
    | refused removed => trivial
    | accepted => exact replaceImage_obeys rfl rfl

/- What a call that goes on knows of the slot. -/

section Runs
variable {scope : CompanyId} {banner : Bool} {first : Option Text} {config : Replacings} {t : Branded} {tx : Replacing}

theorem replacings_obey {permits : Replacings → Label Request Env → Bool}
    (reached : (replacings scope banner first permits).machine.Reachable config) :
    ∀ (i : Nat) tx, config.transactions[i]? = some tx → tx.Obeys (At tx.request) (AtEnd tx.request) :=
  transactions_obey At AtEnd program_obeys reached

/-- It has seen the slot as it is, and is going to leave its own key there. -/
structure Sound (scope : CompanyId) (banner : Bool) (t : Branded) (tx : Replacing) : Prop where
  seen : ∀ snapshot key next, tx.phase = .started snapshot (.setImage key) next →
    slotOf scope banner snapshot = slotOf scope banner t
  told : ∀ key previous, (⟨.setImage key, .ok previous⟩ : Event Statement Answer) ∈ tx.trace →
    previous = slotOf scope banner t ∧ ∀ other, slotOf scope banner (tx.pending other) = key
  unwritten : tx.trace.any (fun event => isSet event.statement) = false → tx.pending = id

theorem not_told {past : Trace} {key : Option Text} {answer : Except PortError (Option Text)}
    (none_set : past.any (fun event => isSet event.statement) = false) :
    (⟨.setImage key, answer⟩ : Event Statement Answer) ∉ past := by
  intro member
  have := List.any_eq_false.mp none_set _ member
  exact this rfl

/-- Nothing that another call commits matters to a call that has not started its upsert. -/
theorem sound_apart {other : Branded} (sound : Sound scope banner t tx) (live : tx.live = true)
    (apart : tx.begun isSet = false) : Sound scope banner other tx where
  seen := by
    intro snapshot key next shape
    rw [begun_started shape rfl] at apart
    cases apart
  told := by
    intro key previous member
    rw [begun_past live ⟨_, member, rfl⟩] at apart
    cases apart
  unwritten := sound.unwritten

theorem sound_started {statement : Statement} {next : Answer statement → Steps} (sound : Sound scope banner t tx)
    (shape : tx.phase = .ready (.stmt statement next)) (obeys : tx.Obeys (At tx.request) (AtEnd tx.request)) :
    Sound scope banner t (tx.start (tx.pending t) statement next) where
  seen := by
    intro snapshot key rest same
    cases same
    rw [Transaction.Obeys, shape] at obeys
    rw [sound.unwritten obeys.1.2]
    rfl
  told := sound.told
  unwritten := sound.unwritten

theorem sound_ran {statement : Statement} {snapshot : Branded} {next : Answer statement → Steps} {env : Env} {serial : Int}
    (sound : Sound scope banner t tx) (shape : tx.phase = .started snapshot statement next)
    (obeys : tx.Obeys (At tx.request) (AtEnd tx.request)) :
    Sound scope banner t (tx.ran serial next (execute scope banner env serial statement snapshot (tx.pending t))) := by
  rw [Transaction.Obeys, shape] at obeys
  cases statement with
  | verify key =>
    refine ⟨fun _ _ _ other => (by cases other), ?_, ?_⟩
    · intro key previous member
      rcases List.mem_append.mp member with before | now
      · exact sound.told key previous before
      · cases List.mem_singleton.mp now
    · intro none_set
      rw [Transaction.ran, List.any_append, Bool.or_eq_false_iff] at none_set
      show (fun store => store) ∘ tx.pending = id
      rw [sound.unwritten none_set.1]
      rfl
  | setImage key =>
    refine ⟨fun _ _ _ other => (by cases other), ?_, ?_⟩
    · intro other previous member
      rcases List.mem_append.mp member with before | now
      · exact absurd before (not_told obeys.1.2)
      · cases fault : env.fault with
        | some e =>
          simp only [execute, fault] at now
          cases List.mem_singleton.mp now
        | none =>
          simp only [execute, fault] at now ⊢
          cases List.mem_singleton.mp now
          exact ⟨sound.seen snapshot key next shape, fun _ => slotOf_set⟩
    · intro none_set
      rw [Transaction.ran, List.any_append, Bool.or_eq_false_iff] at none_set
      cases none_set.2

theorem calls_sound (reached : (replacings scope banner first (inTurn first)).machine.Reachable config) :
    ∀ (i : Nat) tx, config.transactions[i]? = some tx → tx.live = true → Sound scope banner config.committed tx := by
  apply transactions_keep (fun t tx => tx.live = true → Sound scope banner t tx) ?_ ?_ ?_ reached
  · intro config request _ _ _
    exact ⟨fun _ _ _ other => (by cases other), fun _ _ member => (by cases member), fun _ => rfl⟩
  · intro config i tx label committed serial later visited _ found acts sound live
    have before := sound acts.live
    have obeys := replacings_obey visited i tx found
    cases acts with
    | start shape => exact sound_started before shape obeys
    | run effect shape runs =>
      rw [runs]
      exact sound_ran before shape obeys
    | commit => cases live
    | rollback => cases live
    | abort => cases live
  · intro config i j tx mover result _ permitted elsewhere found moves shape sound _ live
    have apart := separately_commit (Bool.and_eq_true_iff.mp permitted).1 elsewhere found moves shape
    exact sound_apart (sound live) live apart

/-- What a call that commits was told, and what it leaves. -/
theorem commit_displaces {i : Nat} {result : Result}
    (reached : (replacings scope banner first (inTurn first)).machine.Reachable config)
    (found : config.transactions[i]? = some tx) (shape : tx.phase = .ready (.done (.commit result))) :
    result = .replaced (slotOf scope banner config.committed) ∧
      slotOf scope banner (tx.pending config.committed) = tx.request.key := by
  have obeys := replacings_obey reached i tx found
  rw [Transaction.Obeys, shape] at obeys
  obtain ⟨previous, rfl, member⟩ := obeys
  have live : tx.live = true := by rw [Transaction.live, shape]
  obtain ⟨same, leaves⟩ := (calls_sound reached i tx found live).told _ _ member
  exact ⟨by rw [same], leaves _⟩

end Runs

/- Where every stored key has gone. -/

/-- The key that an ended call has stored. -/
def stored (tx : Replacing) : Option Text :=
  match tx.phase with
  | .committed _ => tx.request.key
  | _ => none

/-- The slot has had the key. -/
def Stored (first : Option Text) (config : Replacings) (key : Text) : Prop :=
  first = some key ∨ ∃ (i : Nat) (tx : Replacing), config.transactions[i]? = some tx ∧ stored tx = some key

/-- No two of the calls give the same key. -/
def Sole (gives : Replacing → Option Text) (calls : List Replacing) : Prop :=
  ∀ (i j : Nat) left right, calls[i]? = some left → calls[j]? = some right → i ≠ j →
    ∀ key, gives left = some key → gives right ≠ some key

/-- A key that has left the slot was handed to one call, and one that is there to none. -/
structure Accounted (scope : CompanyId) (banner : Bool) (first : Option Text) (config : Replacings) : Prop where
  named : ∀ (i : Nat) tx, config.transactions[i]? = some tx → ∀ key, tx.request.key = some key → first ≠ some key
  apart : Sole standing config.transactions
  held : ∀ key, slotOf scope banner config.committed = some key → Stored first config key
  gone : ∀ (i : Nat) tx, config.transactions[i]? = some tx → ∀ key, returned tx = some key →
    Stored first config key ∧ slotOf scope banner config.committed ≠ some key ∧ tx.request.key ≠ some key
  some_call : ∀ key, Stored first config key → slotOf scope banner config.committed ≠ some key →
    ∃ (i : Nat) (tx : Replacing), config.transactions[i]? = some tx ∧ returned tx = some key
  one_call : Sole returned config.transactions

section Alone
variable {gives : Replacing → Option Text} {calls : List Replacing} {i : Nat} {tx later new : Replacing}

theorem sole_append (sole : Sole gives calls)
    (fresh : ∀ key, gives new = some key → ∀ (i : Nat) tx, calls[i]? = some tx → gives tx ≠ some key) :
    Sole gives (calls ++ [new]) := by
  intro i j left right foundLeft foundRight distinct key mine other
  rcases getElem?_append_cases foundLeft with earlier | rfl
  · rcases getElem?_append_cases foundRight with also | rfl
    · exact sole i j left right earlier also distinct key mine other
    · exact fresh key other i left earlier mine
  · by_cases last : j < calls.length
    · rw [List.getElem?_append_left last] at foundRight
      exact fresh key mine j right foundRight other
    · have before : i < calls.length := by
        have := (List.getElem?_eq_some_iff.mp foundLeft).1
        have := (List.getElem?_eq_some_iff.mp foundRight).1
        rw [List.length_append, List.length_singleton] at *
        omega
      rw [List.getElem?_append_left before] at foundLeft
      exact fresh key mine i left foundLeft mine

theorem sole_set (sole : Sole gives calls) (found : calls[i]? = some tx)
    (keeps : ∀ key, gives later = some key →
      gives tx = some key ∨ ∀ (j : Nat) other, calls[j]? = some other → gives other ≠ some key) :
    Sole gives (calls.set i later) := by
  have alone : ∀ (j : Nat) other, calls[j]? = some other → j ≠ i → ∀ key, gives later = some key →
      gives other ≠ some key := by
    intro j other there elsewhere key mine
    rcases keeps key mine with before | nobody
    · exact sole i j tx other found there elsewhere.symm key before
    · exact nobody j other there
  intro j k left right foundLeft foundRight distinct key mine other
  rcases getElem?_set_cases found foundLeft with ⟨rfl, rfl⟩ | ⟨elsewhere, earlier⟩
  · rcases getElem?_set_cases found foundRight with ⟨rfl, rfl⟩ | ⟨apart, also⟩
    · exact distinct rfl
    · exact alone k right also apart key mine other
  · rcases getElem?_set_cases found foundRight with ⟨rfl, rfl⟩ | ⟨-, also⟩
    · exact alone j left earlier elsewhere key other mine
    · exact sole j k left right earlier also distinct key mine other

end Alone

section Calls
variable {tx later : Replacing} {key : Text}

theorem standing_key (stands : standing tx = some key) : tx.request.key = some key := by
  rw [standing] at stands
  split at stands
  · cases stands
  · cases stands
  · cases stands
  · exact stands

theorem standing_live (live : tx.live = true) : standing tx = tx.request.key := by
  rw [standing]
  split
  · next shape => simp [Transaction.live, shape] at live
  · next shape => simp [Transaction.live, shape] at live
  · next shape => simp [Transaction.live, shape] at live
  · rfl

theorem standing_stored (has : stored tx = some key) : standing tx = some key := by
  rw [stored] at has
  split at has
  · next shape => rw [standing, shape, ← has]
  · cases has

theorem live_silent (live : tx.live = true) : returned tx = none ∧ stored tx = none := by
  rw [returned, stored]
  constructor
  · split
    · next shape => simp [Transaction.live, shape] at live
    · rfl
  · split
    · next shape => simp [Transaction.live, shape] at live
    · rfl

/-- What a call removes it was told to have displaced, or is its own and was never stored. -/
theorem discarded_cases (removed : discarded tx = some key) :
    returned tx = some key ∨ (standing tx = some key ∧ stored tx = none) := by
  rw [discarded] at removed
  split at removed
  · next previous shape =>
    refine .inl ?_
    rw [returned, shape]
    exact Option.eq_some_of_filter_eq_some removed
  · next shape =>
    refine .inr ?_
    rw [standing, stored, shape]
    exact ⟨removed, rfl⟩
  · cases removed

theorem discards (told : returned tx = some key) (other : tx.request.key ≠ some key) (named : key ≠ []) :
    discarded tx = some key := by
  rw [returned] at told
  split at told
  · next previous shape =>
    have distinct : key ≠ tx.request.key.getD [] := by
      intro same
      cases own : tx.request.key with
      | none =>
        rw [own] at same
        exact named same
      | some new =>
        rw [own] at same other
        exact other (by rw [same]; rfl)
    rw [discarded, shape, told]
    simp [sweep, named, distinct]
  · cases told

end Calls

section Accounts
variable {scope : CompanyId} {banner : Bool} {first : Option Text} {config : Replacings} {i : Nat} {tx later : Replacing}
    {serial : Int} {committed : Branded} {key : Text}

theorem spoken_elsewhere {j : Nat} {other : Replacing} (found : config.transactions[i]? = some tx) (live : tx.live = true)
    (there : config.transactions[j]? = some other) (spoken : returned other = some key ∨ stored other = some key) :
    i ≠ j := by
  rintro rfl
  rw [found] at there
  cases there
  rw [(live_silent live).1, (live_silent live).2] at spoken
  rcases spoken with none | none
  · cases none
  · cases none

theorem stored_step (found : config.transactions[i]? = some tx) (live : tx.live = true) :
    Stored first ⟨committed, serial, config.transactions.set i later⟩ key ↔
      Stored first config key ∨ stored later = some key := by
  have within : i < config.transactions.length := (List.getElem?_eq_some_iff.mp found).1
  constructor
  · rintro (there | ⟨j, other, there, has⟩)
    · exact .inl (.inl there)
    · rcases getElem?_set_cases found there with ⟨rfl, rfl⟩ | ⟨-, earlier⟩
      · exact .inr has
      · exact .inl (.inr ⟨j, other, earlier, has⟩)
  · rintro ((there | ⟨j, other, there, has⟩) | has)
    · exact .inl there
    · have elsewhere := spoken_elsewhere found live there (.inr has)
      exact .inr ⟨j, other, (List.getElem?_set_ne elsewhere).trans there, has⟩
    · exact .inr ⟨i, later, List.getElem?_set_self within, has⟩

theorem stored_opened {opened : Replacing} (fresh : stored opened = none) :
    Stored first { config with transactions := config.transactions ++ [opened] } key ↔ Stored first config key := by
  constructor
  · rintro (there | ⟨j, other, there, has⟩)
    · exact .inl there
    · rcases getElem?_append_cases there with earlier | rfl
      · exact .inr ⟨j, other, earlier, has⟩
      · rw [fresh] at has
        cases has
  · rintro (there | ⟨j, other, there, has⟩)
    · exact .inl there
    · have within : j < config.transactions.length := (List.getElem?_eq_some_iff.mp there).1
      exact .inr ⟨j, other, (List.getElem?_append_left within).trans there, has⟩

/-- The key of a call that goes on has never been in the slot. -/
theorem unstored (accounted : Accounted scope banner first config) (found : config.transactions[i]? = some tx)
    (live : tx.live = true) (own : tx.request.key = some key) : ¬ Stored first config key := by
  rintro (there | ⟨j, other, there, has⟩)
  · exact accounted.named i tx found key own there
  · have elsewhere := spoken_elsewhere found live there (.inr has)
    exact accounted.apart i j tx other found there elsewhere key ((standing_live live).trans own) (standing_stored has)

theorem accounted_opened {request : Request} (accounted : Accounted scope banner first config)
    (own : ownKey first config (.begin request) = true) :
    Accounted scope banner first { config with
      transactions := config.transactions ++ [(replacings scope banner first (inTurn first)).opened request] } := by
  have fresh : ∀ key, request.key = some key → first ≠ some key ∧ ∀ (i : Nat) tx, config.transactions[i]? = some tx →
      standing tx ≠ some key := by
    intro key is
    rw [ownKey, is, Option.all_some, Bool.and_eq_true] at own
    exact ⟨of_decide_eq_true own.1, fun i tx there =>
      of_decide_eq_true (List.all_eq_true.mp own.2 tx (List.mem_of_getElem? there))⟩
  refine ⟨?_, ?_, ?_, ?_, ?_, ?_⟩
  · intro i tx there key is
    rcases getElem?_append_cases there with earlier | rfl
    · exact accounted.named i tx earlier key is
    · exact (fresh key is).1
  · exact sole_append accounted.apart fun key is => (fresh key is).2
  · exact fun key there => (stored_opened rfl).mpr (accounted.held key there)
  · intro i tx there key told
    rcases getElem?_append_cases there with earlier | rfl
    · obtain ⟨had, rest⟩ := accounted.gone i tx earlier key told
      exact ⟨(stored_opened rfl).mpr had, rest⟩
    · cases told
  · intro key had left
    obtain ⟨i, tx, there, told⟩ := accounted.some_call key ((stored_opened rfl).mp had) left
    exact ⟨i, tx, (List.getElem?_append_left (List.getElem?_eq_some_iff.mp there).1).trans there, told⟩
  · exact sole_append accounted.one_call fun key told => (by cases told)

/-- A call that does not commit changes nothing of what is accounted for. -/
theorem accounted_quiet (accounted : Accounted scope banner first config) (found : config.transactions[i]? = some tx)
    (live : tx.live = true) (request : later.request = tx.request) (silent : returned later = none ∧ stored later = none) :
    Accounted scope banner first ⟨config.committed, serial, config.transactions.set i later⟩ := by
  have had : ∀ key, Stored first ⟨config.committed, serial, config.transactions.set i later⟩ key ↔
      Stored first config key := by
    intro key
    rw [stored_step found live, silent.2]
    simp
  have stands : ∀ key, standing later = some key → standing tx = some key := by
    intro key standing
    rw [standing_live live, ← request]
    exact standing_key standing
  refine ⟨?_, ?_, ?_, ?_, ?_, ?_⟩
  · intro j other there key is
    rcases getElem?_set_cases found there with ⟨rfl, rfl⟩ | ⟨-, earlier⟩
    · exact accounted.named j tx found key (request ▸ is)
    · exact accounted.named j other earlier key is
  · exact sole_set accounted.apart found fun key mine => .inl (stands key mine)
  · exact fun key there => (had key).mpr (accounted.held key there)
  · intro j other there key told
    rcases getElem?_set_cases found there with ⟨rfl, rfl⟩ | ⟨-, earlier⟩
    · rw [silent.1] at told
      cases told
    · obtain ⟨before, rest⟩ := accounted.gone j other earlier key told
      exact ⟨(had key).mpr before, rest⟩
  · intro key before left
    obtain ⟨j, other, there, told⟩ := accounted.some_call key ((had key).mp before) left
    have elsewhere := spoken_elsewhere found live there (.inl told)
    exact ⟨j, other, (List.getElem?_set_ne elsewhere).trans there, told⟩
  · refine sole_set accounted.one_call found fun key told => ?_
    rw [silent.1] at told
    cases told

/-- A call that commits hands over what was in the slot, and leaves its own key there. -/
theorem accounted_commit (accounted : Accounted scope banner first config) (found : config.transactions[i]? = some tx)
    (live : tx.live = true) (leaves : slotOf scope banner committed = tx.request.key) :
    Accounted scope banner first ⟨committed, serial, config.transactions.set i
      (tx.close (.committed (.replaced (slotOf scope banner config.committed))))⟩ := by
  have within : i < config.transactions.length := (List.getElem?_eq_some_iff.mp found).1
  have had : ∀ key, Stored first ⟨committed, serial, config.transactions.set i
      (tx.close (.committed (.replaced (slotOf scope banner config.committed))))⟩ key ↔
      Stored first config key ∨ tx.request.key = some key := fun key => stored_step found live
  have new : ∀ key, tx.request.key = some key → ¬ Stored first config key := fun key own =>
    unstored accounted found live own
  refine ⟨?_, ?_, ?_, ?_, ?_, ?_⟩
  · intro j other there key is
    rcases getElem?_set_cases found there with ⟨rfl, rfl⟩ | ⟨-, earlier⟩
    · exact accounted.named j tx found key is
    · exact accounted.named j other earlier key is
  · exact sole_set accounted.apart found fun key mine => .inl ((standing_live live).trans mine)
  · intro key there
    rw [leaves] at there
    exact (had key).mpr (.inr there)
  · intro j other there key told
    rw [leaves]
    rcases getElem?_set_cases found there with ⟨rfl, rfl⟩ | ⟨-, earlier⟩
    · have before := accounted.held key told
      exact ⟨(had key).mpr (.inl before), fun own => new key own before, fun own => new key own before⟩
    · obtain ⟨before, -, other⟩ := accounted.gone j other earlier key told
      exact ⟨(had key).mpr (.inl before), fun own => new key own before, other⟩
  · intro key stored left
    rw [leaves] at left
    have before := ((had key).mp stored).resolve_right left
    by_cases there : slotOf scope banner config.committed = some key
    · exact ⟨i, _, List.getElem?_set_self within, there⟩
    · obtain ⟨j, other, earlier, told⟩ := accounted.some_call key before there
      have elsewhere := spoken_elsewhere found live earlier (.inl told)
      exact ⟨j, other, (List.getElem?_set_ne elsewhere).trans earlier, told⟩
  · exact sole_set accounted.one_call found fun key told =>
      .inr fun j other there again => (accounted.gone j other there key again).2.1 told

theorem accounted_runs (reached : (replacings scope banner first (inTurn first)).machine.Reachable config) :
    Accounted scope banner first config := by
  apply Reachable.induction (Accounted scope banner first) reached
  · intro start ⟨initial, idle⟩
    have nobody : ∀ (i : Nat) tx, start.transactions[i]? ≠ some tx := by simp [idle]
    refine ⟨fun i tx there => absurd there (nobody i tx), fun i j left right there => absurd there (nobody i left),
      fun key there => .inl (initial.symm.trans there), fun i tx there => absurd there (nobody i tx), ?_,
      fun i j left right there => absurd there (nobody i left)⟩
    rintro key (there | ⟨i, tx, there, -⟩) left
    · exact absurd (initial.trans there) left
    · exact absurd there (nobody i tx)
  · intro before after label visited accounted permitted step
    rcases step_cases step with ⟨request, rfl, rfl⟩ | ⟨i, tx, committed, serial, later, found, acts, rfl⟩
    · have own : inTurn first before (.begin request) = true := permitted
      exact accounted_opened accounted (Bool.and_eq_true_iff.mp own).2
    · have live := acts.live
      cases acts with
      | start shape => exact accounted_quiet accounted found live rfl ⟨rfl, rfl⟩
      | run effect shape runs => exact accounted_quiet accounted found live rfl ⟨rfl, rfl⟩
      | commit shape =>
        obtain ⟨rfl, leaves⟩ := commit_displaces visited found shape
        exact accounted_commit accounted found live leaves
      | rollback shape => exact accounted_quiet accounted found live rfl ⟨rfl, rfl⟩
      | abort => exact accounted_quiet accounted found live rfl ⟨rfl, rfl⟩

/-- In a run in turn, what leaves the slot is discarded by the one call that was handed it, and what is there by none. -/
theorem displaced_once (reached : (replacings scope banner first (inTurn first)).machine.Reachable config) :
    (∀ key, Stored first config key → slotOf scope banner config.committed ≠ some key →
      ∃ (i : Nat) (tx : Replacing), config.transactions[i]? = some tx ∧ returned tx = some key ∧
        (key ≠ [] → discarded tx = some key) ∧
        ∀ (j : Nat) other, config.transactions[j]? = some other → j ≠ i →
          returned other ≠ some key ∧ discarded other ≠ some key) ∧
    ∀ key, slotOf scope banner config.committed = some key → ∀ (j : Nat) other, config.transactions[j]? = some other →
      returned other ≠ some key ∧ discarded other ≠ some key := by
  have accounted := accounted_runs reached
  have removes : ∀ (j : Nat) other key, config.transactions[j]? = some other → Stored first config key →
      discarded other = some key → returned other = some key := by
    intro j other key there had removed
    rcases discarded_cases removed with told | ⟨stands, unsaid⟩
    · exact told
    · rcases had with initially | ⟨k, owner, found, has⟩
      · exact absurd initially (accounted.named j other there key (standing_key stands))
      · by_cases same : j = k
        · subst same
          rw [found] at there
          cases there
          rw [unsaid] at has
          cases has
        · exact absurd (standing_stored has) (accounted.apart j k other owner there found same key stands)
  constructor
  · intro key had left
    obtain ⟨i, tx, there, told⟩ := accounted.some_call key had left
    refine ⟨i, tx, there, told, discards told (accounted.gone i tx there key told).2.2, fun j other found elsewhere => ?_⟩
    have silent := accounted.one_call i j tx other there found elsewhere.symm key told
    exact ⟨silent, fun removed => silent (removes j other key found had removed)⟩
  · intro key there j other found
    have silent : returned other ≠ some key := fun told => (accounted.gone j other found key told).2.1 there
    exact ⟨silent, fun removed => silent (removes j other key found (accounted.held key there) removed)⟩

end Accounts

/- Two calls of one company. -/

def logoA : Branded := (setBrandingImage Table.empty 1 0 false (some (text "a.png"))).2

theorem logoA_first : slotOf 1 false logoA = some (text "a.png") := by decide +kernel

def fine : Env := ⟨.accepted, none, 1⟩

def config₀ : Replacings := ⟨logoA, 1, []⟩

/-- One call after the other. -/
def oneByOne : List (Label Request Env) :=
  [.begin (.confirm (text "b.png")), .begin (.confirm (text "c.png")), .start 0, .run 0 fine, .start 1, .run 1 fine,
    .start 0, .run 0 fine, .finish 0, .start 1, .run 1 fine, .finish 1]

/-- Both upserts start before either call commits. -/
def bothAtOnce : List (Label Request Env) :=
  [.begin (.confirm (text "b.png")), .begin (.confirm (text "c.png")), .start 0, .run 0 fine, .start 1, .run 1 fine,
    .start 0, .start 1, .run 0 fine, .finish 0, .run 1 fine, .finish 1]

theorem displaced_one_by_one :
    (∃ config, (replacings 1 false (some (text "a.png")) (inTurn (some (text "a.png")))).machine.execute config₀ oneByOne =
        some config ∧ slotOf 1 false config.committed = some (text "c.png") ∧
      config.transactions.map discarded = [some (text "a.png"), some (text "b.png")]) ∧
    ∀ config, (replacings 1 false (some (text "a.png")) (inTurn (some (text "a.png")))).machine.execute config₀ oneByOne =
        some config →
      (∀ key, Stored (some (text "a.png")) config key → slotOf 1 false config.committed ≠ some key →
        ∃ (i : Nat) (tx : Replacing), config.transactions[i]? = some tx ∧ returned tx = some key ∧
          (key ≠ [] → discarded tx = some key) ∧
          ∀ (j : Nat) other, config.transactions[j]? = some other → j ≠ i →
            returned other ≠ some key ∧ discarded other ≠ some key) ∧
      ∀ key, slotOf 1 false config.committed = some key → ∀ (j : Nat) other, config.transactions[j]? = some other →
        returned other ≠ some key ∧ discarded other ≠ some key := by
  have start : (replacings 1 false (some (text "a.png")) (inTurn (some (text "a.png")))).machine.initial config₀ :=
    ⟨logoA_first, rfl⟩
  exact ⟨⟨_, rfl, by decide +kernel, by decide +kernel⟩, fun config ran => displaced_once (execute_reachable start ran)⟩

/-- Both are told that they displaced the first image; the second image is gone from the slot, and nobody removes it. -/
theorem displaced_at_once : ∃ config, (replacings 1 false (some (text "a.png")) fun _ _ => true).machine.Reachable config ∧
    (∀ tx ∈ config.transactions, tx.live = false) ∧ Stored (some (text "a.png")) config (text "b.png") ∧
    slotOf 1 false config.committed = some (text "c.png") ∧
    config.transactions.map returned = [some (text "a.png"), some (text "a.png")] ∧
    config.transactions.map discarded = [some (text "a.png"), some (text "a.png")] := by
  have start : (replacings 1 false (some (text "a.png")) fun _ _ => true).machine.initial config₀ := ⟨logoA_first, rfl⟩
  have run : ∃ config, (replacings 1 false (some (text "a.png")) fun _ _ => true).machine.execute config₀ bothAtOnce =
      some config ∧ (∀ tx ∈ config.transactions, tx.live = false) ∧
      (config.transactions[0]?.bind stored) = some (text "b.png") ∧
      slotOf 1 false config.committed = some (text "c.png") ∧
      config.transactions.map returned = [some (text "a.png"), some (text "a.png")] ∧
      config.transactions.map discarded = [some (text "a.png"), some (text "a.png")] :=
    ⟨_, rfl, by decide +kernel, by decide +kernel, by decide +kernel, by decide +kernel, by decide +kernel⟩
  obtain ⟨config, ran, ended, kept, slot, told, removed⟩ := run
  obtain ⟨tx, found, has⟩ := Option.bind_eq_some_iff.mp kept
  exact ⟨config, execute_reachable start ran, ended, .inr ⟨0, tx, found, has⟩, slot, told, removed⟩

end DisplacedImages
