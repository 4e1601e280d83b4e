import PmKonstruct.Domain.Errors
import PmKonstruct.Library.ExpiringMap
import PmKonstruct.Library.TransitionRuns

/- How often a user may ask for the weather. The windows of the users are in one map behind a lock; a call reads the
   monotonic clock several times while it holds it. Instants are nanoseconds. -/
namespace RateLimit
open DomainErrors ExpiringMap TransitionRuns

def rateLimit : Nat := 10

def rateWindow : Nat := 60 * 1000000000

def rateMapMax : Nat := 10000

structure Window where
  count : Nat
  started : Nat
  deriving DecidableEq, Repr

abbrev Limits := Entries UserId Window

/-- A call, with the clock as it reads it and the entry it removes where it has to remove one that is still fresh. -/
structure Call where
  user : UserId
  victim : UserId
  purged : UserId → Nat
  inserted : Nat
  checked : Nat
  reopened : Nat

section Limiter
variable (call : Call) (limits : Limits)

def running (user : UserId) (window : Window) : Bool := call.purged user - window.started < rateWindow

def roomy : Limits := makeRoom rateMapMax (running call) call.victim limits

/-- The window of the caller, opened now if there is none and reopened if it is over. -/
def currentWindow : Window :=
  let window := ((roomy call limits).lookup call.user).getD ⟨0, call.inserted⟩
  if call.checked - window.started ≥ rateWindow then ⟨0, call.reopened⟩ else window

def checkRate : Except AppError Unit × Limits :=
  let window := currentWindow call limits
  if window.count ≥ rateLimit then
    (.error (.tooManyRequests "Too many weather requests. Please wait before trying again."),
      (roomy call limits).insert call.user window)
  else (.ok (), (roomy call limits).insert call.user ⟨window.count + 1, window.started⟩)

/-- `min_by_key`, where every entry is fresh. -/
def evicts : Bool := full rateMapMax (running call) limits

def wellChosen : Bool := !evicts call limits || isStalest Window.started (retain (running call) limits) call.victim

end Limiter

/- Runs. What was let through is kept beside the map, with the window it was counted in. -/

structure Admission where
  user : UserId
  started : Nat
  time : Nat
  deriving DecidableEq, Repr

structure State where
  limits : Limits
  clock : Nat
  admitted : List Admission

/-- The clock does not go back, neither between calls nor within one. -/
def inTime (s : State) (call : Call) : Bool :=
  s.clock ≤ call.inserted && call.inserted ≤ call.checked && call.checked ≤ call.reopened &&
    s.limits.entries.all fun entry => s.clock ≤ call.purged entry.1 && call.purged entry.1 ≤ call.inserted

def admission (s : State) (call : Call) : Admission :=
  let started := (currentWindow call s.limits).started
  ⟨call.user, started, max call.checked started⟩

def serve (s : State) (call : Call) : State :=
  match checkRate call s.limits with
  | (.ok _, limits) => ⟨limits, call.reopened, admission s call :: s.admitted⟩
  | (.error _, limits) => ⟨limits, call.reopened, s.admitted⟩

def limiter : Machine State Call where
  initial s := s.limits = ∅ ∧ s.admitted = []
  step s call := some (serve s call)
  allowed s call := inTime s call && wellChosen call s.limits

section Admissions
variable (log : List Admission) (user : UserId)

def countIn (started : Nat) : Nat := log.countP fun a => a.user = user && a.started = started

/-- Calls of a user that were let through from an instant on, for the length of a window. -/
def countFrom (t : Nat) : Nat := log.countP fun a => a.user = user && t ≤ a.time && a.time < t + rateWindow

/-- Calls of a user that were let through less than a window before an instant. -/
def countBefore (t : Nat) : Nat := log.countP fun a => a.user = user && t < a.time + rateWindow

end Admissions

section Steps
variable {s t : State} {call : Call} {user : UserId} {window : Window}

theorem allowed_iff : limiter.allowed s call = true ↔ inTime s call = true ∧ wellChosen call s.limits = true :=
  Bool.and_eq_true_iff

theorem inTime_iff : inTime s call = true ↔ s.clock ≤ call.inserted ∧ call.inserted ≤ call.checked ∧
    call.checked ≤ call.reopened ∧ ∀ user window, s.limits.lookup user = some window →
      s.clock ≤ call.purged user ∧ call.purged user ≤ call.inserted := by
  simp only [inTime, Bool.and_eq_true, decide_eq_true_eq, List.all_eq_true, and_assoc, Sigma.forall, lookup_eq_some_iff]

theorem roomy_size (bounded : size s.limits ≤ rateMapMax) (chosen : wellChosen call s.limits = true) :
    size (roomy call s.limits) < rateMapMax := by
  apply size_makeRoom bounded
  intro whole
  simpa [wellChosen, evicts, whole] using chosen

theorem serve_cases :
    (rateLimit ≤ (currentWindow call s.limits).count ∧ (checkRate call s.limits).1.isOk = false ∧
      serve s call = ⟨(roomy call s.limits).insert call.user (currentWindow call s.limits), call.reopened, s.admitted⟩) ∨
    ((currentWindow call s.limits).count < rateLimit ∧ (checkRate call s.limits).1.isOk = true ∧
      serve s call = ⟨(roomy call s.limits).insert call.user
        ⟨(currentWindow call s.limits).count + 1, (currentWindow call s.limits).started⟩, call.reopened,
        admission s call :: s.admitted⟩) := by
  by_cases reached : (currentWindow call s.limits).count ≥ rateLimit
  · refine .inl ⟨reached, ?_⟩
    simp only [serve, checkRate, if_pos reached]
    exact ⟨rfl, trivial⟩
  · refine .inr ⟨Nat.lt_of_not_le reached, ?_⟩
    simp only [serve, checkRate, if_neg reached]
    exact ⟨rfl, trivial⟩

theorem currentWindow_running (ordered : call.checked ≤ call.reopened) :
    call.checked < (currentWindow call s.limits).started + rateWindow := by
  have positive : 0 < rateWindow := by decide
  unfold currentWindow
  simp only
  split
  · exact Nat.lt_of_le_of_lt ordered (Nat.lt_add_of_pos_right positive)
  · omega

/-- The caller goes on with a window, or starts one when the last is over. -/
theorem currentWindow_cases (ordered : call.inserted ≤ call.checked ∧ call.checked ≤ call.reopened) :
    (roomy call s.limits).lookup call.user = some (currentWindow call s.limits) ∨
    ((currentWindow call s.limits).count = 0 ∧ call.inserted ≤ (currentWindow call s.limits).started ∧
      (currentWindow call s.limits).started ≤ call.reopened ∧ ∀ w, (roomy call s.limits).lookup call.user = some w →
        w.started + rateWindow ≤ (currentWindow call s.limits).started) := by
  have positive : 0 < rateWindow := by decide
  unfold currentWindow
  cases found : (roomy call s.limits).lookup call.user with
  | none =>
    refine .inr ?_
    simp only [Option.getD_none]
    split <;> simp <;> omega
  | some w =>
    simp only [Option.getD_some, Option.some.injEq]
    split
    · next past =>
      refine .inr ⟨rfl, ?_⟩
      simp only [forall_eq']
      omega
    · exact .inl rfl

/-- What holds whatever is evicted: no window counts more than was let through in it. -/
structure Sound (s : State) : Prop where
  bounded : size s.limits ≤ rateMapMax
  windows : ∀ user window, s.limits.lookup user = some window →
    window.count ≤ rateLimit ∧ window.count ≤ countIn s.admitted user window.started
  times : ∀ a ∈ s.admitted, a.started ≤ a.time ∧ a.time < a.started + rateWindow

theorem countIn_cons {log : List Admission} {a : Admission} {started : Nat} :
    countIn (a :: log) user started = countIn log user started + if a.user = user ∧ a.started = started then 1 else 0 := by
  simp [countIn, List.countP_cons]

theorem lookup_after {w : Window} {m : Limits} (found : (m.insert call.user w).lookup user = some window) :
    user = call.user ∧ window = w ∨ user ≠ call.user ∧ m.lookup user = some window := by
  by_cases same : user = call.user
  · subst same
    rw [AList.lookup_insert] at found
    exact .inl ⟨rfl, (Option.some.inj found).symm⟩
  · rw [AList.lookup_insert_ne same] at found
    exact .inr ⟨same, found⟩

theorem lookup_roomy (found : (roomy call s.limits).lookup user = some window) : s.limits.lookup user = some window :=
  lookup_makeRoom found

/-- The window of the caller keeps what holds of it in the map. -/
theorem currentWindow_counts (sound : Sound s) (ordered : call.inserted ≤ call.checked ∧ call.checked ≤ call.reopened) :
    (currentWindow call s.limits).count ≤ rateLimit ∧
      (currentWindow call s.limits).count ≤ countIn s.admitted call.user (currentWindow call s.limits).started := by
  rcases currentWindow_cases ordered with found | ⟨none, -⟩
  · exact sound.windows _ _ (lookup_roomy found)
  · omega

theorem admission_within (ordered : call.checked ≤ call.reopened) :
    (admission s call).started ≤ (admission s call).time ∧
      (admission s call).time < (admission s call).started + rateWindow := by
  have positive : 0 < rateWindow := by decide
  have running := currentWindow_running (s := s) ordered
  simp only [admission]
  omega

theorem sound_serve (sound : Sound s) (intime : inTime s call = true) (chosen : wellChosen call s.limits = true) :
    Sound (serve s call) := by
  obtain ⟨-, inserted, checked, -⟩ := inTime_iff.mp intime
  have room := roomy_size sound.bounded chosen
  obtain ⟨most, counted⟩ := currentWindow_counts sound ⟨inserted, checked⟩
  rcases @serve_cases s call with ⟨-, -, same⟩ | ⟨below, -, same⟩
  · rw [same]
    refine ⟨Nat.le_trans size_insert_le room, ?_, sound.times⟩
    intro user window found
    rcases lookup_after found with ⟨rfl, rfl⟩ | ⟨-, kept⟩
    · exact ⟨most, counted⟩
    · exact sound.windows user window (lookup_roomy kept)
  · rw [same]
    refine ⟨Nat.le_trans size_insert_le room, ?_, ?_⟩
    · intro user window found
      simp only [countIn_cons]
      rcases lookup_after found with ⟨rfl, rfl⟩ | ⟨-, kept⟩
      · rw [if_pos ⟨rfl, rfl⟩]
        exact ⟨below, Nat.succ_le_succ counted⟩
      · obtain ⟨few, before⟩ := sound.windows user window (lookup_roomy kept)
        exact ⟨few, Nat.le_trans before (Nat.le_add_right _ _)⟩
    · intro a member
      rcases List.mem_cons.mp member with rfl | earlier
      · exact admission_within checked
      · exact sound.times a earlier

theorem sound_initial (start : limiter.initial s) : Sound s := by
  obtain ⟨none, quiet⟩ := start
  refine ⟨?_, ?_, ?_⟩
  · rw [none]
    decide
  · intro user window found
    rw [none, AList.lookup_empty] at found
    cases found
  · intro a member
    rw [quiet] at member
    cases member

theorem reachable_sound (reached : limiter.Reachable s) : Sound s := by
  apply Reachable.invariant Sound reached fun _ => sound_initial
  intro s t call sound allowed step
  obtain ⟨intime, chosen⟩ := allowed_iff.mp allowed
  cases step
  exact sound_serve sound intime chosen

/-- The window of another user stays as it is, unless the map is full and it is over, or none is and it is the stalest. -/
theorem lookup_serve (bounded : size s.limits ≤ rateMapMax) (chosen : wellChosen call s.limits = true)
    (apart : user ≠ call.user) : (serve s call).limits.lookup user = s.limits.lookup user ∨
      (serve s call).limits.lookup user = none ∧ size s.limits = rateMapMax ∧
        ∃ window, s.limits.lookup user = some window ∧ (window.started + rateWindow ≤ call.purged user ∨
          ∀ other theirs, s.limits.lookup other = some theirs →
            call.purged other < theirs.started + rateWindow ∧ window.started ≤ theirs.started) := by
  have made : (serve s call).limits.lookup user = (roomy call s.limits).lookup user := by
    rcases @serve_cases s call with ⟨-, -, same⟩ | ⟨-, -, same⟩ <;> rw [same] <;> exact AList.lookup_insert_ne apart
  rw [made]
  cases left : (roomy call s.limits).lookup user with
  | some window => exact .inl (lookup_roomy left).symm
  | none =>
    cases found : s.limits.lookup user with
    | none => exact .inl rfl
    | some window =>
      obtain ⟨noRoom, lost⟩ := lookup_makeRoom_lost found left
      refine .inr ⟨rfl, Nat.le_antisymm bounded noRoom, window, rfl, ?_⟩
      rcases lost with stale | ⟨whole, rfl⟩
      · have positive : 0 < rateWindow := by decide
        simp only [running, decide_eq_false_iff_not] at stale
        omega
      · refine .inr fun other theirs there => ?_
        have still := full_fresh bounded whole there
        have stalest : isStalest Window.started (retain (running call) s.limits) call.victim = true := by
          simpa [wellChosen, evicts, whole] using chosen
        refine ⟨?_, isStalest_oldest stalest found there still⟩
        simp only [running, decide_eq_true_eq] at still
        omega

/-- The map stays within its bound. A caller is turned away only after ten calls within the last minute, and only a full map
    loses windows of others: those that are over, or the stalest one where none is. -/
theorem refused_after_ten (reached : limiter.Reachable s) (allowed : limiter.allowed s call = true) :
    size (serve s call).limits ≤ rateMapMax ∧
    ((checkRate call s.limits).1.isOk = false → rateLimit ≤ countBefore s.admitted call.user call.checked) ∧
    ∀ user, user ≠ call.user → (serve s call).limits.lookup user = s.limits.lookup user ∨
      (serve s call).limits.lookup user = none ∧ size s.limits = rateMapMax ∧
        ∃ window, s.limits.lookup user = some window ∧ (window.started + rateWindow ≤ call.purged user ∨
          ∀ other theirs, s.limits.lookup other = some theirs →
            call.purged other < theirs.started + rateWindow ∧ window.started ≤ theirs.started) := by
  have sound := reachable_sound reached
  obtain ⟨intime, chosen⟩ := allowed_iff.mp allowed
  obtain ⟨-, inserted, checked, -⟩ := inTime_iff.mp intime
  refine ⟨(sound_serve sound intime chosen).bounded, ?_, fun user => lookup_serve sound.bounded chosen⟩
  intro refused
  rcases @serve_cases s call with ⟨full, -, -⟩ | ⟨-, served, -⟩
  · have running := currentWindow_running (s := s) checked
    calc rateLimit ≤ (currentWindow call s.limits).count := full
      _ ≤ countIn s.admitted call.user (currentWindow call s.limits).started :=
        (currentWindow_counts sound ⟨inserted, checked⟩).2
      _ ≤ countBefore s.admitted call.user call.checked := by
        apply List.countP_mono_left
        intro a member same
        simp only [Bool.and_eq_true, decide_eq_true_eq] at same ⊢
        have := (sound.times a member).1
        exact ⟨same.1, by omega⟩
  · rw [served] at refused
    cases refused

/- Without an eviction of fresh windows, what a user gets is bounded on every interval of the length of a window. -/

def untroubled : Machine State Call := limiter.restrict fun s call => !evicts call s.limits

/-- The windows of a user that were ever opened are apart, and the open one is the last. -/
structure Spaced (s : State) : Prop where
  sound : Sound s
  current : ∀ user window, s.limits.lookup user = some window → countIn s.admitted user window.started = window.count ∧
    ∀ a ∈ s.admitted, a.user = user → a.started = window.started ∨ a.started + rateWindow ≤ window.started
  past : ∀ user, s.limits.lookup user = none → ∀ a ∈ s.admitted, a.user = user → a.started + rateWindow ≤ s.clock
  few : ∀ user started, countIn s.admitted user started ≤ rateLimit
  apart : ∀ a ∈ s.admitted, ∀ b ∈ s.admitted, a.user = b.user →
    a.started = b.started ∨ a.started + rateWindow ≤ b.started ∨ b.started + rateWindow ≤ a.started

/-- What is dropped to make room is over. -/
theorem roomy_dropped (spared : evicts call s.limits = false) (found : s.limits.lookup user = some window)
    (lost : (roomy call s.limits).lookup user = none) : window.started + rateWindow ≤ call.purged user := by
  rcases (lookup_makeRoom_lost found lost).2 with stale | ⟨whole, -⟩
  · have positive : 0 < rateWindow := by decide
    simp only [running, decide_eq_false_iff_not] at stale
    omega
  · rw [evicts] at spared
    rw [spared] at whole
    cases whole

/-- The windows a user had are over at the instant a new one starts. -/
theorem roomy_past (spaced : Spaced s) (intime : inTime s call = true) (spared : evicts call s.limits = false)
    (none : (roomy call s.limits).lookup user = none) :
    ∀ a ∈ s.admitted, a.user = user → a.started + rateWindow ≤ call.inserted := by
  obtain ⟨clock, -, -, purged⟩ := inTime_iff.mp intime
  intro a member mine
  cases found : s.limits.lookup user with
  | none => exact Nat.le_trans (spaced.past user found a member mine) clock
  | some window =>
    have ended := roomy_dropped spared found none
    have read := (purged user window found).2
    rcases (spaced.current user window found).2 a member mine with same | before
    · omega
    · omega

theorem countIn_eq_zero {log : List Admission} {started : Nat}
    (before : ∀ a ∈ log, a.user = user → a.started + rateWindow ≤ started) : countIn log user started = 0 := by
  have positive : 0 < rateWindow := by decide
  rw [countIn, List.countP_eq_zero]
  intro a member same
  simp only [Bool.and_eq_true, decide_eq_true_eq] at same
  have := before a member same.1
  omega

/-- The window of the caller counts what was let through in it, and its other windows are over. -/
theorem currentWindow_exact (spaced : Spaced s) (intime : inTime s call = true)
    (spared : evicts call s.limits = false) :
    countIn s.admitted call.user (currentWindow call s.limits).started = (currentWindow call s.limits).count ∧
      ∀ a ∈ s.admitted, a.user = call.user → a.started = (currentWindow call s.limits).started ∨
        a.started + rateWindow ≤ (currentWindow call s.limits).started := by
  obtain ⟨-, inserted, checked, -⟩ := inTime_iff.mp intime
  rcases currentWindow_cases (s := s) ⟨inserted, checked⟩ with found | ⟨empty, least, -, later⟩
  · exact spaced.current _ _ (lookup_roomy found)
  · have before : ∀ a ∈ s.admitted, a.user = call.user →
        a.started + rateWindow ≤ (currentWindow call s.limits).started := by
      intro a member mine
      cases found : (roomy call s.limits).lookup call.user with
      | none => exact Nat.le_trans (roomy_past spaced intime spared found a member mine) least
      | some window =>
        have reopened := later window found
        rcases (spaced.current _ _ (lookup_roomy found)).2 a member mine with same | earlier
        · omega
        · omega
    rw [empty]
    exact ⟨countIn_eq_zero before, fun a member mine => .inr (before a member mine)⟩

theorem spaced_serve (spaced : Spaced s) (intime : inTime s call = true) (chosen : wellChosen call s.limits = true)
    (spared : evicts call s.limits = false) : Spaced (serve s call) := by
  obtain ⟨-, inserted, checked, -⟩ := inTime_iff.mp intime
  obtain ⟨counted, last⟩ := currentWindow_exact spaced intime spared
  have sound := sound_serve spaced.sound intime chosen
  have dropped {w : Window} (user : UserId) (absent : ((roomy call s.limits).insert call.user w).lookup user = none) :
      user ≠ call.user ∧ (roomy call s.limits).lookup user = none := by
    have apart : user ≠ call.user := by
      rintro rfl
      rw [AList.lookup_insert] at absent
      cases absent
    rw [AList.lookup_insert_ne apart] at absent
    exact ⟨apart, absent⟩
  rcases @serve_cases s call with ⟨-, -, same⟩ | ⟨below, -, same⟩
  · rw [same] at sound ⊢
    refine ⟨sound, ?_, ?_, spaced.few, spaced.apart⟩
    · intro user window found
      rcases lookup_after found with ⟨rfl, rfl⟩ | ⟨-, kept⟩
      · exact ⟨counted, last⟩
      · exact spaced.current user window (lookup_roomy kept)
    · intro user absent a member mine
      have := roomy_past spaced intime spared (dropped user absent).2 a member mine
      simp only
      omega
  · rw [same] at sound ⊢
    have new (user : UserId) (started : Nat) (apart : user ≠ call.user) :
        countIn (admission s call :: s.admitted) user started = countIn s.admitted user started := by
      rw [countIn_cons, if_neg]
      · rfl
      · exact fun both => apart both.1.symm
    refine ⟨sound, ?_, ?_, ?_, ?_⟩
    · intro user window found
      rcases lookup_after found with ⟨rfl, rfl⟩ | ⟨apart, kept⟩
      · refine ⟨?_, ?_⟩
        · rw [countIn_cons, if_pos ⟨rfl, rfl⟩, counted]
        · intro a member mine
          rcases List.mem_cons.mp member with rfl | earlier
          · exact .inl rfl
          · exact last a earlier mine
      · obtain ⟨count, before⟩ := spaced.current user window (lookup_roomy kept)
        refine ⟨by rw [new user _ apart, count], ?_⟩
        intro a member mine
        rcases List.mem_cons.mp member with rfl | earlier
        · exact absurd mine.symm apart
        · exact before a earlier mine
    · intro user absent a member mine
      obtain ⟨apart, gone⟩ := dropped user absent
      rcases List.mem_cons.mp member with rfl | earlier
      · exact absurd mine.symm apart
      · have := roomy_past spaced intime spared gone a earlier mine
        simp only
        omega
    · intro user started
      rw [countIn_cons]
      split
      · next mine =>
        obtain ⟨rfl, rfl⟩ := mine
        have total : countIn s.admitted (admission s call).user (admission s call).started =
          (currentWindow call s.limits).count := counted
        omega
      · exact spaced.few user started
    · intro a member b member' mine
      rcases List.mem_cons.mp member with rfl | earlier <;> rcases List.mem_cons.mp member' with rfl | earlier'
      · exact .inl rfl
      · rcases last b earlier' mine.symm with same | before
        · exact .inl same.symm
        · exact .inr (.inr before)
      · rcases last a earlier mine with same | before
        · exact .inl same
        · exact .inr (.inl before)
      · exact spaced.apart a earlier b earlier' mine

theorem countP_le_add {α : Type} {p q r : α → Bool} {list : List α}
    (either : ∀ a ∈ list, p a = true → q a = true ∨ r a = true) : list.countP p ≤ list.countP q + list.countP r := by
  induction list with
  | nil => exact Nat.le_refl 0
  | cons a list ih =>
    have rest := ih fun b member => either b (List.mem_cons_of_mem _ member)
    have head := either a (List.mem_cons_self ..)
    grind

/-- Two windows at most meet an interval of their length. -/
theorem countFrom_le (spaced : Spaced s) (user : UserId) (t : Nat) : countFrom s.admitted user t ≤ 2 * rateLimit := by
  by_cases some : ∃ a ∈ s.admitted, a.user = user ∧ t ≤ a.time ∧ a.time < t + rateWindow
  · obtain ⟨a, first, mine, least, most⟩ := some
    by_cases other : ∃ b ∈ s.admitted, b.user = user ∧ t ≤ b.time ∧ b.time < t + rateWindow ∧ b.started ≠ a.started
    · obtain ⟨b, second, mine', least', most', different⟩ := other
      have covered : countFrom s.admitted user t ≤
          countIn s.admitted user a.started + countIn s.admitted user b.started := by
        apply countP_le_add
        intro c member within
        simp only [Bool.and_eq_true, decide_eq_true_eq] at within ⊢
        obtain ⟨⟨mine'', least''⟩, most''⟩ := within
        have := spaced.apart a first b second (mine.trans mine'.symm)
        have := spaced.apart a first c member (mine.trans mine''.symm)
        have := spaced.apart b second c member (mine'.trans mine''.symm)
        have := spaced.sound.times a first
        have := spaced.sound.times b second
        have := spaced.sound.times c member
        have one : c.started = a.started ∨ c.started = b.started := by omega
        exact one.imp (fun same => ⟨mine'', same⟩) fun same => ⟨mine'', same⟩
      have := spaced.few user a.started
      have := spaced.few user b.started
      omega
    · have covered : countFrom s.admitted user t ≤ countIn s.admitted user a.started := by
        apply List.countP_mono_left
        intro c member within
        simp only [Bool.and_eq_true, decide_eq_true_eq] at within ⊢
        refine ⟨within.1.1, ?_⟩
        by_contra different
        exact other ⟨c, member, within.1.1, within.1.2, within.2, different⟩
      have := spaced.few user a.started
      omega
  · have none : countFrom s.admitted user t = 0 := by
      rw [countFrom, List.countP_eq_zero]
      intro a member within
      simp only [Bool.and_eq_true, decide_eq_true_eq] at within
      exact some ⟨a, member, within.1.1, within.1.2, within.2⟩
    omega

theorem spaced_initial (start : limiter.initial s) : Spaced s := by
  have sound := sound_initial start
  obtain ⟨none, quiet⟩ := start
  constructor
  · exact sound
  · intro user window found
    rw [none, AList.lookup_empty] at found
    cases found
  all_goals simp [quiet, countIn]

/-- In a run in which no fresh window has to go, a user gets at most ten calls in a window of theirs and at most twenty in
    any minute. -/
theorem twenty_a_minute (reached : untroubled.Reachable s) (user : UserId) (t : Nat) :
    countFrom s.admitted user t ≤ 2 * rateLimit ∧ countIn s.admitted user t ≤ rateLimit := by
  have spaced : Spaced s := by
    apply Reachable.invariant Spaced reached fun _ => spaced_initial
    intro s t call spaced allowed step
    obtain ⟨free, spared⟩ := restrict_allowed.mp allowed
    obtain ⟨intime, chosen⟩ := allowed_iff.mp free
    cases step
    exact spaced_serve spaced intime chosen (by simpa using spared)
  exact ⟨countFrom_le spaced user t, spaced.few user t⟩

end Steps

/- Eleven calls in a row. -/

def atInstant (n : Nat) : Call := ⟨4, 4, fun _ => n, n, n, n⟩

def tenCalls : List Call := (List.range 10).map atInstant

def afterTen : State := (untroubled.execute ⟨∅, 0, []⟩ tenCalls).getD ⟨∅, 0, []⟩

theorem tenCalls_run : (untroubled.execute ⟨∅, 0, []⟩ tenCalls).isSome = true := by decide +kernel

theorem afterTen_reachable : untroubled.Reachable afterTen := by
  obtain ⟨t, run⟩ := Option.isSome_iff_exists.mp tenCalls_run
  have same : afterTen = t := by rw [afterTen, run, Option.getD_some]
  rw [same]
  exact execute_reachable ⟨rfl, rfl⟩ run

theorem eleventh_refused : (checkRate (atInstant 10) afterTen.limits).1.isOk = false ∧
    rateLimit ≤ countBefore afterTen.admitted (atInstant 10).user (atInstant 10).checked := by
  have refused : (checkRate (atInstant 10) afterTen.limits).1.isOk = false := by decide +kernel
  exact ⟨refused, (refused_after_ten (restrict_reachable afterTen_reachable) (by decide +kernel)).2.1 refused⟩

theorem ten_in_a_minute : countFrom afterTen.admitted 4 0 = 10 ∧ countFrom afterTen.admitted 4 0 ≤ 2 * rateLimit :=
  ⟨by decide +kernel, (twenty_a_minute afterTen_reachable 4 0).1⟩

end RateLimit
