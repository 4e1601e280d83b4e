import PmKonstruct.Weather.Coordinates
import PmKonstruct.Weather.RateLimit

/- Weather requests from their admission to their answer. A request that is let through looks in the cache, and goes upstream
   if that does not have a reading that is still good; other requests may come in between. -/
namespace WeatherCalls
open PlainText DomainErrors ExpiringMap TransitionRuns RateLimit
open Weather (Coordinates)

variable {Stamp : Type}

def cacheTtl : Nat := 10 * 60 * 10 ^ 9

def cacheMax : Nat := 500

structure CacheEntry (Stamp : Type) where
  stamp : Stamp
  storedAt : Nat

abbrev Cache (Stamp : Type) := Entries Text (CacheEntry Stamp)

/-- The instants `store` reads, and the entry it removes where all are still good. -/
structure Storing where
  victim : Text
  purged : Text → Nat
  storedAt : Nat

section Provider
variable (cache : Cache Stamp) (key : Text)

def cached (now : Nat) : Option Stamp × Cache Stamp :=
  match cache.lookup key with
  | some entry => if now - entry.storedAt < cacheTtl then (some entry.stamp, cache) else (none, cache.erase key)
  | none => (none, cache)

def good (storing : Storing) (key : Text) (entry : CacheEntry Stamp) : Bool := storing.purged key - entry.storedAt < cacheTtl

def store (storing : Storing) (stamp : Stamp) : Cache Stamp :=
  (makeRoom cacheMax (good storing) storing.victim cache).insert key ⟨stamp, storing.storedAt⟩

def storeChosen (storing : Storing) : Bool :=
  !full cacheMax (good storing) cache || isStalest CacheEntry.storedAt (retain (good storing) cache) storing.victim

end Provider

/-- The coordinates as they were asked for. -/
structure Request where
  admission : Admission
  coords : Coordinates
  deriving DecidableEq

/-- The service rounds before it asks the provider, which checks and rounds what it is given. -/
def place (coords : Coordinates) : Except DomainError Coordinates :=
  (Coordinates.new coords.rounded.lat coords.rounded.lon).map Coordinates.rounded

theorem place_eq (coords : Coordinates) : place coords = .ok coords.rounded := by
  rw [place, Coordinates.new_eq, Except.map, Coordinates.rounded_rounded]

structure Fetch (Stamp : Type) where
  coords : Coordinates
  stamp : Stamp
  time : Nat

/-- `sent` and `upstream` list the requests that went there, with the place they asked about, and their admissions;
    `fetched` lists what came back for which place, and `answers` what callers got for the coordinates they asked for, each
    with the reading of the clock it was decided by. -/
structure State (Stamp : Type) where
  limiter : RateLimit.State
  cache : Cache Stamp
  admitted : List Request
  sent : List (Request × Coordinates)
  upstream : List Admission
  fetched : List (Fetch Stamp)
  answers : List (Fetch Stamp)

inductive Label (Stamp : Type) where
  | ask (call : Call) (coords : Coordinates)
  | look (request : Request) (now : Nat)
  | reply (request : Request) (place : Coordinates) (stamp : Option Stamp) (storing : Storing)

/-- Without an API key a request is counted all the same, and refused. -/
def ask (configured : Bool) (s : State Stamp) (call : Call) (coords : Coordinates) : State Stamp :=
  let counted := { s with limiter := serve s.limiter call }
  if (checkRate call s.limiter.limits).1.isOk && configured then
    { counted with admitted := ⟨admission s.limiter call, coords⟩ :: s.admitted }
  else counted

def look (s : State Stamp) (request : Request) (now : Nat) : State Stamp :=
  match place request.coords with
  | .error _ => { s with admitted := s.admitted.erase request }
  | .ok place =>
    match cached s.cache place.cacheKey now with
    | (some stamp, cache) =>
      { s with cache, admitted := s.admitted.erase request, answers := ⟨request.coords, stamp, now⟩ :: s.answers }
    | (none, cache) =>
      { s with
        cache
        admitted := s.admitted.erase request
        sent := (request, place) :: s.sent
        upstream := request.admission :: s.upstream }

/-- A failure upstream is an error of this request alone. -/
def reply (s : State Stamp) (request : Request) (place : Coordinates) (stamp : Option Stamp) (storing : Storing) :
    State Stamp :=
  match stamp with
  | some stamp =>
    { s with
      cache := store s.cache place.cacheKey storing stamp
      sent := s.sent.erase (request, place)
      fetched := ⟨place, stamp, storing.storedAt⟩ :: s.fetched
      answers := ⟨request.coords, stamp, storing.storedAt⟩ :: s.answers }
  | none => { s with sent := s.sent.erase (request, place) }

def step (configured : Bool) (s : State Stamp) : Label Stamp → Option (State Stamp)
  | .ask call coords => some (ask configured s call coords)
  | .look request now => if request ∈ s.admitted then some (look s request now) else none
  | .reply request place stamp storing =>
    if (request, place) ∈ s.sent then some (reply s request place stamp storing) else none

/-- What the cache serves is judged by its own readings of the clock, so these may come in any order. -/
def allowed (s : State Stamp) : Label Stamp → Bool
  | .ask call _ => limiter.allowed s.limiter call
  | .look _ _ => true
  | .reply _ _ _ storing => storeChosen s.cache storing

def weather (configured : Bool) : Machine (State Stamp) (Label Stamp) where
  initial s := limiter.initial s.limiter ∧ s.cache = ∅ ∧ s.admitted = [] ∧ s.sent = [] ∧ s.upstream = [] ∧
    s.fetched = [] ∧ s.answers = []
  step := step configured
  allowed := allowed

/- What callers are told. -/

section Answers
variable {configured : Bool} {s t : State Stamp} {cache : Cache Stamp} {key other : Text} {entry : CacheEntry Stamp}

/-- The places are rounded ones throughout. -/
structure Fresh (s : State Stamp) : Prop where
  bounded : size s.cache ≤ cacheMax
  sent : ∀ asked ∈ s.sent, asked.2 = asked.1.coords.rounded
  fetched : ∀ fetch ∈ s.fetched, fetch.coords.rounded = fetch.coords
  cached : ∀ key entry, s.cache.lookup key = some entry →
    ∃ coords : Coordinates, coords.cacheKey = key ∧ ⟨coords, entry.stamp, entry.storedAt⟩ ∈ s.fetched
  answers : ∀ answer ∈ s.answers, ∃ fetch ∈ s.fetched, fetch.coords = answer.coords.rounded ∧ fetch.stamp = answer.stamp ∧
    answer.time < fetch.time + cacheTtl

theorem cached_cases (now : Nat) : (∃ entry, cache.lookup key = some entry ∧ now < entry.storedAt + cacheTtl ∧
      cached cache key now = (some entry.stamp, cache)) ∨
    cached cache key now = (none, cache) ∨ key ∈ cache ∧ cached cache key now = (none, cache.erase key) := by
  have positive : 0 < cacheTtl := by decide
  unfold cached
  cases found : cache.lookup key with
  | none => exact .inr (.inl rfl)
  | some entry =>
    simp only
    split
    · next fresh => exact .inl ⟨entry, rfl, by omega, rfl⟩
    · have there : key ∈ cache := by rw [← AList.lookup_isSome, found]; rfl
      exact .inr (.inr ⟨there, rfl⟩)

theorem lookup_erase_some (found : (cache.erase key).lookup other = some entry) : cache.lookup other = some entry := by
  by_cases same : other = key
  · rw [same, AList.lookup_erase] at found
    cases found
  · rwa [AList.lookup_erase_ne same] at found

theorem look_eq (request : Request) (now : Nat) : look s request now =
    match cached s.cache request.coords.rounded.cacheKey now with
    | (some stamp, cache) =>
      { s with cache, admitted := s.admitted.erase request, answers := ⟨request.coords, stamp, now⟩ :: s.answers }
    | (none, cache) =>
      { s with
        cache
        admitted := s.admitted.erase request
        sent := (request, request.coords.rounded) :: s.sent
        upstream := request.admission :: s.upstream } := by
  rw [look, place_eq]

/-- A reading that is found under the key of a place is one of that place. -/
theorem Fresh.found (fresh : Fresh s) {coords : Coordinates} (found : s.cache.lookup coords.rounded.cacheKey = some entry) :
    ⟨coords.rounded, entry.stamp, entry.storedAt⟩ ∈ s.fetched := by
  obtain ⟨stored, same, there⟩ := fresh.cached _ _ found
  have rounded := Coordinates.cacheKey_eq_iff.mp same
  rw [fresh.fetched _ there, Coordinates.rounded_rounded] at rounded
  rwa [← rounded]

theorem fresh_look (fresh : Fresh s) (request : Request) (now : Nat) : Fresh (look s request now) := by
  have sent : ∀ asked ∈ (request, request.coords.rounded) :: s.sent, asked.2 = asked.1.coords.rounded :=
    List.forall_mem_cons.mpr ⟨rfl, fresh.sent⟩
  rw [look_eq]
  rcases @cached_cases Stamp s.cache request.coords.rounded.cacheKey now with ⟨entry, found, good, hit⟩ | miss | ⟨there, stale⟩
  · simp only [hit]
    refine ⟨fresh.bounded, fresh.sent, fresh.fetched, fresh.cached, ?_⟩
    intro answer member
    rcases List.mem_cons.mp member with rfl | earlier
    · exact ⟨_, fresh.found found, rfl, rfl, good⟩
    · exact fresh.answers answer earlier
  · simp only [miss]
    exact ⟨fresh.bounded, sent, fresh.fetched, fresh.cached, fresh.answers⟩
  · simp only [stale]
    refine ⟨?_, sent, fresh.fetched, fun key entry found => fresh.cached key entry (lookup_erase_some found), fresh.answers⟩
    have smaller := size_erase there
    have := fresh.bounded
    simp only
    omega

theorem fresh_reply (fresh : Fresh s) {request : Request} {place : Coordinates} (waiting : (request, place) ∈ s.sent)
    (stamp : Option Stamp) (storing : Storing) (chosen : storeChosen s.cache storing = true) :
    Fresh (reply s request place stamp storing) := by
  have sent : ∀ asked ∈ s.sent.erase (request, place), asked.2 = asked.1.coords.rounded :=
    fun asked member => fresh.sent asked (List.mem_of_mem_erase member)
  cases stamp with
  | none => exact ⟨fresh.bounded, sent, fresh.fetched, fresh.cached, fresh.answers⟩
  | some stamp =>
    have positive : 0 < cacheTtl := by decide
    have room : size (makeRoom cacheMax (good storing) storing.victim s.cache) < cacheMax := by
      apply size_makeRoom fresh.bounded
      intro whole
      simpa [storeChosen, whole] using chosen
    have rounded : place = request.coords.rounded := fresh.sent _ waiting
    refine ⟨Nat.le_trans size_insert_le room, sent, ?_, ?_, ?_⟩
    · refine List.forall_mem_cons.mpr ⟨?_, fresh.fetched⟩
      rw [rounded, Coordinates.rounded_rounded]
    · intro key entry found
      simp only [reply, store] at found ⊢
      by_cases same : key = place.cacheKey
      · subst same
        rw [AList.lookup_insert] at found
        cases found
        exact ⟨place, rfl, List.mem_cons_self ..⟩
      · rw [AList.lookup_insert_ne same] at found
        obtain ⟨coords, key, there⟩ := fresh.cached key entry (lookup_makeRoom found)
        exact ⟨coords, key, List.mem_cons_of_mem _ there⟩
    · intro answer member
      simp only [reply] at member ⊢
      rcases List.mem_cons.mp member with rfl | earlier
      · exact ⟨_, List.mem_cons_self .., rounded, rfl, Nat.lt_add_of_pos_right positive⟩
      · obtain ⟨fetch, there, same⟩ := fresh.answers answer earlier
        exact ⟨fetch, List.mem_cons_of_mem _ there, same⟩

theorem fresh_step (fresh : Fresh s) {label : Label Stamp} (permitted : allowed s label = true)
    (moves : step configured s label = some t) : Fresh t := by
  cases label with
  | ask call coords =>
    cases moves
    unfold ask
    split
    · exact ⟨fresh.bounded, fresh.sent, fresh.fetched, fresh.cached, fresh.answers⟩
    · exact ⟨fresh.bounded, fresh.sent, fresh.fetched, fresh.cached, fresh.answers⟩
  | look request now =>
    simp only [step] at moves
    split at moves
    · cases moves
      exact fresh_look fresh request now
    · cases moves
  | reply request place stamp storing =>
    simp only [step] at moves
    split at moves
    · next waiting =>
      cases moves
      exact fresh_reply fresh waiting stamp storing permitted
    · cases moves

/-- Whatever requests interleave, an answer is what upstream said of the rounded coordinates less than ten minutes before,
    and the cache stays within its bound. -/
theorem answers_fresh (reached : (@weather Stamp configured).Reachable s) : size s.cache ≤ cacheMax ∧
    ∀ answer ∈ s.answers, ∃ fetch ∈ s.fetched, fetch.coords = answer.coords.rounded ∧ fetch.stamp = answer.stamp ∧
      answer.time < fetch.time + cacheTtl := by
  have fresh : Fresh s := by
    apply Reachable.invariant Fresh reached
    · intro s start
      obtain ⟨-, none, -, waiting, -, nothing, quiet⟩ := start
      constructor
      · rw [none]
        exact Nat.zero_le cacheMax
      · simp [waiting]
      · simp [nothing]
      · intro key entry found
        rw [none, AList.lookup_empty] at found
        cases found
      · simp [quiet]
    · intro s t label fresh permitted moves
      exact fresh_step fresh permitted moves
  exact ⟨fresh.bounded, fresh.answers⟩

end Answers

/- What goes upstream. -/

section Metering
variable {configured : Bool} {s t : State Stamp}

/-- No window that is still running is evicted. -/
def spares (s : State Stamp) : Label Stamp → Bool
  | .ask call _ => !evicts call s.limiter.limits
  | _ => true

def spacious (configured : Bool) : Machine (State Stamp) (Label Stamp) := (weather configured).restrict spares

/-- Each request that went upstream, or still may, was let through on its own. -/
structure Metered (s : State Stamp) : Prop where
  spaced : Spaced s.limiter
  drawn : (s.upstream ++ s.admitted.map (·.admission)).Subperm s.limiter.admitted

theorem drawn_ask {call : Call} {coords : Coordinates}
    (drawn : (s.upstream ++ s.admitted.map (·.admission)).Subperm s.limiter.admitted) :
    ((ask configured s call coords).upstream ++ (ask configured s call coords).admitted.map (·.admission)).Subperm
      (serve s.limiter call).admitted := by
  rcases @serve_cases s.limiter call with ⟨-, refused, same⟩ | ⟨-, served, same⟩
  · rw [same]
    simpa only [ask, refused, Bool.false_and, Bool.false_eq_true, if_false] using drawn
  · rw [same]
    unfold ask
    split
    · simp only [List.map_cons]
      exact List.perm_middle.subperm.trans ((List.subperm_cons _).mpr drawn)
    · exact drawn.trans (List.sublist_cons_self _ _).subperm

theorem drawn_look {request : Request} (now : Nat) (waiting : request ∈ s.admitted)
    (drawn : (s.upstream ++ s.admitted.map (·.admission)).Subperm s.limiter.admitted) :
    ((look s request now).upstream ++ (look s request now).admitted.map (·.admission)).Subperm s.limiter.admitted := by
  have moved : (s.admitted.map (·.admission)).Perm (request.admission :: (s.admitted.erase request).map (·.admission)) :=
    (List.perm_cons_erase waiting).map (·.admission)
  rw [look_eq]
  split
  · have fewer : (s.upstream ++ (s.admitted.erase request).map (·.admission)).Sublist
        (s.upstream ++ s.admitted.map (·.admission)) :=
      List.Sublist.append (List.Sublist.refl _) (List.erase_sublist.map _)
    exact fewer.subperm.trans drawn
  · have same : (request.admission :: s.upstream ++ (s.admitted.erase request).map (·.admission)).Perm
        (s.upstream ++ s.admitted.map (·.admission)) :=
      List.perm_middle.symm.trans (moved.symm.append_left _)
    exact same.subperm.trans drawn

theorem metered_step (metered : Metered s) {label : Label Stamp} (permitted : allowed s label = true)
    (spared : spares s label = true) (moves : step configured s label = some t) : Metered t := by
  cases label with
  | ask call coords =>
    cases moves
    obtain ⟨intime, chosen⟩ := allowed_iff.mp permitted
    have limiter : (ask configured s call coords).limiter = serve s.limiter call := by
      unfold ask
      split <;> rfl
    refine ⟨?_, ?_⟩
    · rw [limiter]
      exact spaced_serve metered.spaced intime chosen (by simpa [spares] using spared)
    · rw [limiter]
      exact drawn_ask metered.drawn
  | look request now =>
    simp only [step] at moves
    split at moves
    · next waiting =>
      cases moves
      have limiter : (look s request now).limiter = s.limiter := by
        rw [look_eq]
        split <;> rfl
      exact ⟨by rw [limiter]; exact metered.spaced, by rw [limiter]; exact drawn_look now waiting metered.drawn⟩
    · cases moves
  | reply request place stamp storing =>
    simp only [step] at moves
    split at moves
    · cases moves
      cases stamp <;> exact ⟨metered.spaced, metered.drawn⟩
    · cases moves

/-- However a user's requests interleave with others, at most twenty of those they make within a minute reach upstream. -/
theorem upstream_metered (reached : (@spacious Stamp configured).Reachable s) (user : UserId) (t : Nat) :
    countFrom s.upstream user t ≤ 2 * rateLimit := by
  have metered : Metered s := by
    apply Reachable.invariant Metered reached
    · intro s start
      obtain ⟨limiter, -, quiet, -, none, -⟩ := start
      refine ⟨spaced_initial limiter, ?_⟩
      rw [quiet, none]
      exact List.nil_subperm
    · intro s t label metered permitted moves
      obtain ⟨permitted, spared⟩ := restrict_allowed.mp permitted
      exact metered_step metered permitted spared moves
  have some : s.upstream.Subperm s.limiter.admitted :=
    (List.sublist_append_left _ _).subperm.trans metered.drawn
  exact Nat.le_trans (some.countP_le _) (countFrom_le metered.spaced user t)

end Metering

/- A request that goes upstream, and one that finds its answer. -/

def melbourne : Coordinates where
  lat := ⟨true, 37814218 / 1000000, by norm_num⟩
  lon := ⟨false, 144963161 / 1000000, by norm_num⟩
  latWithin := by norm_num
  lonWithin := by norm_num

example : melbourne.cacheKey = text "-37.81,144.96" := by decide +kernel

def asking (n : Nat) : Label Nat := .ask (atInstant n) melbourne

def asked (n : Nat) : Request := ⟨⟨4, 0, n⟩, melbourne⟩

def twoRequests : List (Label Nat) :=
  [asking 0, .look (asked 0) 1, .reply (asked 0) melbourne.rounded (some 21) ⟨[], fun _ => 2, 2⟩, asking 3,
    .look (asked 3) 4]

def afterTwo : State Nat := ((spacious true).execute ⟨⟨∅, 0, []⟩, ∅, [], [], [], [], []⟩ twoRequests).getD
  ⟨⟨∅, 0, []⟩, ∅, [], [], [], [], []⟩

theorem afterTwo_reachable : (spacious true).Reachable afterTwo := by
  have run : ((spacious true).execute ⟨⟨∅, 0, []⟩, ∅, [], [], [], [], []⟩ twoRequests).isSome = true := by decide +kernel
  obtain ⟨t, run⟩ := Option.isSome_iff_exists.mp run
  have same : afterTwo = t := by rw [afterTwo, run, Option.getD_some]
  rw [same]
  exact execute_reachable ⟨⟨rfl, rfl⟩, rfl, rfl, rfl, rfl, rfl, rfl⟩ run

theorem second_answer_cached : afterTwo.answers.length = 2 ∧ ∀ answer ∈ afterTwo.answers, ∃ fetch ∈ afterTwo.fetched,
    fetch.coords = answer.coords.rounded ∧ fetch.stamp = answer.stamp ∧ answer.time < fetch.time + cacheTtl :=
  ⟨by decide +kernel, (answers_fresh (restrict_reachable afterTwo_reachable)).2⟩

theorem one_went_upstream : countFrom afterTwo.upstream 4 0 = 1 ∧ countFrom afterTwo.upstream 4 0 ≤ 2 * rateLimit :=
  ⟨by decide +kernel, upstream_metered afterTwo_reachable 4 0⟩

end WeatherCalls
