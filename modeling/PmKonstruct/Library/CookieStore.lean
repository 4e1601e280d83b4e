import Mathlib.Data.List.Sort
import PmKonstruct.Library.DecimalText
import PmKonstruct.Library.TextSearch
import PmKonstruct.Library.WebAddress

/- Cookies on the side of a user agent: what the text of a `Set-Cookie` header asks for, the store that it goes to, and
   the text of the `Cookie` header of a later request. -/
namespace CookieStore
open PlainText DecimalText TextSearch

/-- From which sites a cookie may be sent; of a cookie that says nothing the user agent decides. -/
inductive SameSite where
  | strict
  | lax
  | unrestricted
  deriving DecidableEq, Repr

def SameSite.parse (value : Text) : Option SameSite :=
  if toAsciiLowercase value = text "strict" then some .strict
  else if toAsciiLowercase value = text "lax" then some .lax
  else if toAsciiLowercase value = text "none" then some .unrestricted
  else none

/-- What a response asks to be kept. -/
structure SetCookie where
  name : Text
  value : Text
  domain : Option Text
  path : Option Text
  maxAge : Option Int
  secure : Bool
  httpOnly : Bool
  sameSite : Option SameSite
  deriving DecidableEq, Repr

def deltaSeconds : Text → Option Int
  | '+' :: _ => none
  | value => signedValue value

def undotted : Text → Text
  | '.' :: rest => rest
  | value => value

/-- Reads an attribute; of several with one name the last one counts, and one of another name is skipped. -/
def SetCookie.read (c : SetCookie) (av : Text) : SetCookie :=
  let parts := (splitOnce '=' av).getD (av, [])
  let name := toAsciiLowercase (trim parts.1)
  let value := trim parts.2
  if name = text "max-age" then
    { c with maxAge := (deltaSeconds value).or c.maxAge }
  else if name = text "domain" then
    if value = [] then c else { c with domain := some (toAsciiLowercase (undotted value)) }
  else if name = text "path" then
    { c with path := if value.head? = some '/' then some value else none }
  else if name = text "secure" then { c with secure := true }
  else if name = text "httponly" then { c with httpOnly := true }
  else if name = text "samesite" then { c with sameSite := SameSite.parse value }
  else c

def parse (t : Text) : Option SetCookie :=
  match t.splitOn ';' with
  | [] => none
  | pair :: attributes =>
    match splitOnce '=' pair with
    | none => none
    | some (name, value) =>
      if trim name = [] then none
      else some (attributes.foldl SetCookie.read ⟨trim name, trim value, none, none, none, false, false, none⟩)

structure Cookie where
  name : Text
  value : Text
  domain : Text
  hostOnly : Bool
  path : Text
  secure : Bool
  expiresAt : Option Int
  sameSite : Option SameSite
  deriving DecidableEq, Repr

/-- Two cookies of which the later one takes the place of the other. -/
def Cookie.same (a b : Cookie) : Bool :=
  a.name = b.name && a.domain = b.domain && a.hostOnly = b.hostOnly && a.path = b.path

/-- The host itself or one below the domain. -/
def domainMatches (host domain : Text) : Bool := host = domain || ('.' :: domain).isSuffixOf host

def pathMatches (path prefixed : Text) : Bool :=
  path = prefixed ||
    prefixed.isPrefixOf path && (prefixed.getLast? = some '/' || (path.drop prefixed.length).head? = some '/')

/-- The directory of the path. -/
def defaultPath (path : Text) : Text :=
  match rsplitOnce '/' path with
  | some ('/' :: front, _) => '/' :: front
  | _ => text "/"

/-- Where a request comes from: from the site that it goes to, from another one that is left for it, by a link or by a form
    that posts, or from within a page of another one. -/
inductive Context where
  | own
  | followed
  | posted
  | embedded
  deriving DecidableEq, Repr

/-- A cookie that says nothing of sites is treated as a lax one. -/
def Context.sends : Context → Option SameSite → Bool
  | .own, _ => true
  | _, some .unrestricted => true
  | .followed, site => site ≠ some .strict
  | _, _ => false

theorem sends_lax (context : Context) :
    context.sends (some .lax) = (decide (context = .own) || decide (context = .followed)) := by
  cases context <;> rfl

def Context.takes : Context → Option SameSite → Bool
  | .embedded, site => site = some .unrestricted
  | _, _ => true

abbrev Jar := List Cookie

def Jar.put (jar : Jar) (c : Cookie) : Jar := jar.filter (fun old => !old.same c) ++ [c]

section Agent
variable (isPublic : Text → Bool)

/-- A cookie for a domain in which anybody can register is kept for the host alone, or not at all. -/
def SetCookie.kept (host path : Text) (now : Int) (c : SetCookie) : Option Cookie :=
  let forHost : Cookie :=
    ⟨c.name, c.value, host, true, c.path.getD (defaultPath path), c.secure, c.maxAge.map (now + ·), c.sameSite⟩
  match c.domain with
  | none => some forHost
  | some domain =>
    if isPublic domain then if host = domain then some forHost else none
    else if domainMatches host domain then some { forHost with domain, hostOnly := false }
    else none

def receive (host path : Text) (context : Context) (now : Int) (jar : Jar) (t : Text) : Jar :=
  match ((parse t).filter fun c => context.takes c.sameSite).bind (·.kept isPublic host path now) with
  | none => jar
  | some c => jar.put c

end Agent

/-- The target of a request and the time it is sent at. -/
structure Target where
  host : Text
  path : Text
  secure : Bool
  context : Context
  now : Int

def Cookie.sentTo (target : Target) (c : Cookie) : Bool :=
  (if c.hostOnly then target.host = c.domain else domainMatches target.host c.domain) && pathMatches target.path c.path &&
    (!c.secure || target.secure) && target.context.sends c.sameSite && c.expiresAt.all (target.now < ·)

/-- The cookies of a request, those of longer paths first. -/
def sent (jar : Jar) (target : Target) : List Cookie :=
  (jar.filter (·.sentTo target)).insertionSort fun a b => b.path.length ≤ a.path.length

def Cookie.pair (c : Cookie) : Text := c.name ++ '=' :: c.value

def header (cookies : List Cookie) : Text := join (text "; ") (cookies.map Cookie.pair)

/-- The text of the `Cookie` header, if there is one. -/
def cookieHeader (jar : Jar) (target : Target) : Option Text :=
  if sent jar target = [] then none else some (header (sent jar target))

/-- A program that keeps cookies, in whatever form, and sends them. -/
structure UserAgent where
  Kept : Type
  start : Kept
  receive : (host path : Text) → Context → (now : Int) → Kept → Text → Kept
  cookieHeader : Kept → Target → Option Text

/-- What the user agent keeps stands for a store of cookies, and it keeps and sends what that store would. -/
structure UserAgent.GoesBy (agent : UserAgent) (isPublic : Text → Bool) (jar : agent.Kept → Jar) : Prop where
  start : jar agent.start = []
  receive : ∀ host path context now kept t,
    jar (agent.receive host path context now kept t) = CookieStore.receive isPublic host path context now (jar kept) t
  cookieHeader : ∀ kept target, agent.cookieHeader kept target = CookieStore.cookieHeader (jar kept) target

/-- The user agent that keeps the store itself. -/
def UserAgent.plain (isPublic : Text → Bool) : UserAgent := ⟨Jar, [], CookieStore.receive isPublic, CookieStore.cookieHeader⟩

theorem UserAgent.plain_goesBy (isPublic : Text → Bool) : (UserAgent.plain isPublic).GoesBy isPublic id :=
  ⟨rfl, fun _ _ _ _ _ _ => rfl, fun _ _ => rfl⟩

/-- The pairs that a `Cookie` text is read as. -/
def pairs (t : Text) : List (Text × Text) :=
  ((t.splitOn ';').filterMap (splitOnce '=')).map fun pair => (trim pair.1, trim pair.2)

/-- The name and the value stand between the marks of a `Cookie` text. -/
structure Plain (name value : Text) : Prop where
  unassigned : '=' ∉ name
  nameWhole : ';' ∉ name
  nameTrimmed : trim name = name
  valueWhole : ';' ∉ value
  valueTrimmed : trim value = value

section Parsing
variable {name value t : Text} {attributes : List Text} {asked c : SetCookie} {kept : Cookie} {isPublic : Text → Bool}
  {host path : Text} {now : Int}

theorem read_keeps (c : SetCookie) (av : Text) : (c.read av).name = c.name ∧ (c.read av).value = c.value := by
  simp only [SetCookie.read]
  split_ifs <;> simp

theorem foldl_read_keeps (attributes : List Text) (c : SetCookie) :
    (attributes.foldl SetCookie.read c).name = c.name ∧ (attributes.foldl SetCookie.read c).value = c.value := by
  induction attributes generalizing c with
  | nil => simp
  | cons av rest ih =>
    have first := read_keeps c av
    have later := ih (c.read av)
    simp only [List.foldl_cons]
    rw [later.1, later.2, first.1, first.2]
    simp

theorem mem_splitOn {mark : Char} {part : Text} (member : part ∈ t.splitOn mark) : mark ∉ part ∧ ∀ x ∈ part, x ∈ t := by
  induction t generalizing part with
  | nil =>
    obtain rfl := List.mem_singleton.mp member
    simp
  | cons c t ih =>
    rw [List.splitOn_cons_eq_if_modifyHead] at member
    split at member
    · rcases List.mem_cons.mp member with rfl | later
      · simp
      · exact ⟨(ih later).1, fun x inside => List.mem_cons_of_mem _ ((ih later).2 x inside)⟩
    · next different =>
      cases shown : t.splitOn mark with
      | nil => exact absurd shown (List.splitOn_ne_nil mark t)
      | cons first rest =>
        rw [shown, List.modifyHead_cons] at member
        rcases List.mem_cons.mp member with rfl | later
        · have here := ih (shown ▸ List.mem_cons_self : first ∈ t.splitOn mark)
          have apart : mark ≠ c := fun same => different (by simp [same])
          constructor
          · simp [apart, here.1]
          · intro x inside
            rcases List.mem_cons.mp inside with rfl | inside
            · exact List.mem_cons_self
            · exact List.mem_cons_of_mem _ (here.2 x inside)
        · have there := ih (shown ▸ List.mem_cons_of_mem _ later : part ∈ t.splitOn mark)
          exact ⟨there.1, fun x inside => List.mem_cons_of_mem _ (there.2 x inside)⟩

theorem trim_of_visible (visible : ∀ x ∈ t, isWhitespace x = false) : trim t = t := by
  have start : trimStart t = t := by
    rw [trimStart, List.dropWhile_eq_self_iff]
    intro nonempty
    simp [visible _ (List.getElem_mem nonempty)]
  rw [trim, start, trimEnd, List.rdropWhile_eq_self_iff]
  intro nonempty
  simp [visible _ (List.getLast_mem nonempty)]

/-- What is asked for stands between the marks, and nothing of it is made up. -/
theorem parse_plain (parsed : parse t = some asked) :
    Plain asked.name asked.value ∧ ∀ x, x ∈ asked.name ∨ x ∈ asked.value → x ∈ t := by
  unfold parse at parsed
  split at parsed
  · cases parsed
  · next pair attributes cut =>
    obtain ⟨whole, inside⟩ := mem_splitOn (cut ▸ List.mem_cons_self : pair ∈ t.splitOn ';')
    split at parsed
    · cases parsed
    · next name value halves =>
      obtain ⟨unassigned, rfl⟩ := splitOnce_eq_some.mp halves
      split at parsed
      · cases parsed
      · obtain rfl := Option.some.inj parsed
        rw [(foldl_read_keeps attributes _).1, (foldl_read_keeps attributes _).2]
        simp only [List.mem_append, List.mem_cons, not_or] at whole inside
        constructor
        · constructor
          · exact fun member => unassigned ((trim_inside _).subset member)
          · exact fun member => whole.1 ((trim_inside _).subset member)
          · exact trim_trim name
          · exact fun member => whole.2.2 ((trim_inside _).subset member)
          · exact trim_trim value
        · intro x member
          rcases member with inName | inValue
          · exact inside x (.inl ((trim_inside _).subset inName))
          · exact inside x (.inr (.inr ((trim_inside _).subset inValue)))

theorem parse_cookie (plain : Plain name value) (named : name ≠ []) (whole : ∀ av ∈ attributes, ';' ∉ av) :
    parse ([';'].intercalate ((name ++ '=' :: value) :: attributes)) =
      some (attributes.foldl SetCookie.read ⟨name, value, none, none, none, false, false, none⟩) := by
  have first : ';' ∉ name ++ '=' :: value := by simp [plain.nameWhole, plain.valueWhole]
  have parts : ∀ part ∈ (name ++ '=' :: value) :: attributes, ';' ∉ part := List.forall_mem_cons.mpr ⟨first, whole⟩
  have cut : splitOnce '=' (name ++ '=' :: value) = some (name, value) := splitOnce_eq_some.mpr ⟨plain.unassigned, rfl⟩
  simp [parse, List.splitOn_intercalate ';' parts, cut, plain.nameTrimmed, plain.valueTrimmed, named]

theorem read_maxAge {key : Text} (unassigned : '=' ∉ key) (named : toAsciiLowercase (trim key) = text "max-age") (n : Nat) :
    c.read (key ++ '=' :: decimal n) = { c with maxAge := some (n : Int) } := by
  have digits : ∀ x ∈ decimal n, x.isDigit = true :=
    fun x member => Nat.isDigit_of_mem_toDigits (by decide) (by decide) member
  have cut : splitOnce '=' (key ++ '=' :: decimal n) = some (key, decimal n) := splitOnce_eq_some.mpr ⟨unassigned, rfl⟩
  have trimmed : trim (decimal n) = decimal n := trim_of_visible fun x member => WebAddress.digit_visible (digits x member)
  have seconds : deltaSeconds (decimal n) = some (n : Int) := by
    unfold deltaSeconds
    split
    · next shown => exact absurd (digits '+' (shown ▸ List.mem_cons_self)) (by decide)
    · exact signedValue_decimal n
  simp [SetCookie.read, cut, named, trimmed, seconds]

theorem read_domain {key domain : Text} (unassigned : '=' ∉ key) (named : toAsciiLowercase (trim key) = text "domain")
    (given : trim domain ≠ []) :
    c.read (key ++ '=' :: domain) = { c with domain := some (toAsciiLowercase (undotted (trim domain))) } := by
  have cut : splitOnce '=' (key ++ '=' :: domain) = some (key, domain) := splitOnce_eq_some.mpr ⟨unassigned, rfl⟩
  have other : text "domain" ≠ text "max-age" := by decide
  simp [SetCookie.read, cut, named, given, other]

theorem read_path {key path : Text} (unassigned : '=' ∉ key) (named : toAsciiLowercase (trim key) = text "path")
    (rooted : (trim path).head? = some '/') : c.read (key ++ '=' :: path) = { c with path := some (trim path) } := by
  have cut : splitOnce '=' (key ++ '=' :: path) = some (key, path) := splitOnce_eq_some.mpr ⟨unassigned, rfl⟩
  have others : text "path" ≠ text "max-age" ∧ text "path" ≠ text "domain" := by decide
  simp [SetCookie.read, cut, named, rooted, others]

theorem kept_keeps (keeps : asked.kept isPublic host path now = some kept) :
    kept.name = asked.name ∧ kept.value = asked.value := by
  unfold SetCookie.kept at keeps
  split at keeps
  · cases keeps
    simp
  · split at keeps
    · split at keeps
      · cases keeps
        simp
      · cases keeps
    · split at keeps
      · cases keeps
        simp
      · cases keeps

end Parsing

section Reading
variable {c other : Cookie} {cookies : List Cookie} {jar : Jar} {target : Target}

theorem pairs_space (t : Text) : pairs (' ' :: t) = pairs t := by
  have split : (' ' :: t).splitOn ';' = (t.splitOn ';').modifyHead (' ' :: ·) := by
    rw [List.splitOn_cons_eq_if_modifyHead, if_neg (by decide)]
  rw [pairs, split, pairs]
  cases t.splitOn ';' with
  | nil => rfl
  | cons part rest =>
    have step : splitOnce '=' (' ' :: part) = (splitOnce '=' part).map fun p => (' ' :: p.1, p.2) := by simp [splitOnce]
    simp only [List.modifyHead_cons, List.filterMap_cons, step]
    cases splitOnce '=' part with
    | none => rfl
    | some halves => simp [trim_cons_blank (by decide : isWhitespace ' ' = true)]

theorem pairs_append (t rest : Text) : pairs (t ++ ';' :: rest) = pairs t ++ pairs rest := by
  simp [pairs, List.splitOn_append_cons_self]

theorem pairs_pair (plain : Plain c.name c.value) : pairs c.pair = [(c.name, c.value)] := by
  have whole : ';' ∉ c.name ++ '=' :: c.value := by simp [plain.nameWhole, plain.valueWhole]
  have cut : splitOnce '=' (c.name ++ '=' :: c.value) = some (c.name, c.value) :=
    splitOnce_eq_some.mpr ⟨plain.unassigned, rfl⟩
  rw [pairs, Cookie.pair, List.splitOn_eq_singleton whole]
  simp [cut, plain.nameTrimmed, plain.valueTrimmed]

/-- The pairs are read as they were put together. -/
theorem pairs_header (plain : ∀ c ∈ cookies, Plain c.name c.value) (some : cookies ≠ []) :
    pairs (header cookies) = cookies.map fun c => (c.name, c.value) := by
  induction cookies with
  | nil => exact absurd rfl some
  | cons c rest ih =>
    cases rest with
    | nil => exact pairs_pair (plain c List.mem_cons_self)
    | cons d rest =>
      have shape : header (c :: d :: rest) = c.pair ++ ';' :: ' ' :: header (d :: rest) := by
        rw [header, header, List.map_cons, List.map_cons, join_cons_cons]
        rfl
      have later := ih (fun e member => plain e (List.mem_cons_of_mem _ member)) (List.cons_ne_nil _ _)
      rw [shape, pairs_append, pairs_space, later, pairs_pair (plain c List.mem_cons_self)]
      rfl

theorem mem_header {x : Char} (member : x ∈ header cookies) :
    x ∈ text "=; " ∨ ∃ c ∈ cookies, x ∈ c.name ∨ x ∈ c.value := by
  induction cookies with
  | nil => cases member
  | cons c rest ih =>
    have inPair : ∀ x ∈ c.pair, x ∈ text "=; " ∨ ∃ d ∈ c :: rest, x ∈ d.name ∨ x ∈ d.value := by
      intro x here
      rcases List.mem_append.mp here with inName | inValue
      · exact .inr ⟨c, List.mem_cons_self, .inl inName⟩
      · rcases List.mem_cons.mp inValue with rfl | inValue
        · exact .inl (by decide)
        · exact .inr ⟨c, List.mem_cons_self, .inr inValue⟩
    cases rest with
    | nil => exact inPair x member
    | cons d rest =>
      rw [header, List.map_cons, List.map_cons, join_cons_cons, List.mem_append, List.mem_append] at member
      rcases member with here | mark | there
      · exact inPair x here
      · exact .inl (List.mem_cons_of_mem '=' mark)
      · rcases ih there with mark | ⟨e, found, inside⟩
        · exact .inl mark
        · exact .inr ⟨e, List.mem_cons_of_mem _ found, inside⟩

theorem mem_put : other ∈ jar.put c ↔ other = c ∨ other ∈ jar ∧ other.same c = false := by
  simp [Jar.put, or_comm]

theorem mem_sent : c ∈ sent jar target ↔ c ∈ jar ∧ c.sentTo target = true := by
  rw [sent, List.mem_insertionSort, List.mem_filter]

theorem receive_cases (isPublic : Text → Bool) (host path : Text) (context : Context) (now : Int) (jar : Jar) (t : Text) :
    receive isPublic host path context now jar t = jar ∨
      ∃ asked c, parse t = some asked ∧ asked.kept isPublic host path now = some c ∧
        receive isPublic host path context now jar t = jar.put c := by
  unfold receive
  split
  · exact .inl rfl
  · next c found =>
    obtain ⟨asked, parsed, kept⟩ := Option.bind_eq_some_iff.mp found
    exact .inr ⟨asked, c, (Option.filter_eq_some_iff.mp parsed).1, kept, rfl⟩

end Reading

end CookieStore
