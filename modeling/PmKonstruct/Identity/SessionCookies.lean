import PmKonstruct.Identity.AuthService
import PmKonstruct.Library.CookieStore

/- The two cookies of a session, from the response of a login to the requests that follow it. They are set with the
   domain of the deployment and cleared without one, so for a deployment that has one a logout clears other cookies
   than a login has set. -/
namespace SessionCookies
open PlainText DecimalText AuthService CookieStore

def accessCookie : Text := text "pmk_access"

def refreshCookie : Text := text "pmk_refresh"

structure AuthConfig where
  accessTokenTtlSecs : Nat
  refreshTokenTtlSecs : Nat
  cookieDomain : Option Text
  cookieSecure : Bool
  deriving DecidableEq, Repr

/-- The value of a header, by its characters. -/
abbrev HeaderValue := Text

def HeaderValue.fromStr (t : Text) : Option HeaderValue :=
  if t.all fun c => c = '\t' || (32 ≤ c.toNat && c.toNat ≠ 127) then some t else none

/-- The characters of a value that can be read as a string. -/
def isVisibleAscii (c : Char) : Bool := c = '\t' || (32 ≤ c.toNat && c.toNat < 127)

def HeaderValue.toStr (v : HeaderValue) : Option Text := if v.all isVisibleAscii then some v else none

/-- What both cookies are written as. -/
def cookieText (name token path : Text) (maxAge : Nat) (secure domain : Text) : Text :=
  name ++ text "=" ++ token ++ text "; HttpOnly; SameSite=Lax; Path=" ++ path ++ text "; Max-Age=" ++ decimal maxAge ++
    secure ++ domain

def secureText (config : AuthConfig) : Text := if config.cookieSecure then text "; Secure" else []

def sessionCookies (config : AuthConfig) (out : LoginOutcome) : List HeaderValue :=
  let secure := secureText config
  let domain := (config.cookieDomain.map (text "; Domain=" ++ ·)).getD []
  [cookieText accessCookie out.accessToken (text "/") config.accessTokenTtlSecs secure domain,
    cookieText refreshCookie out.refreshToken (text "/api/auth") config.refreshTokenTtlSecs secure domain].filterMap
      HeaderValue.fromStr

def clearingCookies (config : AuthConfig) : List HeaderValue :=
  [cookieText accessCookie [] (text "/") 0 (secureText config) [],
    cookieText refreshCookie [] (text "/api/auth") 0 (secureText config) []].filterMap HeaderValue.fromStr

/-- The headers that are looked at. -/
structure Parts where
  authorization : Option HeaderValue
  cookies : List HeaderValue

def cookieValue (parts : Parts) (name : Text) : Option Text :=
  ((((parts.cookies.filterMap HeaderValue.toStr).flatMap (·.splitOn ';')).filterMap (splitOnce '=')).find?
    fun pair => trim pair.1 = name).map fun pair => trim pair.2

def readCookie (parts : Parts) (name : Text) : Option Text :=
  ((((parts.cookies.filterMap HeaderValue.toStr).flatMap (·.splitOn ';')).filterMap (splitOnce '=')).find?
    fun pair => trim pair.1 = name).map fun pair => trim pair.2

def bearerFrom (parts : Parts) : Option Text :=
  match (parts.authorization.bind HeaderValue.toStr).bind (stripPrefix (text "Bearer ")) with
  | some rest => if trim rest ≠ [] then some (trim rest) else cookieValue parts accessCookie
  | none => cookieValue parts accessCookie

/- The user agent. -/

/-- A response that the user agent gets: of the deployment, to one of its own pages, or of anybody else. -/
inductive Visit where
  | signedIn (path : Text) (out : LoginOutcome)
  | loggedOut (path : Text)
  | elsewhere (host path : Text) (context : Context) (setCookies : List Text)

section Browsing
variable (agent : UserAgent) (config : AuthConfig) (host : Text)

def Visit.receive (now : Int) (kept : agent.Kept) : Visit → agent.Kept
  | .signedIn path out => (sessionCookies config out).foldl (agent.receive host path .own now) kept
  | .loggedOut path => (clearingCookies config).foldl (agent.receive host path .own now) kept
  | .elsewhere other path context setCookies => setCookies.foldl (agent.receive other path context now) kept

/-- What is kept after a history. -/
def browse (history : List (Int × Visit)) : agent.Kept :=
  history.foldl (fun kept event => event.2.receive agent config host event.1 kept) agent.start

/-- The headers of a request of the user agent. -/
def requestParts (kept : agent.Kept) (target : Target) : Parts := ⟨none, (agent.cookieHeader kept target).toList⟩

/-- The session that the user agent is in, with the time it was handed out at. A logout of a deployment with a domain
does not end it. -/
def Visit.session (config : AuthConfig) (now : Int) (current : Option (LoginOutcome × Int)) :
    Visit → Option (LoginOutcome × Int)
  | .signedIn _ out => some (out, now)
  | .loggedOut _ => if config.cookieDomain = none then none else current
  | .elsewhere _ _ _ _ => current

def session (history : List (Int × Visit)) : Option (LoginOutcome × Int) :=
  history.foldl (fun current event => event.2.session config event.1 current) none

end Browsing

/- The cookies one by one. -/

inductive Slot where
  | access
  | refresh
  deriving DecidableEq

def Slot.name : Slot → Text
  | .access => accessCookie
  | .refresh => refreshCookie

def Slot.path : Slot → Text
  | .access => text "/"
  | .refresh => text "/api/auth"

def Slot.token (out : LoginOutcome) : Slot → Text
  | .access => out.accessToken
  | .refresh => out.refreshToken

def Slot.ttl (config : AuthConfig) : Slot → Nat
  | .access => config.accessTokenTtlSecs
  | .refresh => config.refreshTokenTtlSecs

/-- A cookie handed out at a time goes with the request, which other sites cannot make by a form or within their pages. -/
def Slot.reaches (config : AuthConfig) (issuedAt : Int) (target : Target) (slot : Slot) : Bool :=
  pathMatches target.path slot.path && (!config.cookieSecure || target.secure) &&
    (target.context = .own || target.context = .followed) && target.now < issuedAt + slot.ttl config

/-- What a request carries of a session. -/
def Slot.carried (config : AuthConfig) (current : Option (LoginOutcome × Int)) (target : Target) (slot : Slot) :
    Option Text :=
  (current.filter fun issued => slot.reaches config issued.2 target).map fun issued => slot.token issued.1

/-- The characters of a token. -/
def isTokenChar (c : Char) : Bool := c.isAlphanum || c = '-' || c = '_' || c = '.'

/-- A domain as a deployment writes it. -/
structure HostName (domain : Text) : Prop where
  nonempty : domain ≠ []
  spelled : ∀ c ∈ domain, isTokenChar c = true
  lower : toAsciiLowercase domain = domain
  bare : undotted domain = domain

/-- The host stands under the domain, if there is one, and the domain is the deployment's own. -/
structure Deployed (isPublic : Text → Bool) (config : AuthConfig) (host : Text) : Prop where
  named : ∀ domain, config.cookieDomain = some domain → HostName domain
  own : ∀ domain, config.cookieDomain = some domain → isPublic domain = false
  inside : ∀ domain, config.cookieDomain = some domain → domainMatches host domain = true

/-- Nobody else sets a cookie of these names, or one that makes the header of a request unreadable. -/
def Visit.Fair : Visit → Prop
  | .signedIn _ out => ∀ slot : Slot, ∀ c ∈ slot.token out, isTokenChar c = true
  | .loggedOut _ => True
  | .elsewhere _ _ _ setCookies => ∀ t ∈ setCookies, t.all isVisibleAscii = true ∧
      ∀ asked, parse t = some asked → ∀ slot : Slot, asked.name ≠ slot.name

structure Orderly (history : List (Int × Visit)) (now : Int) : Prop where
  fair : ∀ event ∈ history, event.2.Fair
  ordered : (history.map Prod.fst).Pairwise (· ≤ ·)
  past : ∀ event ∈ history, event.1 ≤ now

section Writing
variable {config : AuthConfig} {path token t : Text} {slot : Slot} {maxAge : Nat}

def domainText (domain : Option Text) : Text := (domain.map (text "; Domain=" ++ ·)).getD []

theorem tokenChar_range {c : Char} (spelled : isTokenChar c = true) : 45 ≤ c.toNat ∧ c.toNat ≤ 122 := by
  simp only [isTokenChar, Bool.or_eq_true, decide_eq_true_iff] at spelled
  rcases spelled with ((alphanumeric | rfl) | rfl) | rfl
  · have range := WebAddress.alphanumeric_code alphanumeric
    omega
  · decide
  · decide
  · decide

theorem tokenChar_marks {c : Char} (spelled : isTokenChar c = true) : c ≠ ';' ∧ c ≠ '=' := by
  constructor
  · rintro rfl
    exact absurd spelled (by decide)
  · rintro rfl
    exact absurd spelled (by decide)

theorem tokenChar_visible {c : Char} (spelled : isTokenChar c = true) : isWhitespace c = false ∧ isVisibleAscii c = true := by
  have range := tokenChar_range spelled
  constructor
  · simp [isWhitespace]
    omega
  · simp [isVisibleAscii]
    omega

theorem token_unmarked (spelled : ∀ c ∈ token, isTokenChar c = true) : ';' ∉ token ∧ trim token = token := by
  constructor
  · exact fun member => (tokenChar_marks (spelled _ member)).1 rfl
  · exact trim_of_visible fun c member => (tokenChar_visible (spelled c member)).1

theorem slot_plain (slot : Slot) (spelled : ∀ c ∈ token, isTokenChar c = true) : Plain slot.name token := by
  have name : '=' ∉ slot.name ∧ ';' ∉ slot.name ∧ trim slot.name = slot.name := by cases slot <;> decide
  exact ⟨name.1, name.2.1, name.2.2, (token_unmarked spelled).1, (token_unmarked spelled).2⟩

theorem sessionCookies_eq (config : AuthConfig) (out : LoginOutcome) : sessionCookies config out =
    [Slot.access, Slot.refresh].filterMap fun slot => HeaderValue.fromStr (cookieText slot.name (slot.token out) slot.path
      (slot.ttl config) (secureText config) (domainText config.cookieDomain)) := rfl

theorem clearingCookies_eq (config : AuthConfig) : clearingCookies config =
    [Slot.access, Slot.refresh].filterMap fun slot => HeaderValue.fromStr (cookieText slot.name [] slot.path 0
      (secureText config) (domainText none)) := rfl

/-- The attributes of a cookie text. -/
def avs (path : Text) (maxAge : Nat) (config : AuthConfig) (domain : Option Text) : List Text :=
  [text " HttpOnly", text " SameSite=Lax", text " Path" ++ '=' :: path, text " Max-Age" ++ '=' :: decimal maxAge] ++
    (if config.cookieSecure then [text " Secure"] else []) ++ domain.toList.map (text " Domain" ++ '=' :: ·)

theorem cookieText_eq (name : Text) (domain : Option Text) :
    cookieText name token path maxAge (secureText config) (domainText domain) =
      [';'].intercalate ((name ++ '=' :: token) :: avs path maxAge config domain) := by
  have fixed : text "; HttpOnly; SameSite=Lax; Path=" =
      ';' :: text " HttpOnly" ++ ';' :: text " SameSite=Lax" ++ ';' :: text " Path" ++ ['='] := by decide
  have age : text "; Max-Age=" = ';' :: text " Max-Age" ++ ['='] := by decide
  have secure : text "; Secure" = ';' :: text " Secure" := by decide
  have below : text "; Domain=" = ';' :: text " Domain" ++ ['='] := by decide
  have assigned : text "=" = ['='] := by decide
  cases domain with
  | none =>
    cases shown : config.cookieSecure <;>
      simp [cookieText, secureText, domainText, avs, shown, fixed, age, secure, assigned, List.intercalate]
  | some domain =>
    cases shown : config.cookieSecure <;>
      simp [cookieText, secureText, domainText, avs, shown, fixed, age, secure, below, assigned, List.intercalate]

theorem avs_whole {domain : Option Text} (named : ∀ d, domain = some d → HostName d) (slot : Slot) :
    ∀ av ∈ avs slot.path maxAge config domain, ';' ∉ av := by
  have fixed : ';' ∉ text " HttpOnly" ∧ ';' ∉ text " SameSite=Lax" ∧ ';' ∉ text " Path" ++ '=' :: slot.path ∧
      ';' ∉ text " Max-Age" ∧ ';' ∉ text " Secure" ∧ ';' ∉ text " Domain" := by cases slot <;> decide
  have digits : ';' ∉ decimal maxAge := by
    intro member
    rcases mem_decimal member with sign | digit
    · exact absurd sign (by decide)
    · exact absurd digit (by decide)
  have below : ∀ d, domain = some d → ';' ∉ d := fun d given => (token_unmarked (named d given).spelled).1
  intro av member
  simp only [avs, List.mem_append, List.mem_cons, List.not_mem_nil, or_false, List.mem_map, Option.mem_toList,
    List.mem_ite_nil_right] at member
  rcases member with ((rfl | rfl | rfl | rfl) | ⟨-, rfl⟩) | ⟨d, given, rfl⟩
  · exact fixed.1
  · exact fixed.2.1
  · exact fixed.2.2.1
  · simp [fixed, digits]
  · exact fixed.2.2.2.2.1
  · simp [fixed, below d given]

/-- What the user agent reads of a cookie text. -/
theorem parse_cookieText {domain : Option Text} (spelled : ∀ c ∈ token, isTokenChar c = true)
    (named : ∀ d, domain = some d → HostName d) :
    parse (cookieText slot.name token slot.path maxAge (secureText config) (domainText domain)) =
      some ⟨slot.name, token, domain, some slot.path, some maxAge, config.cookieSecure, true, some .lax⟩ := by
  have plain := slot_plain slot spelled
  have nonempty : slot.name ≠ [] := by cases slot <;> decide
  have path : ';' ∉ slot.path ∧ trim slot.path = slot.path ∧ slot.path.head? = some '/' := by cases slot <;> decide
  rw [cookieText_eq, parse_cookie plain nonempty (avs_whole named slot)]
  have http : ∀ c : SetCookie, c.read (text " HttpOnly") = { c with httpOnly := true } := fun c => rfl
  have sameSite : ∀ c : SetCookie, c.read (text " SameSite=Lax") = { c with sameSite := some .lax } := fun c => rfl
  have secure : ∀ c : SetCookie, c.read (text " Secure") = { c with secure := true } := fun c => rfl
  have assignedPath : ∀ c : SetCookie, c.read (text " Path" ++ '=' :: slot.path) = { c with path := some slot.path } := by
    intro c
    rw [read_path (by decide) (by decide) (by rw [path.2.1]; exact path.2.2), path.2.1]
  have assignedAge : ∀ c : SetCookie, c.read (text " Max-Age" ++ '=' :: decimal maxAge) = { c with maxAge := some maxAge } :=
    fun c => read_maxAge (by decide) (by decide) maxAge
  cases domain with
  | none => cases shown : config.cookieSecure <;> simp [avs, shown, http, sameSite, secure, assignedPath, assignedAge]
  | some domain =>
    have name := named domain rfl
    have trimmed := (token_unmarked name.spelled).2
    have below : ∀ c : SetCookie, c.read (text " Domain" ++ '=' :: domain) = { c with domain := some domain } := by
      intro c
      rw [read_domain (by decide) (by decide) (by rw [trimmed]; exact name.nonempty), trimmed, name.bare, name.lower]
    cases shown : config.cookieSecure <;>
      simp [avs, shown, http, sameSite, secure, assignedPath, assignedAge, below]

/-- The text of a cookie is fit for a header, and is readable as one. -/
theorem cookieText_visible {domain : Option Text} (spelled : ∀ c ∈ token, isTokenChar c = true)
    (named : ∀ d, domain = some d → HostName d) :
    (cookieText slot.name token slot.path maxAge (secureText config) (domainText domain)).all isVisibleAscii = true := by
  have fixed : (slot.name ++ text "=").all isVisibleAscii = true ∧
      (text "; HttpOnly; SameSite=Lax; Path=" ++ slot.path ++ text "; Max-Age=").all isVisibleAscii = true := by
    cases slot <;> decide
  have inToken : token.all isVisibleAscii = true :=
    List.all_eq_true.mpr fun c member => (tokenChar_visible (spelled c member)).2
  have inAge : (decimal maxAge).all isVisibleAscii = true := by
    rw [List.all_eq_true]
    intro c member
    rcases mem_decimal member with rfl | digit
    · decide
    · exact (tokenChar_visible (by simp [isTokenChar, Char.isAlphanum, digit])).2
  have inSecure : (secureText config).all isVisibleAscii = true := by
    unfold secureText
    split <;> decide
  have inDomain : (domainText domain).all isVisibleAscii = true := by
    cases domain with
    | none => rfl
    | some d =>
      have mark : (text "; Domain=").all isVisibleAscii = true := by decide
      have inName : d.all isVisibleAscii = true :=
        List.all_eq_true.mpr fun c member => (tokenChar_visible ((named d rfl).spelled c member)).2
      simp [domainText, mark, inName]
  simp only [List.all_append, Bool.and_eq_true] at fixed
  simp [cookieText, fixed, inToken, inAge, inSecure, inDomain]

theorem fromStr_visible (visible : t.all isVisibleAscii = true) : HeaderValue.fromStr t = some t := by
  have allowed : (t.all fun c => c = '\t' || (32 ≤ c.toNat && c.toNat ≠ 127)) = true := by
    rw [List.all_eq_true] at visible ⊢
    intro c member
    have here := visible c member
    simp only [isVisibleAscii, Bool.or_eq_true, Bool.and_eq_true, decide_eq_true_iff] at here ⊢
    rcases here with tab | range
    · exact .inl tab
    · exact .inr (by omega)
  rw [HeaderValue.fromStr, if_pos allowed]

theorem toStr_visible (visible : t.all isVisibleAscii = true) : HeaderValue.toStr t = some t := by
  simp [HeaderValue.toStr, visible]

end Writing

section Keeping
variable {isPublic : Text → Bool} {config : AuthConfig} {host path t : Text} {now later : Int} {jar : Jar} {slot : Slot}
  {current : Option (LoginOutcome × Int)} {issued : LoginOutcome × Int} {c : Cookie} {texts : List Text}

/-- The cookie that is kept of a session. -/
def Slot.cookie (config : AuthConfig) (host : Text) (issued : LoginOutcome × Int) (slot : Slot) : Cookie :=
  ⟨slot.name, slot.token issued.1, config.cookieDomain.getD host, config.cookieDomain.isNone, slot.path, config.cookieSecure,
    some (issued.2 + slot.ttl config), some .lax⟩

/-- The cookie that a logout leaves. -/
def Slot.cleared (config : AuthConfig) (host : Text) (now : Int) (slot : Slot) : Cookie :=
  ⟨slot.name, [], host, true, slot.path, config.cookieSecure, some now, some .lax⟩

/-- Of the cookies of this name those that have not expired are the session's. -/
structure Slot.Kept (config : AuthConfig) (host : Text) (now : Int) (jar : Jar) (current : Option (LoginOutcome × Int))
    (slot : Slot) : Prop where
  known : ∀ c ∈ jar, c.name = slot.name → (∃ issued, current = some issued ∧ c = slot.cookie config host issued) ∨
    ∃ expiry, c.expiresAt = some expiry ∧ expiry ≤ now
  there : ∀ issued, current = some issued → slot.cookie config host issued ∈ jar

/-- Every cookie can be written into a header and read there. -/
def Sound (jar : Jar) : Prop := ∀ c ∈ jar, Plain c.name c.value ∧ ∀ x, x ∈ c.name ∨ x ∈ c.value → isVisibleAscii x = true

theorem kept_later (kept : slot.Kept config host now jar current) (le : now ≤ later) :
    slot.Kept config host later jar current := by
  constructor
  · intro c member named
    rcases kept.known c member named with own | ⟨expiry, given, past⟩
    · exact .inl own
    · exact .inr ⟨expiry, given, past.trans le⟩
  · exact kept.there

theorem kept_put_other (kept : slot.Kept config host now jar current) (different : c.name ≠ slot.name) :
    slot.Kept config host now (jar.put c) current := by
  constructor
  · intro old member named
    rcases mem_put.mp member with rfl | ⟨before, -⟩
    · exact absurd named different
    · exact kept.known old before named
  · intro issued given
    have apart : (slot.cookie config host issued).same c = false := by
      simp [Cookie.same, Slot.cookie, Ne.symm different]
    exact mem_put.mpr (.inr ⟨kept.there issued given, apart⟩)

theorem kept_put_session (kept : slot.Kept config host now jar current) (issued : LoginOutcome × Int) :
    slot.Kept config host now (jar.put (slot.cookie config host issued)) (some issued) := by
  constructor
  · intro old member named
    rcases mem_put.mp member with rfl | ⟨before, apart⟩
    · exact .inl ⟨issued, rfl, rfl⟩
    · rcases kept.known old before named with ⟨earlier, -, rfl⟩ | expired
      · simp [Cookie.same, Slot.cookie] at apart
      · exact .inr expired
  · rintro _ ⟨⟩
    exact mem_put.mpr (.inl rfl)

theorem kept_put_cleared (kept : slot.Kept config host now jar current) :
    slot.Kept config host now (jar.put (slot.cleared config host now))
      (if config.cookieDomain = none then none else current) := by
  cases below : config.cookieDomain with
  | none =>
    rw [if_pos rfl]
    constructor
    · intro old member named
      rcases mem_put.mp member with rfl | ⟨before, apart⟩
      · exact .inr ⟨now, rfl, le_refl now⟩
      · rcases kept.known old before named with ⟨earlier, -, rfl⟩ | expired
        · simp [Cookie.same, Slot.cookie, Slot.cleared, below] at apart
        · exact .inr expired
    · rintro _ ⟨⟩
  | some domain =>
    rw [if_neg (by simp)]
    constructor
    · intro old member named
      rcases mem_put.mp member with rfl | ⟨before, -⟩
      · exact .inr ⟨now, rfl, le_refl now⟩
      · exact kept.known old before named
    · intro issued given
      have apart : (slot.cookie config host issued).same (slot.cleared config host now) = false := by
        simp [Cookie.same, Slot.cookie, Slot.cleared, below]
      exact mem_put.mpr (.inr ⟨kept.there issued given, apart⟩)

theorem receive_session (deployed : Deployed isPublic config host) (issued : LoginOutcome × Int)
    (spelled : ∀ c ∈ slot.token issued.1, isTokenChar c = true) :
    receive isPublic host path .own issued.2 jar (cookieText slot.name (slot.token issued.1) slot.path (slot.ttl config)
      (secureText config) (domainText config.cookieDomain)) = jar.put (slot.cookie config host issued) := by
  have parsed := @parse_cookieText config _ slot (slot.ttl config) _ spelled deployed.named
  cases below : config.cookieDomain with
  | none =>
    rw [below] at parsed
    simp [receive, parsed, Option.filter, Context.takes, SetCookie.kept, Slot.cookie, below]
  | some domain =>
    rw [below] at parsed
    simp [receive, parsed, Option.filter, Context.takes, SetCookie.kept, Slot.cookie, below, deployed.own domain below,
      deployed.inside domain below]

theorem receive_cleared (isPublic : Text → Bool) (slot : Slot) (host path : Text) (now : Int) (jar : Jar) :
    receive isPublic host path .own now jar (cookieText slot.name [] slot.path 0 (secureText config) (domainText none)) =
      jar.put (slot.cleared config host now) := by
  have parsed := @parse_cookieText config _ slot 0 none (fun _ member => absurd member List.not_mem_nil)
    (fun _ none => by cases none)
  simp [receive, parsed, Option.filter, Context.takes, SetCookie.kept, Slot.cleared]

theorem receive_sound (isPublic : Text → Bool) (host path : Text) (context : Context) (now : Int)
    (visible : t.all isVisibleAscii = true) (sound : Sound jar) : Sound (receive isPublic host path context now jar t) := by
  rcases receive_cases isPublic host path context now jar t with same | ⟨asked, c, parsed, kept, put⟩
  · rw [same]
    exact sound
  · rw [put]
    intro d member
    rcases mem_put.mp member with rfl | ⟨before, -⟩
    · obtain ⟨plain, inside⟩ := parse_plain parsed
      obtain ⟨name, value⟩ := kept_keeps kept
      rw [name, value]
      exact ⟨plain, fun x member => List.all_eq_true.mp visible x (inside x member)⟩
    · exact sound d before

/-- What holds of the cookies after every response. -/
structure Browsed (config : AuthConfig) (host : Text) (now : Int) (jar : Jar) (current : Option (LoginOutcome × Int)) :
    Prop where
  sound : Sound jar
  kept : ∀ slot : Slot, slot.Kept config host now jar current

theorem receive_elsewhere (isPublic : Text → Bool) (fair : ∀ t ∈ texts, t.all isVisibleAscii = true ∧
      ∀ asked, parse t = some asked → ∀ slot : Slot, asked.name ≠ slot.name)
    (browsed : Browsed config host now jar current) (origin path : Text) (context : Context) :
    Browsed config host now (texts.foldl (receive isPublic origin path context now) jar) current := by
  induction texts generalizing jar with
  | nil => exact browsed
  | cons t rest ih =>
    obtain ⟨visible, foreign⟩ := fair t List.mem_cons_self
    have readable := receive_sound isPublic origin path context now visible browsed.sound
    refine ih (fun t member => fair t (List.mem_cons_of_mem _ member)) ⟨readable, ?_⟩
    intro slot
    rcases receive_cases isPublic origin path context now jar t with same | ⟨asked, c, parsed, kept, put⟩
    · rw [same]
      exact browsed.kept slot
    · rw [put]
      exact kept_put_other (browsed.kept slot) (by rw [(kept_keeps kept).1]; exact foreign asked parsed slot)

/-- Two cookies that come one after the other, each for its slot. -/
theorem put_both {next : Option (LoginOutcome × Int)} (made : Slot → Cookie) (named : ∀ slot, (made slot).name = slot.name)
    (kept : ∀ slot : Slot, slot.Kept config host now jar current)
    (own : ∀ (slot : Slot) (jar : Jar), slot.Kept config host now jar current →
      slot.Kept config host now (jar.put (made slot)) next) (slot : Slot) :
    slot.Kept config host now ((jar.put (made .access)).put (made .refresh)) next := by
  cases slot with
  | access => exact kept_put_other (own .access _ (kept .access)) (by rw [named]; decide)
  | refresh => exact own .refresh _ (kept_put_other (kept .refresh) (by rw [named]; decide))

theorem visit_browsed (deployed : Deployed isPublic config host) {visit : Visit} (fair : visit.Fair)
    (browsed : Browsed config host now jar current) :
    Browsed config host now (visit.receive (.plain isPublic) config host now jar) (visit.session config now current) := by
  cases visit with
  | signedIn path out =>
    have visible : ∀ slot : Slot, (cookieText slot.name (slot.token out) slot.path (slot.ttl config) (secureText config)
        (domainText config.cookieDomain)).all isVisibleAscii = true :=
      fun slot => cookieText_visible (fair slot) deployed.named
    have texts := sessionCookies_eq config out
    simp only [List.filterMap_cons, fromStr_visible (visible _), List.filterMap_nil] at texts
    have puts := fun (slot : Slot) (jar : Jar) =>
      @receive_session isPublic config host path jar slot deployed (out, now) (fair slot)
    simp only [Visit.receive, UserAgent.plain, texts, List.foldl_cons, List.foldl_nil]
    constructor
    · exact receive_sound isPublic _ _ _ _ (visible _) (receive_sound isPublic _ _ _ _ (visible _) browsed.sound)
    · rw [puts .access jar, puts .refresh]
      exact put_both (fun slot => slot.cookie config host (out, now)) (fun _ => rfl) browsed.kept
        fun slot jar kept => kept_put_session kept (out, now)
  | loggedOut path =>
    have visible : ∀ slot : Slot, (cookieText slot.name [] slot.path 0 (secureText config)
        (domainText none)).all isVisibleAscii = true :=
      fun slot => cookieText_visible (fun _ member => absurd member List.not_mem_nil) fun _ none => by cases none
    have texts := clearingCookies_eq config
    simp only [List.filterMap_cons, fromStr_visible (visible _), List.filterMap_nil] at texts
    simp only [Visit.receive, UserAgent.plain, texts, List.foldl_cons, List.foldl_nil]
    constructor
    · exact receive_sound isPublic _ _ _ _ (visible _) (receive_sound isPublic _ _ _ _ (visible _) browsed.sound)
    · rw [receive_cleared, receive_cleared]
      exact put_both (fun slot => slot.cleared config host now) (fun _ => rfl) browsed.kept
        fun slot jar kept => kept_put_cleared kept
  | elsewhere other path context setCookies => exact receive_elsewhere isPublic fair browsed other path context

theorem browse_browsed (deployed : Deployed isPublic config host) {history : List (Int × Visit)}
    (orderly : Orderly history now) :
    Browsed config host now (browse (.plain isPublic) config host history) (session config history) := by
  induction history using List.reverseRecOn generalizing now with
  | nil => exact ⟨fun _ member => absurd member List.not_mem_nil, fun slot => ⟨fun _ member => absurd member List.not_mem_nil,
      fun _ none => by cases none⟩⟩
  | append_singleton earlier event ih =>
    obtain ⟨fair, ordered, past⟩ := orderly
    rw [List.map_append, List.pairwise_append] at ordered
    have before : Orderly earlier event.1 := by
      constructor
      · exact fun e member => fair e (List.mem_append_left _ member)
      · exact ordered.1
      · exact fun e member => ordered.2.2 e.1 (List.mem_map_of_mem member) event.1 (by simp)
    have here := visit_browsed deployed (fair event (by simp)) (ih before)
    have le : event.1 ≤ now := past event (by simp)
    simp only [browse, session, List.foldl_append, List.foldl_cons, List.foldl_nil]
    exact ⟨here.sound, fun slot => kept_later (here.kept slot) le⟩

/-- What is kept after a history stands for what the store keeps. -/
theorem jar_browse {agent : UserAgent} {jar : agent.Kept → Jar} (goes : agent.GoesBy isPublic jar)
    (history : List (Int × Visit)) :
    jar (browse agent config host history) = browse (.plain isPublic) config host history := by
  have taken (origin path : Text) (context : Context) (now : Int) (texts : List Text) (kept : agent.Kept) :
      jar (texts.foldl (agent.receive origin path context now) kept) =
        texts.foldl (receive isPublic origin path context now) (jar kept) := by
    induction texts generalizing kept with
    | nil => rfl
    | cons t rest ih => rw [List.foldl_cons, List.foldl_cons, ih, goes.receive]
  have visited (visit : Visit) (now : Int) (kept : agent.Kept) :
      jar (visit.receive agent config host now kept) = visit.receive (.plain isPublic) config host now (jar kept) := by
    cases visit <;> exact taken _ _ _ _ _ _
  induction history using List.reverseRecOn with
  | nil => exact goes.start
  | append_singleton earlier event ih =>
    simp only [browse, List.foldl_append, List.foldl_cons, List.foldl_nil] at ih ⊢
    rw [visited, ih]

end Keeping

section Requests
variable {isPublic : Text → Bool} {config : AuthConfig} {host name : Text} {jar : Jar} {slot : Slot} {target : Target}
  {current : Option (LoginOutcome × Int)} {history : List (Int × Visit)} {agent : UserAgent} {stands : agent.Kept → Jar}

/-- Of the cookies in a request the first one of the name is read. -/
theorem cookieValue_request (sound : Sound jar) : cookieValue (requestParts (.plain isPublic) jar target) name =
    ((sent jar target).find? fun c => c.name = name).map (·.value) := by
  have inside : ∀ c ∈ sent jar target, c ∈ jar := fun c member => (mem_sent.mp member).1
  by_cases none : sent jar target = []
  · simp [cookieValue, requestParts, UserAgent.plain, cookieHeader, none]
  · have visible : (header (sent jar target)).all isVisibleAscii = true := by
      rw [List.all_eq_true]
      intro x member
      rcases mem_header member with mark | ⟨c, found, here⟩
      · exact List.all_eq_true.mp (by decide : (text "=; ").all isVisibleAscii = true) x mark
      · exact (sound c (inside c found)).2 x here
    have read := pairs_header (fun c member => (sound c (inside c member)).1) none
    have asPairs : cookieValue (requestParts (.plain isPublic) jar target) name =
        ((pairs (header (sent jar target))).find? fun pair => pair.1 = name).map (·.2) := by
      simp [cookieValue, requestParts, UserAgent.plain, cookieHeader, none, toStr_visible visible, pairs, List.find?_map,
        Function.comp_def]
    rw [asPairs, read, List.find?_map, Option.map_map]
    rfl

theorem cookie_sentTo (deployed : Deployed isPublic config host) (home : target.host = host) (issued : LoginOutcome × Int) :
    (slot.cookie config host issued).sentTo target = slot.reaches config issued.2 target := by
  cases below : config.cookieDomain with
  | none => simp [Cookie.sentTo, Slot.cookie, Slot.reaches, sends_lax, below, home]
  | some domain => simp [Cookie.sentTo, Slot.cookie, Slot.reaches, sends_lax, below, home, deployed.inside domain below]

theorem cookieValue_carried (deployed : Deployed isPublic config host) (home : target.host = host)
    (browsed : Browsed config host target.now jar current) :
    cookieValue (requestParts (.plain isPublic) jar target) slot.name = slot.carried config current target := by
  have kept := browsed.kept slot
  -- A cookie of the name that goes with the request has not expired.
  have own : ∀ c ∈ sent jar target, c.name = slot.name →
      ∃ issued, current = some issued ∧ c = slot.cookie config host issued ∧ slot.reaches config issued.2 target = true := by
    intro c member named
    obtain ⟨inside, goes⟩ := mem_sent.mp member
    rcases kept.known c inside named with ⟨issued, given, rfl⟩ | ⟨expiry, given, past⟩
    · exact ⟨issued, given, rfl, cookie_sentTo deployed home issued ▸ goes⟩
    · simp only [Cookie.sentTo, given, Option.all_some, Bool.and_eq_true, decide_eq_true_iff] at goes
      omega
  rw [cookieValue_request browsed.sound, Slot.carried]
  cases found : (sent jar target).find? fun c => c.name = slot.name with
  | some c =>
    have named : c.name = slot.name := by simpa using List.find?_some found
    obtain ⟨issued, given, rfl, reaches⟩ := own c (List.mem_of_find?_eq_some found) named
    rw [given, Option.filter_some, if_pos reaches]
    rfl
  | none =>
    cases given : current with
    | none => rfl
    | some issued =>
      have stays : slot.reaches config issued.2 target = false := by
        by_contra goes
        have there := mem_sent.mpr ⟨kept.there issued given,
          (cookie_sentTo deployed home issued).trans (Bool.not_eq_false _ ▸ goes)⟩
        exact absurd (List.find?_eq_none.mp found _ there) (by simp [Slot.cookie])
      simp [stays]

theorem requestParts_browse (goes : agent.GoesBy isPublic stands) :
    requestParts agent (browse agent config host history) target =
      requestParts (.plain isPublic) (browse (.plain isPublic) config host history) target := by
  rw [← jar_browse goes]
  exact congrArg (fun cookies : Option Text => (⟨none, cookies.toList⟩ : Parts)) (goes.cookieHeader _ target)

/-- After any history the requests to the deployment carry the tokens of the session that the user agent is in, each as long
as its cookie lasts and where its cookie goes, and nothing else. -/
theorem session_follows (goes : agent.GoesBy isPublic stands) (deployed : Deployed isPublic config host)
    (orderly : Orderly history target.now) (home : target.host = host) :
    bearerFrom (requestParts agent (browse agent config host history) target) =
        Slot.access.carried config (session config history) target ∧
      readCookie (requestParts agent (browse agent config host history) target) refreshCookie =
        Slot.refresh.carried config (session config history) target := by
  have browsed := browse_browsed deployed orderly
  rw [requestParts_browse goes]
  exact ⟨@cookieValue_carried _ _ _ _ .access _ _ deployed home browsed,
    @cookieValue_carried _ _ _ _ .refresh _ _ deployed home browsed⟩

theorem orderly_logout {now : Int} (orderly : Orderly history now) (le : now ≤ target.now) (path : Text) :
    Orderly (history ++ [(now, .loggedOut path)]) target.now := by
  constructor
  · intro event member
    rcases List.mem_append.mp member with before | last
    · exact orderly.fair event before
    · cases List.mem_singleton.mp last
      trivial
  · rw [List.map_append, List.pairwise_append]
    refine ⟨orderly.ordered, List.pairwise_singleton _ _, ?_⟩
    intro before member last final
    obtain ⟨event, found, rfl⟩ := List.mem_map.mp member
    cases List.mem_singleton.mp final
    exact orderly.past event found
  · intro event member
    rcases List.mem_append.mp member with before | last
    · exact (orderly.past event before).trans le
    · cases List.mem_singleton.mp last
      exact le

/-- A logout ends what the requests carry exactly where no domain is configured, or nothing is left to end. -/
theorem logout_forgets_iff {now : Int} (goes : agent.GoesBy isPublic stands) (deployed : Deployed isPublic config host)
    (orderly : Orderly history now) (path : Text) :
    (∀ target : Target, target.host = host → now ≤ target.now →
      bearerFrom (requestParts agent (browse agent config host (history ++ [(now, .loggedOut path)])) target) = none ∧
        readCookie (requestParts agent (browse agent config host (history ++ [(now, .loggedOut path)])) target)
          refreshCookie = none) ↔
    config.cookieDomain = none ∨
      ∀ issued, session config history = some issued → ∀ slot : Slot, issued.2 + slot.ttl config ≤ now := by
  have left : session config (history ++ [(now, .loggedOut path)]) =
      if config.cookieDomain = none then none else session config history := by
    simp [session, Visit.session]
  have follows : ∀ target : Target, target.host = host → now ≤ target.now → _ :=
    fun target home le =>
      @session_follows isPublic config host target _ agent stands goes deployed (orderly_logout orderly le path) home
  constructor
  · intro forgotten
    cases below : config.cookieDomain with
    | none => exact .inl rfl
    | some domain =>
      right
      intro issued given slot
      by_contra lasts
      have here := follows ⟨host, slot.path, true, .own, now⟩ rfl (le_refl now)
      have none := forgotten ⟨host, slot.path, true, .own, now⟩ rfl (le_refl now)
      have reaches : slot.reaches config issued.2 ⟨host, slot.path, true, .own, now⟩ = true := by
        simp only [Slot.reaches, pathMatches, Bool.and_eq_true, decide_eq_true_iff]
        exact ⟨⟨by simp, by simp⟩, by omega⟩
      rw [left, below, if_neg (by simp), given] at here
      have carried : slot.carried config (some issued) ⟨host, slot.path, true, .own, now⟩ = some (slot.token issued.1) := by
        rw [Slot.carried, Option.filter_some, if_pos reaches]
        rfl
      cases slot with
      | access => exact absurd (carried.symm.trans (here.1.symm.trans none.1)) (by simp)
      | refresh => exact absurd (carried.symm.trans (here.2.symm.trans none.2)) (by simp)
  · intro ended target home le
    have nothing : ∀ slot : Slot,
        slot.carried config (session config (history ++ [(now, .loggedOut path)])) target = none := by
      intro slot
      rw [left]
      split
      · rfl
      · next below =>
        cases given : session config history with
        | none => rfl
        | some issued =>
          have past := (ended.resolve_left below) issued given slot
          have stays : ¬ slot.reaches config issued.2 target = true := by
            simp only [Slot.reaches, Bool.and_eq_true, decide_eq_true_iff]
            omega
          rw [Slot.carried, Option.filter_some, if_neg stays]
          rfl
    obtain ⟨access, refresh⟩ := follows target home le
    exact ⟨access.trans (nothing .access), refresh.trans (nothing .refresh)⟩

end Requests

/- A deployment on two hosts of one domain. -/

def sampleConfig : AuthConfig := ⟨900, 2592000, some (text "example.com"), true⟩

def sampleHost : Text := text "app.example.com"

def isPublicSample (domain : Text) : Bool := domain = text "com"

def sampleOutcome : LoginOutcome :=
  ⟨text "e30.e30.c2ln", ⟨text "1", 1, text "MANAGER", text "sarah@example.com", text "Sarah", none, 0, 900⟩, text "c0ffee",
    ⟨1, 1, text "Sarah", text "sarah@example.com", .manager, none, true, none⟩⟩

/-- A login, and a cookie of another host of the domain. -/
def sampleHistory : List (Int × Visit) :=
  [(0, .signedIn (text "/api/auth/login") sampleOutcome),
    (5, .elsewhere (text "shop.example.com") (text "/") .own [text "theme=dark; Domain=.Example.com; Path=/"])]

theorem sampleDeployed : Deployed isPublicSample sampleConfig sampleHost := by
  have host : HostName (text "example.com") := ⟨by decide, List.all_eq_true.mp (by decide), by decide, by decide⟩
  constructor <;> rintro _ ⟨⟩
  · exact host
  · decide
  · decide

theorem sampleOrderly : Orderly sampleHistory 10 := by
  constructor
  · have signedIn : ∀ slot : Slot, ∀ c ∈ slot.token sampleOutcome, isTokenChar c = true := by
      intro slot
      apply List.all_eq_true.mp
      cases slot <;> decide
    have parsed : parse (text "theme=dark; Domain=.Example.com; Path=/") =
        some ⟨text "theme", text "dark", some (text "example.com"), some (text "/"), none, false, false, none⟩ := by decide
    refine List.forall_mem_cons.mpr ⟨signedIn, List.forall_mem_singleton.mpr (List.forall_mem_singleton.mpr ⟨by decide, ?_⟩)⟩
    intro asked found slot
    cases parsed.symm.trans found
    cases slot <;> decide
  · decide
  · decide

def sampleAgent : UserAgent := .plain isPublicSample

theorem jobs_request_carries_access :
    bearerFrom (requestParts sampleAgent (browse sampleAgent sampleConfig sampleHost sampleHistory)
        ⟨sampleHost, text "/api/jobs", true, .own, 10⟩) = some (text "e30.e30.c2ln") ∧
      readCookie (requestParts sampleAgent (browse sampleAgent sampleConfig sampleHost sampleHistory)
        ⟨sampleHost, text "/api/jobs", true, .own, 10⟩) refreshCookie = none := by
  have follows := @session_follows _ _ _ ⟨sampleHost, text "/api/jobs", true, .own, 10⟩ _ _ _
    (UserAgent.plain_goesBy isPublicSample) sampleDeployed sampleOrderly rfl
  exact ⟨follows.1.trans (by decide), follows.2.trans (by decide)⟩

/-- A form of another site is sent without the cookies. -/
example : bearerFrom (requestParts sampleAgent (browse sampleAgent sampleConfig sampleHost sampleHistory)
    ⟨sampleHost, text "/api/jobs", true, .posted, 10⟩) = none := by decide

theorem logout_below_domain : ¬ ∀ target : Target, target.host = sampleHost → 10 ≤ target.now →
    bearerFrom (requestParts sampleAgent (browse sampleAgent sampleConfig sampleHost
        (sampleHistory ++ [(10, .loggedOut (text "/api/auth/logout"))])) target) = none ∧
      readCookie (requestParts sampleAgent (browse sampleAgent sampleConfig sampleHost
        (sampleHistory ++ [(10, .loggedOut (text "/api/auth/logout"))])) target) refreshCookie = none := by
  have forgets := @logout_forgets_iff _ _ _ _ _ _ 10 (UserAgent.plain_goesBy isPublicSample) sampleDeployed sampleOrderly
    (text "/api/auth/logout")
  intro forgotten
  rcases forgets.mp forgotten with bare | ended
  · cases bare
  · exact absurd (ended (sampleOutcome, 0) (by decide) .access) (by decide)

end SessionCookies
