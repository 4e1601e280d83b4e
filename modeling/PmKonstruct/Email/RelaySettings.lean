import PmKonstruct.Email.Colleagues
import PmKonstruct.Email.PublicRelays

/- The mail relay of a company: its settings, the check they pass when they are saved and again when they are used, and the
   connection that a message goes out on. Each statement is a transaction of its own, so settings may change between the
   read of the relay and the read of its password. -/
namespace RelaySettings
open PlainText DomainErrors Accounts KeyedTable StatementProgram TransitionRuns IpAddress RelayHosts
open AuthService (SessionUser)
open Colleagues (Message)

/-- The password is there only on the way in. -/
structure EmailSettings where
  smtpHost : Option Text
  smtpPort : Option Int
  smtpUser : Option Text
  smtpFrom : Option Text
  smtpSecure : Bool
  smtpPass : Option Text
  deriving DecidableEq, Repr

def EmailSettings.default : EmailSettings := ⟨none, none, none, none, false, none⟩

def EmailSettings.isConfigured (e : EmailSettings) : Bool :=
  e.smtpHost.any (trim · ≠ []) && e.smtpFrom.any (trim · ≠ [])

def validateSmtpPort (port : Int) : Except DomainError Unit :=
  if 1 ≤ port ∧ port ≤ 65535 then .ok () else .error (.invalid "smtpPort" "must be between 1 and 65535")

def EmailSettings.validate (e : EmailSettings) : Except DomainError Unit :=
  if e.smtpHost.any fun host => trim host ≠ [] && isBlockedSmtpHost (trim host) then
    .error (.invalid "smtpHost" "that host is not a permitted mail relay")
  else
    match e.smtpPort.elim (.ok ()) validateSmtpPort with
    | .error error => .error error
    | .ok _ =>
      if e.smtpFrom.any fun address => trim address ≠ [] && !looksLikeEmail (trim address) then
        .error (.invalid "smtpFrom" "must be a valid address")
      else .ok ()

structure EmailStatus where
  configured : Bool
  hasPassword : Bool
  secure : Bool
  deriving DecidableEq, Repr

structure EmailSettingsRequest where
  smtpHost : Option Text
  smtpPort : Option Int
  smtpUser : Option Text
  smtpPass : Option Text
  smtpFrom : Option Text
  smtpSecure : Bool
  deriving DecidableEq, Repr

/-- An empty password leaves the old one alone. -/
def EmailSettingsRequest.into (r : EmailSettingsRequest) : EmailSettings :=
  ⟨r.smtpHost, r.smtpPort, r.smtpUser, r.smtpFrom, r.smtpSecure, r.smtpPass.filter (· ≠ [])⟩

structure EmailSettingsRow where
  id : Int
  companyId : CompanyId
  smtpHost : Option Text
  smtpPort : Option Int
  smtpUser : Option Text
  smtpPass : Option Text
  smtpFrom : Option Text
  smtpSecure : Option Bool
  deriving DecidableEq, Repr

instance : Keyed EmailSettingsRow := ⟨EmailSettingsRow.id⟩

structure SmtpCredentials where
  host : Text
  port : Nat
  user : Option Text
  password : Option Text
  sender : Text
  secure : Bool
  deriving DecidableEq, Repr

/-- What is dialled, the name that TLS is asked for, and the login that is offered. -/
structure Connection where
  ip : IpAddr
  port : Nat
  name : Text
  wrapped : Bool
  login : Option (Text × Text)
  deriving DecidableEq

structure State where
  settings : Table EmailSettingsRow
  connections : List Connection

/- The statements. The policy of the table shows a session the row of its company. -/

section Repository
variable (t : Table EmailSettingsRow) (scope : CompanyId)

def rowOf : Option EmailSettingsRow := t.rows.find? (·.companyId = scope)

/-- The password is not read into what the interface answers. -/
def EmailSettingsRow.settings (row : EmailSettingsRow) : EmailSettings :=
  ⟨row.smtpHost, row.smtpPort, row.smtpUser, row.smtpFrom, row.smtpSecure.getD false, none⟩

def emailSettings : EmailSettings := ((rowOf t scope).map (·.settings)).getD .default

def smtpPassword : Option Text := (rowOf t scope).bind (·.smtpPass)

def hasSmtpPassword : Bool := (smtpPassword t scope).any (· ≠ [])

def EmailSettingsRow.overwrite (input : EmailSettings) (row : EmailSettingsRow) : EmailSettingsRow :=
  { row with
    smtpHost := input.smtpHost
    smtpPort := input.smtpPort
    smtpUser := input.smtpUser
    smtpPass := input.smtpPass <|> row.smtpPass
    smtpFrom := input.smtpFrom
    smtpSecure := some input.smtpSecure }

theorem overwrite_key (input : EmailSettings) (row : EmailSettingsRow) : Keyed.key (row.overwrite input) = Keyed.key row :=
  rfl

def newRow (input : EmailSettings) (id : Int) : EmailSettingsRow :=
  ⟨id, scope, input.smtpHost, input.smtpPort, input.smtpUser, input.smtpPass, input.smtpFrom, some input.smtpSecure⟩

theorem newRow_key (input : EmailSettings) (id : Int) : Keyed.key (newRow scope input id) = id := rfl

/-- `INSERT .. ON CONFLICT DO UPDATE`, where no password leaves the old one. -/
def setEmailSettings (input : EmailSettings) : Table EmailSettingsRow :=
  match rowOf t scope with
  | some _ => t.update (·.companyId = scope) (EmailSettingsRow.overwrite input) (overwrite_key input)
  | none => t.insert (newRow scope input) (newRow_key scope input)

end Repository

/-- The mail crate: what its parsers and its builder say of an address, a message or a name of a certificate. -/
structure Lettre where
  mailbox : Text → Option String
  body : Message → Option String
  tls : Text → Option String

structure Env where
  fault : Option PortError
  resolver : Text → Lookup
  delivery : Option String

section Transport
variable (lettre : Lettre) (allowPrivate : Bool)

def refusedRecipient (recipients : List Text) : Option (Text × String) :=
  recipients.findSome? fun recipient => (lettre.mailbox recipient).map fun e => (recipient, e)

/-- Credentials go out only with a user to name. -/
def SmtpCredentials.login (creds : SmtpCredentials) : Option (Text × Text) :=
  match creds.user, creds.password with
  | some user, some password => if user = [] then none else some (user, password)
  | _, _ => none

/-- The sender of the mail crate. The relay is dialled by the address that was checked. -/
def transmit (env : Env) (creds : SmtpCredentials) (message : Message) : Except PortError Unit × Option Connection :=
  match resolvePublic env.resolver allowPrivate creds.host with
  | .error e => (.error e, none)
  | .ok ip =>
    match lettre.mailbox creds.sender with
    | some e => (.error (.storage ("invalid from address: " ++ e)), none)
    | none =>
      match refusedRecipient lettre message.recipients with
      | some (recipient, e) => (.error (.storage ("invalid recipient " ++ String.ofList recipient ++ ": " ++ e)), none)
      | none =>
        match lettre.body message with
        | some e => (.error (.storage ("could not build the message: " ++ e)), none)
        | none =>
          match lettre.tls creds.host with
          | some e => (.error (refused ("could not set up TLS: " ++ e)), none)
          | none => (env.delivery.elim (.ok ()) fun e => .error (refused e),
              some ⟨ip, creds.port, creds.host, creds.secure, creds.login⟩)

end Transport

inductive Statement where
  | emailSettings (scope : CompanyId)
  | hasSmtpPassword (scope : CompanyId)
  | smtpPassword (scope : CompanyId)
  | setEmailSettings (scope : CompanyId) (input : EmailSettings)
  | transmit (creds : SmtpCredentials) (message : Message)

abbrev Reply : Statement → Type
  | .emailSettings _ => EmailSettings
  | .hasSmtpPassword _ => Bool
  | .smtpPassword _ => Option Text
  | .setEmailSettings _ _ => Unit
  | .transmit _ _ => Unit

abbrev Answer (statement : Statement) : Type := Except PortError (Reply statement)

def perform (lettre : Lettre) (allowPrivate : Bool) (env : Env) : (statement : Statement) → State → Answer statement × State
  | .emailSettings scope, s => (.ok (emailSettings s.settings scope), s)
  | .hasSmtpPassword scope, s => (.ok (hasSmtpPassword s.settings scope), s)
  | .smtpPassword scope, s => (.ok (smtpPassword s.settings scope), s)
  | .setEmailSettings scope input, s => (.ok (), { s with settings := setEmailSettings s.settings scope input })
  | .transmit creds message, s =>
    let (answer, dialled) := transmit lettre allowPrivate env creds message
    (answer, { s with connections := s.connections ++ dialled.toList })

/-- A fault is of the database; what becomes of a connection is in its outcome. -/
def Statement.queries : Statement → Bool
  | .transmit _ _ => false
  | _ => true

def execute (lettre : Lettre) (allowPrivate : Bool) : Executes Statement Answer Env State :=
  faulting (·.fault) Statement.queries (perform lettre allowPrivate)

/- The use cases. -/

abbrev Action (α : Type) : Type := Program Statement Answer (Except AppError α)

def fail {α : Type} (error : AppError) : Action α := .done (.error error)

def call {α : Type} (statement : Statement) (next : Reply statement → Action α) : Action α :=
  await .port statement next

/-- The submission port. -/
def defaultSmtpPort : Nat := 587

def portOf (port : Option Int) : Nat :=
  (port.bind fun p => if 0 ≤ p ∧ p ≤ 65535 then some p.toNat else none).getD defaultSmtpPort

def SmtpCredentials.of (settings : EmailSettings) (password : Option Text) : SmtpCredentials :=
  ⟨settings.smtpHost.getD [], portOf settings.smtpPort, settings.smtpUser, password, settings.smtpFrom.getD [],
    settings.smtpSecure⟩

section Service
variable (s : SessionUser)

/-- Stored settings may be older than the checks, so they are checked on the way out. -/
def credentials {α : Type} (next : SmtpCredentials → Action α) : Action α :=
  call (.emailSettings s.principal.companyId) fun settings =>
    if settings.isConfigured = false then
      fail (.domain (.invalid "smtpHost" "Configure an SMTP host and sender address before sending email"))
    else
      match settings.validate with
      | .error e => fail (.domain e)
      | .ok _ =>
        call (.smtpPassword s.principal.companyId) fun password =>
          next (.of settings password)

def send (message : Message) : Action Unit :=
  credentials s fun creds => call (.transmit creds message) fun _ => .done (.ok ())

def emailSettingsOf : Action EmailSettings :=
  call (.emailSettings s.principal.companyId) fun settings => .done (.ok settings)

def emailStatus : Action EmailStatus :=
  call (.emailSettings s.principal.companyId) fun settings =>
    call (.hasSmtpPassword s.principal.companyId) fun hasPassword =>
      .done (.ok ⟨settings.isConfigured, hasPassword, settings.smtpSecure⟩)

def saveEmailSettings (input : EmailSettings) : Action EmailSettings :=
  match input.validate with
  | .error e => fail (.domain e)
  | .ok _ =>
    call (.setEmailSettings s.principal.companyId input) fun _ =>
      call (.emailSettings s.principal.companyId) fun settings => .done (.ok settings)

def testMessage (recipient : Text) : Message :=
  ⟨[recipient], text "PM Konstruct test message",
    text "Your SMTP settings are working. This message was sent by PM Konstruct.", false⟩

def sendTestEmail (recipient : Text) : Action Unit :=
  if looksLikeEmail recipient = false then fail (.domain (.invalid "to" "must be a valid address"))
  else send s (testMessage recipient)

end Service

inductive Request where
  | settings (s : SessionUser)
  | status (s : SessionUser)
  | save (s : SessionUser) (request : EmailSettingsRequest)
  | test (s : SessionUser) (recipient : Text)
  | send (s : SessionUser) (message : Message)

def Request.session : Request → SessionUser
  | .settings s => s
  | .status s => s
  | .save s _ => s
  | .test s _ => s
  | .send s _ => s

def Request.company (request : Request) : CompanyId := request.session.principal.companyId

inductive Returned where
  | settings (settings : EmailSettings)
  | status (status : EmailStatus)
  | sent
  deriving DecidableEq, Repr

abbrev Outcome : Type := Except AppError Returned

def programOf : Request → Program Statement Answer Outcome
  | .settings s => (emailSettingsOf s).mapResult (·.map .settings)
  | .status s => (emailStatus s).mapResult (·.map .status)
  | .save s request => (saveEmailSettings s request.into).mapResult (·.map .settings)
  | .test s recipient => (sendTestEmail s recipient).mapResult (·.map fun _ => .sent)
  | .send s message => (send s message).mapResult (·.map fun _ => .sent)

/-- The calls of any companies, in the runs whose statements all are admitted. -/
def relays (lettre : Lettre) (allowPrivate : Bool) (initial : State → Prop) (admits : Statement → Bool) :
    Service Statement Answer Outcome Request Env State where
  program := programOf
  execute := execute lettre allowPrivate
  initial := initial
  admits := fun _ statement _ => admits statement

abbrev Running : Type := Config Statement Answer Outcome Request State

/- What a call has read before it dials or saves. -/

abbrev Trace : Type := List (Event Statement Answer)

def Warranted (request : Request) (past : Trace) : Statement → Prop
  | .setEmailSettings scope input => scope = request.company ∧ input.validate = .ok () ∧
      ∃ s asked, request = .save s asked ∧ input = asked.into
  | .transmit creds _ => ∃ settings password, creds = .of settings password ∧ settings.isConfigured = true ∧
      settings.validate = .ok () ∧ (⟨.emailSettings request.company, .ok settings⟩ : Event Statement Answer) ∈ past ∧
      (⟨.smtpPassword request.company, .ok password⟩ : Event Statement Answer) ∈ past
  | _ => True

abbrev Sound {α : Type} (request : Request) (past : Trace) (action : Action α) : Prop :=
  action.Obeys (Warranted request) (fun _ _ => True) past

section Programs
variable {α : Type} {request : Request} {past : Trace}

theorem sound_call {statement : Statement} {next : Reply statement → Action α} (here : Warranted request past statement)
    (later : ∀ reply, Sound request (past ++ [⟨statement, .ok reply⟩]) (next reply)) :
    Sound request past (call statement next) := by
  constructor
  · exact here
  · intro answer
    cases answer with
    | error e => trivial
    | ok reply => exact later reply

theorem sound_send {s : SessionUser} {message : Message} (own : request.session = s) :
    Sound request [] (send s message) := by
  subst own
  refine sound_call trivial fun settings => ?_
  split
  · trivial
  · next configured =>
    split
    · trivial
    · next valid =>
      refine sound_call trivial fun password => sound_call ?_ fun _ => trivial
      exact ⟨settings, password, rfl, by simpa using configured, valid, by simp [Request.company],
        by simp [Request.company]⟩

theorem programs_warranted (request : Request) : (programOf request).Obeys (Warranted request) (fun _ _ => True) [] := by
  cases request with
  | settings s => exact obeys_mapResult.mpr (sound_call trivial fun _ => trivial)
  | status s => exact obeys_mapResult.mpr (sound_call trivial fun _ => sound_call trivial fun _ => trivial)
  | save s asked =>
    apply obeys_mapResult.mpr
    rw [saveEmailSettings]
    split
    · trivial
    · next valid =>
      exact sound_call ⟨rfl, valid, s, asked, rfl, rfl⟩ fun _ => sound_call trivial fun _ => trivial
  | test s recipient =>
    apply obeys_mapResult.mpr
    rw [sendTestEmail]
    split
    · trivial
    · exact sound_send rfl
  | send s message => exact obeys_mapResult.mpr (sound_send rfl)

end Programs

/- What the statements do to the rows and to the connections. -/

section Effects
variable {lettre : Lettre} {allowPrivate : Bool} {env : Env} {statement : Statement} {s : State} {scope : CompanyId}
    {input : EmailSettings}

theorem execute_settings (kept : ∀ scope input, statement ≠ .setEmailSettings scope input) :
    (execute lettre allowPrivate env statement s).2.settings = s.settings := by
  have performed : (perform lettre allowPrivate env statement s).2.settings = s.settings := by
    cases statement with
    | setEmailSettings scope input => exact absurd rfl (kept scope input)
    | _ => rfl
  exact faulting_keeps (fun after : State => after.settings = s.settings) rfl performed

theorem execute_set (lettre : Lettre) (allowPrivate : Bool) (env : Env) (s : State) (scope : CompanyId)
    (input : EmailSettings) :
    (∃ e, execute lettre allowPrivate env (.setEmailSettings scope input) s = (.error e, s)) ∨
    execute lettre allowPrivate env (.setEmailSettings scope input) s =
      (.ok (), { s with settings := setEmailSettings s.settings scope input }) := by
  rw [execute, faulting]
  split
  · exact .inr rfl
  · exact .inl ⟨_, rfl⟩

/-- A row that is there after a save was there, or is the saved one. -/
theorem mem_set {t : Table EmailSettingsRow} {row : EmailSettingsRow} (member : row ∈ (setEmailSettings t scope input).rows) :
    row ∈ t.rows ∨ (row.companyId = scope ∧ row.settings = { input with smtpPass := none } ∧
      (row.smtpPass = input.smtpPass ∨ (input.smtpPass = none ∧ ∃ old ∈ t.rows, old.companyId = scope ∧
        row.smtpPass = old.smtpPass))) := by
  unfold setEmailSettings at member
  split at member
  · rw [Table.mem_update] at member
    obtain ⟨old, there, rfl⟩ := member
    split
    · next own =>
      refine .inr ⟨of_decide_eq_true own, rfl, ?_⟩
      cases given : input.smtpPass with
      | none => exact .inr ⟨rfl, old, there, of_decide_eq_true own, by simp [EmailSettingsRow.overwrite, given]⟩
      | some password => exact .inl (by simp [EmailSettingsRow.overwrite, given])
    · exact .inl there
  · rcases Table.mem_insert.mp member with old | rfl
    · exact .inl old
    · exact .inr ⟨rfl, rfl, .inl rfl⟩

/-- Only a delivery dials, and only what the checks let through. -/
theorem execute_connections (lettre : Lettre) (allowPrivate : Bool) (env : Env) (statement : Statement) (s : State) :
    (execute lettre allowPrivate env statement s).2.connections = s.connections ∨
    ∃ creds message k, statement = .transmit creds message ∧ (transmit lettre allowPrivate env creds message).2 = some k ∧
      (execute lettre allowPrivate env statement s).2.connections = s.connections ++ [k] := by
  have performed : (perform lettre allowPrivate env statement s).2.connections = s.connections ∨
      ∃ creds message k, statement = .transmit creds message ∧
        (transmit lettre allowPrivate env creds message).2 = some k ∧
        (perform lettre allowPrivate env statement s).2.connections = s.connections ++ [k] := by
    cases statement with
    | transmit creds message =>
      cases dialled : (transmit lettre allowPrivate env creds message).2 with
      | none => exact .inl (by simp [perform, dialled])
      | some k => exact .inr ⟨creds, message, k, rfl, dialled, by simp [perform, dialled]⟩
    | _ => exact .inl rfl
  exact faulting_keeps (fun after : State => after.connections = s.connections ∨ ∃ creds message k,
    statement = .transmit creds message ∧ (transmit lettre allowPrivate env creds message).2 = some k ∧
      after.connections = s.connections ++ [k]) (.inl rfl) performed

theorem transmit_dialled {creds : SmtpCredentials} {message : Message} {k : Connection}
    (dialled : (transmit lettre allowPrivate env creds message).2 = some k) :
    resolvePublic env.resolver allowPrivate creds.host = .ok k.ip ∧
      k = ⟨k.ip, creds.port, creds.host, creds.secure, creds.login⟩ := by
  simp only [transmit] at dialled
  split at dialled
  · cases dialled
  · next ip resolved =>
    split at dialled
    · cases dialled
    · split at dialled
      · cases dialled
      · split at dialled
        · cases dialled
        · split at dialled
          · cases dialled
          · cases dialled
            exact ⟨resolved, rfl⟩

theorem login_eq_some {creds : SmtpCredentials} {user password : Text} (login : creds.login = some (user, password)) :
    creds.user = some user ∧ creds.password = some password ∧ user ≠ [] := by
  unfold SmtpCredentials.login at login
  split at login
  · next u p there given =>
    split at login
    · cases login
    · next named =>
      cases login
      exact ⟨there, given, named⟩
  · cases login

theorem resolved_public {resolver : Text → Lookup} {host : Text} {ip : IpAddr}
    (resolved : resolvePublic resolver false host = .ok ip) :
    isBlockedSmtpHost (trim host) = false ∧ isPrivateIp ip = false := by
  simp only [resolvePublic, Bool.false_eq_true, if_false] at resolved
  split at resolved
  · cases resolved
  · next permitted =>
    refine ⟨by simpa using permitted, ?_⟩
    split at resolved
    · split at resolved
      · cases resolved
      · next allowed =>
        cases resolved
        simpa using allowed
    · split at resolved
      · cases resolved
      · cases resolved
      · next addresses _ =>
        split at resolved
        · cases resolved
        · split at resolved
          · cases resolved
          · next allowed =>
            split at resolved
            · cases resolved
            · cases resolved
              simp only [List.any_cons, Bool.or_eq_true, not_or, Bool.not_eq_true] at allowed
              exact allowed.1

theorem validate_port {e : EmailSettings} (valid : e.validate = .ok ()) :
    1 ≤ portOf e.smtpPort ∧ portOf e.smtpPort ≤ 65535 := by
  cases given : e.smtpPort with
  | none => decide
  | some port =>
    simp only [EmailSettings.validate, given, Option.elim_some, validateSmtpPort] at valid
    split at valid
    · cases valid
    · split at valid
      · cases valid
      · next inside =>
        have bounds : 1 ≤ port ∧ port ≤ 65535 := by
          by_contra outside
          rw [if_neg outside] at inside
          cases inside
        have ranged : 0 ≤ port ∧ port ≤ 65535 := by omega
        simp only [portOf, Option.bind_some, if_pos ranged, Option.getD_some]
        omega

end Effects

/- Whose relay a connection goes to, and whose password it carries. -/

section Connections
variable {lettre : Lettre} {start : State} {config : Running}

/-- The settings were there at first, or somebody of the company saved them. -/
def SettingsOf (start : State) (calls : List (Call Statement Answer Outcome Request)) (scope : CompanyId)
    (settings : EmailSettings) : Prop :=
  (∃ row ∈ start.settings.rows, row.companyId = scope ∧ row.settings = settings) ∨
    ∃ call ∈ calls, ∃ s asked, call.request = .save s asked ∧ s.principal.companyId = scope ∧
      asked.into.validate = .ok () ∧ { asked.into with smtpPass := none } = settings

def PasswordOf (start : State) (calls : List (Call Statement Answer Outcome Request)) (scope : CompanyId)
    (password : Text) : Prop :=
  (∃ row ∈ start.settings.rows, row.companyId = scope ∧ row.smtpPass = some password) ∨
    ∃ call ∈ calls, ∃ s asked, call.request = .save s asked ∧ s.principal.companyId = scope ∧
      asked.smtpPass = some password ∧ password ≠ []

/-- A connection that a call of a company made: to a relay of the company's own, which is on a public address, with a
    password of the company's own, if any. -/
structure Dialled (start : State) (calls : List (Call Statement Answer Outcome Request)) (scope : CompanyId)
    (k : Connection) : Prop where
  relay : ∃ settings, SettingsOf start calls scope settings ∧ settings.validate = .ok () ∧ settings.isConfigured = true ∧
    k.name = settings.smtpHost.getD [] ∧ k.port = portOf settings.smtpPort ∧ k.wrapped = settings.smtpSecure ∧
    ∀ user password, k.login = some (user, password) → settings.smtpUser = some user
  password : ∀ user password, k.login = some (user, password) → user ≠ [] ∧ PasswordOf start calls scope password
  named : isBlockedSmtpHost (trim k.name) = false
  addressed : ¬ PublicRelays.Forbidden k.ip
  port : 1 ≤ k.port ∧ k.port ≤ 65535

def SavesRelay (event : Event Statement Answer) (thing : CompanyId × EmailSettings) : Prop :=
  ∃ input, event.statement = .setEmailSettings thing.1 input ∧ { input with smtpPass := none } = thing.2

def SavesPassword (event : Event Statement Answer) (thing : CompanyId × Text) : Prop :=
  ∃ input, event.statement = .setEmailSettings thing.1 input ∧ input.smtpPass = some thing.2

theorem settings_put (env : Env) (statement : Statement) (s : State) (thing : CompanyId × EmailSettings)
    (there : ∃ row ∈ (execute lettre false env statement s).2.settings.rows, (row.companyId, row.settings) = thing) :
    (∃ row ∈ s.settings.rows, (row.companyId, row.settings) = thing) ∨
      ∃ input, statement = .setEmailSettings thing.1 input ∧ { input with smtpPass := none } = thing.2 := by
  obtain ⟨row, member, rfl⟩ := there
  cases statement with
  | setEmailSettings scope input =>
    rcases execute_set lettre false env s scope input with ⟨e, refused⟩ | saved
    · rw [refused] at member
      exact .inl ⟨row, member, rfl⟩
    · rw [saved] at member
      rcases mem_set member with old | ⟨own, same, -⟩
      · exact .inl ⟨row, old, rfl⟩
      · exact .inr ⟨input, by rw [own], same.symm⟩
  | _ =>
    rw [execute_settings (fun _ _ => by simp)] at member
    exact .inl ⟨row, member, rfl⟩

theorem password_put (env : Env) (statement : Statement) (s : State) (thing : CompanyId × Text)
    (there : ∃ row ∈ (execute lettre false env statement s).2.settings.rows,
      row.companyId = thing.1 ∧ row.smtpPass = some thing.2) :
    (∃ row ∈ s.settings.rows, row.companyId = thing.1 ∧ row.smtpPass = some thing.2) ∨
      ∃ input, statement = .setEmailSettings thing.1 input ∧ input.smtpPass = some thing.2 := by
  obtain ⟨row, member, of, holds⟩ := there
  cases statement with
  | setEmailSettings scope input =>
    rcases execute_set lettre false env s scope input with ⟨e, refused⟩ | saved
    · rw [refused] at member
      exact .inl ⟨row, member, of, holds⟩
    · rw [saved] at member
      rcases mem_set member with old | ⟨own, -, given | ⟨-, old, there, same, kept⟩⟩
      · exact .inl ⟨row, old, of, holds⟩
      · exact .inr ⟨input, by rw [← of, own], by rw [← given, holds]⟩
      · exact .inl ⟨old, there, by rw [same, ← of, own], by rw [← kept, holds]⟩
  | _ =>
    rw [execute_settings (fun _ _ => by simp)] at member
    exact .inl ⟨row, member, of, holds⟩

theorem rowOf_mem {t : Table EmailSettingsRow} {scope : CompanyId} {row : EmailSettingsRow}
    (found : rowOf t scope = some row) : row ∈ t.rows ∧ row.companyId = scope :=
  ⟨List.mem_of_find?_eq_some found, by simpa using List.find?_some found⟩

theorem settings_told (env : Env) (statement : Statement) (s : State) (thing : CompanyId × EmailSettings)
    (tells : (⟨statement, (execute lettre false env statement s).1⟩ : Event Statement Answer) =
      ⟨.emailSettings thing.1, .ok thing.2⟩ ∧ thing.2.isConfigured = true) :
    ∃ row ∈ s.settings.rows, (row.companyId, row.settings) = thing := by
  obtain ⟨scope, settings⟩ := thing
  obtain ⟨same, configured⟩ := tells
  obtain ⟨rfl, answer⟩ := Event.mk.inj same
  have answered := eq_of_heq answer
  rw [execute, faulting] at answered
  split at answered
  · simp only [perform, Except.ok.injEq] at answered
    rw [emailSettings] at answered
    cases found : rowOf s.settings scope with
    | none =>
      rw [found] at answered
      subst answered
      cases configured
    | some row =>
      obtain ⟨member, of⟩ := rowOf_mem found
      rw [found] at answered
      exact ⟨row, member, Prod.ext of answered⟩
  · cases answered

theorem password_told (env : Env) (statement : Statement) (s : State) (thing : CompanyId × Text)
    (tells : (⟨statement, (execute lettre false env statement s).1⟩ : Event Statement Answer) =
      ⟨.smtpPassword thing.1, .ok (some thing.2)⟩) :
    ∃ row ∈ s.settings.rows, row.companyId = thing.1 ∧ row.smtpPass = some thing.2 := by
  obtain ⟨scope, password⟩ := thing
  obtain ⟨rfl, answer⟩ := Event.mk.inj tells
  have answered := eq_of_heq answer
  rw [execute, faulting] at answered
  split at answered
  · simp only [perform, Except.ok.injEq] at answered
    obtain ⟨row, found, holds⟩ := Option.bind_eq_some_iff.mp answered
    obtain ⟨member, of⟩ := rowOf_mem found
    exact ⟨row, member, of, holds⟩
  · cases answered

abbrev AnyRelays (lettre : Lettre) (start : State) : Service Statement Answer Outcome Request Env State :=
  relays lettre false (· = start) fun _ => true

section Reached
variable (reached : (AnyRelays lettre start).machine.Reachable config)
include reached

/-- A statement of a trace was warranted, and what its call had read comes from the company. -/
theorem asked_warranted {call : Call Statement Answer Outcome Request} {event : Event Statement Answer}
    (member : call ∈ config.calls) (past : event ∈ call.trace) :
    ∃ before, (∀ other ∈ before, other ∈ call.trace) ∧ Warranted call.request before event.statement := by
  obtain ⟨before, after, split⟩ := List.append_of_mem past
  refine ⟨before, fun other there => ?_, ?_⟩
  · rw [split]
    exact List.mem_append_left _ there
  · exact events_asked Warranted programs_warranted reached call member before event after split

theorem put_saved {thing : CompanyId × EmailSettings} (put : WasPut SavesRelay config thing) :
    SettingsOf start config.calls thing.1 thing.2 := by
  obtain ⟨call, member, event, past, input, saves, same⟩ := put
  obtain ⟨before, -, warranted⟩ := asked_warranted reached member past
  rw [saves] at warranted
  obtain ⟨of, valid, s, asked, request, rfl⟩ := warranted
  refine .inr ⟨call, member, s, asked, request, ?_, valid, same⟩
  rw [of, request]
  rfl

theorem put_given {thing : CompanyId × Text} (put : WasPut SavesPassword config thing) :
    PasswordOf start config.calls thing.1 thing.2 := by
  obtain ⟨call, member, event, past, input, saves, given⟩ := put
  obtain ⟨before, -, warranted⟩ := asked_warranted reached member past
  rw [saves] at warranted
  obtain ⟨of, valid, s, asked, request, rfl⟩ := warranted
  obtain ⟨typed, nonempty⟩ := Option.filter_eq_some_iff.mp given
  refine .inr ⟨call, member, s, asked, request, ?_, typed, by simpa using nonempty⟩
  rw [of, request]
  rfl

theorem settings_read {call : Call Statement Answer Outcome Request} {scope : CompanyId} {settings : EmailSettings}
    (member : call ∈ config.calls) (read : (⟨.emailSettings scope, .ok settings⟩ : Event Statement Answer) ∈ call.trace)
    (configured : settings.isConfigured = true) : SettingsOf start config.calls scope settings := by
  have told := told_of (fun s thing => ∃ row ∈ s.settings.rows, (row.companyId, row.settings) = thing)
    SavesRelay (fun event thing => event = ⟨.emailSettings thing.1, .ok thing.2⟩ ∧ thing.2.isConfigured = true)
    settings_put settings_told (fun _ same => same) reached call member _ read (scope, settings) ⟨rfl, configured⟩
  rcases told with ⟨row, there, same⟩ | put
  · obtain ⟨of, holds⟩ := Prod.mk.inj same
    exact .inl ⟨row, there, of, holds⟩
  · exact put_saved reached put

theorem password_read {call : Call Statement Answer Outcome Request} {scope : CompanyId} {password : Text}
    (member : call ∈ config.calls)
    (read : (⟨.smtpPassword scope, .ok (some password)⟩ : Event Statement Answer) ∈ call.trace) :
    PasswordOf start config.calls scope password := by
  have told := told_of (fun s thing => ∃ row ∈ s.settings.rows, row.companyId = thing.1 ∧ row.smtpPass = some thing.2)
    SavesPassword (fun event thing => event = ⟨.smtpPassword thing.1, .ok (some thing.2)⟩)
    password_put password_told (fun _ same => same) reached call member _ read (scope, password) rfl
  rcases told with first | put
  · exact .inl first
  · exact put_given reached put

end Reached

theorem connection_put (env : Env) (statement : Statement) (s : State) (k : Connection)
    (there : k ∈ (execute lettre false env statement s).2.connections) :
    k ∈ s.connections ∨ ∃ env creds message, statement = .transmit creds message ∧
      (transmit lettre false env creds message).2 = some k := by
  rcases execute_connections lettre false env statement s with same | ⟨creds, message, new, rfl, dialled, appended⟩
  · rw [same] at there
    exact .inl there
  · rw [appended] at there
    rcases List.mem_append.mp there with old | now
    · exact .inl old
    · cases List.mem_singleton.mp now
      exact .inr ⟨env, creds, message, rfl, dialled⟩

/-- However saves, tests and messages of any companies interleave, and whatever settings were stored before: a connection
    goes to a public address, and both its relay and its password are the company's own. -/
theorem connections_sound (unused : start.connections = [])
    (reached : (AnyRelays lettre start).machine.Reachable config) :
    ∀ k ∈ config.store.connections, ∃ call ∈ config.calls, Dialled start config.calls call.request.company k := by
  intro k made
  have put := things_put (fun s k => k ∈ s.connections)
    (fun event k => ∃ env creds message, event.statement = .transmit creds message ∧
      (transmit lettre false env creds message).2 = some k) connection_put (fun _ same => same) reached k made
  rcases put with first | ⟨call, member, event, past, env, creds, message, sends, dialled⟩
  · rw [unused] at first
    cases first
  · obtain ⟨before, within, warranted⟩ := asked_warranted reached member past
    rw [sends] at warranted
    obtain ⟨settings, password, rfl, configured, valid, read, given⟩ := warranted
    obtain ⟨resolved, same⟩ := transmit_dialled dialled
    obtain ⟨named, addressed⟩ := resolved_public resolved
    rw [same]
    refine ⟨call, member, ?_, ?_, named, ?_, validate_port valid⟩
    · refine ⟨settings, settings_read reached member (within _ read) configured, valid, configured, rfl, rfl, rfl, ?_⟩
      exact fun user secret login => (login_eq_some login).1
    · intro user secret login
      obtain ⟨-, stored, nonempty⟩ := login_eq_some login
      have held : password = some secret := stored
      subst held
      exact ⟨nonempty, password_read reached member (within _ given)⟩
    · intro forbidden
      rw [← PublicRelays.isPrivateIp_iff, addressed] at forbidden
      cases forbidden

end Connections

/- A saved relay is the one that is used, until the next save of the company. -/

section Saved
variable {lettre : Lettre} {allowPrivate : Bool} {scope : CompanyId} {t : Table EmailSettingsRow} {input : EmailSettings}

def savesFor (scope : CompanyId) : Statement → Bool
  | .setEmailSettings other _ => other = scope
  | _ => false

theorem rowOf_update {other : CompanyId} : rowOf (t.update (·.companyId = other) (EmailSettingsRow.overwrite input)
      (overwrite_key input)) scope =
    if other = scope then (rowOf t scope).map (·.overwrite input) else rowOf t scope := by
  have kept : ∀ row : EmailSettingsRow,
      (if decide (row.companyId = other) then row.overwrite input else row).companyId = row.companyId := by
    intro row
    split <;> rfl
  simp only [rowOf, Table.update, List.find?_map, Function.comp_def, kept]
  cases found : t.rows.find? (·.companyId = scope) with
  | none => simp
  | some row =>
    have of : row.companyId = scope := by simpa using List.find?_some found
    by_cases same : other = scope
    · simp [same, of]
    · simp [same, of, Ne.symm same]

theorem rowOf_insert {other : CompanyId} (absent : rowOf t other = none) :
    rowOf (t.insert (newRow other input) (newRow_key other input)) scope =
      if other = scope then some (newRow other input t.serial) else rowOf t scope := by
  by_cases same : other = scope
  · subst same
    rw [rowOf] at absent
    simp [rowOf, Table.insert, List.find?_append, absent, newRow]
  · have apart : (newRow other input t.serial).companyId ≠ scope := same
    simp [rowOf, Table.insert, List.find?_append, same, apart]

/-- A save is read back by its company, with the old password where it gave none, and by no other company. -/
theorem read_back {other : CompanyId} :
    emailSettings (setEmailSettings t other input) scope =
      (if other = scope then { input with smtpPass := none } else emailSettings t scope) ∧
    smtpPassword (setEmailSettings t other input) scope =
      if other = scope then input.smtpPass <|> smtpPassword t scope else smtpPassword t scope := by
  rw [setEmailSettings]
  split
  · next row found =>
    rw [emailSettings, smtpPassword, rowOf_update]
    by_cases same : other = scope
    · subst same
      simp only [if_true, found, Option.map_some, Option.bind_some, Option.getD_some, smtpPassword]
      exact ⟨rfl, rfl⟩
    · simp only [if_neg same]
      exact ⟨rfl, rfl⟩
  · next absent =>
    rw [emailSettings, smtpPassword, rowOf_insert absent]
    by_cases same : other = scope
    · subst same
      simp only [if_true, Option.map_some, Option.bind_some, Option.getD_some, smtpPassword, absent, Option.bind_none]
      refine ⟨rfl, ?_⟩
      rw [newRow]
      cases input.smtpPass <;> rfl
    · simp only [if_neg same]
      exact ⟨rfl, rfl⟩

/-- What a company reads of its relay. -/
def held (scope : CompanyId) (s : State) : EmailSettings × Option Text :=
  (emailSettings s.settings scope, smtpPassword s.settings scope)

theorem held_kept {env : Env} {statement : Statement} {s : State} (unsaved : savesFor scope statement = false) :
    held scope (execute lettre allowPrivate env statement s).2 = held scope s := by
  cases statement with
  | setEmailSettings other input =>
    have apart : other ≠ scope := by simpa [savesFor] using unsaved
    rcases execute_set lettre allowPrivate env s other input with ⟨e, refused⟩ | saved
    · rw [refused]
    · rw [saved, held, read_back.1, read_back.2, if_neg apart, if_neg apart]
      rfl
  | _ => rw [held, execute_settings (fun _ _ => by simp), held]

/-- A call that came after the save has read what was saved, and nothing else. -/
structure Uses (scope : CompanyId) (wanted : EmailSettings × Option Text) (call : Call Statement Answer Outcome Request) :
    Prop where
  obeys : call.running.Obeys (Warranted call.request) (fun _ _ => True) call.trace
  settings : ∀ e, (⟨.emailSettings scope, .ok e⟩ : Event Statement Answer) ∈ call.trace → e = wanted.1
  password : ∀ p, (⟨.smtpPassword scope, .ok p⟩ : Event Statement Answer) ∈ call.trace → p = wanted.2
  sends : call.request.company = scope → ∀ creds message answer,
    (⟨.transmit creds message, answer⟩ : Event Statement Answer) ∈ call.trace → creds = .of wanted.1 wanted.2

theorem answered_held {env : Env} {s : State} :
    (∀ e, (execute lettre allowPrivate env (.emailSettings scope) s).1 = .ok e → e = (held scope s).1) ∧
    ∀ p, (execute lettre allowPrivate env (.smtpPassword scope) s).1 = .ok p → p = (held scope s).2 := by
  constructor
  · intro e answered
    rw [execute, faulting] at answered
    split at answered
    · cases answered
      rfl
    · cases answered
  · intro p answered
    rw [execute, faulting] at answered
    split at answered
    · cases answered
      rfl
    · cases answered

theorem Uses.step {env : Env} {s : State} {call : Call Statement Answer Outcome Request} {statement : Statement}
    {next : Answer statement → Program Statement Answer Outcome} (uses : Uses scope (held scope s) call)
    (shape : call.running = .stmt statement next) :
    Uses scope (held scope s) ⟨call.request,
      call.trace ++ [⟨statement, (execute lettre allowPrivate env statement s).1⟩],
      next (execute lettre allowPrivate env statement s).1⟩ := by
  have obeys := uses.obeys
  rw [shape] at obeys
  constructor
  · exact obeys.2 _
  · intro e read
    rcases List.mem_append.mp read with before | now
    · exact uses.settings e before
    · obtain ⟨rfl, answer⟩ := Event.mk.inj (List.mem_singleton.mp now)
      exact answered_held.1 e (eq_of_heq answer).symm
  · intro p read
    rcases List.mem_append.mp read with before | now
    · exact uses.password p before
    · obtain ⟨rfl, answer⟩ := Event.mk.inj (List.mem_singleton.mp now)
      exact answered_held.2 p (eq_of_heq answer).symm
  · intro of creds message answer sent
    rcases List.mem_append.mp sent with before | now
    · exact uses.sends of creds message answer before
    · obtain ⟨rfl, -⟩ := Event.mk.inj (List.mem_singleton.mp now)
      obtain ⟨settings, password, rfl, -, -, read, given⟩ := obeys.1
      rw [of] at read given
      rw [uses.settings settings read, uses.password password given]

/-- A save makes its relay the company's, with the old password where it gave none. Until the next save of the company,
    whatever the others do, that relay and that password are what a message goes out with. -/
theorem saved_relay_used (lettre : Lettre) (allowPrivate : Bool) (scope : CompanyId) :
    (∀ env s input after, execute lettre allowPrivate env (.setEmailSettings scope input) s = (.ok (), after) →
      held scope after = ({ input with smtpPass := none }, input.smtpPass <|> (held scope s).2)) ∧
    ∀ initial saved later, (relays lettre allowPrivate initial fun st => !savesFor scope st).machine.Leads saved later →
      held scope later.store = held scope saved.store ∧
      ∀ j call, saved.calls.length ≤ j → later.calls[j]? = some call → call.request.company = scope →
        ∀ creds message answer, (⟨.transmit creds message, answer⟩ : Event Statement Answer) ∈ call.trace →
          creds = .of (held scope saved.store).1 (held scope saved.store).2 := by
  constructor
  · intro env s input after saves
    rcases execute_set lettre allowPrivate env s scope input with ⟨e, refused⟩ | saved
    · rw [refused] at saves
      cases saves
    · rw [saved] at saves
      cases saves
      rw [held, read_back.1, read_back.2, if_pos rfl, if_pos rfl]
      rfl
  · intro initial saved later leads
    have uses := Leads.invariant (fun later : Running => held scope later.store = held scope saved.store ∧
      ∀ (j : Nat) call, saved.calls.length ≤ j → later.calls[j]? = some call → Uses scope (held scope saved.store) call)
      leads ?_ ?_
    · exact ⟨uses.1, fun j call after there => (uses.2 j call after there).sends⟩
    · refine ⟨rfl, fun j call after there => ?_⟩
      rw [List.getElem?_eq_none after] at there
      cases there
    · rintro s t label ⟨same, uses⟩ allowed step
      rcases step_cases allowed step with ⟨request, rfl⟩ | ⟨i, env, old, statement, next, -, found, shape, admits, rfl⟩
      · refine ⟨same, fun j call after there => ?_⟩
        rcases getElem?_append_cases there with earlier | rfl
        · exact uses j call after earlier
        · exact ⟨programs_warranted request, fun e read => absurd read List.not_mem_nil,
            fun p read => absurd read List.not_mem_nil, fun _ _ _ _ sent => absurd sent List.not_mem_nil⟩
      · have unsaved : savesFor scope statement = false := by simpa [relays] using admits
        refine ⟨(held_kept unsaved).trans same, fun j call after there => ?_⟩
        rcases getElem?_set_cases found there with ⟨rfl, rfl⟩ | ⟨-, earlier⟩
        · have before := uses j old after found
          rw [← same] at before ⊢
          exact before.step shape
        · exact uses j call after earlier

end Saved

/- Tom names a relay, tests it, and names another one while a second test is under way. -/

def anyMail : Lettre := ⟨fun _ => none, fun _ => none, fun _ => none⟩

def online : Env := ⟨none, fun _ => .found [.v4 ⟨142, 250, 27, 108⟩], none⟩

def relayAt (host password : String) : EmailSettingsRequest :=
  ⟨some (text host), some 465, some (text "tom"), some (text password), some (text "tom@example.com"), true⟩

def firstSave : List (Label Request Env) :=
  [.invoke (.save Colleagues.tom (relayAt "smtp.example.com" "first")), .advance 0 online, .advance 0 online]

def firstTest : List (Label Request Env) :=
  [.invoke (.test Colleagues.tom (text "sam@example.com")), .advance 1 online, .advance 1 online, .advance 1 online]

def secondTest : List (Label Request Env) :=
  [.invoke (.test Colleagues.tom (text "sam@example.com")), .advance 2 online,
    .invoke (.save Colleagues.tom (relayAt "mail.example.com" "second")), .advance 3 online, .advance 2 online,
    .advance 2 online]

def nothingSaved : State := ⟨.empty, []⟩

def idle : Running := ⟨nothingSaved, []⟩

def ran (config : Running) (labels : List (Label Request Env)) : Running :=
  ((AnyRelays anyMail nothingSaved).machine.execute config labels).getD config

def saved : Running := ran idle firstSave

def tested : Running := ran saved firstTest

def testedTwice : Running := ran tested secondTest

-- The second test goes to the first relay with the second password: the two are read one after the other.
example : testedTwice.store.connections.map (fun k => (k.name, k.login)) =
    [(text "smtp.example.com", some (text "tom", text "first")),
      (text "smtp.example.com", some (text "tom", text "second"))] := by decide

theorem saved_leads : (AnyRelays anyMail nothingSaved).machine.Leads idle saved := by
  have run : ((AnyRelays anyMail nothingSaved).machine.execute idle firstSave).isSome = true := by decide
  exact leads_getD run

theorem tested_leads : (AnyRelays anyMail nothingSaved).machine.Leads saved tested := by
  have run : ((AnyRelays anyMail nothingSaved).machine.execute saved firstTest).isSome = true := by decide
  exact leads_getD run

theorem testedTwice_leads : (AnyRelays anyMail nothingSaved).machine.Leads tested testedTwice := by
  have run : ((AnyRelays anyMail nothingSaved).machine.execute tested secondTest).isSome = true := by decide
  exact leads_getD run

theorem testedTwice_reachable : (AnyRelays anyMail nothingSaved).machine.Reachable testedTwice :=
  ⟨idle, ⟨rfl, rfl⟩, (saved_leads.trans tested_leads).trans testedTwice_leads⟩

theorem toms_connections : testedTwice.store.connections.length = 2 ∧
    ∀ k ∈ testedTwice.store.connections, ∃ call ∈ testedTwice.calls,
      Dialled nothingSaved testedTwice.calls call.request.company k := by
  constructor
  · decide
  · exact connections_sound rfl testedTwice_reachable

theorem toms_relay_used : held 1 tested.store = held 1 saved.store ∧
    ∀ j call, saved.calls.length ≤ j → tested.calls[j]? = some call → call.request.company = 1 →
      ∀ creds message answer, (⟨.transmit creds message, answer⟩ : Event Statement Answer) ∈ call.trace →
        creds = .of (held 1 saved.store).1 (held 1 saved.store).2 := by
  have run : ((relays anyMail false (· = nothingSaved) fun st => !savesFor 1 st).machine.execute saved firstTest).isSome =
      true := by decide
  have leads := leads_getD run
  have same : ((relays anyMail false (· = nothingSaved) fun st => !savesFor 1 st).machine.execute saved firstTest).getD
      saved = tested := rfl
  rw [same] at leads
  exact (saved_relay_used anyMail false 1).2 _ saved tested leads

end RelaySettings
