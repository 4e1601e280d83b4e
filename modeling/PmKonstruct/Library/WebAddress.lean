import PmKonstruct.Library.IpAddress

/- The addresses of the web as a client reads them: the states of the URL Standard up to the path, for the schemes that have
   a host and a default port. The conversion of a domain to ASCII and the two readers of numeric hosts come from outside,
   with what the Standard promises of the conversion. -/
namespace WebAddress
open PlainText IpAddress

/-- Percent decoding and the mapping to ASCII, and the hosts that are written as numbers. -/
structure HostRules where
  toAscii : Text → Option Text
  ipv4 : Text → Option Ipv4Addr
  ipv6 : Text → Option Ipv6Addr
  /-- Letters and dots come out in lower case. -/
  plain : ∀ t ascii, (∀ c ∈ t, c.isAlpha ∨ c = '.') → toAscii t = some ascii → ascii = toAsciiLowercase t
  /-- A label is converted on its own, so whatever stands before plain labels leaves them alone. -/
  labels : ∀ front tail ascii, (∀ c ∈ tail, c.isAlpha ∨ c = '.') → toAscii (front ++ '.' :: tail) = some ascii →
    ('.' :: toAsciiLowercase tail) <:+ ascii
  /-- A colon is never mapped away. -/
  colon : ∀ t ascii, ':' ∈ t → toAscii t = some ascii → ':' ∈ ascii
  /-- White space outside ASCII is mapped to a space, where it is let through at all. -/
  space : ∀ t ascii, (∃ c ∈ t, isWhitespace c ∧ 0x80 ≤ c.toNat) → toAscii t = some ascii → ' ' ∈ ascii

inductive Host where
  | domain (name : Text)
  | ip (address : IpAddr)
  deriving DecidableEq, Repr

/-- The port is absent where it is the scheme's own. -/
structure Url where
  scheme : Text
  username : Text
  password : Text
  host : Host
  port : Option Nat
  deriving DecidableEq, Repr

def defaultPorts : List (Text × Nat) :=
  [(text "ftp", 21), (text "http", 80), (text "https", 443), (text "ws", 80), (text "wss", 443)]

def defaultPort (scheme : Text) : Option Nat := defaultPorts.lookup scheme

def Url.includesCredentials (url : Url) : Bool := url.username ≠ [] || url.password ≠ []

def Url.knownPort (url : Url) : Option Nat := url.port.or (defaultPort url.scheme)

/- What is taken off before reading. -/

/-- A C0 control or a space. -/
def isC0OrSpace (c : Char) : Bool := c.toNat ≤ 0x20

def isTabOrNewline (c : Char) : Bool := c = '\t' || c = '\n' || c = '\r'

def cleaned (t : Text) : Text := ((t.dropWhile isC0OrSpace).rdropWhile isC0OrSpace).filter (!isTabOrNewline ·)

/- The parts. -/

def isSchemeChar (c : Char) : Bool := c.isAlphanum || c = '+' || c = '-' || c = '.'

def readScheme (t : Text) : Option (Text × Text) := do
  let (scheme, rest) ← splitOnce ':' t
  if scheme.head?.any Char.isAlpha ∧ scheme.all isSchemeChar then some (toAsciiLowercase scheme, rest) else none

/-- A backslash is a slash. -/
def isSlash (c : Char) : Bool := c = '/' || c = '\\'

def endsAuthority (c : Char) : Bool := isSlash c || c = '?' || c = '#'

/-- However many slashes stand before it. -/
def authorityOf (t : Text) : Text := (t.dropWhile isSlash).takeWhile (!endsAuthority ·)

/-- The username, the password, and the rest after the last at sign. -/
def splitCredentials (authority : Text) : Text × Text × Text :=
  match rsplitOnce '@' authority with
  | none => ([], [], authority)
  | some (userinfo, rest) =>
    match splitOnce ':' userinfo with
    | none => (userinfo, [], rest)
    | some (username, password) => (username, password, rest)

/-- At the first colon that is not inside brackets. -/
def splitPort (inside : Bool) : Text → Text × Option Text
  | [] => ([], none)
  | c :: rest =>
    if c = ':' ∧ inside = false then ([], some rest)
    else
      let (host, port) := splitPort (if c = '[' then true else if c = ']' then false else inside) rest
      (c :: host, port)

def readPort (default : Nat) : Option Text → Option (Option Nat)
  | none => some none
  | some digits =>
    if digits.all Char.isDigit then
      let value := digits.foldl (fun n c => n * 10 + (c.toNat - 48)) 0
      if digits = [] then some none
      else if value > 65535 then none
      else some (if value = default then none else some value)
    else none

/-- The forbidden host code points, the C0 controls, the percent sign and DELETE. -/
def isForbiddenDomain (c : Char) : Bool :=
  c.toNat ≤ 0x20 || c.toNat = 0x7f || c ∈ ['#', '/', ':', '<', '>', '?', '@', '[', '\\', ']', '^', '|', '%']

/-- One empty label at the end is passed over. -/
def lastLabel (t : Text) : Text :=
  (if t.getLast? = some '.' then t.dropLast else t).rtakeWhile (· ≠ '.')

def isHexNumber : Text → Bool
  | '0' :: x :: rest => (x = 'x' || x = 'X') && rest.all fun c => (hexDigit c).isSome
  | _ => false

def endsInNumber (t : Text) : Bool :=
  (lastLabel t ≠ [] && (lastLabel t).all Char.isDigit) || isHexNumber (lastLabel t)

def readHost (rules : HostRules) (t : Text) : Option Host :=
  if t.head? = some '[' then
    if t.getLast? = some ']' then (rules.ipv6 t.tail.dropLast).map fun ip => .ip (.v6 ip) else none
  else do
    let ascii ← rules.toAscii t
    if ascii = [] ∨ ascii.any isForbiddenDomain then none
    else if endsInNumber ascii then (rules.ipv4 ascii).map fun ip => .ip (.v4 ip)
    else some (.domain ascii)

/-- A host is there to be read, and then a port. -/
def readAddress (rules : HostRules) (default : Nat) (address : Text) : Option (Host × Option Nat) := do
  let (hostPart, portPart) := splitPort false address
  if hostPart = [] then none
  else
    let host ← readHost rules hostPart
    let port ← readPort default portPart
    return (host, port)

/-- Other schemes are not connected to. -/
def parseUrl (rules : HostRules) (t : Text) : Option Url := do
  let (scheme, rest) ← readScheme (cleaned t)
  let default ← defaultPort scheme
  let (username, password, address) := splitCredentials (authorityOf rest)
  let (host, port) ← readAddress rules default address
  return ⟨scheme, username, password, host, port⟩

/- Characters. -/

section Characters
variable {c : Char} {w : Text}

theorem whitespace_code (space : isWhitespace c = true) : (9 ≤ c.toNat ∧ c.toNat ≤ 13) ∨ c.toNat = 32 ∨ 0x80 ≤ c.toNat := by
  simp only [isWhitespace, Bool.or_eq_true, Bool.and_eq_true, decide_eq_true_eq, beq_iff_eq] at space
  omega

theorem alphanumeric_code (alphanumeric : c.isAlphanum = true) : 48 ≤ c.toNat ∧ c.toNat ≤ 122 := by
  have code : (65 ≤ c.toNat ∧ c.toNat ≤ 90 ∨ 97 ≤ c.toNat ∧ c.toNat ≤ 122) ∨ 48 ≤ c.toNat ∧ c.toNat ≤ 57 := by
    rcases Bool.or_eq_true_iff.mp alphanumeric with letter | digit
    · exact .inl (isAlpha_iff.mp letter)
    · exact .inr (by simpa [Char.isDigit, UInt32.le_iff_toNat_le] using digit)
  omega

theorem digit_visible (digit : c.isDigit = true) : isWhitespace c = false := by
  have := alphanumeric_code (show c.isAlphanum = true by rw [Char.isAlphanum, digit, Bool.or_true])
  refine Bool.eq_false_iff.mpr fun space => ?_
  have := whitespace_code space
  omega

theorem alphanumeric_kept (alphanumeric : c.isAlphanum = true) : isC0OrSpace c = false := by
  have := alphanumeric_code alphanumeric
  refine decide_eq_false ?_
  omega

/-- What white space a client does not take off is outside ASCII. -/
theorem space_outside (space : isWhitespace c = true) (kept : isC0OrSpace c = false) : 0x80 ≤ c.toNat := by
  have code := whitespace_code space
  have above : ¬ c.toNat ≤ 32 := of_decide_eq_false kept
  omega

theorem kept_no_break (kept : isC0OrSpace c = false) : (!isTabOrNewline c) = true := by
  rw [Bool.not_eq_true']
  refine Bool.eq_false_iff.mpr fun taken => ?_
  simp only [isTabOrNewline, Bool.or_eq_true, decide_eq_true_eq] at taken
  rcases taken with (rfl | rfl) | rfl <;> cases kept

theorem filter_kept (kept : isC0OrSpace c = false) :
    (c :: w).filter (!isTabOrNewline ·) = c :: w.filter (!isTabOrNewline ·) :=
  List.filter_cons_of_pos (kept_no_break kept)

theorem space_inside (space : isWhitespace c = true) : (!endsAuthority c) = true := by
  rw [Bool.not_eq_true']
  refine Bool.eq_false_iff.mpr fun ends => ?_
  simp only [endsAuthority, isSlash, Bool.or_eq_true, decide_eq_true_eq] at ends
  rcases ends with ((rfl | rfl) | rfl) | rfl <;> cases space

theorem blank_ne {d : Char} (blank : w.all isWhitespace = true) (visible : isWhitespace d = false) : d ∉ w := by
  intro member
  rw [List.all_eq_true.mp blank d member] at visible
  cases visible

end Characters

/- Hosts. -/

section Hosts
variable {rules : HostRules} {t : Text} {host : Host}

/-- Outside brackets a host is what the conversion makes of it. -/
theorem readHost_domain (open_ : t.getLast? ≠ some ']') (read : readHost rules t = some host) :
    ∃ ascii, rules.toAscii t = some ascii ∧ ascii.any isForbiddenDomain = false ∧
      (endsInNumber ascii = false → host = .domain ascii) := by
  rw [readHost] at read
  split at read
  · cases read
  · obtain ⟨ascii, converted, read⟩ := Option.bind_eq_some_iff.mp read
    refine ⟨ascii, converted, ?_⟩
    split at read
    · cases read
    · next usable =>
      refine ⟨by simpa using fun found => usable (.inr found), fun named => ?_⟩
      rw [named] at read
      exact (Option.some.inj read).symm

/-- A forbidden character that the conversion keeps is no part of a host. -/
theorem readHost_forbidden {c : Char} (open_ : t.getLast? ≠ some ']') (forbidden : isForbiddenDomain c = true)
    (kept : ∀ ascii, rules.toAscii t = some ascii → c ∈ ascii) : readHost rules t = none := by
  cases read : readHost rules t with
  | none => rfl
  | some host =>
    obtain ⟨ascii, converted, clean, -⟩ := readHost_domain open_ read
    rw [List.any_eq_false] at clean
    exact absurd forbidden (clean c (kept ascii converted))

theorem letter_not_digit {c : Char} (letter : c.isAlpha = true) : c.isDigit = false := by
  have code := isAlpha_iff.mp letter
  have notDigit : ¬ (48 ≤ c.toNat ∧ c.toNat ≤ 57) := by omega
  simpa [Char.isDigit, UInt32.le_iff_toNat_le] using notDigit

/-- A last label of letters is no number. -/
theorem endsInNumber_letters {front label : Text} (letters : ∀ c ∈ label, c.isAlpha = true) (nonempty : label ≠ []) :
    endsInNumber (front ++ '.' :: label) = false := by
  have notDot : ∀ c ∈ label, (c ≠ '.') := by
    rintro c member rfl
    cases letters _ member
  have last : lastLabel (front ++ '.' :: label) = label := by
    have ends : (front ++ '.' :: label).getLast? ≠ some '.' := by
      rw [List.getLast?_append_of_ne_nil _ (List.cons_ne_nil _ _), List.getLast?_cons_of_ne_nil nonempty]
      exact fun dot => notDot _ (List.mem_of_getLast? dot) rfl
    rw [lastLabel, if_neg ends, List.rtakeWhile, List.reverse_append, List.reverse_cons, List.append_assoc,
      List.takeWhile_append_of_pos (by simpa using notDot)]
    simp
  obtain ⟨c, rest, rfl⟩ := List.exists_cons_of_ne_nil nonempty
  have letter := letters c List.mem_cons_self
  have digits : (c :: rest).all Char.isDigit = false := by
    rw [List.all_cons, letter_not_digit letter, Bool.false_and]
  have hex : isHexNumber (c :: rest) = false := by
    cases rest with
    | nil => rw [isHexNumber]; simp
    | cons x rest =>
      rw [isHexNumber]
      rintro _ _ same
      rw [(List.cons.inj same).1] at letter
      cases letter
  rw [endsInNumber, last, digits, hex, Bool.and_false, Bool.or_false]

end Hosts

/- Schemes and ports. -/

theorem readScheme_none {c : Char} {t : Text} (letterless : c.isAlpha = false) : readScheme (c :: t) = none := by
  rw [readScheme]
  cases found : splitOnce ':' (c :: t) with
  | none => rfl
  | some parts =>
    obtain ⟨scheme, rest⟩ := parts
    have begun : scheme.head?.any Char.isAlpha = false := by
      cases scheme with
      | nil => rfl
      | cons d more =>
        have shape := (splitOnce_eq_some.mp found).2
        rw [List.cons_append, List.cons.injEq] at shape
        rw [← shape.1]
        exact letterless
    show (if scheme.head?.any Char.isAlpha = true ∧ scheme.all isSchemeChar = true then _ else none) = none
    rw [begun]
    exact if_neg (fun both => Bool.false_ne_true both.1)

/-- Either nothing is cut off, or the cut is at a colon. -/
theorem splitPort_cases (inside : Bool) (t : Text) :
    splitPort inside t = (t, none) ∨ ∃ host port, splitPort inside t = (host, some port) ∧ t = host ++ ':' :: port := by
  induction t generalizing inside with
  | nil => exact .inl rfl
  | cons c rest ih =>
    rw [splitPort]
    split
    · next colon =>
      rw [colon.1]
      exact .inr ⟨[], rest, rfl, rfl⟩
    · rcases ih (if c = '[' then true else if c = ']' then false else inside) with whole | ⟨host, port, cut, shape⟩
      · rw [whole]
        exact .inl rfl
      · rw [cut]
        exact .inr ⟨c :: host, port, rfl, by rw [shape]; rfl⟩

theorem readPort_digits {default : Nat} {digits : Text} {port : Option Nat}
    (read : readPort default (some digits) = some port) : ∀ c ∈ digits, c.isDigit = true := by
  simp only [readPort] at read
  split at read
  · next all => exact List.all_eq_true.mp all
  · cases read

/-- The scheme's own port is not kept. -/
theorem readPort_other {default n : Nat} {portPart : Option Text} (read : readPort default portPart = some (some n)) :
    n ≠ default := by
  cases portPart with
  | none => cases read
  | some digits =>
    simp only [readPort] at read
    split at read
    · split at read
      · cases read
      · split at read
        · cases read
        · next known =>
          split at read
          · cases read
          · next other =>
            cases read
            exact other
    · cases read

theorem readAddress_parts {rules : HostRules} {default : Nat} {address : Text} {host : Host} {port : Option Nat}
    (read : readAddress rules default address = some (host, port)) :
    readHost rules (splitPort false address).1 = some host ∧ readPort default (splitPort false address).2 = some port := by
  simp only [readAddress] at read
  split at read
  · cases read
  · obtain ⟨found, readHost, read⟩ := Option.bind_eq_some_iff.mp read
    obtain ⟨number, readPort, done⟩ := Option.bind_eq_some_iff.mp read
    cases done
    exact ⟨readHost, readPort⟩

/- What cleaning leaves. -/

section Cleaning
variable {lead body rest : Text} {first last : Char}

theorem rdropWhile_append {p : Char → Bool} (ends : body.getLast? = some last) (kept : p last = false) :
    (body ++ rest).rdropWhile p = body ++ rest.rdropWhile p := by
  induction rest using List.reverseRecOn with
  | nil =>
    obtain ⟨front, rfl⟩ := List.getLast?_eq_some_iff.mp ends
    rw [List.append_nil, List.rdropWhile_nil, List.append_nil, List.rdropWhile_concat_neg _ _ _ (by simp [kept])]
  | append_singleton rest c ih =>
    rw [← List.append_assoc, List.rdropWhile_concat, List.rdropWhile_concat]
    split
    · exact ih
    · rw [List.append_assoc]

/-- A body between two characters that stay. -/
theorem cleaned_append (blank : lead.all isC0OrSpace = true) (starts : body.head? = some first)
    (keptFirst : isC0OrSpace first = false) (ends : body.getLast? = some last) (keptLast : isC0OrSpace last = false) :
    cleaned (lead ++ (body ++ rest)) =
      body.filter (!isTabOrNewline ·) ++ (rest.rdropWhile isC0OrSpace).filter (!isTabOrNewline ·) := by
  have begun : (body ++ rest).dropWhile isC0OrSpace = body ++ rest := by
    obtain ⟨more, rfl⟩ := List.head?_eq_some_iff.mp starts
    simp [keptFirst]
  rw [cleaned, List.dropWhile_append_of_pos (by simpa using blank), begun, rdropWhile_append ends keptLast,
    List.filter_append]

end Cleaning

theorem dropWhile_congr {p q : Char → Bool} {t : Text} (agree : ∀ c ∈ t, p c = q c) : t.dropWhile p = t.dropWhile q := by
  induction t with
  | nil => rfl
  | cons c rest ih =>
    rw [List.dropWhile_cons, List.dropWhile_cons, agree c List.mem_cons_self,
      ih fun d member => agree d (List.mem_cons_of_mem _ member)]

/-- Up to the first backslash, or with what comes after where there is none. -/
def cutAtBackslash (written after : Text) : Text :=
  match splitOnce '\\' written with
  | some (front, _) => front
  | none => written ++ after

/-- Where only backslashes can end an authority, the first after its beginning does. -/
theorem authorityOf_append {written more : Text} (plain : ∀ c ∈ written, endsAuthority c = decide (c = '\\'))
    (visible : written.dropWhile (· = '\\') ≠ []) :
    authorityOf (written ++ more) =
      cutAtBackslash (written.dropWhile (· = '\\')) (more.takeWhile (!endsAuthority ·)) := by
  have slash : ∀ c ∈ written, isSlash c = decide (c = '\\') := by
    intro c member
    have ends := plain c member
    by_cases back : c = '\\'
    · rw [back]
      rfl
    · rw [decide_eq_false back] at ends ⊢
      simp only [endsAuthority, Bool.or_eq_false_iff] at ends
      exact ends.1.1
  have same : written.dropWhile isSlash = written.dropWhile (· = '\\') := dropWhile_congr slash
  have inside : ∀ c ∈ written.dropWhile (· = '\\'), c ≠ '\\' → (!endsAuthority c) = true := by
    intro c member other
    rw [plain c ((List.dropWhile_suffix _).subset member), decide_eq_false other]
    rfl
  rw [authorityOf, List.dropWhile_append, same, if_neg (by simpa using visible)]
  generalize written.dropWhile (· = '\\') = kept at *
  rw [cutAtBackslash]
  cases found : splitOnce '\\' kept with
  | none =>
    have absent := splitOnce_eq_none.mp found
    exact List.takeWhile_append_of_pos fun c member => inside c member fun back => absent (back ▸ member)
  | some parts =>
    obtain ⟨front, rest⟩ := parts
    obtain ⟨absent, rfl⟩ := splitOnce_eq_some.mp found
    rw [List.append_assoc, List.takeWhile_append_of_pos fun c member =>
      inside c (List.mem_append_left _ member) fun back => absent (back ▸ member)]
    exact List.append_nil front

theorem splitCredentials_none {address : Text} (anonymous : '@' ∉ address) :
    splitCredentials address = ([], [], address) := by
  rw [splitCredentials, rsplitOnce_eq_none.mpr anonymous]

theorem parseUrl_https {rules : HostRules} {t rest : Text} (shown : cleaned t = text "https://" ++ rest)
    (anonymous : '@' ∉ authorityOf rest) : parseUrl rules t =
      (readAddress rules 443 (authorityOf rest)).map fun (host, port) => ⟨text "https", [], [], host, port⟩ := by
  rw [parseUrl, shown]
  change (match splitCredentials (authorityOf rest) with
    | (username, password, address) => (readAddress rules 443 address).bind fun (host, port) =>
      some (Url.mk (text "https") username password host port)) = _
  rw [splitCredentials_none anonymous]
  show (readAddress rules 443 (authorityOf rest)).bind _ = _
  cases readAddress rules 443 (authorityOf rest) <;> rfl

end WebAddress
