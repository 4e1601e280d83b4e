import PmKonstruct.Library.WebAddress
import PmKonstruct.Notifications.PushEndpoints

/- Where an endpoint that passes the check leads a client. The two read it alike but for the backslash, which ends the
   authority for the client and not for the check: what the client connects to is what stands before the first one. -/
namespace PushTargets
open PlainText PushEndpoints WebAddress

/-- One of the push services, or a name below it. -/
def Served (name : Text) : Prop := ∃ s ∈ allowedPushHosts, name = s ∨ ('.' :: s) <:+ name

def Permitted : Host → Prop
  | .domain name => Served name
  | .ip _ => False

def Safe (url : Url) : Prop :=
  url.scheme = text "https" ∧ url.knownPort = some 443 ∧ url.includesCredentials = false ∧ Permitted url.host

/-- Without tabs and newlines, and without the backslashes that a client takes for slashes before it. -/
def seen (written : Text) : Text := (written.filter (!isTabOrNewline ·)).dropWhile (· = '\\')

/-- The authority that was checked, as far as it goes, in the eyes of a client. -/
def inner (endpoint : Text) : Text := seen (authority ((trim endpoint).drop 8))

/-- Nothing before the scheme but what a client takes off. -/
def Leads (endpoint : Text) : Prop := (endpoint.takeWhile isWhitespace).all isC0OrSpace = true

/-- Before a backslash stands a host and a port of its own, and not those of a push service. -/
def Misread (rules : HostRules) (endpoint : Text) : Prop :=
  Leads endpoint ∧ ∃ front rest, splitOnce '\\' (inner endpoint) = some (front, rest) ∧
    ∃ host port, readAddress rules 443 front = some (host, port) ∧ ¬ (Permitted host ∧ port = none)

/-- White space that a client leaves at the end. -/
def Blank (w : Text) : Prop := w.all isWhitespace = true ∧ ∃ c ∈ w, 0x80 ≤ c.toNat

/- An authority that ends in an allowed name. -/

section Ends
variable {rules : HostRules} {host : Text}

theorem endsAllowed_last (ends : EndsAllowed host) : ∃ c, host.getLast? = some c ∧ c.isAlpha = true := by
  obtain ⟨front, tail, rfl, listed, -⟩ := ends
  have final : ∀ s ∈ allowedPushHosts, s.getLast? = some 'm' := by decide
  have lower := final _ listed
  rw [toAsciiLowercase, List.getLast?_map, Option.map_eq_some_iff] at lower
  obtain ⟨c, last, m⟩ := lower
  refine ⟨c, ?_, isAlpha_of_toLower (by rw [m]; rfl)⟩
  rw [List.getLast?_append_of_ne_nil _ (by rintro rfl; cases last), last]

theorem listed_letters {tail : Text} (listed : toAsciiLowercase tail ∈ allowedPushHosts) :
    ∀ c ∈ tail, c.isAlpha ∨ c = '.' := by
  have plain : ∀ s ∈ allowedPushHosts, (s.all fun c => c.isAlpha || c = '.') = true := by decide
  intro c member
  have lower := List.all_eq_true.mp (plain _ listed) c.toLower (List.mem_map_of_mem member)
  rw [Bool.or_eq_true, decide_eq_true_eq] at lower
  exact lower.imp isAlpha_of_toLower (toLower_eq_iff (by rfl)).mp

/-- Whatever a client makes of it, it is the name of a push service. -/
theorem readHost_permitted {found : Host} (ends : EndsAllowed host) (read : readHost rules host = some found) :
    Permitted found := by
  obtain ⟨c, last, letter⟩ := endsAllowed_last ends
  have open_ : host.getLast? ≠ some ']' := by
    rw [last]
    rintro same
    cases same
    cases letter
  obtain ⟨ascii, converted, -, named⟩ := readHost_domain open_ read
  obtain ⟨front, tail, rfl, listed, edge⟩ := ends
  have plain := listed_letters listed
  have served : Served ascii := by
    rcases edge with rfl | dot
    · exact ⟨_, listed, .inl (rules.plain tail ascii plain converted)⟩
    · obtain ⟨more, rfl⟩ := List.getLast?_eq_some_iff.mp dot
      rw [List.append_assoc, List.singleton_append] at converted
      exact ⟨_, listed, .inr (rules.labels more tail ascii plain converted)⟩
  have com : ∀ s ∈ allowedPushHosts, s = s.take (s.length - 4) ++ '.' :: text "com" := by decide
  have letters : ∀ c ∈ text "com", c.isAlpha = true := List.all_eq_true.mp (by decide)
  have number : endsInNumber ascii = false := by
    obtain ⟨s, listed, rfl | ⟨more, rfl⟩⟩ := served
    · rw [com _ listed]
      exact endsInNumber_letters letters (by decide)
    · rw [com _ listed, ← List.cons_append, ← List.append_assoc]
      exact endsInNumber_letters letters (by decide)
  rw [named number]
  exact served

/-- What a client takes out of an authority is not in the allowed name. -/
theorem endsAllowed_seen (ends : EndsAllowed host) : EndsAllowed (seen host) := by
  obtain ⟨front, tail, rfl, listed, edge⟩ := ends
  have plain := listed_letters listed
  have visible : ∀ c ∈ tail, (!isTabOrNewline c) = true ∧ c ≠ '\\' := by
    intro c member
    rcases plain c member with letter | rfl
    · refine ⟨?_, ?_⟩
      · rw [Bool.not_eq_true']
        refine Bool.eq_false_iff.mpr fun taken => ?_
        simp only [isTabOrNewline, Bool.or_eq_true, decide_eq_true_eq] at taken
        rcases taken with (rfl | rfl) | rfl <;> cases letter
      · rintro rfl
        cases letter
    · exact ⟨rfl, by decide⟩
  have kept : tail.filter (!isTabOrNewline ·) = tail := List.filter_eq_self.mpr fun c member => (visible c member).1
  obtain ⟨c, rest, rfl⟩ : ∃ c rest, tail = c :: rest := by
    cases tail with
    | nil => exact absurd listed (by decide)
    | cons c rest => exact ⟨c, rest, rfl⟩
  have start : (c :: rest).dropWhile (· = '\\') = c :: rest := by
    simp [(visible c List.mem_cons_self).2]
  rw [seen, List.filter_append, kept, List.dropWhile_append]
  split
  · rw [start]
    exact ⟨[], c :: rest, rfl, listed, .inl rfl⟩
  · next left =>
    refine ⟨_, c :: rest, rfl, listed, .inr ?_⟩
    rcases edge with rfl | dot
    · exact absurd rfl left
    · obtain ⟨more, rfl⟩ := List.getLast?_eq_some_iff.mp dot
      rw [List.filter_append, List.dropWhile_append]
      split
      · rfl
      · exact List.getLast?_concat

theorem mem_of_seen {c : Char} {written : Text} (member : c ∈ seen written) : c ∈ written :=
  (List.mem_filter.mp ((List.dropWhile_suffix _).subset member)).1

theorem seen_parts {written : Text} (ends : EndsAllowed host)
    (parts : (written = host ∧ ':' ∉ host) ∨ written = host ++ text ":443") :
    (seen written = seen host ∧ ':' ∉ seen host) ∨ seen written = seen host ++ text ":443" := by
  rcases parts with ⟨rfl, bare⟩ | rfl
  · exact .inl ⟨rfl, fun colon => bare (mem_of_seen colon)⟩
  · obtain ⟨c, last, -⟩ := endsAllowed_last (endsAllowed_seen ends)
    have visible : (seen host).isEmpty = false := by
      rw [List.isEmpty_eq_false_iff]
      exact List.ne_nil_of_mem (List.mem_of_getLast? last)
    refine .inr ?_
    rw [seen, List.filter_append, List.dropWhile_append, ← seen, visible]
    rfl

theorem blank_last {w : Text} (blank : Blank w) : ∃ c, w.getLast? = some c ∧ isWhitespace c = true := by
  obtain ⟨all, d, member, -⟩ := blank
  have last := List.getLast?_eq_some_getLast (List.ne_nil_of_mem member)
  exact ⟨_, last, List.all_eq_true.mp all _ (List.mem_of_getLast? last)⟩

theorem written_last {written : Text} (ends : EndsAllowed host)
    (parts : (written = host ∧ ':' ∉ host) ∨ written = host ++ text ":443") :
    ∃ c, written.getLast? = some c ∧ c.isAlphanum = true := by
  rcases parts with ⟨rfl, -⟩ | rfl
  · obtain ⟨c, last, letter⟩ := endsAllowed_last ends
    exact ⟨c, last, by rw [Char.isAlphanum, letter, Bool.true_or]⟩
  · exact ⟨'3', by rw [List.getLast?_append_of_ne_nil _ (by decide)]; rfl, rfl⟩

/-- Without a backslash the client reads the host and the port that were checked. -/
theorem readAddress_permitted {written w : Text} {found : Host} {port : Option Nat} (ends : EndsAllowed host)
    (parts : (written = host ∧ ':' ∉ host) ∨ written = host ++ text ":443") (after : w = [] ∨ Blank w)
    (read : readAddress rules 443 (written ++ w) = some (found, port)) : Permitted found ∧ port = none := by
  obtain ⟨hostRead, portRead⟩ := readAddress_parts read
  have noColon : ':' ∉ w := by
    rcases after with rfl | blank
    · exact List.not_mem_nil
    · exact blank_ne blank.1 (by decide)
  have open_ : (written ++ w).getLast? ≠ some ']' := by
    rcases after with rfl | blank
    · obtain ⟨c, last, alphanumeric⟩ := written_last ends parts
      rw [List.append_nil, last]
      rintro same
      cases same
      cases alphanumeric
    · obtain ⟨c, last, space⟩ := blank_last blank
      rw [List.getLast?_append_of_ne_nil _ (List.ne_nil_of_mem (List.mem_of_getLast? last)), last]
      rintro same
      cases same
      cases space
  rcases splitPort_cases false (written ++ w) with whole | ⟨before, digits, cut, shape⟩
  · rw [whole] at hostRead portRead
    cases portRead
    refine ⟨?_, rfl⟩
    rcases parts with ⟨rfl, bare⟩ | rfl
    · rcases after with rfl | ⟨all, c, member, high⟩
      · rw [List.append_nil] at hostRead
        exact readHost_permitted ends hostRead
      · rw [readHost_forbidden open_ (c := ' ') (by decide) ?_] at hostRead
        · cases hostRead
        · exact fun ascii => rules.space _ ascii
            ⟨c, List.mem_append_right _ member, List.all_eq_true.mp all c member, high⟩
    · rw [readHost_forbidden open_ (c := ':') (by decide) fun ascii => rules.colon _ ascii (by simp [text])] at hostRead
      cases hostRead
  · rw [cut] at hostRead portRead
    have numeric := readPort_digits portRead
    have digitsOnly : ':' ∉ digits := fun colon => absurd (numeric _ colon) (by decide)
    rcases parts with ⟨rfl, bare⟩ | rfl
    · have colon : ':' ∈ written ++ w := shape ▸ List.mem_append_right _ List.mem_cons_self
      rcases List.mem_append.mp colon with inside | behind
      · exact absurd inside bare
      · exact absurd behind noColon
    · rcases after with rfl | blank
      · rw [List.append_nil] at shape
        have checked : rsplitOnce ':' (host ++ text ":443") = some (host, text "443") :=
          rsplitOnce_eq_some.mpr ⟨by decide, rfl⟩
        rw [rsplitOnce_eq_some.mpr ⟨digitsOnly, shape⟩, Option.some.injEq, Prod.mk.injEq] at checked
        rw [checked.1] at hostRead
        rw [checked.2] at portRead
        cases portRead
        exact ⟨readHost_permitted ends hostRead, rfl⟩
      · obtain ⟨c, last, space⟩ := blank_last blank
        rw [← List.getLast?_append_of_ne_nil _ (List.ne_nil_of_mem (List.mem_of_getLast? last)), shape,
          List.getLast?_append_of_ne_nil _ (List.cons_ne_nil _ _)] at last
        rcases List.mem_cons.mp (List.mem_of_getLast? last) with rfl | member
        · cases space
        · rw [digit_visible (numeric c member)] at space
          cases space

end Ends

/- The endpoint as a client sees it. -/

section Endpoint
variable {rules : HostRules} {endpoint rest host : Text}

/-- With anything else before the scheme there is no scheme. -/
theorem parseUrl_none (stopped : ¬ Leads endpoint) : parseUrl rules endpoint = none := by
  have spaces : ∀ c ∈ endpoint.takeWhile isWhitespace, isWhitespace c = true := fun c => List.mem_takeWhile_imp
  have cut : endpoint = endpoint.takeWhile isWhitespace ++ endpoint.dropWhile isWhitespace :=
    List.takeWhile_append_dropWhile.symm
  rw [Leads] at stopped
  generalize endpoint.takeWhile isWhitespace = lead at *
  have halves : lead = lead.takeWhile isC0OrSpace ++ lead.dropWhile isC0OrSpace := List.takeWhile_append_dropWhile.symm
  have first := List.head?_dropWhile_not isC0OrSpace lead
  cases left : lead.dropWhile isC0OrSpace with
  | nil =>
    rw [left, List.append_nil] at halves
    refine absurd (List.all_eq_true.mpr fun c member => ?_) stopped
    rw [halves] at member
    exact List.mem_takeWhile_imp member
  | cons c more =>
    rw [left] at halves first
    have kept : isC0OrSpace c = false := by simpa using first
    have outside := space_outside (spaces c (halves ▸ List.mem_append_right _ List.mem_cons_self)) kept
    have letterless : c.isAlpha = false := by
      refine Bool.eq_false_iff.mpr fun letter => ?_
      have := alphanumeric_code (show c.isAlphanum = true by rw [Char.isAlphanum, letter, Bool.true_or])
      omega
    have seen := @cleaned_append (lead.takeWhile isC0OrSpace) [c] (more ++ endpoint.dropWhile isWhitespace) c c
      (List.all_eq_true.mpr fun d => List.mem_takeWhile_imp) rfl kept rfl kept
    have whole : lead.takeWhile isC0OrSpace ++ ([c] ++ (more ++ endpoint.dropWhile isWhitespace)) = endpoint := by
      rw [List.singleton_append, ← List.cons_append, ← List.append_assoc, ← halves, ← cut]
    rw [whole, filter_kept kept, List.filter_nil, List.singleton_append] at seen
    rw [parseUrl, seen, readScheme_none letterless]
    rfl

/-- After the authority comes its end, or nothing but white space. -/
theorem after_authority {remainder back : Text} (delimited : ∀ d, remainder.head? = some d → isDelimiter d = true)
    (blank : back.all isWhitespace = true) {more : Text}
    (left : more = ((remainder ++ back).rdropWhile isC0OrSpace).filter (!isTabOrNewline ·)) :
    more.takeWhile (!endsAuthority ·) = [] ∨ Blank (more.takeWhile (!endsAuthority ·)) := by
  cases remainder with
  | cons d tail =>
    have delimiter := delimited d rfl
    have kept : isC0OrSpace d = false ∧ endsAuthority d = true := by
      simp only [isDelimiter, Bool.or_eq_true, decide_eq_true_eq] at delimiter
      rcases delimiter with (rfl | rfl) | rfl <;> exact ⟨by decide, by decide⟩
    have stays := @rdropWhile_append [d] (tail ++ back) d isC0OrSpace rfl kept.1
    rw [List.singleton_append, ← List.cons_append] at stays
    rw [left, stays, List.singleton_append, filter_kept kept.1, List.takeWhile_cons, kept.2]
    exact .inl rfl
  | nil =>
    rw [List.nil_append] at left
    have spaces : ∀ c ∈ more, isWhitespace c = true := by
      intro c member
      rw [left] at member
      exact List.all_eq_true.mp blank c ((List.rdropWhile_prefix _ _).subset (List.mem_filter.mp member).1)
    have all : more.takeWhile (!endsAuthority ·) = more :=
      List.takeWhile_eq_self_iff.mpr fun c member => space_inside (spaces c member)
    rw [all]
    by_cases nothing : back.rdropWhile isC0OrSpace = []
    · rw [nothing] at left
      exact .inl left
    · have kept : isC0OrSpace ((back.rdropWhile isC0OrSpace).getLast nothing) = false := by
        simpa using List.rdropWhile_last_not isC0OrSpace back nothing
      have member : (back.rdropWhile isC0OrSpace).getLast nothing ∈ more := by
        rw [left]
        exact List.mem_filter.mpr ⟨List.getLast_mem nothing, kept_no_break kept⟩
      exact .inr ⟨List.all_eq_true.mpr spaces, _, member, space_outside (spaces _ member) kept⟩

theorem cleaned_endpoint (shape : trim endpoint = text "https://" ++ rest) (ends : EndsAllowed host)
    (parts : (authority rest = host ∧ ':' ∉ host) ∨ authority rest = host ++ text ":443") (leads : Leads endpoint) :
    ∃ more, cleaned endpoint = text "https://" ++ ((authority rest).filter (!isTabOrNewline ·) ++ more) ∧
      (more.takeWhile (!endsAuthority ·) = [] ∨ Blank (more.takeWhile (!endsAuthority ·))) := by
  obtain ⟨back, split, blank⟩ := trim_split endpoint
  obtain ⟨c, last, alphanumeric⟩ := written_last ends parts
  have cut : rest = authority rest ++ rest.dropWhile (!isDelimiter ·) := List.takeWhile_append_dropWhile.symm
  have delimited := List.head?_dropWhile_not (!isDelimiter ·) rest
  generalize rest.dropWhile (!isDelimiter ·) = remainder at cut delimited
  have whole : endpoint =
      endpoint.takeWhile isWhitespace ++ ((text "https://" ++ authority rest) ++ (remainder ++ back)) := by
    rw [List.append_assoc, ← List.append_assoc (authority rest), ← cut, ← List.append_assoc, ← List.append_assoc,
      List.append_assoc _ _ rest, ← shape]
    exact split
  have seen := @cleaned_append (endpoint.takeWhile isWhitespace) (text "https://" ++ authority rest) (remainder ++ back) 'h' c
    leads rfl (by decide) (by rw [List.getLast?_append_of_ne_nil _ (List.ne_nil_of_mem (List.mem_of_getLast? last)), last])
    (alphanumeric_kept alphanumeric)
  rw [← whole] at seen
  refine ⟨_, by rw [seen, List.filter_append, List.append_assoc]; rfl, ?_⟩
  exact after_authority (fun d first => by rw [first] at delimited; simpa using delimited) blank rfl

theorem parseUrl_endpoint (shape : trim endpoint = text "https://" ++ rest) (anonymous : '@' ∉ authority rest)
    (ends : EndsAllowed host)
    (parts : (authority rest = host ∧ ':' ∉ host) ∨ authority rest = host ++ text ":443") (leads : Leads endpoint) :
    ∃ w, (w = [] ∨ Blank w) ∧ parseUrl rules endpoint =
      (readAddress rules 443 (cutAtBackslash (inner endpoint) w)).map
        fun (host, port) => ⟨text "https", [], [], host, port⟩ := by
  obtain ⟨more, shown, after⟩ := cleaned_endpoint shape ends parts leads
  have inside : inner endpoint = seen (authority rest) := by
    rw [inner, shape]
    rfl
  have plain : ∀ c ∈ (authority rest).filter (!isTabOrNewline ·), endsAuthority c = decide (c = '\\') := by
    intro c member
    have undelimited : isDelimiter c = false := by simpa using List.mem_takeWhile_imp (List.mem_filter.mp member).1
    simp only [isDelimiter, Bool.or_eq_false_iff] at undelimited
    simp only [endsAuthority, isSlash, undelimited, Bool.false_or, Bool.or_false]
  have visible : seen (authority rest) ≠ [] := by
    obtain ⟨c, last, -⟩ := written_last (endsAllowed_seen ends) (seen_parts ends parts)
    exact List.ne_nil_of_mem (List.mem_of_getLast? last)
  have blank : ∀ c ∈ more.takeWhile (!endsAuthority ·), isWhitespace c = true := by
    intro c member
    rcases after with nothing | blank
    · rw [nothing] at member
      cases member
    · exact List.all_eq_true.mp blank.1 c member
  have address := @authorityOf_append _ more plain visible
  rw [← seen, ← inside] at address
  refine ⟨more.takeWhile (!endsAuthority ·), after, ?_⟩
  rw [parseUrl_https shown, address]
  rw [address]
  intro member
  have within : '@' ∈ inner endpoint ++ more.takeWhile (!endsAuthority ·) := by
    rw [cutAtBackslash] at member
    split at member
    · next front rest found =>
      rw [(splitOnce_eq_some.mp found).2]
      exact List.mem_append_left _ (List.mem_append_left _ member)
    · exact member
  rcases List.mem_append.mp within with early | late
  · rw [inside] at early
    exact anonymous (mem_of_seen early)
  · cases blank '@' late

end Endpoint

theorem safe_iff {rules : HostRules} {address : Text} {found : Host} {port : Option Nat}
    (read : readAddress rules 443 address = some (found, port)) :
    Safe ⟨text "https", [], [], found, port⟩ ↔ Permitted found ∧ port = none := by
  have known : (Url.mk (text "https") [] [] found port).knownPort = some 443 ↔ port = none := by
    cases port with
    | none => exact iff_of_true rfl rfl
    | some n =>
      refine iff_of_false (fun same => ?_) nofun
      exact readPort_other (readAddress_parts read).2 (Option.some.inj same)
  constructor
  · rintro ⟨-, port, -, permitted⟩
    exact ⟨permitted, known.mp port⟩
  · rintro ⟨permitted, port⟩
    exact ⟨rfl, known.mpr port, rfl, permitted⟩

/-- A client that reads the endpoint is led to a push service, unless a backslash comes after a host of its own. -/
theorem accepted_safe_iff (rules : HostRules) (endpoint : Text) (accepted : validatePushEndpoint endpoint = .ok ()) :
    (∀ url, parseUrl rules endpoint = some url → Safe url) ↔ ¬ Misread rules endpoint := by
  obtain ⟨rest, shape, anonymous, host, ends, parts⟩ := accepted_parts accepted
  by_cases leads : Leads endpoint
  · obtain ⟨w, after, parsed⟩ := @parseUrl_endpoint rules endpoint rest host shape anonymous ends parts leads
    have led : (∀ url, parseUrl rules endpoint = some url → Safe url) ↔
        ∀ found port, readAddress rules 443 (cutAtBackslash (inner endpoint) w) = some (found, port) →
          Permitted found ∧ port = none := by
      rw [parsed]
      constructor
      · intro safe found port read
        have url := safe _ (congrArg _ read)
        exact (safe_iff read).mp url
      · intro permitted url result
        obtain ⟨⟨found, port⟩, read, rfl⟩ := Option.map_eq_some_iff.mp result
        exact (safe_iff read).mpr (permitted found port read)
    rw [led, Misread, cutAtBackslash]
    cases cut : splitOnce '\\' (inner endpoint) with
    | none =>
      refine iff_of_true (fun found port read => ?_) (fun misread => ?_)
      · refine @readAddress_permitted rules _ _ w found port (endsAllowed_seen ends) (seen_parts ends parts) after ?_
        rw [inner, shape] at read
        exact read
      · obtain ⟨-, front, rest, split, -⟩ := misread
        cases split
    | some both =>
      obtain ⟨front, behind⟩ := both
      constructor
      · rintro permitted ⟨-, _, _, same, found, port, read, outside⟩
        cases same
        exact outside (permitted found port read)
      · intro unmisread found port read
        by_contra outside
        exact unmisread ⟨leads, front, behind, rfl, found, port, read, outside⟩
  · refine iff_of_true (fun url found => ?_) fun misread => leads misread.1
    rw [parseUrl_none leads] at found
    cases found

/-- The conversion of names in ASCII. -/
def asciiRules : HostRules where
  toAscii t := if t.all fun c => c.isAlphanum || c = '.' || c = '-' then some (toAsciiLowercase t) else none
  ipv4 _ := none
  ipv6 _ := none
  plain t ascii _ converted := (Option.some.inj (Option.ite_none_right_eq_some.mp converted).2).symm
  labels front tail ascii _ converted := by
    rw [← Option.some.inj (Option.ite_none_right_eq_some.mp converted).2]
    exact ⟨toAsciiLowercase front, (@List.map_append _ _ Char.toLower front ('.' :: tail)).symm⟩
  colon t ascii member converted := by
    have all := (Option.ite_none_right_eq_some.mp converted).1
    cases List.all_eq_true.mp all ':' member
  space t ascii outside converted := by
    obtain ⟨c, member, space, high⟩ := outside
    have inside := List.all_eq_true.mp (Option.ite_none_right_eq_some.mp converted).1 c member
    simp only [Bool.or_eq_true, decide_eq_true_eq] at inside
    rcases inside with (alphanumeric | rfl) | rfl
    · have := alphanumeric_code alphanumeric
      omega
    · cases space
    · cases space

theorem chromeEndpoint_safe :
    (∀ url, parseUrl asciiRules (text "https://fcm.googleapis.com/fcm/send/abc123") = some url → Safe url) ↔
      ¬ Misread asciiRules (text "https://fcm.googleapis.com/fcm/send/abc123") :=
  accepted_safe_iff asciiRules (text "https://fcm.googleapis.com/fcm/send/abc123") (by rfl)

def internalUrl : Url := ⟨text "https", [], [], .domain (text "db.internal"), none⟩

theorem backslash_led_astray : validatePushEndpoint (text "https://db.internal\\.push.apple.com/") = .ok () ∧
    parseUrl asciiRules (text "https://db.internal\\.push.apple.com/") = some internalUrl ∧ ¬ Safe internalUrl := by
  refine ⟨by rfl, by decide, fun safe => ?_⟩
  have unserved : ¬ ∃ s ∈ allowedPushHosts, text "db.internal" = s ∨ ('.' :: s) <:+ text "db.internal" := by decide
  exact unserved safe.2.2.2

end PushTargets
