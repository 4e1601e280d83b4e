import PmKonstruct.Domain.Errors
import PmKonstruct.Library.IpAddress

/- The guard on the mail relay a company names: what is refused as an address, what is refused as a name before any
   lookup, and the lookup at connect time, which refuses a name as soon as one of its addresses is refused. -/
namespace RelayHosts
open PlainText DomainErrors IpAddress

def isPrivateV4 (ip : Ipv4Addr) : Bool :=
  if ip.a = 0 then true
  else if ip.a = 10 then true
  else if ip.a = 127 then true
  else if ip.a = 100 then 64 ≤ ip.b && ip.b ≤ 127
  else if ip.a = 169 then ip.b = 254
  else if ip.a = 172 then 16 ≤ ip.b && ip.b ≤ 31
  else if ip.a = 192 then ip.b = 168
  else false

/-- `::a.b.c.d`, without `::` and `::1`. -/
def compatibleV4 (ip : Ipv6Addr) : Option Ipv4Addr :=
  if (ip.segments.take 6).all (· = 0) ∧ ¬ (ip.s6 = 0 ∧ ip.s7 ≤ 1) then
    some ⟨(ip.s6 >>> 8).setWidth 8, (ip.s6 &&& 0xff).setWidth 8, (ip.s7 >>> 8).setWidth 8, (ip.s7 &&& 0xff).setWidth 8⟩
  else none

def isPrivateIp : IpAddr → Bool
  | .v4 ip => isPrivateV4 ip
  | .v6 ip =>
    match ip.toIpv4Mapped.or (compatibleV4 ip) with
    | some inner => isPrivateV4 inner
    | none => ip.isLoopback || ip.isUnspecified || ip.s0 &&& 0xfe00 = 0xfc00 || ip.s0 &&& 0xffc0 = 0xfe80

def blockedHostnames : List Text := [text "localhost", text "metadata.google.internal", text "169.254.169.254"]

def blockedSuffixes : List Text := [text ".local", text ".internal", text ".localhost"]

def isBlockedSmtpHost (host : Text) : Bool :=
  let h := toAsciiLowercase (trim host)
  if h = [] then true
  else if h ∈ blockedHostnames then true
  else if blockedSuffixes.any fun suffix => suffix.isSuffixOf h then true
  else
    match parseIp h with
    | some ip => isPrivateIp ip
    | none => '.' ∉ h

/-- What becomes of a lookup on another thread. -/
inductive Lookup where
  | joinFailed (detail : String)
  | failed (detail : String)
  | found (addresses : List IpAddr)

def refused (detail : String) : PortError := .unavailable "smtp" detail

def target (host : Text) : Text := host ++ text ":25"

/-- Development only: whatever comes first. -/
def resolveAny (resolver : Text → Lookup) (host : Text) : Except PortError IpAddr :=
  match parseIp host with
  | some ip => .ok ip
  | none =>
    match resolver (target host) with
    | .joinFailed detail => .error (refused detail)
    | .failed detail => .error (refused ("could not resolve the relay: " ++ detail))
    | .found [] => .error (refused "the relay has no DNS records")
    | .found (ip :: _) => .ok ip

def resolvePublic (resolver : Text → Lookup) (allowPrivate : Bool) (host : Text) : Except PortError IpAddr :=
  let host := trim host
  if allowPrivate then resolveAny resolver host
  else if isBlockedSmtpHost host then .error (refused "that host is not a permitted mail relay")
  else
    match parseIp host with
    | some ip => if isPrivateIp ip then .error (refused "the relay resolves to a private address") else .ok ip
    | none =>
      match resolver (target host) with
      | .joinFailed detail => .error (refused detail)
      | .failed detail => .error (refused ("could not resolve the relay: " ++ detail))
      | .found addresses =>
        if addresses = [] then .error (refused "the relay has no DNS records")
        else if addresses.any isPrivateIp then .error (refused "the relay resolves to a private address")
        else
          match addresses with
          | [] => .error (refused "the relay has no DNS records")
          | ip :: _ => .ok ip

end RelayHosts
