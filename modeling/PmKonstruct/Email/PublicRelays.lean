import PmKonstruct.Email.RelayHosts

/- Where a mail connection may lead. What is refused is given by blocks of addresses, and an IPv4 address inside an IPv6
   address is that IPv4 address; the classifier tells exactly these, and the lookup lets none of them through. -/
namespace PublicRelays
open PlainText DomainErrors IpAddress RelayHosts

def forbidden4 : List (Block 32) :=
  [block4 0 0 8, block4 10 0 8, block4 127 0 8, block4 100 64 10, block4 169 254 16, block4 172 16 12, block4 192 168 16]

/-- `::`, `::1`, `fc00::/7` and `fe80::/10`. -/
def forbidden6 : List (Block 128) := [⟨0, 128⟩, ⟨1, 128⟩, block6 0xfc00 7, block6 0xfe80 10]

def Forbidden4 (ip : Ipv4Addr) : Prop := ∃ block ∈ forbidden4, block.Holds ip.value

def Forbidden : IpAddr → Prop
  | .v4 ip => Forbidden4 ip
  | .v6 ip => (∃ block ∈ forbidden6, block.Holds ip.value) ∨ ∃ inner, ip.Carries inner ∧ Forbidden4 inner

section Classifier
variable {ip : Ipv6Addr} {inner : Ipv4Addr}

/-- A mask that keeps the leading bits compares them. -/
theorem masked_iff {x mask network kept : Nat} (low : mask % 2 ^ kept = 0) (below : network % 2 ^ kept = 0)
    (high : x / 2 ^ kept &&& mask / 2 ^ kept = x / 2 ^ kept) :
    x &&& mask = network ↔ x / 2 ^ kept = network / 2 ^ kept := by
  have front : (x &&& mask) / 2 ^ kept = x / 2 ^ kept := by
    rw [← Nat.shiftRight_eq_div_pow, Nat.shiftRight_and_distrib, Nat.shiftRight_eq_div_pow, Nat.shiftRight_eq_div_pow, high]
  have back : (x &&& mask) % 2 ^ kept = 0 := by
    rw [Nat.and_mod_two_pow, low, Nat.and_zero]
  constructor
  · intro same
    rw [← front, same]
  · intro same
    rw [← Nat.div_add_mod (x &&& mask) (2 ^ kept), front, back, same, ← Nat.div_add_mod network (2 ^ kept), below]
    simp

theorem isPrivateV4_iff (ip : Ipv4Addr) : isPrivateV4 ip = true ↔ Forbidden4 ip := by
  have := ip.a.isLt
  have := ip.b.isLt
  have := ip.c.isLt
  have := ip.d.isLt
  have listed : Forbidden4 ip ↔ ip.a.toNat = 0 ∨ ip.a.toNat = 10 ∨ ip.a.toNat = 127 ∨
      (ip.a.toNat = 100 ∧ 64 ≤ ip.b.toNat ∧ ip.b.toNat ≤ 127) ∨ (ip.a.toNat = 169 ∧ ip.b.toNat = 254) ∨
      (ip.a.toNat = 172 ∧ 16 ≤ ip.b.toNat ∧ ip.b.toNat ≤ 31) ∨ (ip.a.toNat = 192 ∧ ip.b.toNat = 168) := by
    simp only [Forbidden4, forbidden4, List.mem_cons, List.not_mem_nil, or_false, exists_eq_or_imp, exists_eq_left,
      Block.Holds, block4, Ipv4Addr.value]
    refine or_congr ?_ (or_congr ?_ (or_congr ?_ (or_congr ?_ (or_congr ?_ (or_congr ?_ ?_)))))
    all_goals omega
  rw [listed, isPrivateV4]
  simp only [BitVec.toNat_eq, BitVec.le_def, BitVec.reduceToNat]
  repeat' split
  all_goals simp only [Bool.and_eq_true, decide_eq_true_eq, Bool.false_eq_true, true_iff, false_iff]
  all_goals omega

/-- The compatible form is a number that fits in an IPv4 address, other than the two that have a name. -/
theorem compatibleV4_iff : compatibleV4 ip = some inner ↔ ip.value = inner.value ∧ 1 < ip.value := by
  have six := ip.s6.isLt
  have seven := ip.s7.isLt
  have bound := @Ipv4Addr.value_lt inner
  have tail := @Ipv6Addr.tail_value ip
  have value := @Ipv6Addr.value_eq ip
  have octet : ∀ s : BitVec 16, (s &&& 0xff).setWidth 8 = s.setWidth 8 := fun s => by
    apply BitVec.eq_of_toNat_eq
    simp only [BitVec.toNat_setWidth, BitVec.toNat_and, BitVec.reduceToNat]
    rw [show (255 : Nat) = 2 ^ 8 - 1 from rfl, Nat.and_two_pow_sub_one_eq_mod, Nat.mod_mod]
  have shape : (ip.segments.take 6).all (· = 0) = true ∧ ¬ (ip.s6 = 0 ∧ ip.s7 ≤ 1) ↔
      ip.value = ip.s6.toNat * 65536 + ip.s7.toNat ∧ 1 < ip.value := by
    have front : (ip.segments.take 6).all (· = 0) = ((ip.segments.take 5).all (· = 0) && ip.s5 = 0) := by
      simp [Ipv6Addr.segments, Bool.and_assoc]
    rw [front, Bool.and_eq_true, Ipv6Addr.front_zero, decide_eq_true_eq]
    simp only [BitVec.toNat_eq, BitVec.le_def, BitVec.reduceToNat]
    omega
  rw [compatibleV4, octet, octet]
  constructor
  · intro compatible
    split at compatible
    · next marked =>
      obtain ⟨small, named⟩ := shape.mp marked
      have same : ip.tail = inner := Option.some.inj compatible
      rw [same] at tail
      omega
    · cases compatible
  · rintro ⟨numbered, named⟩
    have same : ip.tail = inner := Ipv4Addr.value_inj (by omega)
    rw [if_pos (shape.mpr (by omega))]
    exact congrArg some same

theorem forbidden6_iff (n : Nat) : (∃ block ∈ forbidden6, block.Holds n) ↔
    n = 0 ∨ n = 1 ∨ n / 2 ^ 121 = 126 ∨ n / 2 ^ 118 = 1018 := by
  simp only [forbidden6, List.mem_cons, List.not_mem_nil, or_false, exists_eq_or_imp, exists_eq_left, Block.Holds, block6]
  omega

/-- The tests on an address that carries none. -/
theorem ownBlocks_iff : (ip.isLoopback || ip.isUnspecified || ip.s0 &&& 0xfe00 = 0xfc00 || ip.s0 &&& 0xffc0 = 0xfe80) = true ↔
    ∃ block ∈ forbidden6, block.Holds ip.value := by
  have value := @Ipv6Addr.value_eq ip
  have := ip.s0.isLt
  have := ip.s1.isLt
  have := ip.s2.isLt
  have := ip.s3.isLt
  have := ip.s4.isLt
  have := ip.s5.isLt
  have := ip.s6.isLt
  have := ip.s7.isLt
  have loopback : ip.isLoopback = true ↔ ip.value = 1 := by
    rw [Ipv6Addr.isLoopback, decide_eq_true_eq, Ipv6Addr.ext_iff]
    simp only [BitVec.toNat_eq, BitVec.reduceToNat]
    omega
  have unspecified : ip.isUnspecified = true ↔ ip.value = 0 := by
    rw [Ipv6Addr.isUnspecified, decide_eq_true_eq, Ipv6Addr.ext_iff]
    simp only [BitVec.toNat_eq, BitVec.reduceToNat]
    omega
  have unique : ip.s0 &&& 0xfe00 = 0xfc00 ↔ ip.value / 2 ^ 121 = 126 := by
    have kept : ip.s0.toNat / 2 ^ 9 &&& 0xfe00 / 2 ^ 9 = ip.s0.toNat / 2 ^ 9 :=
      Nat.and_two_pow_sub_one_of_lt_two_pow (n := 7) (by omega)
    rw [BitVec.toNat_eq, BitVec.toNat_and]
    refine (masked_iff (by rfl) (by rfl) kept).trans ?_
    simp only [BitVec.reduceToNat]
    omega
  have link : ip.s0 &&& 0xffc0 = 0xfe80 ↔ ip.value / 2 ^ 118 = 1018 := by
    have kept : ip.s0.toNat / 2 ^ 6 &&& 0xffc0 / 2 ^ 6 = ip.s0.toNat / 2 ^ 6 :=
      Nat.and_two_pow_sub_one_of_lt_two_pow (n := 10) (by omega)
    rw [BitVec.toNat_eq, BitVec.toNat_and]
    refine (masked_iff (by rfl) (by rfl) kept).trans ?_
    simp only [BitVec.reduceToNat]
    omega
  rw [forbidden6_iff, Bool.or_eq_true, Bool.or_eq_true, Bool.or_eq_true, decide_eq_true_eq, decide_eq_true_eq, loopback,
    unspecified, unique, link]
  omega

/-- Every address that is to be refused, and no other. -/
theorem isPrivateIp_iff (ip : IpAddr) : isPrivateIp ip = true ↔ Forbidden ip := by
  cases ip with
  | v4 ip => exact isPrivateV4_iff ip
  | v6 ip =>
    rw [isPrivateIp, Forbidden]
    split
    · next inner found =>
      -- a carried address is below every other block, and there is only one
      have form : ip.value = 0xffff * 2 ^ 32 + inner.value ∨ (ip.value = inner.value ∧ 1 < ip.value) :=
        (Option.or_eq_some_iff.mp found).imp toIpv4Mapped_iff.mp fun later => compatibleV4_iff.mp later.2
      have bound := @Ipv4Addr.value_lt inner
      rw [isPrivateV4_iff]
      constructor
      · intro forbidden
        exact .inr ⟨inner, form.imp id And.left, forbidden⟩
      · rintro (own | ⟨other, carried, forbidden⟩)
        · rw [forbidden6_iff] at own
          omega
        · have bound' := @Ipv4Addr.value_lt other
          have same : other = inner := Ipv4Addr.value_inj (by rcases carried with carried | carried <;> omega)
          rwa [same] at forbidden
    · next missing =>
      obtain ⟨unmapped, incompatible⟩ := Option.or_eq_none_iff.mp missing
      rw [ownBlocks_iff]
      constructor
      · exact .inl
      · rintro (own | ⟨other, carried, -⟩)
        · exact own
        · rcases carried with mapped | compatible
          · rw [toIpv4Mapped_iff.mpr mapped] at unmapped
            cases unmapped
          · by_cases named : 1 < ip.value
            · rw [compatibleV4_iff.mpr ⟨compatible, named⟩] at incompatible
              cases incompatible
            · rw [forbidden6_iff]
              omega

end Classifier

/-- Only a literal or one of the answers is handed on, and only when none of them is to be refused. -/
theorem resolvePublic_public (resolver : Text → Lookup) (host : Text) (ip : IpAddr)
    (resolved : resolvePublic resolver false host = .ok ip) :
    (parseIp (trim host) = some ip ∧ ¬ Forbidden ip) ∨
      ∃ addresses, resolver (target (trim host)) = .found addresses ∧ ip ∈ addresses ∧
        ∀ other ∈ addresses, ¬ Forbidden other := by
  simp only [resolvePublic, Bool.false_eq_true, if_false] at resolved
  split at resolved
  · cases resolved
  · split at resolved
    · next literal parsed =>
      split at resolved
      · cases resolved
      · next allowed =>
        cases resolved
        exact .inl ⟨parsed, fun forbidden => allowed ((isPrivateIp_iff ip).mpr forbidden)⟩
    · split at resolved
      · cases resolved
      · cases resolved
      · next addresses answered =>
        split at resolved
        · cases resolved
        · split at resolved
          · cases resolved
          · next allowed =>
            split at resolved
            · cases resolved
            · next first rest _ =>
              cases resolved
              refine .inr ⟨ip :: rest, answered, List.mem_cons_self, fun other among forbidden => allowed ?_⟩
              exact List.any_eq_true.mpr ⟨other, among, (isPrivateIp_iff other).mpr forbidden⟩

def dnsAnswers : List IpAddr := [.v4 ⟨142, 250, 27, 108⟩, .v6 ⟨0x2a00, 0x1450, 0x4025, 0x401, 0, 0, 0, 0x6c⟩]

theorem smtpRelay_public :
    (parseIp (trim (text " smtp.gmail.com")) = some (.v4 ⟨142, 250, 27, 108⟩) ∧ ¬ Forbidden (.v4 ⟨142, 250, 27, 108⟩)) ∨
      ∃ addresses, Lookup.found dnsAnswers = .found addresses ∧ IpAddr.v4 ⟨142, 250, 27, 108⟩ ∈ addresses ∧
        ∀ other ∈ addresses, ¬ Forbidden other :=
  resolvePublic_public (fun _ => .found dnsAnswers) (text " smtp.gmail.com") (.v4 ⟨142, 250, 27, 108⟩) (by rfl)

end PublicRelays
