import Mathlib.Data.BitVec
import PmKonstruct.Library.PlainText

/- Internet addresses of both families: their numbers, the blocks they lie in, the two ways in which an IPv6 address
   carries an IPv4 address, and the text forms that the standard library reads. -/
namespace IpAddress
open PlainText

structure Ipv4Addr where
  a : BitVec 8
  b : BitVec 8
  c : BitVec 8
  d : BitVec 8
  deriving DecidableEq, Repr

@[ext]
structure Ipv6Addr where
  s0 : BitVec 16
  s1 : BitVec 16
  s2 : BitVec 16
  s3 : BitVec 16
  s4 : BitVec 16
  s5 : BitVec 16
  s6 : BitVec 16
  s7 : BitVec 16
  deriving DecidableEq, Repr

inductive IpAddr where
  | v4 (ip : Ipv4Addr)
  | v6 (ip : Ipv6Addr)
  deriving DecidableEq, Repr

/- Numbers and blocks. -/

def Ipv4Addr.value (ip : Ipv4Addr) : Nat :=
  ((ip.a.toNat * 256 + ip.b.toNat) * 256 + ip.c.toNat) * 256 + ip.d.toNat

def Ipv6Addr.segments (ip : Ipv6Addr) : List (BitVec 16) := [ip.s0, ip.s1, ip.s2, ip.s3, ip.s4, ip.s5, ip.s6, ip.s7]

def Ipv6Addr.value (ip : Ipv6Addr) : Nat := ip.segments.foldl (fun n segment => n * 65536 + segment.toNat) 0

/-- The addresses of so many bits that share the first bits of a network. -/
structure Block (width : Nat) where
  network : Nat
  length : Nat

def Block.Holds {width : Nat} (block : Block width) (value : Nat) : Prop :=
  value / 2 ^ (width - block.length) = block.network / 2 ^ (width - block.length)

instance {width : Nat} (block : Block width) (value : Nat) : Decidable (block.Holds value) :=
  inferInstanceAs (Decidable (_ = _))

/-- A block by its leading octets. -/
def block4 (a b length : Nat) : Block 32 := ⟨(a * 256 + b) * 65536, length⟩

/-- A block by its leading segment. -/
def block6 (segment length : Nat) : Block 128 := ⟨segment * 2 ^ 112, length⟩

/-- `::ffff:a.b.c.d`. -/
def Ipv6Addr.toIpv4Mapped (ip : Ipv6Addr) : Option Ipv4Addr :=
  if (ip.segments.take 5).all (· = 0) ∧ ip.s5 = 0xffff then
    some ⟨(ip.s6 >>> 8).setWidth 8, ip.s6.setWidth 8, (ip.s7 >>> 8).setWidth 8, ip.s7.setWidth 8⟩
  else none

/-- An IPv4 address inside an IPv6 address, in the mapped or in the compatible form. -/
def Ipv6Addr.Carries (ip : Ipv6Addr) (inner : Ipv4Addr) : Prop :=
  ip.value = 0xffff * 2 ^ 32 + inner.value ∨ ip.value = inner.value

def Ipv6Addr.isLoopback (ip : Ipv6Addr) : Bool := ip = ⟨0, 0, 0, 0, 0, 0, 0, 1⟩

def Ipv6Addr.isUnspecified (ip : Ipv6Addr) : Bool := ip = ⟨0, 0, 0, 0, 0, 0, 0, 0⟩

/- The text forms. A reader takes what it can from the front, and gives back what is left. -/

def hexDigit (c : Char) : Option Nat :=
  if c.isDigit then some (c.toNat - 48)
  else if 'a' ≤ c ∧ c ≤ 'f' then some (c.toNat - 87)
  else if 'A' ≤ c ∧ c ≤ 'F' then some (c.toNat - 55)
  else none

def toDigit (radix : Nat) (c : Char) : Option Nat := (hexDigit c).filter (· < radix)

def readGiven (given : Char) : Text → Option Text
  | [] => none
  | c :: rest => if c = given then some rest else none

/-- At least one digit and no more than so many; a leading zero may be refused. -/
def readNumber (radix maxDigits limit : Nat) (zeroPrefix : Bool) (t : Text) : Option (Nat × Text) :=
  let digits := t.takeWhile fun c => (toDigit radix c).isSome
  let value := digits.foldl (fun n c => n * radix + (toDigit radix c).getD 0) 0
  if digits = [] ∨ digits.length > maxDigits then none
  else if !zeroPrefix ∧ digits.head? = some '0' ∧ digits.length > 1 then none
  else if value < limit then some (value, t.drop digits.length)
  else none

/-- All but the first of several parts have a separator before them. -/
def readSeparator (separator : Char) (first : Bool) (t : Text) : Option Text :=
  if first then some t else readGiven separator t

def readOctet (first : Bool) (t : Text) : Option (BitVec 8 × Text) := do
  let t ← readSeparator '.' first t
  let (n, t) ← readNumber 10 3 256 false t
  return (BitVec.ofNat 8 n, t)

def readIpv4 (t : Text) : Option (Ipv4Addr × Text) := do
  let (a, t) ← readOctet true t
  let (b, t) ← readOctet false t
  let (c, t) ← readOctet false t
  let (d, t) ← readOctet false t
  return (⟨a, b, c, d⟩, t)

def readGroup (first : Bool) (t : Text) : Option (BitVec 16 × Text) := do
  let t ← readSeparator ':' first t
  let (n, t) ← readNumber 16 4 65536 true t
  return (BitVec.ofNat 16 n, t)

/-- Up to so many groups, the last two of which may be written as an IPv4 address. -/
def readGroups : Nat → Bool → Text → List (BitVec 16) × Bool × Text
  | 0, _, t => ([], false, t)
  | left + 1, first, t =>
    match if left = 0 then none else (readSeparator ':' first t).bind readIpv4 with
    | some (ip, rest) => ([ip.a ++ ip.b, ip.c ++ ip.d], true, rest)
    | none =>
      match readGroup first t with
      | none => ([], false, t)
      | some (group, rest) =>
        let (groups, embedded, rest) := readGroups left false rest
        (group :: groups, embedded, rest)

def ofSegments : List (BitVec 16) → Option Ipv6Addr
  | [s0, s1, s2, s3, s4, s5, s6, s7] => some ⟨s0, s1, s2, s3, s4, s5, s6, s7⟩
  | _ => none

/-- All eight groups, or the groups before and after `::`, which stands for at least one. -/
def readIpv6 (t : Text) : Option (Ipv6Addr × Text) :=
  let (front, embedded, rest) := readGroups 8 true t
  if front.length = 8 then (ofSegments front).map (·, rest)
  else if embedded then none
  else do
    let rest ← readGiven ':' rest
    let rest ← readGiven ':' rest
    let (back, _, rest) := readGroups (7 - front.length) true rest
    let ip ← ofSegments (front ++ List.replicate (8 - front.length - back.length) 0 ++ back)
    return (ip, rest)

/-- `IpAddr::from_str`: one of the forms, and nothing after it. -/
def parseIp (t : Text) : Option IpAddr :=
  match (readIpv4 t).map fun (ip, rest) => (IpAddr.v4 ip, rest) with
  | some (ip, rest) => if rest = [] then some ip else none
  | none =>
    match readIpv6 t with
    | some (ip, rest) => if rest = [] then some (.v6 ip) else none
    | none => none

/- Numbers. -/

section Values
variable {ip : Ipv6Addr} {inner other : Ipv4Addr}

theorem Ipv4Addr.value_lt : inner.value < 2 ^ 32 := by
  have := inner.a.isLt
  have := inner.b.isLt
  have := inner.c.isLt
  have := inner.d.isLt
  rw [Ipv4Addr.value]
  omega

theorem Ipv4Addr.value_inj (same : inner.value = other.value) : inner = other := by
  obtain ⟨a, b, c, d⟩ := inner
  obtain ⟨a', b', c', d'⟩ := other
  have := a.isLt
  have := a'.isLt
  have := b.isLt
  have := b'.isLt
  have := c.isLt
  have := c'.isLt
  have := d.isLt
  have := d'.isLt
  simp only [Ipv4Addr.value] at same
  simp only [Ipv4Addr.mk.injEq]
  refine ⟨?_, ?_, ?_, ?_⟩ <;> apply BitVec.eq_of_toNat_eq <;> omega

/-- The number in three parts. -/
theorem Ipv6Addr.value_eq : ip.value =
    ((((ip.s0.toNat * 65536 + ip.s1.toNat) * 65536 + ip.s2.toNat) * 65536 + ip.s3.toNat) * 65536 + ip.s4.toNat) * 2 ^ 48 +
      ip.s5.toNat * 2 ^ 32 + (ip.s6.toNat * 65536 + ip.s7.toNat) := by
  simp only [Ipv6Addr.value, Ipv6Addr.segments, List.foldl_cons, List.foldl_nil]
  omega

/-- The last two segments as an IPv4 address. -/
def Ipv6Addr.tail (ip : Ipv6Addr) : Ipv4Addr :=
  ⟨(ip.s6 >>> 8).setWidth 8, ip.s6.setWidth 8, (ip.s7 >>> 8).setWidth 8, ip.s7.setWidth 8⟩

theorem Ipv6Addr.tail_value : ip.tail.value = ip.s6.toNat * 65536 + ip.s7.toNat := by
  have := ip.s6.isLt
  have := ip.s7.isLt
  simp only [Ipv6Addr.tail, Ipv4Addr.value, BitVec.toNat_setWidth, BitVec.toNat_ushiftRight, Nat.shiftRight_eq_div_pow]
  omega

theorem Ipv6Addr.front_zero : (ip.segments.take 5).all (· = 0) = true ↔
    (((ip.s0.toNat * 65536 + ip.s1.toNat) * 65536 + ip.s2.toNat) * 65536 + ip.s3.toNat) * 65536 + ip.s4.toNat = 0 := by
  have zero : ∀ s : BitVec 16, s = 0 ↔ s.toNat = 0 := fun s => BitVec.toNat_eq
  simp only [Ipv6Addr.segments, List.take_succ_cons, List.take_zero, List.all_cons, List.all_nil, Bool.and_true,
    Bool.and_eq_true, decide_eq_true_eq, zero]
  omega

theorem toIpv4Mapped_iff : ip.toIpv4Mapped = some inner ↔ ip.value = 0xffff * 2 ^ 32 + inner.value := by
  have five := ip.s5.isLt
  have six := ip.s6.isLt
  have seven := ip.s7.isLt
  have bound := @Ipv4Addr.value_lt inner
  have tail := @Ipv6Addr.tail_value ip
  have value := @Ipv6Addr.value_eq ip
  have shape := and_congr (@Ipv6Addr.front_zero ip) (show ip.s5 = 0xffff ↔ ip.s5.toNat = 65535 from BitVec.toNat_eq)
  rw [Ipv6Addr.toIpv4Mapped]
  constructor
  · intro mapped
    split at mapped
    · next marked =>
      obtain ⟨front, five⟩ := shape.mp marked
      have same : ip.tail = inner := Option.some.inj mapped
      rw [same] at tail
      omega
    · cases mapped
  · intro numbered
    have same : ip.tail = inner := Ipv4Addr.value_inj (by omega)
    rw [if_pos (shape.mpr (by omega))]
    exact congrArg some same

end Values

/- What a reader has passed does not end in a dot. -/

section Readers
variable {t u rest : Text}

/-- Something was read, and the last of it was no dot. -/
def Passed (t rest : Text) : Prop := ∃ front last, t = front ++ last :: rest ∧ last ≠ '.'

theorem Passed.trans (first : Passed t u) (second : Passed u rest) : Passed t rest := by
  obtain ⟨front, last, rfl, -⟩ := first
  obtain ⟨more, final, rfl, visible⟩ := second
  exact ⟨front ++ last :: more, final, by simp, visible⟩

theorem Passed.more {c : Char} (passed : Passed t rest) : Passed (c :: t) rest := by
  obtain ⟨front, last, rfl, visible⟩ := passed
  exact ⟨c :: front, last, rfl, visible⟩

theorem readGiven_ok {given : Char} (read : readGiven given t = some rest) : t = given :: rest := by
  cases t with
  | nil => cases read
  | cons c more =>
    rw [readGiven] at read
    obtain ⟨rfl, same⟩ := Option.ite_none_right_eq_some.mp read
    rw [Option.some.inj same]

theorem readNumber_passed {radix maxDigits limit n : Nat} {zeroPrefix : Bool}
    (read : readNumber radix maxDigits limit zeroPrefix t = some (n, rest)) : Passed t rest := by
  simp only [readNumber] at read
  split at read
  · cases read
  · next size =>
    split at read
    · cases read
    · split at read
      · cases read
        have parts := List.prefix_iff_eq_append.mp (List.takeWhile_prefix (l := t) fun c => (toDigit radix c).isSome)
        have digit : ∀ c ∈ t.takeWhile fun c => (toDigit radix c).isSome, (toDigit radix c).isSome = true :=
          fun c member => @List.mem_takeWhile_imp Char (fun c => (toDigit radix c).isSome) t c member
        generalize t.takeWhile (fun c => (toDigit radix c).isSome) = digits at *
        have nonempty : digits ≠ [] := fun none => size (.inl none)
        refine ⟨digits.dropLast, digits.getLast nonempty, ?_, fun dot => ?_⟩
        · rw [List.append_cons, List.dropLast_append_getLast nonempty]
          exact parts.symm
        · have last := digit _ (List.getLast_mem nonempty)
          rw [dot] at last
          cases last
      · cases read

theorem readSeparator_passed {separator : Char} {first : Bool} (read : readSeparator separator first t = some u)
    (passed : Passed u rest) : Passed t rest := by
  cases first with
  | true =>
    cases read
    exact passed
  | false =>
    rw [readGiven_ok read]
    exact passed.more

theorem readOctet_passed {first : Bool} {octet : BitVec 8} (read : readOctet first t = some (octet, rest)) :
    Passed t rest := by
  obtain ⟨u, separated, read⟩ := Option.bind_eq_some_iff.mp read
  obtain ⟨⟨n, v⟩, number, done⟩ := Option.bind_eq_some_iff.mp read
  cases done
  exact readSeparator_passed separated (readNumber_passed number)

theorem readGroup_passed {first : Bool} {group : BitVec 16} (read : readGroup first t = some (group, rest)) :
    Passed t rest := by
  obtain ⟨u, separated, read⟩ := Option.bind_eq_some_iff.mp read
  obtain ⟨⟨n, v⟩, number, done⟩ := Option.bind_eq_some_iff.mp read
  cases done
  exact readSeparator_passed separated (readNumber_passed number)

theorem readIpv4_passed {ip : Ipv4Addr} (read : readIpv4 t = some (ip, rest)) : Passed t rest := by
  obtain ⟨⟨a, t₁⟩, first, read⟩ := Option.bind_eq_some_iff.mp read
  obtain ⟨⟨b, t₂⟩, second, read⟩ := Option.bind_eq_some_iff.mp read
  obtain ⟨⟨c, t₃⟩, third, read⟩ := Option.bind_eq_some_iff.mp read
  obtain ⟨⟨d, t₄⟩, fourth, done⟩ := Option.bind_eq_some_iff.mp read
  cases done
  exact (readOctet_passed first).trans ((readOctet_passed second).trans
    ((readOctet_passed third).trans (readOctet_passed fourth)))

theorem readGroups_passed {left : Nat} {first : Bool} :
    ((readGroups left first t).1 = [] ∧ (readGroups left first t).2.2 = t) ∨ Passed t (readGroups left first t).2.2 := by
  induction left generalizing first t with
  | zero => exact .inl ⟨rfl, rfl⟩
  | succ left ih =>
    rw [readGroups]
    split
    · next ip rest read =>
      split at read
      · cases read
      · obtain ⟨u, separated, inner⟩ := Option.bind_eq_some_iff.mp read
        exact .inr (readSeparator_passed separated (readIpv4_passed inner))
    · split
      · exact .inl ⟨rfl, rfl⟩
      · next group rest read =>
        have here := readGroup_passed read
        rcases @ih rest false with ⟨-, same⟩ | later
        · rw [← same] at here
          exact .inr here
        · exact .inr (here.trans later)

theorem readIpv6_passed {ip : Ipv6Addr} (read : readIpv6 t = some (ip, rest)) : Passed t rest := by
  simp only [readIpv6] at read
  have front := @readGroups_passed t 8 true
  split at read
  · next whole =>
    obtain ⟨_, -, same⟩ := Option.map_eq_some_iff.mp read
    cases same
    rcases front with ⟨none, -⟩ | passed
    · rw [none] at whole
      cases whole
    · exact passed
  · split at read
    · cases read
    · obtain ⟨u, one, read⟩ := Option.bind_eq_some_iff.mp read
      obtain ⟨v, two, read⟩ := Option.bind_eq_some_iff.mp read
      obtain ⟨_, -, done⟩ := Option.bind_eq_some_iff.mp read
      cases done
      have colons : Passed (readGroups 8 true t).2.2 v := by
        rw [readGiven_ok one, readGiven_ok two]
        exact ⟨[':'], ':', rfl, by decide⟩
      have begun : Passed t v := by
        rcases front with ⟨-, same⟩ | passed
        · rwa [same] at colons
        · exact passed.trans colons
      rcases @readGroups_passed v (7 - (readGroups 8 true t).1.length) true with ⟨-, same⟩ | later
      · rw [same]
        exact begun
      · exact begun.trans later

/-- No address is written with a dot at its end. -/
theorem parseIp_dot : parseIp (t ++ ['.']) = none := by
  have never : ∀ rest, Passed (t ++ ['.']) rest → rest ≠ [] := by
    rintro rest ⟨front, last, shape, visible⟩ rfl
    have same := (List.append_inj' shape rfl).2
    exact visible (List.cons.inj same).1.symm
  rw [parseIp]
  split
  · next ip rest read =>
    obtain ⟨⟨inner, more⟩, read, same⟩ := Option.map_eq_some_iff.mp read
    cases same
    exact if_neg (never rest (readIpv4_passed read))
  · split
    · next ip rest read => exact if_neg (never rest (readIpv6_passed read))
    · rfl

end Readers

end IpAddress
