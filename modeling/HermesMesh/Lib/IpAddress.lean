import Mathlib.Data.List.Basic
import Mathlib.Algebra.Order.Ring.Nat

/-!
# Addresses and networks

Networks of fixed-width addresses, and Python's `ipaddress` module over them. A network holds the
addresses whose bits under its mask are its own, and these are the addresses of one aligned range
(`Network.contains_iff`), which is what arithmetic can decide. The predicates are those of Python
3.13, where an IPv6 address that maps an IPv4 address has the properties of that.
-/

namespace Lib

/-! ## Networks -/

/-- The mask that keeps the first `length` bits. -/
def netmask (w length : ℕ) : BitVec w := BitVec.allOnes w <<< (w - length)

/-- `ip_network`: it raises where the address has a bit outside its mask. -/
structure Network (w : ℕ) where
  address : BitVec w
  length : ℕ
  strict : address &&& netmask w length = address

variable {w : ℕ}

/-- `address in network`, for an address of the same version. -/
def Network.contains (net : Network w) (a : BitVec w) : Bool :=
  a &&& netmask w net.length = net.address

/-- `any(address in network for network in networks)`. -/
def inAny (networks : List (Network w)) (a : BitVec w) : Bool := networks.any (·.contains a)

theorem toNat_and_netmask (a : BitVec w) (length : ℕ) :
    (a &&& netmask w length).toNat = a.toNat / 2 ^ (w - length) * 2 ^ (w - length) := by
  have hle : a.toNat / 2 ^ (w - length) * 2 ^ (w - length) ≤ a.toNat := Nat.div_mul_le_self _ _
  unfold netmask
  rw [← BitVec.shiftLeft_ushiftRight, BitVec.toNat_shiftLeft, BitVec.toNat_ushiftRight,
    Nat.shiftLeft_eq, Nat.shiftRight_eq_div_pow, Nat.mod_eq_of_lt (hle.trans_lt a.isLt)]

/-- A network is an aligned range. -/
theorem Network.contains_iff (net : Network w) (a : BitVec w) :
    net.contains a = true ↔
      net.address.toNat ≤ a.toNat ∧ a.toNat < net.address.toNat + 2 ^ (w - net.length) := by
  have hpos : 0 < 2 ^ (w - net.length) := Nat.two_pow_pos _
  have hbase : net.address.toNat =
      net.address.toNat / 2 ^ (w - net.length) * 2 ^ (w - net.length) := by
    rw [← toNat_and_netmask, net.strict]
  unfold contains
  rw [decide_eq_true_iff, ← BitVec.toNat_inj, toNat_and_netmask, hbase]
  generalize net.address.toNat / 2 ^ (w - net.length) = block
  constructor
  · intro h
    rw [← h]
    exact ⟨Nat.div_mul_le_self _ _, Nat.lt_div_mul_add hpos⟩
  · rintro ⟨hlo, hhi⟩
    rw [← Nat.succ_mul] at hhi
    rw [Nat.div_eq_of_lt_le hlo hhi]

/-- The bounds of a network as numbers. -/
theorem Network.contains_range {net : Network w} (lo hi : ℕ) (hlo : net.address.toNat = lo)
    (hhi : lo + 2 ^ (w - net.length) = hi) (a : BitVec w) :
    net.contains a = true ↔ lo ≤ a.toNat ∧ a.toNat < hi := by
  rw [net.contains_iff, hlo, hhi]

/-! ## IPv4 -/

namespace IPv4

/-- Four octets. -/
def octets (a b c d : ℕ) : BitVec 32 := BitVec.ofNat 32 (a * 2 ^ 24 + b * 2 ^ 16 + c * 2 ^ 8 + d)

def linklocalNetwork : Network 32 := ⟨octets 169 254 0 0, 16, by decide⟩
def loopbackNetwork : Network 32 := ⟨octets 127 0 0 0, 8, by decide⟩
def multicastNetwork : Network 32 := ⟨octets 224 0 0 0, 4, by decide⟩
def reservedNetwork : Network 32 := ⟨octets 240 0 0 0, 4, by decide⟩

/-- `_private_networks`. -/
def privateNetworks : List (Network 32) :=
  [⟨octets 0 0 0 0, 8, by decide⟩, ⟨octets 10 0 0 0, 8, by decide⟩,
    ⟨octets 127 0 0 0, 8, by decide⟩, ⟨octets 169 254 0 0, 16, by decide⟩,
    ⟨octets 172 16 0 0, 12, by decide⟩, ⟨octets 192 0 0 0, 24, by decide⟩,
    ⟨octets 192 0 0 170, 31, by decide⟩, ⟨octets 192 0 2 0, 24, by decide⟩,
    ⟨octets 192 168 0 0, 16, by decide⟩, ⟨octets 198 18 0 0, 15, by decide⟩,
    ⟨octets 198 51 100 0, 24, by decide⟩, ⟨octets 203 0 113 0, 24, by decide⟩,
    ⟨octets 240 0 0 0, 4, by decide⟩, ⟨octets 255 255 255 255, 32, by decide⟩]

/-- `_private_networks_exceptions`. -/
def privateExceptions : List (Network 32) :=
  [⟨octets 192 0 0 9, 32, by decide⟩, ⟨octets 192 0 0 10, 32, by decide⟩]

/-- `10.0.0.0/8`, `172.16.0.0/12` and `192.168.0.0/16`. -/
def rfc1918 : List (Network 32) :=
  [⟨octets 10 0 0 0, 8, by decide⟩, ⟨octets 172 16 0 0, 12, by decide⟩,
    ⟨octets 192 168 0 0, 16, by decide⟩]

def isMulticast (a : BitVec 32) : Bool := multicastNetwork.contains a
def isReserved (a : BitVec 32) : Bool := reservedNetwork.contains a
def isUnspecified (a : BitVec 32) : Bool := a = 0
def isLoopback (a : BitVec 32) : Bool := loopbackNetwork.contains a
def isLinkLocal (a : BitVec 32) : Bool := linklocalNetwork.contains a
def isPrivate (a : BitVec 32) : Bool := inAny privateNetworks a && !inAny privateExceptions a

end IPv4

/-! ## IPv6 -/

namespace IPv6

/-- The first three of the eight groups, and zeros. -/
def groups (a b c : ℕ) : BitVec 128 := BitVec.ofNat 128 (a * 2 ^ 112 + b * 2 ^ 96 + c * 2 ^ 80)

/-- `::ffff:a.b.c.d`. -/
def mapped (a : BitVec 32) : BitVec 128 := BitVec.ofNat 128 (0xFFFF * 2 ^ 32 + a.toNat)

/-- `ipv4_mapped`. -/
def ipv4Mapped (x : BitVec 128) : Option (BitVec 32) :=
  if x >>> 32 = 0xFFFF then some (x.setWidth 32) else none

def linklocalNetwork : Network 128 := ⟨groups 0xFE80 0 0, 10, by decide⟩
def multicastNetwork : Network 128 := ⟨groups 0xFF00 0 0, 8, by decide⟩

/-- `_reserved_networks`. -/
def reservedNetworks : List (Network 128) :=
  [⟨groups 0 0 0, 8, by decide⟩, ⟨groups 0x100 0 0, 8, by decide⟩, ⟨groups 0x200 0 0, 7, by decide⟩,
    ⟨groups 0x400 0 0, 6, by decide⟩, ⟨groups 0x800 0 0, 5, by decide⟩,
    ⟨groups 0x1000 0 0, 4, by decide⟩, ⟨groups 0x4000 0 0, 3, by decide⟩,
    ⟨groups 0x6000 0 0, 3, by decide⟩, ⟨groups 0x8000 0 0, 3, by decide⟩,
    ⟨groups 0xA000 0 0, 3, by decide⟩, ⟨groups 0xC000 0 0, 3, by decide⟩,
    ⟨groups 0xE000 0 0, 4, by decide⟩, ⟨groups 0xF000 0 0, 5, by decide⟩,
    ⟨groups 0xF800 0 0, 6, by decide⟩, ⟨groups 0xFE00 0 0, 9, by decide⟩]

/-- `_private_networks`. -/
def privateNetworks : List (Network 128) :=
  [⟨1, 128, by decide⟩, ⟨0, 128, by decide⟩, ⟨mapped 0, 96, by decide⟩,
    ⟨groups 0x64 0xFF9B 1, 48, by decide⟩, ⟨groups 0x100 0 0, 64, by decide⟩,
    ⟨groups 0x2001 0 0, 23, by decide⟩, ⟨groups 0x2001 0xDB8 0, 32, by decide⟩,
    ⟨groups 0x2002 0 0, 16, by decide⟩, ⟨groups 0x3FFF 0 0, 20, by decide⟩,
    ⟨groups 0xFC00 0 0, 7, by decide⟩, ⟨groups 0xFE80 0 0, 10, by decide⟩]

/-- `_private_networks_exceptions`. -/
def privateExceptions : List (Network 128) :=
  [⟨groups 0x2001 1 0 + 1, 128, by decide⟩, ⟨groups 0x2001 1 0 + 2, 128, by decide⟩,
    ⟨groups 0x2001 3 0, 32, by decide⟩, ⟨groups 0x2001 4 0x112, 48, by decide⟩,
    ⟨groups 0x2001 0x20 0, 28, by decide⟩, ⟨groups 0x2001 0x30 0, 28, by decide⟩]

/-- `fc00::/7`. -/
def uniqueLocalNetwork : Network 128 := ⟨groups 0xFC00 0 0, 7, by decide⟩

/-- A predicate that a mapped address takes from the IPv4 address. -/
def delegated (of4 : BitVec 32 → Bool) (of6 : BitVec 128 → Bool) (x : BitVec 128) : Bool :=
  match ipv4Mapped x with
  | some a => of4 a
  | none => of6 x

def isMulticast : BitVec 128 → Bool := delegated IPv4.isMulticast multicastNetwork.contains
def isReserved : BitVec 128 → Bool := delegated IPv4.isReserved (inAny reservedNetworks)
def isUnspecified : BitVec 128 → Bool := delegated IPv4.isUnspecified fun x => x = 0
def isLoopback : BitVec 128 → Bool := delegated IPv4.isLoopback fun x => x = 1
def isLinkLocal : BitVec 128 → Bool := delegated IPv4.isLinkLocal linklocalNetwork.contains
def isPrivate : BitVec 128 → Bool :=
  delegated IPv4.isPrivate fun x => inAny privateNetworks x && !inAny privateExceptions x

theorem toNat_mapped (a : BitVec 32) : (mapped a).toNat = 0xFFFF * 2 ^ 32 + a.toNat := by
  have ha := a.isLt
  unfold mapped
  rw [BitVec.toNat_ofNat, Nat.mod_eq_of_lt]
  omega

/-- An address maps an IPv4 address exactly where it is the mapped form of it. -/
theorem ipv4Mapped_eq_some_iff {x : BitVec 128} {a : BitVec 32} :
    ipv4Mapped x = some a ↔ x = mapped a := by
  have hx := x.isLt
  have ha := a.isLt
  have hhigh : x >>> 32 = 0xFFFF ↔ x.toNat / 2 ^ 32 = 0xFFFF := by
    rw [← BitVec.toNat_inj, BitVec.toNat_ushiftRight, Nat.shiftRight_eq_div_pow]
    exact Iff.rfl
  have hlow : x.setWidth 32 = a ↔ x.toNat % 2 ^ 32 = a.toNat := by
    rw [← BitVec.toNat_inj, BitVec.toNat_setWidth]
  rw [← BitVec.toNat_inj, toNat_mapped]
  unfold ipv4Mapped
  split_ifs with h
  · rw [Option.some.injEq, hlow]
    rw [hhigh] at h
    omega
  · refine iff_of_false (by simp) fun heq => h ?_
    rw [hhigh]
    omega

@[simp] theorem ipv4Mapped_mapped (a : BitVec 32) : ipv4Mapped (mapped a) = some a :=
  ipv4Mapped_eq_some_iff.mpr rfl

theorem mapped_inj {a b : BitVec 32} (h : mapped a = mapped b) : a = b := by
  have hab := ipv4Mapped_eq_some_iff.mpr h
  rw [ipv4Mapped_mapped] at hab
  exact Option.some.inj hab

theorem delegated_mapped (of4 : BitVec 32 → Bool) (of6 : BitVec 128 → Bool) (a : BitVec 32) :
    delegated of4 of6 (mapped a) = of4 a := by
  unfold delegated
  rw [ipv4Mapped_mapped]

theorem delegated_of_none {of4 : BitVec 32 → Bool} {of6 : BitVec 128 → Bool} {x : BitVec 128}
    (h : ipv4Mapped x = none) : delegated of4 of6 x = of6 x := by
  unfold delegated
  rw [h]

/-- An address is the mapped form of an IPv4 address, or maps none. -/
theorem mapped_or_none (x : BitVec 128) : (∃ a, x = mapped a) ∨ ipv4Mapped x = none := by
  cases h : ipv4Mapped x with
  | some a => exact .inl ⟨a, ipv4Mapped_eq_some_iff.mp h⟩
  | none => exact .inr rfl

end IPv6

/-- `IPv4Address` or `IPv6Address`. -/
inductive Address where
  | v4 (a : BitVec 32)
  | v6 (x : BitVec 128)
  deriving DecidableEq, Repr

namespace Address

/-- A predicate that each version has for itself. -/
def byVersion (of4 : BitVec 32 → Bool) (of6 : BitVec 128 → Bool) : Address → Bool
  | v4 a => of4 a
  | v6 x => of6 x

/-- `address in network` for an IPv4 network: false for every IPv6 address. -/
def inNetwork4 (net : Network 32) : Address → Bool := byVersion net.contains fun _ => false

def isMulticast : Address → Bool := byVersion IPv4.isMulticast IPv6.isMulticast
def isReserved : Address → Bool := byVersion IPv4.isReserved IPv6.isReserved
def isUnspecified : Address → Bool := byVersion IPv4.isUnspecified IPv6.isUnspecified
def isLoopback : Address → Bool := byVersion IPv4.isLoopback IPv6.isLoopback
def isLinkLocal : Address → Bool := byVersion IPv4.isLinkLocal IPv6.isLinkLocal
def isPrivate : Address → Bool := byVersion IPv4.isPrivate IPv6.isPrivate

end Address

end Lib
