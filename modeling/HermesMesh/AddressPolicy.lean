import HermesMesh.Delivery
import HermesMesh.Lib.IpAddress

/-!
# The address policy

`_is_ip_blocked` on addresses as numbers, with the predicates of the standard library under it. It is
to reject CGNAT, benchmark, reserved, multicast and unspecified addresses always, and loopback and
private ones unless they are allowed. The two networks of the module hold IPv4 addresses only, so the
mapped form of their addresses passes; and `::1` lies in a reserved network, so it is rejected where
loopback is allowed. `addressPolicy_iff` says that these are the only exceptions.
-/

namespace HermesMesh

open Lib

/-- `_CGNAT`. -/
def cgnat : Network 32 := ⟨IPv4.octets 100 64 0 0, 10, by decide⟩

theorem benchmark_strict : IPv4.octets 198 18 0 0 &&& netmask 32 15 = IPv4.octets 198 18 0 0 := by
  decide

/-- `_BENCHMARK`. -/
def benchmark : Network 32 := ⟨IPv4.octets 198 18 0 0, 15, benchmark_strict⟩

/-- `_is_ip_blocked`, from the address. -/
def addressBlocked (allowLoopback : Bool) (a : Address) : Bool :=
  if a.inNetwork4 cgnat || a.inNetwork4 benchmark then true
  else if a.isMulticast || a.isReserved || a.isUnspecified then true
  else if a.isLoopback || a.isPrivate || a.isLinkLocal then !allowLoopback
  else false

/-- What the delivery knows of an address. -/
def classify (text : String) (a : Address) : Ip where
  text := text
  special := a.inNetwork4 cgnat || a.inNetwork4 benchmark || a.isMulticast || a.isReserved ||
    a.isUnspecified
  loopback := a.isLoopback
  private_ := a.isPrivate || a.isLinkLocal

/-- The delivery rejects the address by what it knows of it. -/
theorem isIpBlocked_classify (allowLoopback : Bool) (text : String) (a : Address) :
    isIpBlocked allowLoopback (classify text a) = addressBlocked allowLoopback a := by
  unfold isIpBlocked addressBlocked classify
  dsimp only
  cases a.inNetwork4 cgnat <;> cases a.inNetwork4 benchmark <;> simp [Bool.or_assoc]

/-! ## The ranges of the policy -/

/-- CGNAT, benchmark, multicast, reserved and unspecified. -/
def NeverAllowed4 (a : BitVec 32) : Prop :=
  cgnat.contains a = true ∨ benchmark.contains a = true ∨
    IPv4.multicastNetwork.contains a = true ∨ IPv4.reservedNetwork.contains a = true ∨ a = 0

/-- The same, in either form, and what IPv6 has of its own. -/
def NeverAllowed : Address → Prop
  | .v4 a => NeverAllowed4 a
  | .v6 x =>
    (∃ a, x = IPv6.mapped a ∧ NeverAllowed4 a) ∨ IPv6.multicastNetwork.contains x = true ∨ x = 0

/-- Loopback, RFC 1918 or unique-local, and link-local. -/
def LocalAddress : Address → Prop
  | .v4 a =>
    IPv4.loopbackNetwork.contains a = true ∨ inAny IPv4.rfc1918 a = true ∨
      IPv4.linklocalNetwork.contains a = true
  | .v6 x => x = 1 ∨ IPv6.uniqueLocalNetwork.contains x = true ∨ IPv6.linklocalNetwork.contains x = true

/-- What the policy should do with an address. -/
structure AddressPolicy (a : Address) : Prop where
  never : NeverAllowed a → ∀ allowLoopback, addressBlocked allowLoopback a = true
  local_ : LocalAddress a → addressBlocked true a = false
  stricter : addressBlocked true a = true → addressBlocked false a = true

/-- `::1`, and the mapped form of the two networks of the module. -/
def Misjudged : Address → Prop
  | .v4 _ => False
  | .v6 x =>
    x = 1 ∨ ∃ a, x = IPv6.mapped a ∧ (cgnat.contains a = true ∨ benchmark.contains a = true)

variable {a : BitVec 32} {x : BitVec 128}

theorem cgnat_range : cgnat.contains a = true ↔ 0x64400000 ≤ a.toNat ∧ a.toNat < 0x64800000 :=
  Network.contains_range _ _ rfl rfl a

theorem benchmark_range :
    benchmark.contains a = true ↔ 0xC6120000 ≤ a.toNat ∧ a.toNat < 0xC6140000 :=
  Network.contains_range _ _ rfl rfl a

theorem multicast4_range :
    IPv4.isMulticast a = true ↔ 0xE0000000 ≤ a.toNat ∧ a.toNat < 0xF0000000 :=
  Network.contains_range _ _ rfl rfl a

theorem reserved4_range :
    IPv4.isReserved a = true ↔ 0xF0000000 ≤ a.toNat ∧ a.toNat < 0x100000000 :=
  Network.contains_range _ _ rfl rfl a

theorem unspecified4_range : IPv4.isUnspecified a = true ↔ a.toNat = 0 := by
  unfold IPv4.isUnspecified
  rw [decide_eq_true_iff, ← BitVec.toNat_inj]
  exact Iff.rfl

theorem loopback4_range :
    IPv4.loopbackNetwork.contains a = true ↔ 0x7F000000 ≤ a.toNat ∧ a.toNat < 0x80000000 :=
  Network.contains_range _ _ rfl rfl a

theorem linklocal4_range :
    IPv4.linklocalNetwork.contains a = true ↔ 0xA9FE0000 ≤ a.toNat ∧ a.toNat < 0xA9FF0000 :=
  Network.contains_range _ _ rfl rfl a

theorem rfc1918_range :
    inAny IPv4.rfc1918 a = true ↔
      0x0A000000 ≤ a.toNat ∧ a.toNat < 0x0B000000 ∨ 0xAC100000 ≤ a.toNat ∧ a.toNat < 0xAC200000 ∨
        0xC0A80000 ≤ a.toNat ∧ a.toNat < 0xC0A90000 := by
  unfold inAny IPv4.rfc1918
  simp only [List.any_cons, List.any_nil, Bool.or_false, Bool.or_eq_true]
  exact or_congr (Network.contains_range _ _ rfl rfl a)
    (or_congr (Network.contains_range _ _ rfl rfl a) (Network.contains_range _ _ rfl rfl a))

theorem multicast6_range :
    IPv6.multicastNetwork.contains x = true ↔ 0xFF * 2 ^ 120 ≤ x.toNat ∧ x.toNat < 2 ^ 128 :=
  Network.contains_range _ _ rfl rfl x

theorem uniqueLocal_range :
    IPv6.uniqueLocalNetwork.contains x = true ↔ 0xFC * 2 ^ 120 ≤ x.toNat ∧ x.toNat < 0xFE * 2 ^ 120 :=
  Network.contains_range _ _ rfl rfl x

theorem linklocal6_range :
    IPv6.linklocalNetwork.contains x = true ↔
      0xFE80 * 2 ^ 112 ≤ x.toNat ∧ x.toNat < 0xFEC0 * 2 ^ 112 :=
  Network.contains_range _ _ rfl rfl x

theorem toNat_zero6 : (0 : BitVec 128).toNat = 0 := rfl

theorem toNat_one6 : (1 : BitVec 128).toNat = 1 := rfl

/-- Between the reserved networks lie the global unicast block and the local ones. -/
theorem reserved6_range :
    inAny IPv6.reservedNetworks x = true ↔
      x.toNat < 0x20 * 2 ^ 120 ∨ 0x40 * 2 ^ 120 ≤ x.toNat ∧ x.toNat < 0xFC * 2 ^ 120 ∨
        0xFE * 2 ^ 120 ≤ x.toNat ∧ x.toNat < 0xFE80 * 2 ^ 112 := by
  unfold inAny IPv6.reservedNetworks
  simp only [List.any_cons, List.any_nil, Bool.or_false, Bool.or_eq_true, Network.contains_iff,
    IPv6.groups, BitVec.toNat_ofNat]
  omega

/-! ## The verdict -/

/-- What is always rejected. -/
def Special (a : Address) : Prop :=
  a.inNetwork4 cgnat = true ∨ a.inNetwork4 benchmark = true ∨ a.isMulticast = true ∨
    a.isReserved = true ∨ a.isUnspecified = true

theorem blocked_of_special {a : Address} (h : Special a) (allowLoopback : Bool) :
    addressBlocked allowLoopback a = true := by
  unfold addressBlocked
  rcases h with h | h | h | h | h <;> simp [h]

/-- Where loopback is allowed nothing else is rejected. -/
theorem blocked_allowed_iff (a : Address) : addressBlocked true a = true ↔ Special a := by
  refine ⟨fun h => ?_, fun h => blocked_of_special h true⟩
  by_contra hnot
  simp only [Special, not_or, Bool.not_eq_true] at hnot
  obtain ⟨hcgnat, hbench, hmulti, hres, hunspec⟩ := hnot
  unfold addressBlocked at h
  simp [hcgnat, hbench, hmulti, hres, hunspec] at h

/-- What is rejected where loopback is allowed is rejected where it is not. -/
theorem addressBlocked_stricter {a : Address} (h : addressBlocked true a = true) :
    addressBlocked false a = true :=
  blocked_of_special ((blocked_allowed_iff a).mp h) false

/-- An IPv4 address is judged by the policy. -/
theorem addressPolicy_v4 (a : BitVec 32) : AddressPolicy (.v4 a) := by
  refine ⟨fun h => ?_, fun h => ?_, addressBlocked_stricter⟩
  · apply blocked_of_special
    rcases h with h | h | h | h | rfl
    · exact .inl h
    · exact .inr (.inl h)
    · exact .inr (.inr (.inl h))
    · exact .inr (.inr (.inr (.inl h)))
    · exact .inr (.inr (.inr (.inr rfl)))
  · rw [← Bool.not_eq_true, blocked_allowed_iff]
    have h : IPv4.loopbackNetwork.contains a = true ∨ inAny IPv4.rfc1918 a = true ∨
      IPv4.linklocalNetwork.contains a = true := h
    rw [loopback4_range, rfc1918_range, linklocal4_range] at h
    show ¬ (cgnat.contains a = true ∨ benchmark.contains a = true ∨ IPv4.isMulticast a = true ∨
      IPv4.isReserved a = true ∨ IPv4.isUnspecified a = true)
    rw [cgnat_range, benchmark_range, multicast4_range, reserved4_range, unspecified4_range]
    omega

/-- The mapped form has the verdict of the IPv4 address, but for the two networks of the module. -/
theorem special_mapped (a : BitVec 32) :
    Special (.v6 (IPv6.mapped a)) ↔
      IPv4.isMulticast a = true ∨ IPv4.isReserved a = true ∨ IPv4.isUnspecified a = true := by
  show false = true ∨ false = true ∨ IPv6.isMulticast _ = true ∨ IPv6.isReserved _ = true ∨
    IPv6.isUnspecified _ = true ↔ _
  unfold IPv6.isMulticast IPv6.isReserved IPv6.isUnspecified
  simp only [IPv6.delegated_mapped, Bool.false_eq_true, false_or]

theorem special_native (h : IPv6.ipv4Mapped x = none) :
    Special (.v6 x) ↔
      IPv6.multicastNetwork.contains x = true ∨ inAny IPv6.reservedNetworks x = true ∨ x = 0 := by
  show false = true ∨ false = true ∨ IPv6.isMulticast x = true ∨ IPv6.isReserved x = true ∨
    IPv6.isUnspecified x = true ↔ _
  unfold IPv6.isMulticast IPv6.isReserved IPv6.isUnspecified
  simp only [IPv6.delegated_of_none h, Bool.false_eq_true, false_or, decide_eq_true_iff]

/-- A mapped address is judged by the policy, unless it is one of the two networks. -/
theorem addressPolicy_mapped (a : BitVec 32) :
    AddressPolicy (.v6 (IPv6.mapped a)) ↔
      ¬ (cgnat.contains a = true ∨ benchmark.contains a = true) := by
  have ha := a.isLt
  constructor
  · intro h hnet
    have hspecial : Special (.v6 (IPv6.mapped a)) :=
      (blocked_allowed_iff _).mp (h.never (.inl ⟨a, rfl, by
        rcases hnet with hnet | hnet
        · exact .inl hnet
        · exact .inr (.inl hnet)⟩) true)
    rw [special_mapped, multicast4_range, reserved4_range, unspecified4_range] at hspecial
    rw [cgnat_range, benchmark_range] at hnet
    omega
  · intro hnet
    rw [not_or] at hnet
    refine ⟨fun h => ?_, fun h => ?_, addressBlocked_stricter⟩
    · apply blocked_of_special
      rw [special_mapped]
      rcases h with ⟨b, hb, h⟩ | h | h
      · obtain rfl := IPv6.mapped_inj hb
        rcases h with h | h | h | h | rfl
        · exact absurd h hnet.1
        · exact absurd h hnet.2
        · exact .inl h
        · exact .inr (.inl h)
        · exact .inr (.inr rfl)
      · rw [multicast6_range, IPv6.toNat_mapped] at h
        omega
      · have h0 := congrArg BitVec.toNat h
        rw [IPv6.toNat_mapped, toNat_zero6] at h0
        omega
    · have h : IPv6.mapped a = 1 ∨ IPv6.uniqueLocalNetwork.contains (IPv6.mapped a) = true ∨
        IPv6.linklocalNetwork.contains (IPv6.mapped a) = true := h
      rw [uniqueLocal_range, linklocal6_range, ← BitVec.toNat_inj, IPv6.toNat_mapped,
        toNat_one6] at h
      omega

/-- An address of IPv6 alone is judged by the policy, unless it is the loopback address. -/
theorem addressPolicy_native (hx : IPv6.ipv4Mapped x = none) : AddressPolicy (.v6 x) ↔ x ≠ 1 := by
  constructor
  · rintro h rfl
    have hspecial : Special (.v6 1) := .inr (.inr (.inr (.inl (by decide +kernel))))
    have hblocked := (blocked_allowed_iff _).mpr hspecial
    rw [h.local_ (.inl rfl)] at hblocked
    cases hblocked
  · intro hone
    refine ⟨fun h => ?_, fun h => ?_, addressBlocked_stricter⟩
    · apply blocked_of_special
      rw [special_native hx]
      rcases h with ⟨a, rfl, -⟩ | h | rfl
      · rw [IPv6.ipv4Mapped_mapped] at hx
        cases hx
      · exact .inl h
      · exact .inr (.inr rfl)
    · rw [← Bool.not_eq_true, blocked_allowed_iff, special_native hx, multicast6_range,
        reserved6_range, ← BitVec.toNat_inj, toNat_zero6]
      rcases h with h | h | h
      · exact absurd h hone
      · rw [uniqueLocal_range] at h
        omega
      · rw [linklocal6_range] at h
        omega

/-- **The address policy.** Every address is judged by it but `::1` and the mapped form of CGNAT and
benchmark addresses. -/
theorem addressPolicy_iff (a : Address) : AddressPolicy a ↔ ¬ Misjudged a := by
  cases a with
  | v4 a => exact iff_of_true (addressPolicy_v4 a) id
  | v6 x =>
    rcases IPv6.mapped_or_none x with ⟨a, rfl⟩ | hx
    · rw [addressPolicy_mapped, not_iff_not]
      constructor
      · exact fun h => .inr ⟨a, rfl, h⟩
      · rintro (h | ⟨b, hb, h⟩)
        · have h1 := congrArg BitVec.toNat h
          rw [IPv6.toNat_mapped, toNat_one6] at h1
          omega
        · rwa [IPv6.mapped_inj hb]
    · rw [addressPolicy_native hx]
      refine not_congr ⟨.inl, ?_⟩
      rintro (h | ⟨a, rfl, -⟩)
      · exact h
      · rw [IPv6.ipv4Mapped_mapped] at hx
        cases hx

/-- Loopback is rejected where it is allowed, and a mapped CGNAT address passes everywhere. -/
theorem addressPolicy_exceptions :
    (LocalAddress (.v6 1) ∧ addressBlocked true (.v6 1) = true) ∧
      (NeverAllowed (.v6 (IPv6.mapped (IPv4.octets 100 64 0 1))) ∧
        addressBlocked false (.v6 (IPv6.mapped (IPv4.octets 100 64 0 1))) = false) ∧
      ¬ ∀ a, AddressPolicy a := by
  have hloop : LocalAddress (.v6 1) ∧ addressBlocked true (.v6 1) = true :=
    ⟨.inl rfl, by decide +kernel⟩
  refine ⟨hloop, ⟨.inl ⟨_, rfl, .inl (by decide +kernel)⟩, by decide +kernel⟩, fun h => ?_⟩
  have hpermitted := (h (.v6 1)).local_ hloop.1
  rw [hloop.2] at hpermitted
  cases hpermitted

end HermesMesh
