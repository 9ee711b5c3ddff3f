/-
Where the addresses of an accepted origin point (`internal/cdn/validation.go`). What
`isBlockedIP` goes through is compared with the ranges of the internal addresses; a text with a
zone is not parsed, so it is not checked.
-/
import EdgeFabric.Cdn

namespace EdgeFabric.CDNService

/-- The ranges of IPv4 by their first octets: loopback, link-local, link-local multicast, private,
unspecified and metadata. -/
def Internal4 (a : Nat) : Prop :=
  a / 2 ^ 24 = 127 ∨ a / 2 ^ 16 = 169 * 256 + 254 ∨ a / 2 ^ 8 = 224 * 65536 ∨ a / 2 ^ 24 = 10 ∨
    a / 2 ^ 20 = 172 * 16 + 1 ∨ a / 2 ^ 16 = 192 * 256 + 168 ∨ a = 0 ∨ a = 0xa9fea9fe
  deriving Decidable

def Internal6 (a : Nat) : Prop :=
  a = 1 ∨ a / 2 ^ 118 = 0xfe80 / 64 ∨ a / 2 ^ 120 = 0xff ∧ a / 2 ^ 112 % 16 = 2 ∨ a / 2 ^ 121 = 0xfc / 2 ∨ a = 0 ∨
    a = 0xfd000ec2000000000000000000000254
  deriving Decidable

/-- An address of one of the ranges. One that stands for an IPv4 address is that address. -/
def Internal (ip : IP.Addr) : Prop := (∃ a ∈ IP.to4 ip, Internal4 a.toNat) ∨ IP.to4 ip = none ∧ Internal6 ip.toNat
  deriving Decidable

section
variable {ip : IP.Addr}

theorem isBlockedIP_of_lies {cidr : String} {addr : IP.Addr} {net : IP.Net} (hcidr : cidr ∈ blockedRanges)
    (hparse : IP.parseCIDR cidr.toList = some (addr, net)) (h : IP.Lies addr net ip) : isBlockedIP ip = true := by
  have hcontains : (IP.parseCIDR cidr.toList).any (fun p => p.2.contains ip) = true := by
    rw [hparse]
    exact (IP.parseCIDR_contains hparse).mpr h
  rw [isBlockedIP, List.any_eq_true.mpr ⟨cidr, hcidr, hcontains⟩, Bool.true_or]

theorem isBlockedIP4 {a : BitVec 32} (cidr : String) (b n : BitVec 32) (ones : Nat) (hcidr : cidr ∈ blockedRanges)
    (hparse : IP.parseCIDR cidr.toList = some (IP.of4 b, .v4 n ones)) (h4 : IP.to4 ip = some a)
    (h : a.toNat / 2 ^ (32 - ones) = b.toNat / 2 ^ (32 - ones)) : isBlockedIP ip = true :=
  isBlockedIP_of_lies hcidr hparse ⟨b, a, IP.to4_of4 b, h4, h⟩

theorem isBlockedIP6 (cidr : String) (addr n : IP.Addr) (ones : Nat) (hcidr : cidr ∈ blockedRanges)
    (hparse : IP.parseCIDR cidr.toList = some (addr, .v6 n ones)) (haddr : IP.to4 addr = none) (h6 : IP.to4 ip = none)
    (h : ip.toNat / 2 ^ (128 - ones) = addr.toNat / 2 ^ (128 - ones)) : isBlockedIP ip = true := by
  refine isBlockedIP_of_lies hcidr hparse ?_
  rw [IP.Lies, haddr, if_neg (by simp)]
  exact ⟨h6, h⟩

theorem isBlockedIP_of_internal4 {a : BitVec 32} (h4 : IP.to4 ip = some a) (h : Internal4 a.toNat) :
    isBlockedIP ip = true := by
  rcases h with h | h | h | h | h | h | h | h
  · exact isBlockedIP4 "127.0.0.0/8" 0x7f000000 0x7f000000 8 (by decide) (by decide) h4 h
  · exact isBlockedIP4 "169.254.0.0/16" 0xa9fe0000 0xa9fe0000 16 (by decide) (by decide) h4 h
  · exact isBlockedIP4 "224.0.0.0/24" 0xe0000000 0xe0000000 24 (by decide) (by decide) h4 h
  · exact isBlockedIP4 "10.0.0.0/8" 0x0a000000 0x0a000000 8 (by decide) (by decide) h4 h
  · exact isBlockedIP4 "172.16.0.0/12" 0xac100000 0xac100000 12 (by decide) (by decide) h4 h
  · exact isBlockedIP4 "192.168.0.0/16" 0xc0a80000 0xc0a80000 16 (by decide) (by decide) h4 h
  · exact isBlockedIP4 "0.0.0.0/32" 0 0 32 (by decide) (by decide) h4 (congrArg (· / 2 ^ (32 - 32)) h)
  · exact isBlockedIP4 "169.254.169.254/32" 0xa9fea9fe 0xa9fea9fe 32 (by decide)
      (by decide) h4 (congrArg (· / 2 ^ (32 - 32)) h)

theorem isBlockedIP_of_internal6 (h6 : IP.to4 ip = none) (h : Internal6 ip.toNat) : isBlockedIP ip = true := by
  rcases h with h | h | h | h | h | h
  · exact isBlockedIP6 "::1/128" 1 1 128 (by decide) (by decide) (by decide) h6 (congrArg (· / 2 ^ (128 - 128)) h)
  · exact isBlockedIP6 "fe80::/10" 0xfe800000000000000000000000000000 0xfe800000000000000000000000000000 10
      (by decide) (by decide) (by decide) h6 h
  · rw [isBlockedIP, isLinkLocalMulticast6, decide_eq_true h.1, decide_eq_true h.2, Bool.and_self, Bool.or_true]
  · exact isBlockedIP6 "fc00::/7" 0xfc000000000000000000000000000000 0xfc000000000000000000000000000000 7
      (by decide) (by decide) (by decide) h6 h
  · exact isBlockedIP6 "::/128" 0 0 128 (by decide) (by decide) (by decide) h6 (congrArg (· / 2 ^ (128 - 128)) h)
  · exact isBlockedIP6 "fd00:ec2::254/128" 0xfd000ec2000000000000000000000254 0xfd000ec2000000000000000000000254 128
      (by decide) (by decide) (by decide) h6 (congrArg (· / 2 ^ (128 - 128)) h)

theorem isBlockedIP_of_internal (h : Internal ip) : isBlockedIP ip = true := by
  rcases h with ⟨a, ha, h⟩ | ⟨h6, h⟩
  · exact isBlockedIP_of_internal4 ha h
  · exact isBlockedIP_of_internal6 h6 h

end

/-! ## What is accepted -/

def hostPart (address : String) : String :=
  match splitHostPort address.toList with
  | some (host, _) => String.ofList host
  | none => address

/-- A host, in lower case, that is one of the internal names or lies below one. -/
def isBlockedHost (lower : String) : Bool :=
  blockedHosts.any fun b => lower = b ∨ ("." ++ b).toList.isSuffixOf lower.toList

/-- The address that a text stands for, its zone left out. -/
def addressOf (text : String) : Option IP.Addr := IP.parse (text.toList.takeWhile (· ≠ '%'))

theorem addressOf_of_no_zone {text : String} (h : '%' ∉ text.toList) : addressOf text = IP.parse text.toList := by
  have hall : text.toList.takeWhile (· ≠ '%') = text.toList := List.takeWhile_eq_self_iff.mpr fun c hc => by
    refine decide_eq_true fun hzone => h ?_
    rwa [← hzone]
  rw [addressOf, hall]

theorem resolve_exec {v : Env} {w : World} {address host : String} {ips : List String}
    (h : v.lookupHost w.tick host = .ok ips) : (resolve address host).1.exec v w = (.ok ips, w.next) := by
  have hasked : (ask .library fun v t => orErr (v.lookupHost t host) : Reads _).attempt.1.exec v w =
      (.ok (.ok ips), w.next) := by
    rw [Query.attempt, Prog.exec_attempt, ask, Prog.exec_call, h, orErr]
  rw [resolve, Query.bind_val, Prog.exec_bind, hasked]
  rfl

theorem accepts_iff {v : Env} {w : World} {address : String} {ips : List String}
    (hips : v.lookupHost (w.tick + 1) (hostPart address) = .ok ips) :
    ((validateOriginAddress address).1.exec v w).1 = .ok () ↔
      isBlockedHost (v.lower (hostPart address)) = false ∧ ∀ text ∈ ips,
        (IP.parse text.toList).any isBlockedIP = false := by
  change (Prog.exec v (ite (isBlockedHost (v.lower (hostPart address)) = true) _
    (resolve address (hostPart address) >>= _) : Reads Unit).1 w.next).1 = _ ↔ _
  split
  · next hname =>
    refine iff_of_false (by simp [Query.fail]) fun h => ?_
    cases hname.symm.trans h.1
  · next hname =>
    rw [Query.bind_val, Prog.exec_bind, resolve_exec hips]
    dsimp only
    split
    · next text hfind =>
      have hblocked := List.find?_some hfind
      simp only [Query.fail, Prog.exec_fail, reduceCtorEq, false_iff, not_and]
      intro _ hfree
      cases (hfree text (List.mem_of_find?_eq_some hfind)).symm.trans hblocked
    · next hfind =>
      refine iff_of_true rfl ⟨Bool.eq_false_iff.mpr hname, fun text htext => ?_⟩
      exact Bool.eq_false_iff.mpr (List.find?_eq_none.mp hfind text htext)

/-- An internal address with a zone. -/
def ZonedInternal (text : String) : Prop := '%' ∈ text.toList ∧ ∃ ip, addressOf text = some ip ∧ Internal ip

/-- No address that the lookup of the host part of an accepted origin has returned is internal
precisely if none of them is an internal one with a zone. -/
theorem accepted_addresses_outside {v : Env} {w : World} {address : String} {ips : List String}
    (haccept : ((validateOriginAddress address).1.exec v w).1 = .ok ())
    (hips : v.lookupHost (w.tick + 1) (hostPart address) = .ok ips) :
    (∀ text ∈ ips, ∀ ip, addressOf text = some ip → ¬ Internal ip) ↔ ∀ text ∈ ips, ¬ ZonedInternal text := by
  constructor
  · rintro houtside text htext ⟨-, ip, hip, hinternal⟩
    exact houtside text htext ip hip hinternal
  · intro hzoned text htext ip hip hinternal
    by_cases hzone : '%' ∈ text.toList
    · exact hzoned text htext ⟨hzone, ip, hip, hinternal⟩
    · have hfree := ((accepts_iff hips).mp haccept).2 text htext
      rw [← addressOf_of_no_zone hzone, hip, Option.any_some, isBlockedIP_of_internal hinternal] at hfree
      cases hfree

def Sample.fresh : World := ⟨0, .empty⟩

theorem Sample.public_accepted : ((validateOriginAddress "192.0.2.10:443").1.exec Env.calm Sample.fresh).1 = .ok () :=
  (accepts_iff rfl).mpr ⟨by decide, by decide⟩

theorem accepted_addresses_outside_literal :
    addressOf "192.0.2.10" = some (IP.of4 0xc000020a) ∧ ¬ Internal (IP.of4 0xc000020a) := by
  have hzoned : ∀ text ∈ ["192.0.2.10"], ¬ ZonedInternal text := by
    intro text htext hzoned
    obtain rfl := List.mem_singleton.mp htext
    exact absurd hzoned.1 (by decide)
  exact ⟨by decide, (accepted_addresses_outside Sample.public_accepted rfl).mpr hzoned "192.0.2.10"
    (by decide) _ (by decide)⟩

/-- A link-local address with a zone is looked up to itself and accepted. -/
theorem zone_accepted :
    ((validateOriginAddress "fe80::1%eth0").1.exec Env.calm Sample.fresh).1 = .ok () ∧
      Env.calm.lookupHost 1 (hostPart "fe80::1%eth0") = .ok ["fe80::1%eth0"] ∧
      ∃ ip, addressOf "fe80::1%eth0" = some ip ∧ Internal ip :=
  ⟨(accepts_iff rfl).mpr ⟨by decide, by decide⟩, rfl,
    0xfe800000000000000000000000000001, by decide, .inr ⟨by decide, .inr (.inl (by decide))⟩⟩

end EdgeFabric.CDNService
