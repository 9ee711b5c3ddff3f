/-
Overlay addresses are given out from below (`overlay_allocation_least_free`). What
`AllocateOverlayIP` returns is the least address of the subnet that the controller, the
peers and the nodes leave free, between the network and the broadcast address; in IPv6
the last address counts as well. It fails if there is none.

The addresses in use are kept as texts, so the texts have to tell addresses apart; and
the IPv4 loop ends when it leaves the subnet, also where that is by wrapping around.
-/
import EdgeFabric.Provisioning.WireGuard

namespace EdgeFabric

open IP (Addr Net Masked)

/-- The text of the least free address, or an error if no address is free. -/
def AllocatesLeast {w : Nat} (free : BitVec w → Prop) (text : BitVec w → List Char) (r : Except Err String) : Prop :=
  (∃ x, free x ∧ (∀ y, free y → x ≤ y) ∧ r = .ok (String.ofList (text x))) ∨
    (∀ x, ¬ free x) ∧ ∃ e, r = .error e

section
variable (controllerAddr : String) (peers : List WireGuardPeer) (nodes : List Node)

/-- It is the controller's, the address part of an allowed IP of a peer, or a node's. -/
def InUse4 (x : BitVec 32) : Prop :=
  parseAddrOrCIDR controllerAddr = some (IP.of4 x) ∨
    (∃ p ∈ peers, ∃ cidr ∈ p.allowedIPs, parseAddrOrCIDR cidr = some (IP.of4 x)) ∨
    ∃ n ∈ nodes, IP.parse n.wireGuardIP.toList = some (IP.of4 x)

/-- The same in IPv6; of the allowed IPs, those that are no IPv4 addresses. -/
def InUse6 (x : Addr) : Prop :=
  parseAddrOrCIDR controllerAddr = some x ∨
    (∃ p ∈ peers, ∃ cidr ∈ p.allowedIPs, parseAddrOrCIDR cidr = some x ∧ IP.to4 x = none) ∨
    ∃ n ∈ nodes, IP.parse n.wireGuardIPv6.toList = some x

/-- Strictly between the network and the broadcast address, and not in use. -/
def Free4 (network : BitVec 32) (ones : Nat) (x : BitVec 32) : Prop :=
  network.toNat < x.toNat ∧ x.toNat < network.toNat + (2 ^ (32 - ones) - 1) ∧ ¬ InUse4 controllerAddr peers nodes x

/-- Above the network address, at most the last address, and not in use. -/
def Free6 (network : Addr) (ones : Nat) (x : Addr) : Prop :=
  network.toNat < x.toNat ∧ x.toNat ≤ network.toNat + (2 ^ (128 - ones) - 1) ∧ ¬ InUse6 controllerAddr peers nodes x

end

/-! ## Addresses and their texts -/

theorem to4Text_eq_text4 {ip : Addr} {x : BitVec 32} : to4Text ip = IP.text4 x ↔ ip = IP.of4 x := by
  rw [← IP.to4_eq_some_iff]
  unfold to4Text
  split
  · next a ha =>
    rw [ha, Option.some.injEq]
    exact ⟨IP.text4_injective, congrArg _⟩
  · next hnone =>
    rw [hnone]
    refine ⟨fun h => ?_, nofun⟩
    -- the text of nil has no dot
    have hdot := IP.dot_mem_text4 x
    rw [← h] at hdot
    exact absurd hdot (by decide)

theorem map_to4Text_eq {ip : Option Addr} {x : BitVec 32} :
    ip.map to4Text = some (IP.text4 x) ↔ ip = some (IP.of4 x) := by
  cases ip with
  | none => simp
  | some ip => simp [to4Text_eq_text4]

theorem map_text_eq {ip : Option Addr} {x : Addr} : ip.map IP.text = some (IP.text x) ↔ ip = some x := by
  cases ip with
  | none => simp
  | some ip => simpa using ⟨IP.text_injective, congrArg _⟩

theorem allowed6_eq {ip : Option Addr} {x : Addr} :
    (match ip with
      | some ip => if IP.to4 ip = none then some (IP.text ip) else none
      | none => none) = some (IP.text x) ↔ ip = some x ∧ IP.to4 x = none := by
  cases ip with
  | none => simp
  | some ip =>
    by_cases hip : IP.to4 ip = none
    · simp only [hip, if_true, Option.some.injEq]
      refine ⟨fun h => ?_, fun h => congrArg _ h.1⟩
      obtain rfl := IP.text_injective h
      exact ⟨rfl, hip⟩
    · simp only [hip, if_false, reduceCtorEq, Option.some.injEq, false_iff, not_and]
      rintro rfl
      exact hip

theorem parseAddrOrCIDR_empty : parseAddrOrCIDR "" = none := rfl

theorem unless_empty {s : String} {f : String → Option Addr} (hf : f "" = none) :
    (if s = "" then none else f s) = f s := by
  split
  · next hs => rw [hs, hf]
  · rfl

section
variable {controllerAddr : String} {peers : List WireGuardPeer} {nodes : List Node}

theorem text4_mem_usedIPv4 {n : Subnet4} {x : BitVec 32} :
    IP.text4 x ∈ usedIPv4 n controllerAddr peers nodes ↔
      x = n.network ∨ x = n.broadcast ∨ InUse4 controllerAddr peers nodes x := by
  have htext : ∀ y, IP.text4 x = IP.text4 y ↔ x = y := fun y => ⟨IP.text4_injective, congrArg _⟩
  have hnode : ∀ m : Node, (if m.wireGuardIP = "" then none else IP.parse m.wireGuardIP.toList) =
      IP.parse m.wireGuardIP.toList := fun m => unless_empty (f := fun s => IP.parse s.toList) IP.parse_nil
  simp only [usedIPv4, List.mem_append, List.mem_cons, List.not_mem_nil, or_false, htext, Option.mem_toList,
    List.mem_flatMap, List.mem_filterMap, unless_empty parseAddrOrCIDR_empty, hnode, map_to4Text_eq, InUse4, or_assoc]

theorem text_mem_usedIPv6 {network x : Addr} :
    IP.text x ∈ usedIPv6 network controllerAddr peers nodes ↔
      x = network ∨ InUse6 controllerAddr peers nodes x := by
  have htext : ∀ y, IP.text x = IP.text y ↔ x = y := fun y => ⟨IP.text_injective, congrArg _⟩
  have hnode : ∀ m : Node, (if m.wireGuardIPv6 = "" then none else IP.parse m.wireGuardIPv6.toList) =
      IP.parse m.wireGuardIPv6.toList := fun m => unless_empty (f := fun s => IP.parse s.toList) IP.parse_nil
  simp only [usedIPv6, List.mem_append, List.mem_cons, List.not_mem_nil, or_false, htext, Option.mem_toList,
    List.mem_flatMap, List.mem_filterMap, unless_empty parseAddrOrCIDR_empty, hnode, map_text_eq, InUse6, or_assoc]
  exact or_congr_right <| or_congr_right <| or_congr_left <| exists_congr fun p => and_congr_right fun _ =>
    exists_congr fun cidr => and_congr_right fun _ => allowed6_eq

end

/-! ## IPv4 -/

/-- The IPv4 loop for at most `fuel` rounds; nothing if it is not over by then. -/
def loop4 (n : Subnet4) (used : List (List Char)) : Nat → BitVec 32 → Option (Option (List Char))
  | 0, _ => none
  | fuel + 1, ip =>
    if n.contains ip then
      if used.contains (IP.text4 ip) then loop4 n used fuel (ip + 1) else some (some (IP.text4 ip))
    else some none

theorem firstFree4_of_loop4 {n : Subnet4} {used : List (List Char)} {fuel : Nat} {ip : BitVec 32}
    {r : Option (List Char)} (h : loop4 n used fuel ip = some r) : firstFree4 n used fuel ip = r := by
  induction fuel generalizing ip with
  | zero => cases h
  | succ fuel ih =>
    rw [loop4] at h
    rw [firstFree4]
    split at h
    · next hin =>
      rw [if_pos hin]
      split at h
      · next hused =>
        rw [if_pos hused]
        exact ih h
      · next hfree =>
        rw [if_neg hfree]
        exact Option.some.inj h
    · next hout =>
      rw [if_neg hout]
      exact Option.some.inj h

def dotted (a : BitVec 32) (ones : Nat) : Subnet4 := ⟨a, ones, BitVec.ofNat 32 (a.toNat + (2 ^ (32 - ones) - 1))⟩

section
variable {a : BitVec 32} {ones : Nat}

theorem toNat_add_ofNat {k : Nat} (h : a.toNat + k < 2 ^ 32) : (a + BitVec.ofNat 32 k).toNat = a.toNat + k := by
  rw [BitVec.toNat_add, BitVec.toNat_ofNat, Nat.add_mod_mod, Nat.mod_eq_of_lt h]

theorem contains_offset (hm : Masked 32 ones a.toNat) {k : Nat} (hk : k < 2 ^ (32 - ones)) :
    (dotted a ones).contains (a + BitVec.ofNat 32 k) = true := by
  have hfit := hm.add_le
  obtain ⟨c, hc⟩ := hm.dvd
  have hquot : (a.toNat + k) / 2 ^ (32 - ones) = a.toNat / 2 ^ (32 - ones) := by
    rw [hc, Nat.mul_add_div hm.pos, Nat.div_eq_of_lt hk, Nat.add_zero, Nat.mul_div_cancel_left _ hm.pos]
  rw [Subnet4.contains, decide_eq_true_eq, dotted, toNat_add_ofNat (by omega), hquot]

theorem not_contains_size (hm : Masked 32 ones a.toNat) (hones : 1 ≤ ones) :
    (dotted a ones).contains (a + BitVec.ofNat 32 (2 ^ (32 - ones))) = false := by
  have hfit := hm.add_le
  obtain ⟨c, hc⟩ := hm.dvd
  have hsize : 2 ^ (32 - ones) < 2 ^ 32 := Nat.pow_lt_pow_right (by decide) (by have := hm.le; omega)
  have hquot : a.toNat / 2 ^ (32 - ones) = c := by rw [hc, Nat.mul_div_cancel_left _ hm.pos]
  rw [Subnet4.contains, decide_eq_false_iff_not, dotted]
  rcases Nat.lt_or_eq_of_le hfit with hlt | hend
  · rw [toNat_add_ofNat hlt, Nat.add_div_right _ hm.pos, hquot]
    omega
  · have hwrap : (a + BitVec.ofNat 32 (2 ^ (32 - ones))).toNat = 0 := by
      rw [BitVec.toNat_add, BitVec.toNat_ofNat, Nat.add_mod_mod, hend, Nat.mod_self]
    rw [hwrap, Nat.zero_div, hquot]
    -- a subnet at the end of the address space that starts at zero is the whole space
    rintro rfl
    omega

/-- From the offset `k` on, the loop ends with the first offset that is not in use, if one
is left. -/
theorem loop4_spec (hm : Masked 32 ones a.toNat) (hones : 1 ≤ ones) (used : List (List Char)) (fuel : Nat) {k : Nat}
    (hk : k ≤ 2 ^ (32 - ones)) (hfuel : 2 ^ (32 - ones) < k + fuel) :
    (∃ j, k ≤ j ∧ j < 2 ^ (32 - ones) ∧ IP.text4 (a + BitVec.ofNat 32 j) ∉ used ∧
      (∀ i, k ≤ i → i < j → IP.text4 (a + BitVec.ofNat 32 i) ∈ used) ∧
      loop4 (dotted a ones) used fuel (a + BitVec.ofNat 32 k) = some (some (IP.text4 (a + BitVec.ofNat 32 j)))) ∨
    (∀ i, k ≤ i → i < 2 ^ (32 - ones) → IP.text4 (a + BitVec.ofNat 32 i) ∈ used) ∧
      loop4 (dotted a ones) used fuel (a + BitVec.ofNat 32 k) = some none := by
  induction fuel generalizing k with
  | zero => omega
  | succ fuel ih =>
    rw [loop4]
    rcases Nat.lt_or_eq_of_le hk with hlt | rfl
    · rw [if_pos (contains_offset hm hlt)]
      by_cases hused : IP.text4 (a + BitVec.ofNat 32 k) ∈ used
      · have hnext : a + BitVec.ofNat 32 k + 1 = a + BitVec.ofNat 32 (k + 1) := by
          rw [BitVec.add_assoc, BitVec.ofNat_add]
          rfl
        rw [if_pos (List.contains_iff_mem.mpr hused), hnext]
        have hrest : ∀ i, k ≤ i → (k + 1 ≤ i → IP.text4 (a + BitVec.ofNat 32 i) ∈ used) →
            IP.text4 (a + BitVec.ofNat 32 i) ∈ used := by
          intro i hi h
          rcases Nat.eq_or_lt_of_le hi with rfl | hi
          · exact hused
          · exact h hi
        rcases ih (k := k + 1) hlt (by omega) with ⟨j, hj, hsize, hfree, hbelow, hloop⟩ | ⟨hall, hloop⟩
        · exact .inl ⟨j, by omega, hsize, hfree, fun i hi hij => hrest i hi fun hi => hbelow i hi hij, hloop⟩
        · exact .inr ⟨fun i hi hsize => hrest i hi fun hi => hall i hi hsize, hloop⟩
      · rw [if_neg (fun h => hused (List.contains_iff_mem.mp h))]
        exact .inl ⟨k, le_refl k, hlt, hused, fun i hi hik => absurd hi (by omega), rfl⟩
    · rw [not_contains_size hm hones]
      exact .inr ⟨fun i hi hsize => absurd hi (by omega), rfl⟩

theorem exists_offset {x : BitVec 32} (h : a.toNat ≤ x.toNat) : x = a + BitVec.ofNat 32 (x.toNat - a.toNat) := by
  have hx := x.isLt
  refine BitVec.eq_of_toNat_eq ?_
  rw [toNat_add_ofNat (by omega)]
  omega

section
variable (controllerAddr : String) (peers : List WireGuardPeer) (nodes : List Node)

theorem free4_offset (hm : Masked 32 ones a.toNat) {k : Nat} (hpos : 1 ≤ k) (hk : k < 2 ^ (32 - ones)) :
    IP.text4 (a + BitVec.ofNat 32 k) ∉ usedIPv4 (dotted a ones) controllerAddr peers nodes ↔
      Free4 controllerAddr peers nodes a ones (a + BitVec.ofNat 32 k) := by
  have hfit := hm.add_le
  have hnat : (a + BitVec.ofNat 32 k).toNat = a.toNat + k := toNat_add_ofNat (by omega)
  have hlast : (dotted a ones).broadcast.toNat = a.toNat + (2 ^ (32 - ones) - 1) := by
    rw [dotted, BitVec.toNat_ofNat]
    exact Nat.mod_eq_of_lt (by omega)
  have hnetwork : a + BitVec.ofNat 32 k ≠ a := by
    intro h
    have := congrArg BitVec.toNat h
    omega
  have hbroadcast : a + BitVec.ofNat 32 k = (dotted a ones).broadcast ↔ k = 2 ^ (32 - ones) - 1 := by
    rw [← BitVec.toNat_inj, hnat, hlast]
    omega
  rw [text4_mem_usedIPv4, Free4, hnat, hbroadcast, not_or, not_or]
  constructor
  · rintro ⟨_, hb, hfree⟩
    exact ⟨by omega, by omega, hfree⟩
  · rintro ⟨_, hb, hfree⟩
    exact ⟨hnetwork, by omega, hfree⟩

theorem loop4_least (hm : Masked 32 ones a.toNat) (hones : 1 ≤ ones) :
    (∃ x, Free4 controllerAddr peers nodes a ones x ∧ (∀ y, Free4 controllerAddr peers nodes a ones y → x ≤ y) ∧
      loop4 (dotted a ones) (usedIPv4 (dotted a ones) controllerAddr peers nodes) (2 ^ 32) (a + 1) =
        some (some (IP.text4 x))) ∨
    (∀ x, ¬ Free4 controllerAddr peers nodes a ones x) ∧
      loop4 (dotted a ones) (usedIPv4 (dotted a ones) controllerAddr peers nodes) (2 ^ 32) (a + 1) = some none := by
  have hsize : 2 ^ (32 - ones) < 2 ^ 32 := Nat.pow_lt_pow_right (by decide) (by have := hm.le; omega)
  have hpos := hm.pos
  have hfit := hm.add_le
  have htried : ∀ y, Free4 controllerAddr peers nodes a ones y →
      IP.text4 (a + BitVec.ofNat 32 (y.toNat - a.toNat)) ∉ usedIPv4 (dotted a ones) controllerAddr peers nodes := by
    intro y hy
    have hlow := hy.1
    have hbound := hy.2.1
    rwa [free4_offset _ _ _ hm (by omega) (by omega), ← exists_offset (Nat.le_of_lt hlow)]
  rcases loop4_spec hm hones (usedIPv4 (dotted a ones) controllerAddr peers nodes) (2 ^ 32) (k := 1)
    (by omega) (by omega) with ⟨j, hj, hlt, hfree, hbelow, hloop⟩ | ⟨hall, hloop⟩
  · refine .inl ⟨a + BitVec.ofNat 32 j, (free4_offset _ _ _ hm hj hlt).mp hfree, fun y hy => ?_, hloop⟩
    have hlow := hy.1
    rw [BitVec.le_def, toNat_add_ofNat (by omega)]
    by_contra hsmall
    exact htried y hy (hbelow _ (by omega) (by omega))
  · refine .inr ⟨fun y hy => ?_, hloop⟩
    have hlow := hy.1
    have hbound := hy.2.1
    exact htried y hy (hall _ (by omega) (by omega))

end

end

/-! ## IPv6 -/

/-- From `current` on, the first of `count` addresses that is not in use. -/
theorem firstFree6_spec (used : List (List Char)) (count current : Nat) :
    (∃ j, current ≤ j ∧ j < current + count ∧ IP.text (BitVec.ofNat 128 j) ∉ used ∧
      (∀ i, current ≤ i → i < j → IP.text (BitVec.ofNat 128 i) ∈ used) ∧
      firstFree6 used count current = some (IP.text (BitVec.ofNat 128 j))) ∨
    (∀ i, current ≤ i → i < current + count → IP.text (BitVec.ofNat 128 i) ∈ used) ∧
      firstFree6 used count current = none := by
  induction count generalizing current with
  | zero => exact .inr ⟨fun i hi hlt => absurd hi (by omega), rfl⟩
  | succ count ih =>
    rw [firstFree6]
    by_cases hused : IP.text (BitVec.ofNat 128 current) ∈ used
    · rw [if_pos (List.contains_iff_mem.mpr hused)]
      have hrest : ∀ i, current ≤ i → (current + 1 ≤ i → IP.text (BitVec.ofNat 128 i) ∈ used) →
          IP.text (BitVec.ofNat 128 i) ∈ used := by
        intro i hi h
        rcases Nat.eq_or_lt_of_le hi with rfl | hi
        · exact hused
        · exact h hi
      rcases ih (current + 1) with ⟨j, hj, hlt, hfree, hbelow, hloop⟩ | ⟨hall, hloop⟩
      · exact .inl ⟨j, by omega, by omega, hfree, fun i hi hij => hrest i hi fun hi => hbelow i hi hij, hloop⟩
      · exact .inr ⟨fun i hi hlt => hrest i hi fun hi => hall i hi (by omega), hloop⟩
    · rw [if_neg (fun h => hused (List.contains_iff_mem.mp h))]
      exact .inl ⟨current, le_refl _, by omega, hused, fun i hi hij => absurd hi (by omega), rfl⟩

section
variable {network : Addr} {ones : Nat} {controllerAddr : String} {peers : List WireGuardPeer} {nodes : List Node}

theorem free6_offset (hm : Masked 128 ones network.toNat) {k : Nat} (hlo : network.toNat < k)
    (hhi : k ≤ network.toNat + (2 ^ (128 - ones) - 1)) :
    IP.text (BitVec.ofNat 128 k) ∉ usedIPv6 network controllerAddr peers nodes ↔
      Free6 controllerAddr peers nodes network ones (BitVec.ofNat 128 k) := by
  have hfit := hm.add_le
  have hpos := hm.pos
  have hnat : (BitVec.ofNat 128 k).toNat = k := by
    rw [BitVec.toNat_ofNat]
    exact Nat.mod_eq_of_lt (by omega)
  have hnetwork : BitVec.ofNat 128 k ≠ network := by
    intro h
    have := congrArg BitVec.toNat h
    omega
  rw [text_mem_usedIPv6, Free6, hnat, not_or]
  exact ⟨fun h => ⟨hlo, hhi, h.2⟩, fun h => ⟨hnetwork, h.2.2⟩⟩

theorem allocateOverlayIPv6_least (hm : Masked 128 ones network.toNat) :
    AllocatesLeast (Free6 controllerAddr peers nodes network ones) IP.text
      (allocateOverlayIPv6 network ones controllerAddr peers nodes) := by
  have hpos := hm.pos
  have hfit := hm.add_le
  have htried : ∀ y, Free6 controllerAddr peers nodes network ones y →
      IP.text (BitVec.ofNat 128 y.toNat) ∉ usedIPv6 network controllerAddr peers nodes := by
    intro y hy
    refine (free6_offset hm hy.1 hy.2.1).mpr ?_
    rwa [BitVec.ofNat_toNat, BitVec.setWidth_eq]
  unfold allocateOverlayIPv6
  rcases firstFree6_spec (usedIPv6 network controllerAddr peers nodes) (2 ^ (128 - ones) - 1) (network.toNat + 1) with
    ⟨j, hj, hlt, hfree, hbelow, hloop⟩ | ⟨hall, hloop⟩
  · rw [hloop]
    refine .inl ⟨BitVec.ofNat 128 j, (free6_offset hm (by omega) (by omega)).mp hfree, fun y hy => ?_, rfl⟩
    have hlow := hy.1
    rw [BitVec.le_def, BitVec.toNat_ofNat, Nat.mod_eq_of_lt (by omega)]
    by_contra hsmall
    exact htried y hy (hbelow _ (by omega) (by omega))
  · rw [hloop]
    refine .inr ⟨fun y hy => ?_, _, rfl⟩
    have hlow := hy.1
    have hbound := hy.2.1
    exact htried y hy (hall _ (by omega) (by omega))

end

/-- Overlay addresses are the least free ones. In a dotted subnet with a mask the loop
is over within `2 ^ 32` rounds, and the address allocated is the least one between the
network and the broadcast address that nobody uses; in an IPv6 subnet, the least one
above the network address, up to the last. There is an error if there is none. -/
theorem overlay_allocation_least_free (subnet controllerAddr : String) (peers : List WireGuardPeer)
    (nodes : List Node) :
    (∀ ip a ones, IP.parseCIDR subnet.toList = some (ip, .v4 a ones) → 1 ≤ ones →
      (loop4 (dotted a ones) (usedIPv4 (dotted a ones) controllerAddr peers nodes) (2 ^ 32) (a + 1)).isSome ∧
      AllocatesLeast (Free4 controllerAddr peers nodes a ones) IP.text4
        (allocateOverlayIP subnet controllerAddr peers nodes)) ∧
    ∀ ip network ones, IP.parseCIDR subnet.toList = some (ip, .v6 network ones) → IP.to4 network = none →
      AllocatesLeast (Free6 controllerAddr peers nodes network ones) IP.text
        (allocateOverlayIP subnet controllerAddr peers nodes) := by
  refine ⟨fun ip a ones hparse hones => ?_, fun ip network ones hparse hmapped => ?_⟩
  · have hm : Masked 32 ones a.toNat := IP.parseCIDR_masked hparse
    have halloc : allocateOverlayIP subnet controllerAddr peers nodes =
        (firstFree4 (dotted a ones) (usedIPv4 (dotted a ones) controllerAddr peers nodes) (2 ^ 32) (a + 1)).elim
          (.error (.detail .conflict ("overlay subnet " ++ subnet ++ " exhausted")))
          fun cs => .ok (String.ofList cs) := by
      simp only [allocateOverlayIP, hparse, overlay, dotted]
      split
      · next hcs => rw [hcs, Option.elim_some]
      · next hcs => rw [hcs, Option.elim_none]
    rcases loop4_least controllerAddr peers nodes hm hones with
      ⟨x, hx, hleast, hloop⟩ | ⟨hnone, hloop⟩
    · rw [halloc, firstFree4_of_loop4 hloop]
      exact ⟨by rw [hloop]; rfl, .inl ⟨x, hx, hleast, rfl⟩⟩
    · rw [halloc, firstFree4_of_loop4 hloop]
      exact ⟨by rw [hloop]; rfl, .inr ⟨hnone, _, rfl⟩⟩
  · have hm : Masked 128 ones network.toNat := IP.parseCIDR_masked hparse
    have halloc : allocateOverlayIP subnet controllerAddr peers nodes =
        allocateOverlayIPv6 network ones controllerAddr peers nodes := by
      rw [allocateOverlayIP, hparse]
      simp only [overlay, hmapped]
    rw [halloc]
    exact allocateOverlayIPv6_least hm

/-- In the last network of the address space, and in an IPv6 network. -/
theorem overlay_allocation_least_free_last :
    allocateOverlayIP "255.255.255.252/30" "255.255.255.253/30" [] [] = .ok "255.255.255.254" ∧
    AllocatesLeast (Free4 "255.255.255.253/30" [] [] 0xfffffffc 30) IP.text4
      (allocateOverlayIP "255.255.255.252/30" "255.255.255.253/30" [] []) ∧
    AllocatesLeast (Free6 "fd00:ef::1/48" [] [] 0xfd0000ef000000000000000000000000 48) IP.text
      (allocateOverlayIP "fd00:ef::/48" "fd00:ef::1/48" [] []) :=
  ⟨by decide, ((overlay_allocation_least_free _ _ _ _).1 _ _ _ rfl (by decide)).2,
    (overlay_allocation_least_free _ _ _ _).2 _ _ _ rfl rfl⟩

end EdgeFabric
