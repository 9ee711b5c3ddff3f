/-
Zones as the DNS server of a node holds them (`internal/dnsserver`): the records of the
control plane converted to resource records, in a table by lowercase owner and type, and the
networks that may transfer the zone. Texts are lists of characters; all resource records are
of class `IN`.
-/
import EdgeFabric.Dns
import EdgeFabric.Lib.DomainName
import EdgeFabric.Lib.Groups

namespace EdgeFabric.DnsServer
open DNSService (ZoneWithRecords threeParts)

/-! ## Resource records -/

/-- The lower case of letters, as `strings.ToLower` has it. No other character becomes a dot. -/
structure Letters where
  lower : Char → Char
  lower_dot : ∀ c, lower c = '.' ↔ c = '.'

def Letters.toLower (v : Letters) (text : List Char) : List Char := text.map v.lower

/-- The numbers of the record types (`mdns.TypeA` and so on). -/
def typeA : Nat := 1
def typeNS : Nat := 2
def typeCNAME : Nat := 5
def typeSOA : Nat := 6
def typePTR : Nat := 12
def typeMX : Nat := 15
def typeTXT : Nat := 16
def typeAAAA : Nat := 28
def typeSRV : Nat := 33
def typeAXFR : Nat := 252
def typeCAA : Nat := 257

/-- The part of a resource record that depends on its type. -/
inductive RData where
  /-- `ip.To4()`, which may be nil -/
  | a (ip : Option (BitVec 32))
  | aaaa (ip : IP.Addr)
  | cname (target : List Char)
  | mx (preference : Nat) (mx : List Char)
  | txt (txt : List (List Char))
  | ns (ns : List Char)
  | srv (priority weight port : Nat) (target : List Char)
  | caa (flag : Nat) (tag value : List Char)
  | ptr (ptr : List Char)
  | soa (ns mbox : List Char) (serial refresh retry expire minttl : Nat)
  deriving DecidableEq, Repr

structure RR where
  name : List Char
  ttl : Nat
  data : RData
  deriving DecidableEq, Repr

def RR.rrtype (rr : RR) : Nat :=
  match rr.data with
  | .a _ => typeA
  | .aaaa _ => typeAAAA
  | .cname _ => typeCNAME
  | .mx _ _ => typeMX
  | .txt _ => typeTXT
  | .ns _ => typeNS
  | .srv _ _ _ _ => typeSRV
  | .caa _ _ _ => typeCAA
  | .ptr _ => typePTR
  | .soa _ _ _ _ _ _ _ => typeSOA

structure RecordKey where
  name : List Char
  type : Nat
  deriving DecidableEq, Repr

def RR.key (v : Letters) (rr : RR) : RecordKey := { name := v.toLower rr.name, type := rr.rrtype }

/-! ## Conversion -/

/-- The conversion to an unsigned integer of `w` bits. -/
def uint (w : Nat) (n : Int) : Nat := (n % 2 ^ w).toNat

/-- `mdns.IsFqdn`: the text ends with a dot that is not behind a backslash. -/
def isFqdn (text : List Char) : Bool :=
  text.getLast? = some '.' && (text.dropLast.reverse.takeWhile (· = '\\')).length % 2 = 0

def fqdn (text : List Char) : List Char := if isFqdn text then text else text ++ ['.']

def ownerOf (rec : DNSRecord) (zoneName : List Char) : List Char :=
  fqdn (if rec.name = "@" ∨ rec.name = "" then zoneName else rec.name.toList ++ '.' :: zoneName)

def ttlOf (rec : DNSRecord) (defaultTTL : Nat) : Nat :=
  match rec.ttl with
  | some ttl => if ttl > 0 then uint 32 ttl else defaultTTL
  | none => defaultTTL

/-- What `convertRecord` makes of the value of a record, by its type. -/
def rdataOf (rec : DNSRecord) : Option RData :=
  let value := rec.value.toList
  if rec.type = .a then (IP.parse value).map fun ip => .a (IP.to4 ip)
  else if rec.type = .aaaa then (IP.parse value).map .aaaa
  else if rec.type = .cname then some (.cname (fqdn value))
  else if rec.type = .mx then some (.mx (rec.priority.elim 10 (uint 16)) (fqdn value))
  else if rec.type = .txt then some (.txt [value])
  else if rec.type = .ns then some (.ns (fqdn value))
  else if rec.type = .srv then
    some (.srv (rec.priority.elim 0 (uint 16)) (rec.weight.elim 0 (uint 16)) (rec.port.elim 0 (uint 16)) (fqdn value))
  else if rec.type = .caa then
    (threeParts rec.value).map fun p => .caa (if p.1 = "128" then 128 else 0) p.2.1.toList p.2.2.toList
  else if rec.type = .ptr then some (.ptr (fqdn value))
  else none

def convertRecord (rec : DNSRecord) (zoneName : List Char) (defaultTTL : Nat) : List RR :=
  match rdataOf rec with
  | some data => [{ name := ownerOf rec zoneName, ttl := ttlOf rec defaultTTL, data }]
  | none => []

theorem some_of_ite {α : Type} {c : Prop} [Decidable c] {x y : Option α} {a : α} (h : (if c then x else y) = some a) :
    x = some a ∨ y = some a := by
  split at h
  · exact .inl h
  · exact .inr h

theorem rdataOf_ne_soa {rec : DNSRecord} {data : RData} (h : rdataOf rec = some data) :
    ∀ ns mbox serial refresh retry expire minttl, data ≠ .soa ns mbox serial refresh retry expire minttl := by
  rintro ns mbox serial refresh retry expire minttl rfl
  unfold rdataOf at h
  rcases some_of_ite h with h | h
  · obtain ⟨_, _, h⟩ := Option.map_eq_some_iff.mp h
    cases h
  rcases some_of_ite h with h | h
  · obtain ⟨_, _, h⟩ := Option.map_eq_some_iff.mp h
    cases h
  rcases some_of_ite h with h | h
  · cases h
  rcases some_of_ite h with h | h
  · cases h
  rcases some_of_ite h with h | h
  · cases h
  rcases some_of_ite h with h | h
  · cases h
  rcases some_of_ite h with h | h
  · cases h
  rcases some_of_ite h with h | h
  · obtain ⟨_, _, h⟩ := Option.map_eq_some_iff.mp h
    cases h
  rcases some_of_ite h with h | h
  · cases h
  · cases h

theorem convertRecord_of_mem {rec : DNSRecord} {zoneName : List Char} {defaultTTL : Nat} {rr : RR}
    (h : rr ∈ convertRecord rec zoneName defaultTTL) :
    convertRecord rec zoneName defaultTTL = [rr] ∧ rr.name = ownerOf rec zoneName ∧ rdataOf rec = some rr.data := by
  unfold convertRecord at h ⊢
  split at h
  · next data hdata =>
    obtain rfl := List.mem_singleton.mp h
    exact ⟨rfl, rfl, hdata⟩
  · cases h

theorem rrtype_convertRecord {rec : DNSRecord} {zoneName : List Char} {defaultTTL : Nat} {rr : RR}
    (h : rr ∈ convertRecord rec zoneName defaultTTL) : rr.rrtype ≠ typeSOA := by
  have hdata := (convertRecord_of_mem h).2.2
  obtain ⟨name, ttl, data⟩ := rr
  cases data with
  | soa ns mbox serial refresh retry expire minttl => exact absurd rfl (rdataOf_ne_soa hdata _ _ _ _ _ _ _)
  | _ => exact Nat.ne_of_beq_eq_false rfl

/-! ## Zones -/

/-- The network that an address is alone in. -/
def singleNet (ip : IP.Addr) : IP.Net :=
  match IP.to4 ip with
  | some a => .v4 a 32
  | none => .v6 ip 128

def parseAllowedCIDRs (ips : List String) : List IP.Net :=
  ips.filterMap fun entry =>
    if '/' ∈ entry.toList then (IP.parseCIDR entry.toList).map Prod.snd else (IP.parse entry.toList).map singleNet

structure ZoneData where
  name : List Char
  tenantID : ID
  serial : Nat
  ttl : Nat
  records : Groups RecordKey RR
  transferAllowedCIDRs : List IP.Net
  deriving DecidableEq

/-- The default TTL that `buildZoneData` takes. -/
def zoneTTL (zone : DNSZone) : Nat := if uint 32 zone.ttl = 0 then 300 else uint 32 zone.ttl

def converted (zwr : ZoneWithRecords) : List RR :=
  zwr.records.flatMap fun rec => convertRecord rec zwr.zone.name.toList (zoneTTL zwr.zone)

def buildZoneData (v : Letters) (zwr : ZoneWithRecords) : ZoneData where
  name := zwr.zone.name.toList
  tenantID := zwr.zone.tenantID
  serial := zwr.zone.serial
  ttl := zoneTTL zwr.zone
  records := .collect (RR.key v) (converted zwr)
  transferAllowedCIDRs := parseAllowedCIDRs zwr.zone.transferAllowedIPs

def buildSOA (zd : ZoneData) : RR where
  name := zd.name
  ttl := zd.ttl
  data := .soa ("ns1.".toList ++ zd.name) ("hostmaster.".toList ++ zd.name) zd.serial 3600 900 604800 300

def synthesizedNS (zd : ZoneData) : RR where
  name := zd.name
  ttl := zd.ttl
  data := .ns ("ns1.".toList ++ zd.name)

theorem get_records (v : Letters) (zwr : ZoneWithRecords) (key : RecordKey) :
    Groups.get key (buildZoneData v zwr).records = (converted zwr).filter (RR.key v · = key) :=
  Groups.get_collect _ _ _

namespace Sample

theorem eq_dot_of_toLower {c : Char} (h : c.toLower = '.') : c = '.' := by
  unfold Char.toLower at h
  split at h
  · next hupper =>
    -- a capital letter does not become a dot
    have hval : c.val + ('a'.val - 'A'.val) = '.'.val := congrArg Char.val h
    have hlow : 65 ≤ c.val.toNat := hupper.1
    have hhigh : c.val.toNat ≤ 90 := hupper.2
    have hsum := congrArg UInt32.toNat hval
    rw [UInt32.toNat_add, show ('a'.val - 'A'.val).toNat = 32 from rfl, show ('.'.val).toNat = 46 from rfl] at hsum
    omega
  · exact h

def letters : Letters where
  lower := Char.toLower
  lower_dot _ := ⟨eq_dot_of_toLower, fun h => by rw [h]; rfl⟩

def zone (name : String) (records : List DNSRecord) : ZoneWithRecords where
  zone :=
    { id := 1, tenantID := 7, name, status := "active", serial := 1, ttl := 60, nodeGroupID := none
      transferAllowedIPs := ["10.0.0.1"], createdAt := 0, updatedAt := 0 }
  records

def record (name : String) (type : DNSRecordType) (value : String) : DNSRecord :=
  { id := 1, zoneID := 1, name, type, value, ttl := none, priority := none, weight := none, port := none, createdAt := 0
    updatedAt := 0 }

end Sample

end EdgeFabric.DnsServer
