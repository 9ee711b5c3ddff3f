/-
The DNS service (`internal/dns`): validation of zones and records, create,
update and delete, and the configuration a node polls. A change of a record
increments the serial of its zone in a second database call: if that call
fails, the record stays changed.
-/
import EdgeFabric.Route

namespace EdgeFabric
namespace DNSService

structure CreateZoneRequest where
  tenantID : ID
  name : String
  ttl : Int := 0
  nodeGroupID : Option ID := none
  transferAllowedIPs : List String := []
  deriving DecidableEq, Repr

structure UpdateZoneRequest where
  name : Option String := none
  status : Option DNSZoneStatus := none
  ttl : Option Int := none
  nodeGroupID : Option ID := none
  clearNodeGroup : Bool := false
  transferAllowedIPs : Option (List String) := none
  deriving DecidableEq, Repr

structure CreateRecordRequest where
  zoneID : ID
  name : String
  type : DNSRecordType
  value : String
  ttl : Option Int := none
  priority : Option Int := none
  weight : Option Int := none
  port : Option Int := none
  deriving DecidableEq, Repr

structure UpdateRecordRequest where
  name : Option String := none
  type : Option DNSRecordType := none
  value : Option String := none
  ttl : Option Int := none
  priority : Option Int := none
  weight : Option Int := none
  port : Option Int := none
  deriving DecidableEq, Repr

/-! ## Validation -/

def isAlphanumeric (c : Char) : Bool :=
  ('a' ≤ c && c ≤ 'z') || ('A' ≤ c && c ≤ 'Z') || ('0' ≤ c && c ≤ '9')

/-- One to 63 characters; the first and the last satisfy `edge`, those between them may
also be hyphens. -/
def isLabel (edge : Char → Bool) (cs : List Char) : Bool :=
  cs.length ≤ 63 && cs.all (fun c => edge c || c == '-') && cs.head?.any edge && cs.getLast?.any edge

/-- The text without one dot at its end (`strings.TrimSuffix(s, ".")`). -/
def trimDot (cs : List Char) : List Char := if cs.getLast? = some '.' then cs.dropLast else cs

/-- `hostnameRegex`: labels separated by dots, an optional dot at the end; all labels but
the last may have underscores. -/
def hostnameRegex (cs : List Char) : Bool :=
  let labels := (trimDot cs).splitOn '.'
  labels.dropLast.all (isLabel fun c => isAlphanumeric c || c == '_') && labels.getLast?.any (isLabel isAlphanumeric)

def validateZoneName (name : String) : Except Err Unit :=
  let clean := trimDot name.toList
  if name = "" then .error (.text "zone name is required")
  else if (String.ofList clean).utf8ByteSize > 253 then .error (.text "zone name too long (max 253 characters)")
  else if ¬ hostnameRegex clean then .error (.text ("invalid zone name: " ++ quote name))
  else .ok ()

def isValidHostname (text : String) : Bool :=
  let clean := trimDot text.toList
  text != "" && (String.ofList clean).utf8ByteSize ≤ 253 && hostnameRegex clean

/-- Each entry is an address or a network. -/
def validateTransferAllowedIPs (ips : List String) : Except Err Unit :=
  match ips.find? fun entry => !isIP entry && (IP.parseCIDR entry.toList).isNone with
  | some entry => .error (.text ("invalid IP or CIDR in transfer_allowed_ips: " ++ quote entry))
  | none => .ok ()

def validateA (r : DNSRecord) : Except Err Unit :=
  match IP.parse r.value.toList with
  | none => .error (.text ("A record value must be a valid IP address: " ++ quote r.value))
  | some ip =>
    if IP.to4 ip = none then .error (.text ("A record value must be an IPv4 address: " ++ quote r.value)) else .ok ()

def validateAAAA (r : DNSRecord) : Except Err Unit :=
  match IP.parse r.value.toList with
  | none => .error (.text ("AAAA record value must be a valid IP address: " ++ quote r.value))
  | some ip =>
    if IP.to4 ip ≠ none then .error (.text ("AAAA record value must be an IPv6 address, not IPv4: " ++ quote r.value))
    else .ok ()

/-- The value is a hostname; `what` names it in the error. -/
def validateHost (what : String) (r : DNSRecord) : Except Err Unit :=
  if isValidHostname r.value then .ok ()
  else .error (.text (what ++ " must be a valid hostname: " ++ quote r.value))

/-- A number between 0 and 65535; `what` names it in the error. -/
def validateRange (what : String) (n : Int) : Except Err Unit :=
  if n < 0 ∨ n > 65535 then .error (.text (what ++ " must be 0-65535, got " ++ toString n)) else .ok ()

def required (message : String) : Option Int → Except Err Int
  | some n => .ok n
  | none => .error (.text message)

def validateCNAME : DNSRecord → Except Err Unit := validateHost "CNAME record value"
def validateNS : DNSRecord → Except Err Unit := validateHost "NS record value"
def validatePTR : DNSRecord → Except Err Unit := validateHost "PTR record value"

def validateMX (r : DNSRecord) : Except Err Unit := do
  validateRange "MX record priority" (← required "MX record requires priority" r.priority)
  validateHost "MX record value" r

def validateSRV (r : DNSRecord) : Except Err Unit := do
  let priority ← required "SRV record requires priority" r.priority
  let weight ← required "SRV record requires weight" r.weight
  let port ← required "SRV record requires port" r.port
  validateRange "SRV record priority" priority
  validateRange "SRV record weight" weight
  validateRange "SRV record port" port
  validateHost "SRV record target" r

/-- `strings.SplitN(text, " ", 3)`, if it has three parts. -/
def threeParts (text : String) : Option (String × String × String) := do
  let (a, rest) ← Text.cut ' ' text.toList
  let (b, c) ← Text.cut ' ' rest
  return (String.ofList a, String.ofList b, String.ofList c)

def validateCAA (r : DNSRecord) : Reads Unit :=
  match threeParts r.value with
  | none => Query.fail (.text ("CAA record value must be in format 'flag tag value': " ++ quote r.value))
  | some (flag, name, _) =>
    if flag ≠ "0" ∧ flag ≠ "128" then Query.fail (.text ("CAA record flag must be 0 or 128: " ++ quote flag))
    else do
      let tag ← toLower name
      if tag ≠ "issue" ∧ tag ≠ "issuewild" ∧ tag ≠ "iodef" then
        Query.fail (.text ("CAA record tag must be issue, issuewild, or iodef: " ++ quote name))
      else pure ()

def validateRecord (r : DNSRecord) : Reads Unit :=
  if r.name = "" then Query.fail (.text "record name is required")
  else if r.value = "" then Query.fail (.text "record value is required")
  else if r.type = "" then Query.fail (.text "record type is required")
  else if r.type = .a then Query.ofExcept (validateA r)
  else if r.type = .aaaa then Query.ofExcept (validateAAAA r)
  else if r.type = .cname then Query.ofExcept (validateCNAME r)
  else if r.type = .mx then Query.ofExcept (validateMX r)
  else if r.type = .txt then pure ()
  else if r.type = .ns then Query.ofExcept (validateNS r)
  else if r.type = .srv then Query.ofExcept (validateSRV r)
  else if r.type = .caa then validateCAA r
  else if r.type = .ptr then Query.ofExcept (validatePTR r)
  else Query.fail (.text ("unsupported record type: " ++ quote r.type))

/-- A CNAME is the only record at its name. -/
def checkCNAMEExclusivity (existingRecords : List DNSRecord) (new : DNSRecord) : Except Err Unit :=
  let others := existingRecords.filter fun r => r.name = new.name ∧ r.id ≠ new.id
  match if new.type = .cname then others.head? else none with
  | some r =>
    .error (.text ("CNAME record conflicts with existing " ++ r.type ++ " record at name " ++ quote new.name))
  | none =>
    if others.any (·.type = .cname) then
      .error (.text ("cannot add " ++ new.type ++ " record at name " ++ quote new.name ++
        ": CNAME record already exists"))
    else .ok ()

/-! ## Zones -/

def createZone (req : CreateZoneRequest) : Service DNSZone := do
  Query.ofExcept ((validateZoneName req.name).mapError (.under "invalid zone"))
  Query.ofExcept ((validateTransferAllowedIPs req.transferAllowedIPs).mapError (.under "invalid zone"))
  let id ← newID
  (save (Store.createDNSZone
    { id, tenantID := req.tenantID, name := req.name, status := "", serial := 0, ttl := req.ttl
      nodeGroupID := req.nodeGroupID, transferAllowedIPs := req.transferAllowedIPs, createdAt := 0
      updatedAt := 0 })).under "create zone"

def getZone (id : ID) : Reads DNSZone := read (Store.getDNSZone id)

def listZones (tenantID : ID) (p : ListParams) : Reads (List DNSZone × Nat) := read (Store.listDNSZones tenantID p)

def UpdateZoneRequest.check (req : UpdateZoneRequest) : Except Err Unit := do
  (req.name.elim (.ok ()) validateZoneName).mapError (.under "invalid zone name")
  (req.transferAllowedIPs.elim (.ok ()) validateTransferAllowedIPs).mapError (.under "invalid transfer allowed IPs")

def UpdateZoneRequest.apply (req : UpdateZoneRequest) (z : DNSZone) : DNSZone :=
  { z with
    name := req.name.getD z.name
    status := req.status.getD z.status
    ttl := req.ttl.getD z.ttl
    nodeGroupID := if req.clearNodeGroup then none else req.nodeGroupID.or z.nodeGroupID
    transferAllowedIPs := req.transferAllowedIPs.getD z.transferAllowedIPs }

def updateZone (id : ID) (req : UpdateZoneRequest) : Service DNSZone := do
  let z ← read (Store.getDNSZone id)
  Query.ofExcept req.check
  (save (Store.updateDNSZone (req.apply z))).under "update zone"

def deleteZone (id : ID) : Service Unit := save fun _ => Store.deleteDNSZone id

/-! ## Records -/

def checkExclusive (r : DNSRecord) : Reads Unit := do
  let (existing, _) ← (read (Store.listDNSRecords r.zoneID { limit := 10000 })).under "list records for cname check"
  Query.ofExcept ((checkCNAMEExclusivity existing r).mapError (.under "cname exclusivity"))

def createRecord (req : CreateRecordRequest) : Service DNSRecord := do
  let _ ← (read (Store.getDNSZone req.zoneID)).under "zone lookup"
  let id ← newID
  let r : DNSRecord :=
    { id, zoneID := req.zoneID, name := req.name, type := req.type, value := req.value, ttl := req.ttl
      priority := req.priority, weight := req.weight, port := req.port, createdAt := 0, updatedAt := 0 }
  (validateRecord r).under "invalid record"
  checkExclusive r
  let r ← (save (Store.createDNSRecord r)).under "create record"
  (save (Store.incrementDNSZoneSerial req.zoneID)).under "increment serial"
  return r

def getRecord (id : ID) : Reads DNSRecord := read (Store.getDNSRecord id)

def listRecords (zoneID : ID) (p : ListParams) : Reads (List DNSRecord × Nat) := read (Store.listDNSRecords zoneID p)

def UpdateRecordRequest.apply (req : UpdateRecordRequest) (r : DNSRecord) : DNSRecord :=
  { r with
    name := req.name.getD r.name
    type := req.type.getD r.type
    value := req.value.getD r.value
    ttl := req.ttl.or r.ttl
    priority := req.priority.or r.priority
    weight := req.weight.or r.weight
    port := req.port.or r.port }

def updateRecord (id : ID) (req : UpdateRecordRequest) : Service DNSRecord := do
  let r ← read (Store.getDNSRecord id)
  let r := req.apply r
  (validateRecord r).under "invalid record"
  checkExclusive r
  let r ← (save (Store.updateDNSRecord r)).under "update record"
  (save (Store.incrementDNSZoneSerial r.zoneID)).under "increment serial"
  return r

def deleteRecord (id : ID) : Service Unit := do
  let r ← read (Store.getDNSRecord id)
  (save fun _ => Store.deleteDNSRecord id).under "delete record"
  (save (Store.incrementDNSZoneSerial r.zoneID)).under "increment serial"

/-! ## Config sync -/

structure ZoneWithRecords where
  zone : DNSZone
  records : List DNSRecord
  deriving DecidableEq, Repr

structure ConfigLoop where
  zones : List ZoneWithRecords
  seenZones : List ID

/-- The inner loop's body: zones of the group that are active and not yet listed. -/
def addZone (group : NodeGroup) (l : ConfigLoop) (zone : DNSZone) : Reads ConfigLoop :=
  if zone.nodeGroupID = some group.id ∧ zone.status = .active ∧ zone.id ∉ l.seenZones then do
    let (records, _) ← (read (Store.listDNSRecords zone.id { limit := 10000 })).under
      ("list records for zone " ++ zone.name)
    return { zones := l.zones ++ [{ zone, records }], seenZones := zone.id :: l.seenZones }
  else pure l

def addGroup (l : ConfigLoop) (group : NodeGroup) : Reads ConfigLoop := do
  let (zones, _) ← (read (Store.listDNSZones group.tenantID { limit := 10000 })).under
    ("list zones for group " ++ group.id.text)
  Query.fold (addZone group) l zones

def getNodeDNSConfig (nodeID : ID) : Reads (List ZoneWithRecords) := do
  let _ ← (read (Store.getNode nodeID)).under "get node"
  let groups ← (read (Store.listNodeGroupsByNode nodeID)).under "list node groups"
  let l ← Query.fold addGroup { zones := [], seenZones := [] } groups
  return l.zones

/-! ## What the calls do -/

section
variable {v : Env} {s s' : Store}

theorem createZone_ends (req : CreateZoneRequest) :
    Ends v s (createZone req).1
      (fun z s' => z.tenantID = req.tenantID ∧ z.nodeGroupID = req.nodeGroupID ∧
        (∀ g ∈ z.nodeGroupID, ∃ row, s.nodeGroups.find g = some row) ∧
        ∃ zones, s.dnsZones.insert z = some zones ∧ s' = { s with dnsZones := zones })
      fun _ s' => s' = s := by
  refine .bind (.ofExcept (fun _ _ => ?_) fun _ _ => rfl)
  refine .bind (.ofExcept (fun _ _ => ?_) fun _ _ => rfl)
  refine .bind (Ends.newID fun id => ?_)
  refine .mapError (Ends.save (fun t z s' h => ?_) fun _ => rfl)
  obtain ⟨rfl, zones, hins, rfl⟩ := insertInto_ok h
  obtain ⟨_, _, hgroup⟩ := bind_ok.mp (insertInto_refs h)
  exact ⟨rfl, rfl, fun g hg => requireRow?_ok (hg ▸ hgroup), zones, hins, rfl⟩

theorem updateZone_ends (id : ID) (req : UpdateZoneRequest) :
    Ends v s (updateZone id req).1
      (fun z s' => ∃ old t zones, s.dnsZones.find id = some old ∧ z = { req.apply old with updatedAt := t } ∧
        (∀ g ∈ z.nodeGroupID, ∃ row, s.nodeGroups.find g = some row) ∧
        s.dnsZones.set z = some zones ∧ s' = { s with dnsZones := zones })
      fun _ s' => s' = s := by
  refine .bind (Ends.read (fun old hold => ?_) fun _ => rfl)
  refine .bind (.ofExcept (fun _ _ => ?_) fun _ _ => rfl)
  refine .mapError (Ends.save (fun t z s' h => ?_) fun _ => rfl)
  obtain ⟨rfl, old', zones, hold', hset, rfl⟩ := updateIn_ok h
  have hgroup := updateIn_refs h
  obtain rfl := selectRow_unique hold hold'
  exact ⟨old', t, zones, selectRow_ok.mp hold, rfl, fun g hg => requireRow?_ok (hg ▸ hgroup), hset, rfl⟩

theorem deleteZone_ends (id : ID) :
    Ends v s (deleteZone id).1
      (fun _ s' => ∃ zones, s.dnsZones.erase id = some zones ∧
        s' = { s with dnsZones := zones, dnsRecords := s.dnsRecords.filter fun r => r.zoneID ≠ id })
      fun _ s' => s' = s := by
  refine Ends.save (fun _ _ s' h => ?_) fun _ => rfl
  obtain ⟨zones, herase, rfl, _⟩ := deleteFrom_ok h
  exact ⟨zones, herase, rfl⟩

/-- Only records that `touched` describes and the row of their zone may differ; the zone
keeps its tenant. -/
structure RecordChange (zoneID : ID) (touched : DNSRecord → Prop) (s s' : Store) : Prop where
  records : ∀ r ∈ s.dnsRecords, ¬ touched r → r ∈ s'.dnsRecords
  zones : ∀ z ∈ s.dnsZones, z.id ≠ zoneID → z ∈ s'.dnsZones
  tenants : ∀ z ∈ s.dnsZones, ∃ z' ∈ s'.dnsZones, z'.id = z.id ∧ z'.tenantID = z.tenantID
  rest : s' = { s with dnsRecords := s'.dnsRecords, dnsZones := s'.dnsZones }

namespace RecordChange
variable {zoneID : ID} {touched : DNSRecord → Prop}

theorem refl : RecordChange zoneID touched s s :=
  ⟨fun _ h _ => h, fun _ h _ => h, fun z h => ⟨z, h, rfl, rfl⟩, rfl⟩

theorem ofRecords {records : Table DNSRecord.id} (h : ∀ r ∈ s.dnsRecords, ¬ touched r → r ∈ records) :
    RecordChange zoneID touched s { s with dnsRecords := records } :=
  ⟨h, fun _ h _ => h, fun z h => ⟨z, h, rfl, rfl⟩, rfl⟩

theorem increment {s'' : Store} {t : Time} {u : Unit} (hc : RecordChange zoneID touched s s')
    (h : Store.incrementDNSZoneSerial zoneID t s' = .ok (u, s'')) : RecordChange zoneID touched s s'' := by
  obtain ⟨-, old, zones, hold, hset, rfl⟩ := updateIn_ok h
  obtain ⟨hmem, hid⟩ := Table.find_eq_some.mp hold
  refine ⟨hc.records, fun z hz hne => ?_, fun z hz => ?_, ?_⟩
  · exact (Table.mem_set hset).mpr (.inl ⟨hc.zones z hz hne, fun he => hne (he.trans hid)⟩)
  · obtain ⟨z', hz', hzid, htenant⟩ := hc.tenants z hz
    by_cases he : z'.id = zoneID
    · obtain rfl : z' = old := Table.key_inj hz' hmem (he.trans hid.symm)
      exact ⟨_, (Table.mem_set hset).mpr (.inr rfl), hzid, htenant⟩
    · exact ⟨z', (Table.mem_set hset).mpr (.inl ⟨hz', fun h => he (h.trans hid)⟩), hzid, htenant⟩
  · conv_rhs => rw [hc.rest]
    conv_lhs => rw [hc.rest]

end RecordChange

theorem createRecord_ends (req : CreateRecordRequest) :
    Ends v s (createRecord req).1
      (fun r s' => r.zoneID = req.zoneID ∧ RecordChange req.zoneID (fun _ => False) s s')
      fun _ s' => RecordChange req.zoneID (fun _ => False) s s' := by
  refine .bind (.mapError (Ends.reads (fun _ => ?_) fun _ => .refl))
  refine .bind (Ends.newID fun id => ?_)
  refine .bind (.mapError (Ends.reads (fun _ => ?_) fun _ => .refl))
  refine .bind (Ends.reads (fun _ => ?_) fun _ => .refl)
  refine .bind (.mapError (Ends.save (fun t r s' h => ?_) fun _ => .refl))
  obtain ⟨rfl, records, hins, rfl⟩ := insertInto_ok h
  have hc : RecordChange req.zoneID (fun _ => False) s { s with dnsRecords := records } :=
    .ofRecords fun r hr _ => (Table.mem_insert hins).mpr (.inl hr)
  refine .bind (.mapError (Ends.save (fun t u s' h => ?_) fun _ => hc))
  exact .pure ⟨rfl, hc.increment h⟩

/-- A change of the record `id`, if there is one. -/
def TouchesRecord (id : ID) (s s' : Store) : Prop :=
  s' = s ∨ ∃ old, s.dnsRecords.find id = some old ∧ RecordChange old.zoneID (·.id = id) s s'

theorem updateRecord_ends (id : ID) (req : UpdateRecordRequest) :
    Ends v s (updateRecord id req).1
      (fun r s' => (∃ old, s.dnsRecords.find id = some old ∧ r.zoneID = old.zoneID) ∧ TouchesRecord id s s')
      fun _ s' => TouchesRecord id s s' := by
  refine .bind (Ends.read (fun old hold => ?_) fun _ => .inl rfl)
  refine .bind (.mapError (Ends.reads (fun _ => ?_) fun _ => .inl rfl))
  refine .bind (Ends.reads (fun _ => ?_) fun _ => .inl rfl)
  refine .bind (.mapError (Ends.save (fun t r s' h => ?_) fun _ => .inl rfl))
  obtain ⟨rfl, old', records, hold', hset, rfl⟩ := updateIn_ok h
  obtain rfl := selectRow_unique hold hold'
  have hfind := selectRow_ok.mp hold
  have hid : old'.id = id := (Table.find_eq_some.mp hfind).2
  have hc : RecordChange old'.zoneID (·.id = id) s { s with dnsRecords := records } :=
    .ofRecords fun r hr hne => (Table.mem_set hset).mpr (.inl ⟨hr, fun he => hne (he.trans hid)⟩)
  refine .bind (.mapError (Ends.save (fun t u s' h => ?_) fun _ => .inr ⟨old', hfind, hc⟩))
  exact .pure ⟨⟨old', hfind, rfl⟩, .inr ⟨old', hfind, hc.increment h⟩⟩

theorem deleteRecord_ends (id : ID) :
    Ends v s (deleteRecord id).1 (fun _ s' => TouchesRecord id s s') fun _ s' => TouchesRecord id s s' := by
  refine .bind (Ends.read (fun old hold => ?_) fun _ => .inl rfl)
  refine .bind (.mapError (Ends.save (fun t r s' h => ?_) fun _ => .inl rfl))
  obtain ⟨records, herase, rfl, _⟩ := deleteFrom_ok h
  have hfind := selectRow_ok.mp hold
  have hc : RecordChange old.zoneID (·.id = id) s { s with dnsRecords := records } :=
    .ofRecords fun r hr hne => (Table.mem_erase herase).mpr ⟨hr, hne⟩
  refine .mapError (Ends.save (fun t u s' h => ?_) fun _ => .inr ⟨old, hfind, hc⟩)
  exact .inr ⟨old, hfind, hc.increment h⟩

structure Configured (s : Store) (nodeID : ID) (c : ZoneWithRecords) : Prop where
  mem : c.zone ∈ s.dnsZones
  group : ∃ g ∈ s.nodeGroups, (g.id, nodeID) ∈ s.memberships ∧ c.zone.nodeGroupID = some g.id ∧
    c.zone.tenantID = g.tenantID
  records : ∀ r ∈ c.records, r ∈ s.dnsRecords ∧ r.zoneID = c.zone.id

theorem addZone_ends {nodeID : ID} {group : NodeGroup} {l : ConfigLoop} {z : DNSZone}
    (hl : ∀ c ∈ l.zones, Configured s nodeID c) (hgroup : group ∈ s.nodeGroups)
    (hmember : (group.id, nodeID) ∈ s.memberships) (hz : z ∈ s.dnsZones) (htenant : z.tenantID = group.tenantID) :
    Ends v s (addZone group l z).1 (fun l' s' => s' = s ∧ ∀ c ∈ l'.zones, Configured s nodeID c)
      fun _ s' => s' = s := by
  unfold addZone
  split
  · next hkeep =>
    refine .bind (.mapError (Ends.read (fun page hpage => ?_) fun _ => rfl))
    refine .pure ⟨rfl, List.forall_mem_concat hl ?_⟩
    exact ⟨hz, ⟨group, hgroup, hmember, hkeep.1, htenant⟩, Store.listDNSRecords_ok hpage⟩
  · exact .pure ⟨rfl, hl⟩

theorem getNodeDNSConfig_ends (nodeID : ID) :
    Ends v s (getNodeDNSConfig nodeID).1 (fun cs s' => s' = s ∧ ∀ c ∈ cs, Configured s nodeID c)
      fun _ s' => s' = s := by
  refine nodeConfig_ends (I := fun l => ∀ c ∈ l.zones, Configured s nodeID c) (by simp)
    (fun group hgroup hmember page hpage l hl z hz => ?_) fun _ hl => hl
  obtain ⟨hmem, htenant⟩ := Store.listDNSZones_ok hpage z hz
  exact addZone_ends hl hgroup hmember hmem htenant

end

end DNSService
end EdgeFabric
