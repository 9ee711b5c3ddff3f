/-
The DNS server of a node (`internal/dnsserver/miekg.go`, `axfr.go`): `Reconcile` builds new
zones and puts them in the place of the old ones, queries find the zone with the longest name
and answer from it. A query holds the lock for single sections only, and reads the zone it
has found without it; zones are objects at addresses, and every access to one is a step of
its own, so that queries can be interleaved with calls of `Reconcile`.

`respond` is what a query answers from the zone that it found, whatever happens to the server
meanwhile (`answerFound_yields`); under a configuration it is the one from the configuration's
zone (`underConfig_eq`).
-/
import EdgeFabric.Cdn
import EdgeFabric.DnsServer.Zone
import EdgeFabric.Lib.Batches
import EdgeFabric.Lib.Yields

namespace EdgeFabric.DnsServer
open DNSService (ZoneWithRecords)

/-! ## The server -/

structure Server where
  running : Bool
  /-- the zones that were built, by their addresses -/
  heap : List ZoneData
  /-- lowercase zone names and the addresses of the zones -/
  zones : Table (Prod.fst : List Char × Nat → List Char)
  sortedZones : List (List Char)
  queriesTotal : Nat
  /-- what `Reconcile` was given last; the server does not keep it -/
  config : Option (List ZoneWithRecords)

/-- A server after `Start`. -/
def Server.started : Server :=
  { running := true, heap := [], zones := ∅, sortedZones := [], queriesTotal := 0, config := none }

/-- `len` of a text. -/
def byteLength (text : List Char) : Nat := (text.map Char.utf8Size).sum

/-- The inner loop of `sortByLengthDesc`: a name moves before the shorter ones. -/
def insertByLength (name : List Char) : List (List Char) → List (List Char)
  | [] => [name]
  | n :: ns => if byteLength n < byteLength name then name :: n :: ns else n :: insertByLength name ns

def sortByLengthDesc (names : List (List Char)) : List (List Char) := names.foldl (fun ns n => insertByLength n ns) []

structure ReconcileLoop where
  heap : List ZoneData
  newZones : Table (Prod.fst : List Char × Nat → List Char)
  sortedNames : List (List Char)

def addZone (v : Letters) (l : ReconcileLoop) (zwr : ZoneWithRecords) : ReconcileLoop :=
  let zd := buildZoneData v zwr
  { heap := l.heap ++ [zd]
    newZones := l.newZones.put (v.toLower zd.name, l.heap.length)
    sortedNames := l.sortedNames ++ [v.toLower zd.name] }

/-- The loop of `Reconcile`. -/
def buildZones (v : Letters) (config : List ZoneWithRecords) (heap : List ZoneData) : ReconcileLoop :=
  config.foldl (addZone v) { heap, newZones := ∅, sortedNames := [] }

namespace Server

def reconcile (v : Letters) (config : Option (List ZoneWithRecords)) (s : Server) : Server :=
  let l := buildZones v (config.getD []) s.heap
  { s with heap := l.heap, zones := l.newZones, sortedZones := sortByLengthDesc l.sortedNames, config }

/-- The query name is the zone's, or one below it. -/
def matchesZone (qname zoneName : List Char) : Prop := qname = zoneName ∨ '.' :: zoneName <:+ qname

instance (qname zoneName : List Char) : Decidable (matchesZone qname zoneName) := inferInstanceAs (Decidable (_ ∨ _))

def findZone (qname : List Char) (s : Server) : Option Nat :=
  (s.sortedZones.find? fun zoneName => matchesZone qname zoneName).bind fun zoneName =>
    (s.zones.find zoneName).map Prod.snd

end Server

/-! ## Messages -/

inductive Rcode where
  | success | serverFailure | nameError | refused
  deriving DecidableEq, Repr

structure Msg where
  authoritative : Bool
  rcode : Rcode
  answer : List RR
  ns : List RR
  deriving DecidableEq, Repr

/-- What a query is answered with: a message, or the envelopes of a transfer. -/
inductive Reply where
  | message (m : Msg)
  | transfer (envelopes : List (List RR))
  deriving DecidableEq, Repr

structure Question where
  name : List Char
  qtype : Nat
  deriving DecidableEq, Repr

def Msg.ofAnswer (answer : List RR) : Msg := { authoritative := true, rcode := .success, answer, ns := [] }

def Msg.refused : Msg := { authoritative := false, rcode := .refused, answer := [], ns := [] }

/-- What the code does not determine about a query: who sends it from where, and in which order the
table of records is gone through. -/
structure Request where
  question : Option Question
  /-- the text of the remote address -/
  client : Option (List Char)
  order : RangeOrder

/-! ## What is read from a zone -/

/-- The answer of the lookup section: the records of the name and type, or its CNAMEs with the records of
the type at the first one's target. -/
def lookup (v : Letters) (q : Question) (zd : ZoneData) : List RR :=
  let qname := v.toLower q.name
  let rrs := zd.records.get { name := qname, type := q.qtype }
  if rrs = [] ∧ q.qtype ≠ typeCNAME then
    let cnameRRs := zd.records.get { name := qname, type := typeCNAME }
    match cnameRRs with
    | [] => []
    | rr :: _ =>
      cnameRRs ++ match rr.data with
        | .cname target => zd.records.get { name := v.toLower target, type := q.qtype }
        | _ => []
  else rrs

def nameExistsInZone (qname : List Char) (zd : ZoneData) : Bool := zd.records.rows.any (·.key.name = qname)

def isTransferAllowed (ip : IP.Addr) (zd : ZoneData) : Bool := zd.transferAllowedCIDRs.any (·.contains ip)

def extractIP (addr : Option (List Char)) : Option IP.Addr :=
  match addr with
  | none => none
  | some addr =>
    match CDNService.splitHostPort addr with
    | some (host, _) => IP.parse host
    | none => IP.parse addr

/-! ## The handler -/

abbrev Handler (α : Type) := Prog Unit Unit Server String α

def look {α : Type} (f : Server → α) : Handler α := .call () fun _ s => (.ok (f s), s)

def inZone {α : Type} (addr : Nat) (f : ZoneData → α) : Handler α :=
  .call () fun _ s =>
    match s.heap[addr]? with
    | some zd => (.ok (f zd), s)
    | none => (.error "invalid address", s)

/-- `s.queriesTotal.Add(1)`. -/
def countQuery : Handler Unit := .call () fun _ s => (.ok (), { s with queriesTotal := s.queriesTotal + 1 })

def reconcile (v : Letters) (config : Option (List ZoneWithRecords)) : Handler Unit :=
  .call () fun _ s => if s.running then (.ok (), s.reconcile v config) else (.error "dns server not running", s)

def sendRecords (addr : Nat) : List RecordKey → Batches RR → Handler (Batches RR)
  | [], b => pure b
  | key :: keys, b => do
    let rrs ← inZone addr (·.records.get key)
    sendRecords addr keys (rrs.foldl (Batches.push 100) b)

def handleAXFR (axfrEnabled : Bool) (r : Request) (addr : Nat) : Handler Reply :=
  if axfrEnabled then do
    let cidrs ← inZone addr (·.transferAllowedCIDRs)
    match cidrs, extractIP r.client with
    | _ :: _, some clientIP =>
      let allowed ← inZone addr (isTransferAllowed clientIP)
      if allowed then
        let soa ← inZone addr buildSOA
        let keys ← inZone addr fun zd => (r.order.order 0 zd.records.rows).map (·.key)
        let batches ← sendRecords addr keys { sent := [], batch := [] }
        return .transfer ([soa] :: batches.flush ++ [[soa]])
      else return .message .refused
    | _, _ => return .message .refused
  else return .message .refused

/-- The rest of `handleQuery`, when the zone was found. -/
def answerQuery (v : Letters) (axfrEnabled : Bool) (r : Request) (q : Question) (addr : Nat) : Handler Reply :=
  let qname := v.toLower q.name
  if q.qtype = typeAXFR then handleAXFR axfrEnabled r addr
  else if q.qtype = typeSOA then do
    let soa ← inZone addr buildSOA
    return .message (.ofAnswer [soa])
  else do
    let zoneName ← inZone addr ZoneData.name
    if q.qtype = typeNS ∧ qname = v.toLower zoneName then
      let rrs ← inZone addr (·.records.get { name := qname, type := typeNS })
      if rrs ≠ [] then return .message (.ofAnswer rrs)
      else
        let ns ← inZone addr synthesizedNS
        return .message (.ofAnswer [ns])
    else
      let answer ← inZone addr (lookup v q)
      if answer ≠ [] then return .message (.ofAnswer answer)
      else
        let exists_ ← inZone addr (nameExistsInZone qname)
        let soa ← inZone addr buildSOA
        return .message
          { authoritative := true, rcode := if exists_ then .success else .nameError, answer := [], ns := [soa] }

/-- The part of `handleQuery` behind its first section: without a zone the query is refused. -/
def answerFound (v : Letters) (axfrEnabled : Bool) (r : Request) (q : Question) : Option Nat → Handler Reply
  | none => return .message .refused
  | some addr => answerQuery v axfrEnabled r q addr

/-- The part of `handleQuery` behind the count. -/
def findAndAnswer (v : Letters) (axfrEnabled : Bool) (r : Request) : Handler Reply :=
  match r.question with
  | none => return .message { authoritative := true, rcode := .serverFailure, answer := [], ns := [] }
  | some q => look (Server.findZone (v.toLower q.name)) >>= answerFound v axfrEnabled r q

def handleQuery (v : Letters) (axfrEnabled : Bool) (r : Request) : Handler Reply := do
  countQuery
  findAndAnswer v axfrEnabled r

/-! ## The answer -/

/-- The envelopes of a transfer: the SOA, the records in batches, and the SOA again. -/
def transferOf (order : RangeOrder) (zd : ZoneData) : List (List RR) :=
  [buildSOA zd] :: (Batches.ofList 100 (Groups.items (order.order 0 zd.records.rows))).flush ++ [[buildSOA zd]]

def respondAXFR (axfrEnabled : Bool) (r : Request) (zd : ZoneData) : Reply :=
  if axfrEnabled = true ∧ (extractIP r.client).any (isTransferAllowed · zd) = true then
    .transfer (transferOf r.order zd)
  else .message .refused

/-- The answer to a query that is no transfer, from the zone that was found. -/
def respondQuery (v : Letters) (q : Question) (zd : ZoneData) : Msg :=
  let qname := v.toLower q.name
  if q.qtype = typeSOA then .ofAnswer [buildSOA zd]
  else if q.qtype = typeNS ∧ qname = v.toLower zd.name ∧ zd.records.get { name := qname, type := typeNS } = [] then
    .ofAnswer [synthesizedNS zd]
  else if lookup v q zd ≠ [] then .ofAnswer (lookup v q zd)
  else
    { authoritative := true, rcode := if nameExistsInZone qname zd then .success else .nameError, answer := []
      ns := [buildSOA zd] }

/-- The answer from the zone that was found, if one was. -/
def respondIn (v : Letters) (axfrEnabled : Bool) (r : Request) (q : Question) : Option ZoneData → Reply
  | none => .message .refused
  | some zd => if q.qtype = typeAXFR then respondAXFR axfrEnabled r zd else .message (respondQuery v q zd)

/-- The answer, where `zoneAt` finds the zone of a query name. -/
def respond (v : Letters) (axfrEnabled : Bool) (r : Request) (zoneAt : List Char → Option ZoneData) : Reply :=
  match r.question with
  | none => .message { authoritative := true, rcode := .serverFailure, answer := [], ns := [] }
  | some q => respondIn v axfrEnabled r q (zoneAt (v.toLower q.name))

def Server.zoneAt (s : Server) (qname : List Char) : Option ZoneData := (s.findZone qname).bind (s.heap[·]?)

def Server.HasZone (addr : Nat) (zd : ZoneData) (s : Server) : Prop := s.heap[addr]? = some zd

section
variable {v : Letters} {axfrEnabled : Bool} {r : Request} {q : Question} {addr : Nat} {zd : ZoneData}

theorem inZone_bind {α β : Type} {f : ZoneData → α} {g : α → Handler β} {P : Except String β → Prop}
    (h : (g (f zd)).Yields (Server.HasZone addr zd) P) : (inZone addr f >>= g).Yields (Server.HasZone addr zd) P := by
  refine .call_bind fun _ s hs => ⟨f zd, ?_, h⟩
  rw [show s.heap[addr]? = some zd from hs]

theorem sendRecords_yields {β : Type} {g : Batches RR → Handler β} {P : Except String β → Prop} {keys : List RecordKey}
    {b : Batches RR}
    (h : (g ((keys.flatMap (zd.records.get ·)).foldl (Batches.push 100) b)).Yields (Server.HasZone addr zd) P) :
    (sendRecords addr keys b >>= g).Yields (Server.HasZone addr zd) P := by
  induction keys generalizing b with
  | nil => exact h
  | cons key keys ih =>
    rw [sendRecords, bind_assoc]
    refine inZone_bind (ih ?_)
    rwa [List.flatMap_cons, List.foldl_append] at h

theorem flatMap_get {order : RangeOrder} (records : Groups RecordKey RR) :
    ((order.order 0 records.rows).map (·.key)).flatMap (records.get ·) = Groups.items (order.order 0 records.rows) := by
  rw [List.flatMap_map]
  refine List.flatMap_congr fun row hrow => ?_
  have hfind : records.find row.key = some row := Table.find_eq_some.mpr ⟨RangeOrder.mem_order.mp hrow, rfl⟩
  rw [Groups.get, hfind]
  rfl

theorem handleAXFR_yields :
    (handleAXFR axfrEnabled r addr).Yields (Server.HasZone addr zd) (· = .ok (respondAXFR axfrEnabled r zd)) := by
  cases axfrEnabled with
  | false => exact .pure rfl
  | true =>
    rw [handleAXFR, if_pos rfl]
    refine inZone_bind ?_
    cases hcidrs : zd.transferAllowedCIDRs with
    | nil =>
      refine .pure (congrArg Except.ok (Eq.symm (if_neg fun h => ?_)))
      obtain ⟨ip, -, hallowed⟩ := (Option.any_eq_true _ _).mp h.2
      rw [isTransferAllowed, hcidrs] at hallowed
      cases hallowed
    | cons cidr cidrs =>
      cases hip : extractIP r.client with
      | none => exact .pure (by rw [respondAXFR, hip]; rfl)
      | some ip =>
        refine inZone_bind ?_
        rw [respondAXFR, hip]
        by_cases hallowed : isTransferAllowed ip zd = true
        · rw [if_pos hallowed, if_pos ⟨rfl, hallowed⟩]
          refine inZone_bind (inZone_bind (sendRecords_yields ?_))
          rw [flatMap_get]
          exact .pure rfl
        · rw [if_neg hallowed, if_neg fun h => hallowed h.2]
          exact .pure rfl

theorem answerQuery_yields :
    (answerQuery v axfrEnabled r q addr).Yields (Server.HasZone addr zd)
      (· = .ok (respondIn v axfrEnabled r q (some zd))) := by
  unfold answerQuery respondIn
  dsimp only
  by_cases haxfr : q.qtype = typeAXFR
  · rw [if_pos haxfr, if_pos haxfr]
    exact handleAXFR_yields
  rw [if_neg haxfr, if_neg haxfr, respondQuery]
  by_cases hsoa : q.qtype = typeSOA
  · rw [if_pos hsoa, if_pos hsoa]
    exact inZone_bind (.pure rfl)
  rw [if_neg hsoa, if_neg hsoa]
  refine inZone_bind ?_
  by_cases hapex : q.qtype = typeNS ∧ v.toLower q.name = v.toLower zd.name
  · rw [if_pos hapex]
    refine inZone_bind ?_
    by_cases hrrs : zd.records.get { name := v.toLower q.name, type := typeNS } = []
    · rw [if_pos ⟨hapex.1, hapex.2, hrrs⟩, if_neg (not_not_intro hrrs)]
      exact inZone_bind (.pure rfl)
    · have hlookup : lookup v q zd = zd.records.get { name := v.toLower q.name, type := typeNS } := by
        rw [lookup, hapex.1, if_neg fun h => hrrs h.1]
      rw [if_neg fun h => hrrs h.2.2, if_pos hrrs, hlookup, if_pos hrrs]
      exact .pure rfl
  · rw [if_neg hapex, if_neg fun h => hapex ⟨h.1, h.2.1⟩]
    refine inZone_bind ?_
    by_cases hlookup : lookup v q zd = []
    · rw [if_neg (not_not_intro hlookup), if_neg (not_not_intro hlookup)]
      exact inZone_bind (inZone_bind (.pure rfl))
    · rw [if_pos hlookup, if_pos hlookup]
      exact .pure rfl

end

/-! ## The zones of a configuration -/

/-- The zone of the configuration that is served under a lowercase name: the last one. -/
def zoneNamed (v : Letters) (config : List ZoneWithRecords) (name : List Char) : Option ZoneWithRecords :=
  config.reverse.find? fun zwr => v.toLower zwr.zone.name.toList = name

/-- The zone of the configuration that answers queries for a name. -/
def zoneFor (v : Letters) (config : List ZoneWithRecords) (qname : List Char) : Option ZoneWithRecords :=
  ((sortByLengthDesc (config.map fun zwr => v.toLower zwr.zone.name.toList)).find? fun n =>
    Server.matchesZone qname n).bind (zoneNamed v config)

/-- What the loop of `Reconcile` has built from the zones seen so far. -/
structure Built (v : Letters) (heap : List ZoneData) (seen : List ZoneWithRecords) (l : ReconcileLoop) : Prop where
  heap : l.heap = heap ++ seen.map (buildZoneData v)
  names : l.sortedNames = seen.map fun zwr => v.toLower zwr.zone.name.toList
  addrs : ∀ row ∈ l.newZones, row.2 < l.heap.length
  zones : ∀ name, (l.newZones.find name).bind (l.heap[·.2]?) = (zoneNamed v seen name).map (buildZoneData v)

theorem Built.addZone {v : Letters} {heap : List ZoneData} {seen : List ZoneWithRecords} {l : ReconcileLoop}
    (h : Built v heap seen l) (zwr : ZoneWithRecords) : Built v heap (seen ++ [zwr]) (addZone v l zwr) := by
  refine ⟨?_, ?_, fun row hrow => ?_, fun name => ?_⟩
  · simp [DnsServer.addZone, h.heap]
  · simp [DnsServer.addZone, h.names, buildZoneData]
  · simp only [DnsServer.addZone, List.length_append, List.length_singleton]
    rcases Table.mem_put.mp hrow with hrow | rfl
    · exact Nat.lt_succ_of_lt (h.addrs row hrow.1)
    · exact Nat.lt_succ_self _
  · have hnamed : zoneNamed v (seen ++ [zwr]) name =
        if v.toLower zwr.zone.name.toList = name then some zwr else zoneNamed v seen name := by
      rw [zoneNamed, List.reverse_append, List.reverse_singleton, List.singleton_append, List.find?_cons]
      by_cases hname : v.toLower zwr.zone.name.toList = name
      · simp [hname]
      · simp [hname, zoneNamed]
    rw [hnamed]
    by_cases hname : v.toLower zwr.zone.name.toList = name
    · subst hname
      have hfind : (DnsServer.addZone v l zwr).newZones.find (v.toLower zwr.zone.name.toList) =
          some (v.toLower zwr.zone.name.toList, l.heap.length) :=
        Table.find_put_self (a := (v.toLower zwr.zone.name.toList, l.heap.length))
      rw [hfind, if_pos rfl]
      simp [DnsServer.addZone]
    · have hfind : (DnsServer.addZone v l zwr).newZones.find name = l.newZones.find name :=
        Table.find_put_of_ne (a := (v.toLower zwr.zone.name.toList, l.heap.length)) (Ne.symm hname)
      rw [hfind, if_neg hname, ← h.zones name]
      cases hrow : l.newZones.find name with
      | none => rfl
      | some row =>
        have hlt := h.addrs row (Table.find_eq_some.mp hrow).1
        simp [DnsServer.addZone, List.getElem?_append_left hlt]

theorem buildZones_built (v : Letters) (config : List ZoneWithRecords) (heap : List ZoneData) :
    Built v heap config (buildZones v config heap) := by
  unfold buildZones
  refine List.foldl_visited (I := fun (seen : List ZoneWithRecords) (l : ReconcileLoop) => Built v heap seen l) ?_
    fun _ zwr _ _ _ h => h.addZone zwr
  exact ⟨by simp, rfl, fun _ h => absurd h Table.not_mem_empty, fun _ => rfl⟩

theorem zoneAt_reconcile (v : Letters) (config : Option (List ZoneWithRecords)) (s : Server) (qname : List Char) :
    (s.reconcile v config).zoneAt qname = (zoneFor v (config.getD []) qname).map (buildZoneData v) := by
  have hbuilt := buildZones_built v (config.getD []) s.heap
  unfold Server.zoneAt Server.findZone zoneFor
  rw [Server.reconcile, hbuilt.names]
  dsimp only
  cases (sortByLengthDesc ((config.getD []).map fun zwr => v.toLower zwr.zone.name.toList)).find?
      fun n => Server.matchesZone qname n with
  | none => rfl
  | some name =>
    rw [Option.bind_some, Option.bind_some, ← hbuilt.zones name]
    cases (buildZones v (config.getD []) s.heap).newZones.find name <;> rfl

/-! ## Steps -/

/-- What a step of the server's code does: it counts a query, or puts a configuration into force. -/
inductive Server.Step (v : Letters) (s : Server) : Server → Prop where
  | count (n : Nat) : Step v s { s with queriesTotal := n }
  | reconcile (config : Option (List ZoneWithRecords)) : Step v s (s.reconcile v config)

theorem Server.Step.refl {v : Letters} (s : Server) : s.Step v s := .count s.queriesTotal

/-- The zones of a server are those of the configuration in force. -/
structure Server.Sound (v : Letters) (s : Server) : Prop where
  running : s.running = true
  addrs : ∀ row ∈ s.zones, row.2 < s.heap.length
  zones : ∀ qname, s.zoneAt qname = (zoneFor v (s.config.getD []) qname).map (buildZoneData v)

theorem Server.Sound.reconcile {v : Letters} {s : Server} (h : s.running = true)
    (config : Option (List ZoneWithRecords)) : (s.reconcile v config).Sound v :=
  ⟨h, (buildZones_built v (config.getD []) s.heap).addrs, zoneAt_reconcile v config s⟩

theorem Server.Step.sound {v : Letters} {s s' : Server} (h : s.Step v s') (hs : s.Sound v) : s'.Sound v := by
  cases h with
  | count n => exact ⟨hs.running, hs.addrs, hs.zones⟩
  | reconcile config => exact .reconcile hs.running config

theorem Server.sound_started (v : Letters) : Server.started.Sound v :=
  ⟨rfl, fun _ h => absurd h Table.not_mem_empty, fun _ => rfl⟩

/-- Every zone of `s` is still at its address. -/
def Server.Keeps (s s' : Server) : Prop := ∀ addr zd, s.HasZone addr zd → s'.HasZone addr zd

theorem Server.Step.keeps {v : Letters} {s₀ s s' : Server} (h : s.Step v s') (hs : s₀.Keeps s) : s₀.Keeps s' := by
  intro addr zd hzone
  have hs := hs addr zd hzone
  cases h with
  | count n => exact hs
  | reconcile config =>
    have hheap : (s.reconcile v config).heap = s.heap ++ (config.getD []).map (buildZoneData v) :=
      (buildZones_built v (config.getD []) s.heap).heap
    have hlt : addr < s.heap.length := (List.getElem?_eq_some_iff.mp hs).1
    rw [Server.HasZone, hheap, List.getElem?_append_left hlt]
    exact hs

section
variable {v : Letters} {axfrEnabled : Bool} {r : Request} {q : Question}

theorem inZone_within {α : Type} (addr : Nat) (f : ZoneData → α) : (inZone addr f).Within fun _ => Server.Step v := by
  refine .call fun _ s => ?_
  split <;> exact .refl s

theorem sendRecords_within (addr : Nat) (keys : List RecordKey) (b : Batches RR) :
    (sendRecords addr keys b).Within fun _ => Server.Step v := by
  induction keys generalizing b with
  | nil => exact .pure b
  | cons key keys ih => exact .bind (inZone_within addr _) fun _ => ih _

theorem handleAXFR_within (addr : Nat) : (handleAXFR axfrEnabled r addr).Within fun _ => Server.Step v := by
  unfold handleAXFR
  split
  · refine .bind (inZone_within addr _) fun _ => ?_
    split
    · refine .bind (inZone_within addr _) fun _ => ?_
      split
      · exact .bind (inZone_within addr _) fun _ => .bind (inZone_within addr _) fun _ =>
          .bind (sendRecords_within addr _ _) fun _ => .pure _
      · exact .pure _
    · exact .pure _
  · exact .pure _

theorem answerQuery_within (addr : Nat) : (answerQuery v axfrEnabled r q addr).Within fun _ => Server.Step v := by
  unfold answerQuery
  dsimp only
  split
  · exact handleAXFR_within addr
  · split
    · exact .bind (inZone_within addr _) fun _ => .pure _
    · refine .bind (inZone_within addr _) fun _ => ?_
      split
      · refine .bind (inZone_within addr _) fun _ => ?_
        split
        · exact .pure _
        · exact .bind (inZone_within addr _) fun _ => .pure _
      · refine .bind (inZone_within addr _) fun _ => ?_
        split
        · exact .pure _
        · exact .bind (inZone_within addr _) fun _ => .bind (inZone_within addr _) fun _ => .pure _

theorem answerFound_within (found : Option Nat) :
    (answerFound v axfrEnabled r q found).Within fun _ => Server.Step v := by
  cases found with
  | none => exact .pure _
  | some addr => exact answerQuery_within addr

theorem findAndAnswer_within : (findAndAnswer v axfrEnabled r).Within fun _ => Server.Step v := by
  unfold findAndAnswer
  split
  · exact .pure _
  · exact .bind (.call fun _ s => .refl s) answerFound_within

theorem handleQuery_within : (handleQuery v axfrEnabled r).Within fun _ => Server.Step v :=
  .bind (.call fun _ _ => .count _) fun _ => findAndAnswer_within

theorem reconcile_within (config : Option (List ZoneWithRecords)) :
    (reconcile v config).Within fun _ => Server.Step v := by
  refine .call fun _ s => ?_
  split
  · exact .reconcile config
  · exact .refl s

/-! ## A query on its own -/

variable {s : Server}

theorem answerFound_yields (hs : s.Sound v) :
    (answerFound v axfrEnabled r q (s.findZone (v.toLower q.name))).Yields s.Keeps
      (· = .ok (respondIn v axfrEnabled r q (s.zoneAt (v.toLower q.name)))) := by
  cases hfind : s.findZone (v.toLower q.name) with
  | none =>
    have hzone : s.zoneAt (v.toLower q.name) = none := by rw [Server.zoneAt, hfind]; rfl
    rw [hzone]
    exact .pure rfl
  | some addr =>
    obtain ⟨name, -, hname⟩ := Option.bind_eq_some_iff.mp hfind
    obtain ⟨row, hrow, rfl⟩ := Option.map_eq_some_iff.mp hname
    have hlt := hs.addrs row (Table.find_eq_some.mp hrow).1
    have hget : s.heap[row.2]? = some s.heap[row.2] := List.getElem?_eq_getElem hlt
    have hzone : s.zoneAt (v.toLower q.name) = some s.heap[row.2] := by
      rw [Server.zoneAt, hfind]
      exact hget
    rw [hzone]
    exact answerQuery_yields.mono fun s' hkeeps => hkeeps _ _ hget

theorem exec_handleQuery (hs : s.Sound v) :
    ((handleQuery v axfrEnabled r).exec () s).1 = .ok (respond v axfrEnabled r s.zoneAt) := by
  have hcounted : Server.Sound v { s with queriesTotal := s.queriesTotal + 1 } :=
    Server.Step.sound (.count (s.queriesTotal + 1)) hs
  show ((findAndAnswer v axfrEnabled r).exec () { s with queriesTotal := s.queriesTotal + 1 }).1 = _
  unfold findAndAnswer respond
  cases r.question with
  | none => rfl
  | some q =>
    exact (answerFound_yields hcounted).exec (fun _ _ _ hstep hkeeps => Server.Step.keeps hstep hkeeps)
      (answerFound_within _) () fun _ _ h => h

end

def underConfig (v : Letters) (axfrEnabled : Bool) (config : Option (List ZoneWithRecords)) (r : Request) :
    Except String Reply :=
  ((handleQuery v axfrEnabled r).exec () (Server.started.reconcile v config)).1

theorem underConfig_eq (v : Letters) (axfrEnabled : Bool) (config : Option (List ZoneWithRecords)) (r : Request) :
    underConfig v axfrEnabled config r =
      .ok (respond v axfrEnabled r fun qname => (zoneFor v (config.getD []) qname).map (buildZoneData v)) := by
  rw [underConfig, exec_handleQuery (.reconcile rfl config)]
  congr 2
  funext qname
  exact zoneAt_reconcile v config _ qname

theorem underConfig_sound {v : Letters} {axfrEnabled : Bool} {s : Server} (hs : s.Sound v) (r : Request) :
    underConfig v axfrEnabled s.config r = .ok (respond v axfrEnabled r s.zoneAt) := by
  rw [underConfig_eq]
  congr 2
  funext qname
  exact (hs.zones qname).symm

end EdgeFabric.DnsServer
