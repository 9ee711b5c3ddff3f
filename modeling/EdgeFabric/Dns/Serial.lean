/-
The serial of a zone and what is served of the zone. The calls that change records raise the
serial in a step of their own afterwards, and `UpdateZone` does not raise it at all, so
that a zone can be served with other content under the same serial (`serial_stale`).

Where no update of a zone changes its name or TTL and the increments do not fail, the serial is
larger whenever the content is another one (`serial_tracks`).
-/
import EdgeFabric.ConfigSync

namespace EdgeFabric

/-- The calls that may change what is served of a zone. -/
inductive ContentCall where
  | createRecord (req : DNSService.CreateRecordRequest)
  | updateRecord (id : ID) (req : DNSService.UpdateRecordRequest)
  | deleteRecord (id : ID)
  | updateZone (id : ID) (req : DNSService.UpdateZoneRequest)
  deriving DecidableEq, Repr

def ContentCall.run : ContentCall → M Unit
  | .createRecord req => do let _ ← DNSService.createRecord req
  | .updateRecord id req => do let _ ← DNSService.updateRecord id req
  | .deleteRecord id => DNSService.deleteRecord id
  | .updateZone id req => do let _ ← DNSService.updateZone id req

/-- The steps of `validateRecord`: the tag of a CAA record is turned to lower case. -/
def DNSService.checkSteps (type : DNSRecordType) : Nat := if type = .caa then 1 else 0

/-- An update of a zone leaves its name and its TTL; the last store call of a change of a record, which raises the
serial, does not fail if the others before it do not. -/
def ContentCall.Counted (v : Env) (c : ContentCall) (w : World) : Prop :=
  match c with
  | .createRecord req =>
    let k := DNSService.checkSteps req.type
    v.Answers w [0, 2 + k, 3 + k] (4 + k)
  | .updateRecord id req => ∀ r ∈ w.store.dnsRecords.find id,
    let k := DNSService.checkSteps (req.apply r).type
    v.Answers w [0, 1 + k, 2 + k] (3 + k)
  | .deleteRecord _ => v.Answers w [0, 1] 2
  | .updateZone id req => ∀ z ∈ w.store.dnsZones.find id, (req.apply z).name = z.name ∧ (req.apply z).ttl = z.ttl

/-! ## Tracked changes -/

/-- From the first store to the second the zones stay, and each has a larger serial or the same content. -/
structure Store.Tracked (s s' : Store) : Prop where
  zones : ∀ z ∈ s.dnsZones, ∃ z' ∈ s'.dnsZones, z'.id = z.id
  serials : ∀ z ∈ s.dnsZones, ∀ z' ∈ s'.dnsZones, z'.id = z.id →
    z.serial < z'.serial ∨
      z'.serial = z.serial ∧ z'.name = z.name ∧ z'.ttl = z.ttl ∧ s'.recordsOf z.id = s.recordsOf z.id

namespace Store.Tracked
variable {s s' s'' : Store}

theorem refl (s : Store) : s.Tracked s := by
  refine ⟨fun z hz => ⟨z, hz, rfl⟩, fun z hz z' hz' hid => .inr ?_⟩
  obtain rfl := Table.key_inj hz' hz hid
  exact ⟨rfl, rfl, rfl, rfl⟩

theorem of_eq (h : s' = s) : s.Tracked s' := h ▸ refl s

theorem trans (h : s.Tracked s') (h' : s'.Tracked s'') : s.Tracked s'' := by
  refine ⟨fun z hz => ?_, fun z hz z'' hz'' hid'' => ?_⟩
  · obtain ⟨z', hz', hid⟩ := h.zones z hz
    obtain ⟨z'', hz'', hid'⟩ := h'.zones z' hz'
    exact ⟨z'', hz'', hid'.trans hid⟩
  · obtain ⟨z', hz', hid⟩ := h.zones z hz
    rcases h.serials z hz z' hz' hid, h'.serials z' hz' z'' hz'' (hid''.trans hid.symm) with
      ⟨hlt | ⟨hserial, hname, httl, hrecords⟩, hlt' | ⟨hserial', hname', httl', hrecords'⟩⟩
    · exact .inl (hlt.trans hlt')
    · exact .inl (hserial' ▸ hlt)
    · exact .inl (hserial ▸ hlt')
    · rw [hid] at hrecords'
      exact .inr ⟨hserial'.trans hserial, hname'.trans hname, httl'.trans httl, hrecords'.trans hrecords⟩

theorem ofSet {old z : DNSZone} {zones : Table DNSZone.id} {records : Table DNSRecord.id} (hold : old ∈ s.dnsZones)
    (hset : s.dnsZones.set z = some zones) (hid : z.id = old.id)
    (hothers : ∀ id, id ≠ old.id → records.rows.filter (·.zoneID = id) = s.recordsOf id)
    (hz : old.serial < z.serial ∨ z.serial = old.serial ∧ z.name = old.name ∧ z.ttl = old.ttl ∧
      records.rows.filter (·.zoneID = old.id) = s.recordsOf old.id) :
    s.Tracked { s with dnsZones := zones, dnsRecords := records } := by
  refine ⟨fun b hb => ?_, fun b hb b' hb' hbid => ?_⟩
  · by_cases he : b.id = z.id
    · exact ⟨z, (Table.mem_set hset).mpr (.inr rfl), he.symm⟩
    · exact ⟨b, (Table.mem_set hset).mpr (.inl ⟨hb, he⟩), rfl⟩
  · rcases (Table.mem_set hset).mp hb' with ⟨hb', hne⟩ | rfl
    · obtain rfl := Table.key_inj hb' hb hbid
      exact .inr ⟨rfl, rfl, rfl, hothers b'.id (hid ▸ hne)⟩
    · obtain rfl : b = old := Table.key_inj hb hold (hbid.symm.trans hid)
      exact hz

theorem raise {zoneID : ID} {records : Table DNSRecord.id} {t : Time} {u : Unit}
    (hothers : ∀ id, id ≠ zoneID → records.rows.filter (·.zoneID = id) = s.recordsOf id)
    (h : Store.incrementDNSZoneSerial zoneID t { s with dnsRecords := records } = .ok (u, s')) : s.Tracked s' := by
  obtain ⟨-, old, zones, hold, hset, rfl⟩ := updateIn_ok h
  obtain ⟨hmem, rfl⟩ := Table.find_eq_some.mp hold
  exact ofSet hmem hset rfl hothers (.inl (Nat.lt_succ_self _))

end Store.Tracked

/-! ## The calls -/

section
variable {v : Env} {s : Store}

/-- The program leaves all zones tracked, whether it fails or not. -/
abbrev Tracks {α : Type} (v : Env) (s : Store) (w : World) (p : M α) : Prop :=
  EndsAt v w p (fun _ w' => s.Tracked w'.store) fun _ w' => s.Tracked w'.store

/-- Three store calls before the last one have not failed. -/
theorem Env.Answers.last {w : World} {a b n t₁ t₂ t : Nat} (h : v.Answers w [0, a, b] n) (h₀ : v.fault w.tick = none)
    (h₁ : v.fault t₁ = none) (h₂ : v.fault t₂ = none) (ht₁ : w.tick + a = t₁) (ht₂ : w.tick + b = t₂)
    (ht : w.tick + n = t) : v.fault t = none := by
  subst ht₁ ht₂ ht
  exact h (by simpa using ⟨h₀, h₁, h₂⟩)

/-- The store call that raises the serial, if it does not fail for a reason of its own; a zone that is gone has no
serial. -/
theorem increment_tracked {w : World} {zoneID : ID} {records : Table DNSRecord.id}
    (hw : w.store = { s with dnsRecords := records }) (hfault : v.fault w.tick = none)
    (hrecords : ∀ id, id ≠ zoneID → records.rows.filter (·.zoneID = id) = s.recordsOf id) :
    Tracks v s w ((save (Store.incrementDNSZoneSerial zoneID)).under "increment serial").1 := by
  refine .mapError (EndsAt.save (fun _ _ _ h => .raise hrecords (hw ▸ h)) (fun msg h => ?_) fun e h => ?_)
  · rw [hfault] at h
    cases h
  · have hgone : s.dnsZones.find zoneID = none := by
      by_contra hne
      obtain ⟨z, hz⟩ := Option.ne_none_iff_exists'.mp hne
      rw [hw] at h
      exact updateIn_found hz rfl h
    rw [World.next_store, hw]
    refine ⟨fun z hz => ⟨z, hz, rfl⟩, fun z hz z' hz' hid => .inr ?_⟩
    obtain rfl := Table.key_inj hz' hz hid
    exact ⟨rfl, rfl, rfl, hrecords z'.id fun he => Table.find_eq_none.mp hgone z' hz he⟩

theorem EndsAt.ite {w : World} {c : Prop} [Decidable c] {p q : Reads Unit} {Q : Unit → World → Prop}
    {E : Err → World → Prop} (h : c → EndsAt v w p.1 Q E) (h' : ¬ c → EndsAt v w q.1 Q E) :
    EndsAt v w (if c then p else q).1 Q E := by
  split
  exacts [h ‹c›, h' ‹¬ c›]

abbrev Checked (v : Env) (w : World) (r : DNSRecord) (p : Reads Unit) : Prop :=
  EndsAt v w p.1 (fun _ w' => w' = ⟨w.tick + DNSService.checkSteps r.type, w.store⟩) fun _ w' => w'.store = w.store

theorem validateRecord_at {w : World} (r : DNSRecord) : Checked v w r (DNSService.validateRecord r) := by
  have hplain : ∀ {type : DNSRecordType} (p : Except Err Unit), type ≠ .caa → r.type = type →
      Checked v w r (Query.ofExcept p) := by
    rintro type p hne rfl
    rw [Checked, DNSService.checkSteps, if_neg hne]
    exact .ofExcept (fun _ _ => rfl) fun _ _ => rfl
  unfold DNSService.validateRecord
  iterate 3 refine EndsAt.ite (fun _ => .fail rfl) fun _ => ?_
  iterate 4 refine EndsAt.ite (hplain _ (by decide)) fun _ => ?_
  refine EndsAt.ite (hplain (.ok ()) (by decide)) fun _ => ?_
  iterate 2 refine EndsAt.ite (hplain _ (by decide)) fun _ => ?_
  refine EndsAt.ite (fun hcaa => ?_) fun _ => EndsAt.ite (hplain _ (by decide)) fun _ => .fail rfl
  rw [DNSService.checkSteps, if_pos hcaa, DNSService.validateCAA]
  split
  · exact .fail rfl
  refine EndsAt.ite (fun _ => .fail rfl) fun _ => .bind (EndsAt.ask (fun tag _ => ?_) fun _ _ => rfl)
  exact EndsAt.ite (fun _ => .fail rfl) fun _ => .pure rfl

theorem checkExclusive_at {w : World} (r : DNSRecord) :
    EndsAt v w (DNSService.checkExclusive r).1 (fun _ w' => v.fault w.tick = none ∧ w' = w.next)
      fun _ w' => w'.store = w.store := by
  refine .bind (.mapError (EndsAt.read (fun page hfault _ => ?_) (fun _ _ => rfl) fun _ _ => rfl))
  exact .ofExcept (fun _ _ => ⟨hfault, rfl⟩) fun _ _ => rfl

theorem createRecord_tracked {w : World} {req : DNSService.CreateRecordRequest}
    (hc : (ContentCall.createRecord req).Counted v w) :
    Tracks v w.store w (DNSService.createRecord req).1 := by
  refine .bind (.mapError (EndsAt.read (fun _ hfault₀ _ => ?_) (fun _ _ => .refl _) fun _ _ => .refl _))
  refine .bind (EndsAt.newID ?_)
  refine .bind (.mapError ((validateRecord_at _).mono ?_ fun _ _ h => .of_eq h))
  rintro - w' rfl
  refine .bind ((checkExclusive_at _).mono ?_ fun _ _ h => .of_eq h)
  rintro - w' ⟨hfault₁, rfl⟩
  refine .bind (.mapError (EndsAt.save (fun r s' hfault₂ h => ?_) (fun _ _ => .refl _) fun _ _ => .refl _))
  obtain ⟨rfl, records, hins, rfl⟩ := insertInto_ok h
  refine .andThen (increment_tracked (s := w.store) rfl (hc.last hfault₀ hfault₁ hfault₂ ?_ ?_ ?_) fun id hne => ?_)
    fun _ _ h => .pure h
  iterate 3 simp only [World.next]; omega
  · exact Table.filter_insert hins (decide_eq_false (Ne.symm hne))

theorem updateRecord_tracked {w : World} {id : ID} {req : DNSService.UpdateRecordRequest}
    (hc : (ContentCall.updateRecord id req).Counted v w) :
    Tracks v w.store w (DNSService.updateRecord id req).1 := by
  refine .bind (EndsAt.read (fun old hfault₀ hold => ?_) (fun _ _ => .refl _) fun _ _ => .refl _)
  refine .bind (.mapError ((validateRecord_at _).mono ?_ fun _ _ h => .of_eq h))
  rintro - w' rfl
  refine .bind ((checkExclusive_at _).mono ?_ fun _ _ h => .of_eq h)
  rintro - w' ⟨hfault₁, rfl⟩
  refine .bind (.mapError (EndsAt.save (fun r s' hfault₂ h => ?_) (fun _ _ => .refl _) fun _ _ => .refl _))
  have hanswers := hc old (selectRow_ok.mp hold)
  obtain ⟨rfl, old', records, hold', hset, rfl⟩ := updateIn_ok h
  obtain rfl := selectRow_unique hold hold'
  obtain ⟨hmem, -⟩ := Table.find_eq_some.mp hold'
  refine .andThen (increment_tracked (s := w.store) rfl (hanswers.last hfault₀ hfault₁ hfault₂ ?_ ?_ ?_)
    fun zoneID hne => ?_) fun _ _ h => .pure h
  iterate 3 simp only [World.next]; omega
  · refine Table.filter_set hset (fun b hb hid => ?_) (decide_eq_false (Ne.symm hne))
    obtain rfl := Table.key_inj hb hmem hid
    exact decide_eq_false (Ne.symm hne)

theorem deleteRecord_tracked {w : World} {id : ID} (hc : (ContentCall.deleteRecord id).Counted v w) :
    Tracks v w.store w (DNSService.deleteRecord id).1 := by
  refine .bind (EndsAt.read (fun old hfault₀ hold => ?_) (fun _ _ => .refl _) fun _ _ => .refl _)
  refine .bind (.mapError (EndsAt.save (fun r s' hfault₁ h => ?_) (fun _ _ => .refl _) fun _ _ => .refl _))
  obtain ⟨records, herase, rfl, _⟩ := deleteFrom_ok h
  obtain ⟨hmem, rfl⟩ := Table.find_eq_some.mp (selectRow_ok.mp hold)
  refine increment_tracked (s := w.store) rfl (hc fun i hi => ?_) fun zoneID hne => ?_
  · simp only [List.mem_cons, List.not_mem_nil, or_false] at hi
    obtain rfl | rfl := hi
    · exact hfault₀
    · exact hfault₁
  · refine Table.filter_erase herase fun b hb hid => ?_
    obtain rfl := Table.key_inj hb hmem hid
    exact decide_eq_false (Ne.symm hne)

theorem updateZone_tracked {id : ID} {req : DNSService.UpdateZoneRequest}
    (hreq : ∀ z ∈ s.dnsZones.find id, (req.apply z).name = z.name ∧ (req.apply z).ttl = z.ttl) :
    Ends v s (DNSService.updateZone id req).1 (fun _ => s.Tracked) fun _ => s.Tracked := by
  refine (DNSService.updateZone_ends id req).mono ?_ fun _ _ h => h ▸ .refl s
  rintro z s' ⟨old, t, zones, hold, rfl, -, hset, rfl⟩
  obtain ⟨hname, httl⟩ := hreq old hold
  exact .ofSet (Table.find_eq_some.mp hold).1 hset rfl (fun _ _ => rfl) (.inr ⟨rfl, hname, httl, rfl⟩)

theorem ContentCall.run_tracked (c : ContentCall) {w : World} (hc : c.Counted v w) :
    w.store.Tracked (c.run.exec v w).2.store := by
  have hends : Tracks v w.store w c.run := by
    cases c with
    | createRecord req => exact .andThen (createRecord_tracked hc) fun _ _ h => .pure h
    | updateRecord id req => exact .andThen (updateRecord_tracked hc) fun _ _ h => .pure h
    | deleteRecord id => exact deleteRecord_tracked hc
    | updateZone id req => exact Ends.whole (.andThen (updateZone_tracked hc) fun _ _ h => .pure h)
  exact Prog.Ensures.exec_view (I := fun w' : World => w.store.Tracked w'.store) hends rfl

end

/-! ## What is served -/

namespace DNSService

/-- The records of a zone as `GetNodeDNSConfig` lists them. -/
def recordsPage (s : Store) (zoneID : ID) : List DNSRecord :=
  ListParams.page { limit := 10000 } (byName DNSRecord.name (byName DNSRecord.type (s.recordsOf zoneID)))

/-- `GetNodeDNSConfig` has this entry in its answer for the node. -/
def Serves (s : Store) (nodeID : ID) (c : ZoneWithRecords) : Prop :=
  ∃ v tick config w', (getNodeDNSConfig nodeID).1.exec v ⟨tick, s⟩ = (.ok config, w') ∧ c ∈ config

theorem getNodeDNSConfig_pages {v : Env} {s : Store} (nodeID : ID) :
    Ends v s (getNodeDNSConfig nodeID).1
      (fun cs s' => s' = s ∧ ∀ c ∈ cs, c.zone ∈ s.dnsZones ∧ c.records = recordsPage s c.zone.id)
      fun _ s' => s' = s := by
  refine nodeConfig_ends (I := fun l => ∀ c ∈ l.zones, c.zone ∈ s.dnsZones ∧ c.records = recordsPage s c.zone.id)
    (by simp) (fun group _ _ page hpage l hl z hz => ?_) fun _ hl => hl
  obtain ⟨hmem, -⟩ := Store.listDNSZones_ok hpage z hz
  unfold addZone
  split
  · refine .bind (.mapError (Ends.read (fun page hpage => ?_) fun _ => rfl))
    cases hpage
    exact .pure ⟨rfl, List.forall_mem_concat hl ⟨hmem, rfl⟩⟩
  · exact .pure ⟨rfl, hl⟩

theorem Serves.page {s : Store} {nodeID : ID} {c : ZoneWithRecords} (h : Serves s nodeID c) :
    c.zone ∈ s.dnsZones ∧ c.records = recordsPage s c.zone.id := by
  obtain ⟨v, tick, config, w', hexec, hc⟩ := h
  exact ((getNodeDNSConfig_pages nodeID).ok rfl hexec).2 c hc

end DNSService

/-- In a session whose calls are all counted: if a zone is served with other records, another name or another TTL than
before, its serial is larger. -/
theorem serial_tracks (v : Env) (w : World) (cs : List ContentCall)
    (hcs : Session.Along ContentCall.run v (fun c w => c.Counted v w) cs w) (node node' : ID)
    (c c' : DNSService.ZoneWithRecords) (hc : DNSService.Serves w.store node c)
    (hc' : DNSService.Serves (Session.final ContentCall.run v cs w).store node' c') (hid : c'.zone.id = c.zone.id)
    (hne : c'.records ≠ c.records ∨ c'.zone.name ≠ c.zone.name ∨ c'.zone.ttl ≠ c.zone.ttl) :
    c.zone.serial < c'.zone.serial := by
  have htracked : w.store.Tracked (Session.final ContentCall.run v cs w).store :=
    Session.final_invariant (I := fun w' => w.store.Tracked w'.store)
      (fun c _ h hcounted => h.trans (c.run_tracked hcounted)) (.refl _) hcs
  obtain ⟨hmem, hrecords⟩ := hc.page
  obtain ⟨hmem', hrecords'⟩ := hc'.page
  rcases htracked.serials _ hmem _ hmem' hid with hlt | ⟨-, hname, httl, hsame⟩
  · exact hlt
  · have hpage : c'.records = c.records := by
      rw [hrecords, hrecords', hid, DNSService.recordsPage, hsame, DNSService.recordsPage]
    rcases hne with h | h | h
    · exact absurd hpage h
    · exact absurd hname h
    · exact absurd httl h

namespace Sample

/-- The zones that the node of `served` is told. -/
def toldZones (s : Store) : List DNSService.ZoneWithRecords :=
  match ((DNSService.getNodeDNSConfig 20).1.exec Env.calm ⟨0, s⟩).1 with
  | .ok config => config
  | .error _ => []

theorem serves_of_told {s : Store} {c : DNSService.ZoneWithRecords} (h : c ∈ toldZones s) :
    DNSService.Serves s 20 c := by
  unfold toldZones at h
  split at h
  · next config hconfig => exact ⟨_, _, config, _, Prod.ext hconfig rfl, h⟩
  · cases h

def mail : ContentCall := .createRecord { zoneID := 50, name := "mail", type := .a, value := "192.0.2.8" }

/-- The store after one call from `served`. -/
def afterCall (v : Env) (c : ContentCall) : Store := (Session.final ContentCall.run v [c] ⟨0, served⟩).store

def fifthFails : Env := { Env.calm with fault := fun t => if t = 4 then some "disk I/O error" else none }

end Sample

theorem serial_tracks_mail :
    ∃ c ∈ Sample.toldZones Sample.served, ∃ c' ∈ Sample.toldZones (Sample.afterCall Env.calm Sample.mail),
      c'.records ≠ c.records ∧ c.zone.serial < c'.zone.serial := by
  have hrun : ∃ c ∈ Sample.toldZones Sample.served, ∃ c' ∈ Sample.toldZones (Sample.afterCall Env.calm Sample.mail),
      c'.zone.id = c.zone.id ∧ c'.records ≠ c.records := by decide
  obtain ⟨c, hc, c', hc', hid, hne⟩ := hrun
  have hcounted : Sample.mail.Counted Env.calm ⟨0, Sample.served⟩ := fun _ => rfl
  exact ⟨c, hc, c', hc', hne, serial_tracks Env.calm ⟨0, Sample.served⟩ [Sample.mail] ⟨hcounted, trivial⟩ 20 20 c c'
    (Sample.serves_of_told hc) (Sample.serves_of_told hc') hid (.inl hne)⟩

/-- Another TTL under the same serial, and a new record under the same serial. -/
theorem serial_stale :
    (∃ c ∈ Sample.toldZones Sample.served,
      ∃ c' ∈ Sample.toldZones (Sample.afterCall Env.calm (.updateZone 50 { ttl := some 60 })), c'.zone.id = c.zone.id ∧
        c'.zone.ttl ≠ c.zone.ttl ∧ c'.zone.serial = c.zone.serial) ∧
    ∃ c ∈ Sample.toldZones Sample.served, ∃ c' ∈ Sample.toldZones (Sample.afterCall Sample.fifthFails Sample.mail),
      c'.zone.id = c.zone.id ∧ c'.records ≠ c.records ∧ c'.zone.serial = c.zone.serial := by
  decide

end EdgeFabric
