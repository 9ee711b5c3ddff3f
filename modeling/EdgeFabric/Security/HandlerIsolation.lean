/-
What the handlers do with rows of the caller's own tenant. The endpoints of users, API
keys, zones, records, sites, routes and nodes (`Endpoint.byID`) name rows by their
identifiers. Where what a request names is the tenant's own (`Endpoint.OwnOnly`), the
handler harms no row of another tenant and shows none (`Isolated`).

The handlers of zones, records, sites and routes are one proof over what their services
do (`Crud.Keeps`). Those of nodes check the tenant of the row themselves, so that for
them only the tenant that a node is moved to matters.
-/
import EdgeFabric.Api.Router
import EdgeFabric.ConfigSync
import EdgeFabric.Security.Ownership

namespace EdgeFabric

/-! ## What requests name -/

/-- The endpoints of users, API keys, zones, records, sites, routes, nodes and the
configurations of nodes. -/
def Endpoint.byID : Endpoint → Bool
  | .account (.createAPIKey _) | .account (.listAPIKeys _) | .account (.deleteAPIKey _) | .account (.user _) => true
  | .service (.dnsZone _) | .service (.dnsRecord _) | .service (.cdnSite _) | .service (.purgeCache _)
  | .service (.route _) | .service (.node _) | .service (.nodeHeartbeat _) | .service (.nodeConfig _ _) => true
  | _ => false

def Names (own : ID) (name raw : String) (tenantOf : ID → Option ID) : Prop :=
  ∀ id, parseID name raw = .ok id → Mine own (tenantOf id)

/-- The parent or the row that the request names is the tenant's own. -/
def ResourceRequest.Names {β γ : Type} (own : ID) (parent : String) (parentTenant rowTenant : ID → Option ID) :
    ResourceRequest String β γ → Prop
  | .create raw _ | .list raw _ => EdgeFabric.Names own parent raw parentTenant
  | .get raw | .update raw _ | .delete raw => EdgeFabric.Names own "id" raw rowTenant

/-- What the configuration of the node is made of is the tenant's own: the members of its
groups in a mesh, the zones or sites that are for it, or the routes with their gateways. -/
def NodeConfig.OwnOnly (own : ID) (hub : WireGuardHub) (s : Store) (nodeID : ID) : NodeConfig → Prop
  | .wireGuard => hub.topology = "mesh" → ∀ m, s.SharesGroup nodeID m → Mine own m.tenantID
  | .bgp => True
  | .dns => ∀ z ∈ s.dnsZones, s.Assigned nodeID z.tenantID z.nodeGroupID → z.tenantID = own
  | .cdn => ∀ c ∈ s.cdnSites, s.Assigned nodeID c.tenantID c.nodeGroupID → c.tenantID = own
  | .routes => ∀ r ∈ s.routes, s.Assigned nodeID r.tenantID r.nodeGroupID →
      r.tenantID = own ∧ Mine own (s.gatewayTenant r.gatewayID)

/-- What the request names, gives something to or is answered from is the tenant's own, or
nobody's. Of the handlers of nodes only the one that moves a node needs this. -/
def Endpoint.OwnOnly (own : ID) (hub : WireGuardHub) (s : Store) : Endpoint → Prop
  | .account (.deleteAPIKey raw) => Names own "id" raw s.keyTenant
  | .account (.user (.create _ body)) => ∀ req, body = .ok req → Mine own req.tenantID
  | .account (.user (.get raw)) | .account (.user (.update raw _)) | .account (.user (.delete raw)) =>
    Names own "id" raw s.userTenant
  | .service (.dnsZone req) => req.Names own "tenantId" some s.zoneTenant
  | .service (.dnsRecord req) => req.Names own "zoneId" s.zoneTenant s.recordTenant
  | .service (.cdnSite req) => req.Names own "tenantId" some s.siteTenant
  | .service (.route req) => req.Names own "tenantId" some s.routeTenant
  | .service (.node (.update _ body)) => ∀ req, body = .ok req → Mine own req.tenantID
  | .service (.nodeConfig raw part) => Names own "id" raw s.nodeTenant ∧
      ∀ id, parseID "id" raw = .ok id → part.OwnOnly own hub s id
  | _ => True

/-! ## Handlers -/

/-- Others' rows are unharmed, and none is shown. -/
def Isolates (own : ID) (v : Env) (s : Store) (reply : Reply) (s' : Store) : Prop :=
  s.Unharmed own s' ∧ reply.Within own v s

abbrev Isolated (own : ID) (v : Env) (s : Store) (p : Web Reply) : Prop :=
  Ends v s p (Isolates own v s) (Isolates own v s)

section
variable {own : ID} {v : Env} {s s' : Store} {α β γ : Type}

theorem Isolates.refuse {r : Reply} (hr : r.Refuses) (h : s.Unharmed own s') : Isolates own v s r s' := ⟨h, hr.within⟩

theorem Isolates.refuse_same {r : Reply} (hr : r.Refuses) (h : s' = s) : Isolates own v s r s' := by
  rw [h]
  exact .refuse hr .refl

theorem parseID_isolated {name raw : String} {Q : ID → Store → Prop} (h : ∀ id, parseID name raw = .ok id → Q id s) :
    Ends v s (Prog.ofExcept (parseID name raw)) Q (Isolates own v s) :=
  .ofExcept h fun _ hr => .refuse (parseID_refuses hr) .refl

theorem decode_isolated {body : Decoded β} {Q : β → Store → Prop} (h : ∀ b, decode body = .ok b → Q b s) :
    Ends v s (Prog.ofExcept (decode body)) Q (Isolates own v s) :=
  .ofExcept h fun _ hr => .refuse (decode_refuses hr) .refl

theorem log_isolated {tenantID userID : Option ID} {action resource sourceIP : String}
    {details : Option (List (String × String))} {reply : Reply} (hs : s.Unharmed own s') (hr : reply.Within own v s) :
    Ends v s' ((auditLog tenantID userID action resource details sourceIP).1 >>= fun _ => pure reply)
      (Isolates own v s) (Isolates own v s) :=
  .bind (auditLog_appends fun _ hrows => .pure ⟨hs.log hrows, hr⟩)

theorem select_own {key : α → ID} (t : Store → Table key) {f : α → Option ID} {id : ID} {P : α → Prop}
    (hmine : Mine own (tenantIn (t s) f id)) (hP : ∀ a, Mine own (f a) → P a) :
    Ends v s (read fun s => selectRow id (t s)).1 (fun a s' => s' = s ∧ P a) fun _ s' => s' = s := by
  refine Ends.read (fun a ha => ⟨rfl, hP a ?_⟩) fun _ => rfl
  rwa [tenantIn_of_find (selectRow_ok.mp ha)] at hmine

theorem getResource_isolated {what raw : String} {get : ID → Reads α} {datum : α → Datum} {tenantOf : ID → Option ID}
    (hraw : Names own "id" raw tenantOf)
    (hget : ∀ id, Mine own (tenantOf id) →
      Ends v s (get id).1 (fun a s' => s' = s ∧ (datum a).Within own v s) fun _ s' => s' = s) :
    Isolated own v s (getResource what get datum raw).1 := by
  refine .bind (parseID_isolated fun id hid => ?_)
  refine .bind (.mapError ((hget id (hraw id hid)).mono (fun a s' h => ?_) fun e s' h => ?_))
  · obtain ⟨rfl, hwithin⟩ := h
    exact .pure ⟨.refl, Reply.within_ok hwithin⟩
  · exact .refuse_same (missing_refuses _ _ _) h

theorem listResources_isolated {plural : String} {list : ListParams → Reads (List α × Nat)} {datum : α → Datum}
    {q : ListQuery} (hlist : ∀ p, Ends v s (list p).1 (fun page s' => s' = s ∧ ∀ a ∈ page.1, (datum a).Within own v s)
      fun _ s' => s' = s) :
    Isolated own v s (listResources plural list datum q).1 := by
  refine .bind (.mapError ((hlist _).mono (fun page s' h => ?_) fun e s' h => ?_))
  · obtain ⟨rfl, hwithin⟩ := h
    exact .pure ⟨.refl, Reply.within_list rfl hwithin⟩
  · exact .refuse_same (failing_refuses _ _) h

/-- What the service behind a handler does with rows of the tenant's own. -/
structure Crud.Keeps (own : ID) (v : Env) (s : Store) (h : Crud α β γ) (parentTenant rowTenant : ID → Option ID) :
    Prop where
  create : ∀ id req, Mine own (parentTenant id) → Ends v s (h.create id req).1
    (fun a s' => s.Unharmed own s' ∧ (h.datum a).Within own v s) fun _ s' => s.Unharmed own s'
  list : ∀ id p, Mine own (parentTenant id) → Ends v s (h.list id p).1
    (fun page s' => s' = s ∧ ∀ a ∈ page.1, (h.datum a).Within own v s) fun _ s' => s' = s
  get : ∀ id, Mine own (rowTenant id) → Ends v s (h.get id).1
    (fun a s' => s' = s ∧ (h.datum a).Within own v s) fun _ s' => s' = s
  update : ∀ id req, Mine own (rowTenant id) → Ends v s (h.update id req).1
    (fun a s' => s.Unharmed own s' ∧ (h.datum a).Within own v s) fun _ s' => s.Unharmed own s'
  delete : ∀ id, Mine own (rowTenant id) → Ends v s (h.delete id).1
    (fun _ s' => s.Unharmed own s') fun _ s' => s.Unharmed own s'
  refuses : ∀ e, (h.createError e).Refuses

theorem Crud.handle_isolated {h : Crud α β γ} {parentTenant rowTenant : ID → Option ID}
    (hkeeps : h.Keeps own v s parentTenant rowTenant) (c : Caller) {req : ResourceRequest String β γ}
    (hreq : req.Names own h.parent parentTenant rowTenant) : Isolated own v s (h.handle c req).1 := by
  cases req with
  | create raw body =>
    refine .bind (parseID_isolated fun id hid => ?_)
    refine .bind (decode_isolated fun b _ => ?_)
    refine .bind (.mapError ((hkeeps.create id b (hreq id hid)).mono (fun a s' ha => ?_) fun e s' he => ?_))
    · exact log_isolated ha.1 (Reply.within_created ha.2)
    · exact .refuse (hkeeps.refuses e) he
  | list raw q =>
    refine .bind (parseID_isolated fun id hid => ?_)
    exact listResources_isolated fun p => hkeeps.list id p (hreq id hid)
  | get raw => exact getResource_isolated hreq hkeeps.get
  | update raw body =>
    refine .bind (parseID_isolated fun id hid => ?_)
    refine .bind (decode_isolated fun b _ => ?_)
    refine .bind (.mapError ((hkeeps.update id b (hreq id hid)).mono (fun a s' ha => ?_) fun e s' he => ?_))
    · exact log_isolated ha.1 (Reply.within_ok ha.2)
    · exact .refuse (missingOrBad_refuses _ _) he
  | delete raw =>
    refine .bind (parseID_isolated fun id hid => ?_)
    refine .bind (.mapError ((hkeeps.delete id (hreq id hid)).mono (fun _ s' hs => ?_) fun e s' he => ?_))
    · exact log_isolated hs Reply.within_noContent
    · exact .refuse (missing_refuses _ _ _) he

end

/-! ### Zones, records, sites and routes -/

section
variable {own : ID} {v : Env} {s : Store}

theorem DNSZoneHandler.keeps : DNSZoneHandler.Keeps own v s some s.zoneTenant where
  create id req hmine := by
    refine (DNSService.createZone_ends _).mono (fun z s' h => ?_) fun _ _ h => h ▸ .refl
    obtain ⟨htenant, -, -, zones, hins, rfl⟩ := h
    have hspares : s.Spares own { s with dnsZones := zones } := { Store.Spares.refl with dnsZones := .insert hins }
    exact ⟨hspares.unharmed, mine_row (mine_some.mpr (htenant.trans (mine_some.mp hmine)))⟩
  list id p hmine := by
    refine Ends.read (fun page hpage => ⟨rfl, fun z hz => mine_row (mine_some.mpr ?_)⟩) fun _ => rfl
    exact (Store.listDNSZones_ok hpage z hz).2.trans (mine_some.mp hmine)
  get id hmine := select_own Store.dnsZones hmine fun z hz => mine_row hz
  update id req hmine := by
    refine (DNSService.updateZone_ends id req).mono (fun z s' h => ?_) fun _ _ h => h ▸ .refl
    obtain ⟨old, t, zones, hold, rfl, -, hset, rfl⟩ := h
    obtain ⟨-, rfl⟩ := Table.find_eq_some.mp hold
    have hspares : s.Spares own { s with dnsZones := zones } := { Store.Spares.refl with dnsZones := .set hset hmine }
    rw [Store.zoneTenant, tenantIn_of_find hold] at hmine
    exact ⟨hspares.unharmed, mine_row hmine⟩
  delete id hmine := by
    refine (DNSService.deleteZone_ends id).mono (fun _ s' h => ?_) fun _ _ h => h ▸ .refl
    obtain ⟨zones, herase, rfl⟩ := h
    -- the records of the zone go with it, and are the tenant's own
    have hrecords : Spared own (fun r => s.zoneTenant r.zoneID) s.dnsRecords
      (s.dnsRecords.filter fun r => r.zoneID ≠ id) :=
      .filter fun r _ hr => by
        have hzone : r.zoneID = id := by simpa using hr
        rwa [hzone]
    have hspares : s.Spares own
        { s with dnsZones := zones, dnsRecords := s.dnsRecords.filter fun r => r.zoneID ≠ id } :=
      { Store.Spares.refl with dnsZones := .erase herase hmine, dnsRecords := hrecords }
    exact hspares.unharmed
  refuses := bad_refuses

theorem CDNSiteHandler.keeps : CDNSiteHandler.Keeps own v s some s.siteTenant where
  create id req hmine := by
    refine (CDNService.createSite_ends _).mono (fun c s' h => ?_) fun _ _ h => h ▸ .refl
    obtain ⟨htenant, row, sites, hins, rfl⟩ := h
    have hspares : s.Spares own { s with cdnSites := sites } := { Store.Spares.refl with cdnSites := .insert hins }
    exact ⟨hspares.unharmed, mine_row (mine_some.mpr (htenant.trans (mine_some.mp hmine)))⟩
  list id p hmine := by
    refine Ends.read (fun page hpage => ⟨rfl, fun c hc => mine_row (mine_some.mpr ?_)⟩) fun _ => rfl
    exact (Store.listCDNSites_ok hpage c hc).2.trans (mine_some.mp hmine)
  get id hmine := select_own Store.cdnSites hmine fun c hc => mine_row hc
  update id req hmine := by
    refine (CDNService.updateSite_ends id req).mono (fun c s' h => ?_) fun _ _ h => h ▸ .refl
    obtain ⟨old, row, sites, hset, hold, htenant, rfl, -, rfl⟩ := h
    have hspares : s.Spares own { s with cdnSites := sites } := { Store.Spares.refl with cdnSites := .set hset hmine }
    rw [Store.siteTenant, tenantIn_of_find hold] at hmine
    exact ⟨hspares.unharmed, mine_row (mine_some.mpr (htenant.trans (mine_some.mp hmine)))⟩
  delete id hmine := by
    refine (CDNService.deleteSite_ends id).mono (fun _ s' h => ?_) fun _ _ h => h ▸ .refl
    obtain ⟨sites, herase, rfl⟩ := h
    have horigins : Spared own (fun o => s.siteTenant o.siteID) s.cdnOrigins
      (s.cdnOrigins.filter fun o => o.siteID ≠ id) :=
      .filter fun o _ ho => by
        have hsite : o.siteID = id := by simpa using ho
        rwa [hsite]
    have hspares : s.Spares own
        { s with cdnSites := sites, cdnOrigins := s.cdnOrigins.filter fun o => o.siteID ≠ id } :=
      { Store.Spares.refl with cdnSites := .erase herase hmine, cdnOrigins := horigins }
    exact hspares.unharmed
  refuses := bad_refuses

theorem RouteHandler.keeps : RouteHandler.Keeps own v s some s.routeTenant where
  create id req hmine := by
    refine (RouteService.createRoute_ends _).mono (fun r s' h => ?_) fun _ _ h => h ▸ .refl
    obtain ⟨htenant, -, -, -, -, routes, hins, rfl⟩ := h
    have hspares : s.Spares own { s with routes } := { Store.Spares.refl with routes := .insert hins }
    exact ⟨hspares.unharmed, mine_row (mine_some.mpr (htenant.trans (mine_some.mp hmine)))⟩
  list id p hmine := by
    refine Ends.read (fun page hpage => ⟨rfl, fun r hr => mine_row (mine_some.mpr ?_)⟩) fun _ => rfl
    exact (Store.listRoutes_ok hpage r hr).2.trans (mine_some.mp hmine)
  get id hmine := select_own Store.routes hmine fun r hr => mine_row hr
  update id req hmine := by
    refine (RouteService.updateRoute_ends id req).mono (fun r s' h => ?_) fun _ _ h => h ▸ .refl
    obtain ⟨old, t, routes, hold, rfl, -, -, hset, rfl⟩ := h
    obtain ⟨-, rfl⟩ := Table.find_eq_some.mp hold
    have hspares : s.Spares own { s with routes } := { Store.Spares.refl with routes := .set hset hmine }
    rw [Store.routeTenant, tenantIn_of_find hold] at hmine
    exact ⟨hspares.unharmed, mine_row hmine⟩
  delete id hmine := by
    refine (RouteService.deleteRoute_ends id).mono (fun _ s' h => ?_) fun _ _ h => h ▸ .refl
    obtain ⟨routes, herase, rfl⟩ := h
    have hspares : s.Spares own { s with routes } := { Store.Spares.refl with routes := .erase herase hmine }
    exact hspares.unharmed
  refuses := bad_refuses

theorem DNSService.RecordChange.unharmed {zoneID : ID} {touched : DNSRecord → Prop} {s' : Store}
    (h : DNSService.RecordChange zoneID touched s s') (hzone : Mine own (s.zoneTenant zoneID))
    (hrecords : ∀ r ∈ s.dnsRecords, touched r → r.zoneID = zoneID) : s.Unharmed own s' := by
  have hzones : Spared own (fun z => some z.tenantID) s.dnsZones s'.dnsZones := by
    refine fun z hz hother => h.zones z hz fun he => hother ?_
    rwa [← he, Store.zoneTenant, tenantIn_of_mem hz] at hzone
  have hkept : Spared own (fun r => s.zoneTenant r.zoneID) s.dnsRecords s'.dnsRecords := by
    refine fun r hr hother => h.records r hr fun ht => hother ?_
    dsimp only
    rwa [hrecords r hr ht]
  have hspares : s.Spares own { s with dnsRecords := s'.dnsRecords, dnsZones := s'.dnsZones } :=
    { Store.Spares.refl with dnsZones := hzones, dnsRecords := hkept }
  rw [h.rest]
  exact hspares.unharmed

theorem DNSService.TouchesRecord.unharmed {id : ID} {s' : Store} (h : DNSService.TouchesRecord id s s')
    (hmine : Mine own (s.recordTenant id)) : s.Unharmed own s' := by
  rcases h with rfl | ⟨old, hold, hchange⟩
  · exact .refl
  · obtain ⟨hmem, rfl⟩ := Table.find_eq_some.mp hold
    rw [Store.recordTenant, tenantIn_of_mem hmem] at hmine
    refine hchange.unharmed hmine fun r hr he => ?_
    rw [Table.key_inj hr hmem he]

theorem record_within {r : DNSRecord} {zoneID : ID} (h : r.zoneID = zoneID) (hmine : Mine own (s.zoneTenant zoneID)) :
    (Datum.dnsRecord r).Within own v s := by
  refine mine_row ?_
  rw [Datum.owner, h]
  exact hmine

theorem DNSRecordHandler.keeps : DNSRecordHandler.Keeps own v s s.zoneTenant s.recordTenant where
  create id req hmine := by
    refine (DNSService.createRecord_ends _).mono (fun r s' h => ?_) fun _ s' h => ?_
    · exact ⟨h.2.unharmed hmine fun _ _ h => h.elim, record_within h.1 hmine⟩
    · exact h.unharmed hmine fun _ _ h => h.elim
  list id p hmine := by
    refine Ends.read (fun page hpage => ⟨rfl, fun r hr => ?_⟩) fun _ => rfl
    exact record_within (Store.listDNSRecords_ok hpage r hr).2 hmine
  get id hmine := select_own Store.dnsRecords hmine fun r hr => mine_row hr
  update id req hmine := by
    refine (DNSService.updateRecord_ends id req).mono (fun r s' h => ?_) fun _ s' h => h.unharmed hmine
    obtain ⟨⟨old, hold, hzone⟩, htouches⟩ := h
    have hunharmed := htouches.unharmed hmine
    rw [Store.recordTenant, tenantIn_of_find hold] at hmine
    exact ⟨hunharmed, record_within hzone hmine⟩
  delete id hmine := by
    exact (DNSService.deleteRecord_ends id).mono (fun _ s' h => h.unharmed hmine) fun _ s' h => h.unharmed hmine
  refuses := missingOrBad_refuses _

theorem CDNSiteHandler.purgeCache_isolated (c : Caller) (raw : String) :
    Isolated own v s (CDNSiteHandler.purgeCache c raw).1 := by
  refine .bind (parseID_isolated fun id _ => ?_)
  refine .bind (.mapError (Ends.reads (fun _ => ?_) fun _ => .refuse (missing_refuses _ _ _) .refl))
  exact log_isolated Store.Unharmed.refl Reply.within_noContent

end

/-! ### Users and API keys -/

section
variable {own : ID} {v : Env} {s : Store} {c : Caller}

theorem UserHandler.create_isolated {body : Decoded UserService.CreateRequest}
    (hbody : ∀ req, body = .ok req → Mine own req.tenantID) : Isolated own v s (create c body) := by
  refine .bind (decode_isolated fun req hreq => ?_)
  refine .bind (.mapError ((UserService.create_ends req).mono (fun u s' h => ?_) fun e s' h => ?_))
  · obtain ⟨-, htenant, -, -, -, hins, honly⟩ := h
    have hmine : Mine own u.tenantID := htenant ▸ hbody req (decode_ok.mp hreq)
    have hspares : s.Spares own s' := by
      rw [honly]
      exact { Store.Spares.refl with users := .insert hins }
    exact log_isolated hspares.unharmed (Reply.within_created (mine_row hmine))
  · exact .refuse_same (takenOrBad_refuses _ _) h

theorem UserHandler.update_isolated {raw : String} (hraw : Names own "id" raw s.userTenant)
    (body : Decoded UserService.UpdateRequest) : Isolated own v s (update c raw body) := by
  refine .bind (parseID_isolated fun id hid => ?_)
  have hmine := hraw id hid
  refine .bind (decode_isolated fun req _ => ?_)
  refine .bind (.mapError ((UserService.update_ends id req).mono (fun u' s' h => ?_) fun e s' h => ?_))
  · obtain ⟨u, hu, hupdated, hset, honly⟩ := h
    have hid : u'.id = id := hupdated.id.trans (Table.find_eq_some.mp hu).2
    have hspares : s.Spares own s' := by
      rw [honly]
      exact { Store.Spares.refl with users := .set hset (hid ▸ hmine) }
    have hmine' : Mine own u'.tenantID := by
      rw [Store.userTenant, tenantIn_of_find hu] at hmine
      rwa [hupdated.tenantID]
    exact log_isolated hspares.unharmed (Reply.within_ok (mine_row hmine'))
  · exact .refuse_same (missingOrBad_refuses _ _) h

theorem UserHandler.delete_isolated {raw : String} (hraw : Names own "id" raw s.userTenant) :
    Isolated own v s (delete c raw) := by
  refine .bind (parseID_isolated fun id hid => ?_)
  refine .bind (.mapError (Ends.write (fun _ _ s' h => ?_) fun e => .refuse (missing_refuses _ _ _) .refl))
  obtain ⟨herase, honly⟩ := Store.deleteUser_ok h
  have hspares : s.Spares own s' := by
    rw [honly]
    exact { Store.Spares.refl with users := .erase herase (hraw id hid) }
  exact log_isolated hspares.unharmed Reply.within_noContent

theorem UserHandler.list_isolated (hc : c.claims.tenantID = some own) (q : ListQuery) :
    Isolated own v s (list c q).1 := by
  refine listResources_isolated fun p => Ends.read (fun page hpage => ⟨rfl, fun u hu => mine_row ?_⟩) fun _ => rfl
  have htenant : u.tenantID = some own := (Store.listUsers_ok hpage u hu).2 own hc
  exact mine_of_eq htenant

theorem AuthHandler.keyTenant_ok {tenantID : ID} (hc : c.claims.tenantID = some own) (h : keyTenant c = .ok tenantID) :
    tenantID = own := by
  rw [keyTenant, hc] at h
  exact (Except.ok.inj h).symm

theorem AuthHandler.keyTenant_refuses {r : Reply} (h : keyTenant c = .error r) : r.Refuses := by
  unfold keyTenant at h
  split at h
  · cases h
  · cases h
    exact Reply.refuses_error (by decide)

theorem AuthHandler.checkKeyRole_refuses {claims : Claims} {role : Role} {r : Reply}
    (h : checkKeyRole claims role = .error r) : r.Refuses := by
  unfold checkKeyRole at h
  split at h
  · cases h
  · split at h
    · rw [require_error h]
      exact Reply.refuses_error (by decide)
    · cases h
      exact Reply.refuses_error (by decide)

theorem AuthHandler.createAPIKey_isolated (hc : c.claims.tenantID = some own) (body : Decoded CreateAPIKeyRequest) :
    Isolated own v s (createAPIKey c body) := by
  refine .bind (.ofExcept (fun tenantID htenant => ?_) fun r hr => .refuse (keyTenant_refuses hr) .refl)
  obtain rfl := keyTenant_ok hc htenant
  refine .bind (decode_isolated fun req _ => ?_)
  refine .bind (.ofExcept (fun _ _ => ?_) fun r hr => ?_)
  · refine .bind (.ofExcept (fun _ _ => ?_) fun r hr => .refuse (checkKeyRole_refuses hr) .refl)
    refine .bind (.mapError ((AuthService.generateAPIKey_ends _ _ _ _).mono (fun k s' h => ?_) fun e s' h => ?_))
    · obtain ⟨hown, -, -, -, hins, honly⟩ := h
      have hspares : s.Spares tenantID s' := by
        rw [honly]
        exact { Store.Spares.refl with apiKeys := .insert hins }
      exact log_isolated hspares.unharmed (Reply.within_created (mine_row (mine_some.mpr hown)))
    · exact .refuse_same (failing_refuses _ _) h
  · rw [require_error hr]
    exact .refuse (Reply.refuses_error (by decide)) .refl

theorem AuthHandler.listAPIKeys_isolated (hc : c.claims.tenantID = some own) (q : ListQuery) :
    Isolated own v s (listAPIKeys c q).1 := by
  refine .bind (.ofExcept (fun tenantID htenant => ?_) fun r hr => .refuse (keyTenant_refuses hr) .refl)
  obtain rfl := keyTenant_ok hc htenant
  refine listResources_isolated fun p => Ends.read (fun page hpage => ⟨rfl, fun k hk => mine_row (mine_some.mpr ?_)⟩)
    fun _ => rfl
  exact Store.listAPIKeys_ok hpage k hk

theorem AuthHandler.deleteAPIKey_isolated {raw : String} (hraw : Names own "id" raw s.keyTenant) :
    Isolated own v s (deleteAPIKey c raw) := by
  refine .bind (parseID_isolated fun id hid => ?_)
  refine .bind (.mapError (Ends.write (fun _ _ s' h => ?_) fun e => .refuse (failing_refuses _ _) .refl))
  obtain ⟨herase, honly⟩ := Store.deleteAPIKey_ok h
  have hspares : s.Spares own s' := by
    rw [honly]
    exact { Store.Spares.refl with apiKeys := .erase herase (hraw id hid) }
  exact log_isolated hspares.unharmed Reply.within_noContent

theorem AccountRequest.handle_isolated (ts : TokenService) (issuer : String) {hub : WireGuardHub}
    (hc : c.claims.tenantID = some own) {req : AccountRequest} (hreq : (Endpoint.account req).byID = true)
    (hown : (Endpoint.account req).OwnOnly own hub s) :
    Ends v s (req.handle ts issuer c) (fun (resp : Response) => Isolates own v s resp.reply) (Isolates own v s) := by
  -- the reply of a handler, as a response
  have hreply : ∀ p : Web Reply, Isolated own v s p →
      Ends v s (p >>= fun reply => pure { reply }) (fun (resp : Response) => Isolates own v s resp.reply)
        (Isolates own v s) :=
    fun p hp => .andThen hp fun _ _ h => .pure h
  cases req with
  | createAPIKey body => exact hreply _ (AuthHandler.createAPIKey_isolated hc body)
  | listAPIKeys q => exact hreply _ (AuthHandler.listAPIKeys_isolated hc q)
  | deleteAPIKey raw => exact hreply _ (AuthHandler.deleteAPIKey_isolated hown)
  | user req =>
    cases req with
    | create parent body => exact hreply _ (UserHandler.create_isolated hown)
    | list parent q => exact hreply _ (UserHandler.list_isolated hc q)
    | get raw =>
      exact hreply _ (getResource_isolated hown fun id hmine => select_own Store.users hmine fun u hu => mine_row hu)
    | update raw body => exact hreply _ (UserHandler.update_isolated hown body)
    | delete raw => exact hreply _ (UserHandler.delete_isolated hown)
  | _ => cases hreq

end

/-! ### Nodes -/

section
variable {own : ID} {v : Env} {s : Store} {c : Caller}

theorem mine_of_canAccessTenant {claims : Claims} (hc : claims.tenantID = some own) {tenantID : Option ID}
    (h : canAccessTenant claims tenantID = true) : Mine own tenantID := by
  cases tenantID with
  | none => exact mine_none
  | some t =>
    have ht : own = t := by simpa [canAccessTenant, hc] using h
    exact mine_some.mpr ht.symm

theorem NodeHandler.load_isolated (hc : c.claims.tenantID = some own) {raw : String} {Q : ID × Node → Store → Prop}
    (h : ∀ p, s.nodes.find p.1 = some p.2 → Mine own (s.nodeTenant p.1) → Q p s) :
    Ends v s (NodeHandler.load c raw).1 Q (Isolates own v s) := by
  refine .bind (parseID_isolated fun id _ => ?_)
  refine .bind (.mapError (Ends.read (fun n hn => ?_) fun e => .refuse (missing_refuses _ _ _) .refl))
  refine .bind (.ofExcept (fun _ hu => ?_) fun r hr => ?_)
  · have hfind := selectRow_ok.mp hn
    refine .pure (h _ hfind ?_)
    rw [Store.nodeTenant, tenantIn_of_find hfind]
    exact mine_of_canAccessTenant hc (require_ok.mp hu)
  · rw [require_error hr]
    exact .refuse (Reply.refuses_error (by decide)) .refl

theorem Store.Unharmed.setNode {id : ID} {old n : Node} {nodes : Table Node.id} (hold : s.nodes.find id = some old)
    (hset : s.nodes.set n = some nodes) (hn : n.id = old.id) (hmine : Mine own (s.nodeTenant id)) :
    s.Unharmed own { s with nodes } := by
  have hid : n.id = id := hn.trans (Table.find_eq_some.mp hold).2
  have hspares : s.Spares own { s with nodes } := { Store.Spares.refl with nodes := .set hset (hid ▸ hmine) }
  exact hspares.unharmed

theorem NodeHandler.create_isolated (hc : c.claims.tenantID = some own)
    (body : Decoded FleetService.CreateNodeRequest) : Isolated own v s (NodeHandler.handleCreate c body).1 := by
  refine .bind (decode_isolated fun req _ => ?_)
  refine .bind (.mapError ((FleetService.createNode_ends _).mono (fun n s' h => ?_) fun e s' h => ?_))
  · obtain ⟨htenant, nodes, hins, rfl⟩ := h
    rw [hc] at htenant
    have hspares : s.Spares own { s with nodes } := { Store.Spares.refl with nodes := .insert hins }
    exact log_isolated hspares.unharmed (Reply.within_created (mine_row (mine_of_eq htenant)))
  · exact .refuse_same (takenOrBad_refuses _ _) h

theorem NodeHandler.list_isolated (hc : c.claims.tenantID = some own) (q : ListQuery) :
    Isolated own v s (NodeHandler.list c q).1 := by
  refine .bind (.mapError (Ends.read (fun page hpage => ?_) fun e => .refuse (failing_refuses _ _) .refl))
  rw [hc] at hpage
  have hwithin : ∀ n ∈ page.1, (Datum.node n).Within own v s := fun n hn =>
    mine_row (mine_of_eq (Store.mem_nodesOf.mp (Store.listNodes_ok hpage n hn)).2)
  dsimp only
  split
  · split
    · exact .pure ⟨.refl, Reply.within_list rfl hwithin⟩
    · exact .pure ⟨.refl, Reply.within_list rfl hwithin⟩
  · exact .pure ⟨.refl, Reply.within_list rfl hwithin⟩

theorem NodeHandler.get_isolated (hc : c.claims.tenantID = some own) (raw : String) :
    Isolated own v s (NodeHandler.handleGet c raw).1 := by
  refine .bind (NodeHandler.load_isolated hc fun p hfind hmine => ?_)
  rw [Store.nodeTenant, tenantIn_of_find hfind] at hmine
  exact .pure ⟨.refl, Reply.within_ok (mine_row hmine)⟩

theorem NodeHandler.update_isolated (hc : c.claims.tenantID = some own) (raw : String)
    {body : Decoded FleetService.UpdateNodeRequest} (hbody : ∀ req, body = .ok req → Mine own req.tenantID) :
    Isolated own v s (NodeHandler.handleUpdate c raw body).1 := by
  refine .bind (NodeHandler.load_isolated hc fun p hfind hmine => ?_)
  refine .bind (decode_isolated fun req hreq => ?_)
  refine .bind (.mapError ((FleetService.updateNode_ends p.1 req).mono (fun n s' h => ?_) fun e s' h => ?_))
  · obtain ⟨old, t, nodes, hold, rfl, hset, rfl⟩ := h
    have hunharmed := Store.Unharmed.setNode hold hset rfl hmine
    -- a node that is moved is moved to the tenant itself
    have htenant : Mine own (req.apply old).tenantID := by
      rw [Store.nodeTenant, tenantIn_of_find hold] at hmine
      exact (hbody req (decode_ok.mp hreq)).or hmine
    exact log_isolated hunharmed (Reply.within_ok (mine_row htenant))
  · exact .refuse_same (missingOrBad_refuses _ _) h

theorem NodeHandler.delete_isolated (hc : c.claims.tenantID = some own) (raw : String) :
    Isolated own v s (NodeHandler.handleDelete c raw).1 := by
  refine .bind (NodeHandler.load_isolated hc fun p hfind hmine => ?_)
  refine .bind (.mapError ((FleetService.deleteNode_ends p.1).mono (fun _ s' h => ?_) fun e s' h => ?_))
  · obtain ⟨nodes, herase, -, -, rfl⟩ := h
    have hspares : s.Spares own { s with nodes, memberships := s.memberships.filter fun m => m.2 ≠ p.1 } :=
      { Store.Spares.refl with nodes := .erase herase hmine }
    exact log_isolated hspares.unharmed Reply.within_noContent
  · exact .refuse_same (missing_refuses _ _ _) h

theorem NodeHandler.heartbeat_isolated (hc : c.claims.tenantID = some own) (raw : String) :
    Isolated own v s (NodeHandler.handleHeartbeat c raw).1 := by
  refine .bind (NodeHandler.load_isolated hc fun p hfind hmine => ?_)
  refine .bind (.mapError ((FleetService.recordNodeHeartbeat_ends p.1).mono (fun _ s' h => ?_) fun e s' h => ?_))
  · obtain ⟨old, t, nodes, hold, hset, rfl⟩ := h
    exact .pure ⟨.setNode hold hset rfl hmine, Reply.within_ok (mine_row mine_none)⟩
  · exact .refuse_same (missing_refuses _ _ _) h

/-! ### Configurations -/

theorem NodeConfigHandler.config_isolated {hub : WireGuardHub} {id : ID} {part : NodeConfig}
    (hmine : Mine own (s.nodeTenant id)) (hpart : part.OwnOnly own hub s id) :
    Ends v s (config hub id part).1 (fun d s' => s' = s ∧ d.Within own v s) (Isolates own v s) := by
  cases part with
  | wireGuard =>
    refine .bind (.mapError ((generateNodeConfig_ends id).mono (fun text s' h => ?_) fun e s' h => ?_))
    · obtain ⟨rfl, n, config, hfind, htext, hfor⟩ := h
      obtain ⟨-, rfl⟩ := Table.find_eq_some.mp hfind
      rw [Store.nodeTenant, tenantIn_of_find hfind] at hmine
      exact .pure ⟨rfl, hub, n, config, htext, hfor, hmine, hpart⟩
    · refine .refuse_same ?_ h
      split <;> exact Reply.refuses_error (by decide)
  | bgp =>
    refine .bind (.mapError (Ends.read (fun page hpage => ?_) fun e => .refuse (failing_refuses _ _) .refl))
    refine .pure ⟨rfl, fun row hrow => ?_⟩
    obtain ⟨b, hb, rfl⟩ := List.mem_map.mp hrow
    rw [Datum.owner, (Store.listBGPSessions_ok hpage b hb).2]
    exact hmine
  | dns =>
    refine .bind (.mapError ((DNSService.getNodeDNSConfig_ends id).mono (fun cs s' h => ?_) fun e s' h => ?_))
    · obtain ⟨rfl, hcs⟩ := h
      refine .pure ⟨rfl, fun row hrow => ?_⟩
      obtain ⟨z, hz, hrow⟩ := List.mem_flatMap.mp hrow
      obtain ⟨hmem, hgroup, hrecords⟩ := hcs z hz
      have hzone : Mine own (some z.zone.tenantID) := mine_some.mpr (hpart z.zone hmem hgroup)
      rcases List.mem_cons.mp hrow with rfl | hrow
      · exact hzone
      · obtain ⟨r, hr, rfl⟩ := List.mem_map.mp hrow
        rw [Datum.owner, (hrecords r hr).2, Store.zoneTenant, tenantIn_of_mem hmem]
        exact hzone
    · exact .refuse_same (missing_refuses _ _ _) h
  | cdn =>
    refine .bind (.mapError ((CDNService.getNodeCDNConfig_ends id).mono (fun cs s' h => ?_) fun e s' h => ?_))
    · obtain ⟨rfl, hcs⟩ := h
      refine .pure ⟨rfl, fun row hrow => ?_⟩
      obtain ⟨z, hz, hrow⟩ := List.mem_flatMap.mp hrow
      obtain ⟨hmem, hgroup, horigins⟩ := hcs z hz
      have hsite : Mine own (some z.site.tenantID) := mine_some.mpr (hpart z.site hmem hgroup)
      rcases List.mem_cons.mp hrow with rfl | hrow
      · exact hsite
      · obtain ⟨o, ho, rfl⟩ := List.mem_map.mp hrow
        rw [Datum.owner, (horigins o ho).2, Store.siteTenant, tenantIn_of_mem hmem]
        exact hsite
    · exact .refuse_same (missing_refuses _ _ _) h
  | routes =>
    refine .bind (.mapError ((RouteService.getNodeRouteConfig_ends id).mono (fun cs s' h => ?_) fun e s' h => ?_))
    · obtain ⟨rfl, hcs, -⟩ := h
      refine .pure ⟨rfl, fun row hrow => ?_⟩
      obtain ⟨r, hr, hrow⟩ := List.mem_flatMap.mp hrow
      have hconf := hcs r hr
      obtain ⟨hroute, hgateway⟩ := hpart r.route hconf.mem hconf.group
      rcases List.mem_cons.mp hrow with rfl | hrow
      · exact mine_some.mpr hroute
      · obtain ⟨gw, hgw, rfl⟩ := List.mem_map.mp hrow
        rw [Store.gatewayTenant, tenantIn_of_find (Option.mem_toList.mp hgw)] at hgateway
        exact hgateway
    · exact .refuse_same (missing_refuses _ _ _) h

theorem NodeConfigHandler.get_isolated {hub : WireGuardHub} {raw : String} {part : NodeConfig}
    (hraw : Names own "id" raw s.nodeTenant) (hpart : ∀ id, parseID "id" raw = .ok id → part.OwnOnly own hub s id) :
    Isolated own v s (get hub raw part).1 := by
  refine .bind (parseID_isolated fun id hid => ?_)
  have hmine := hraw id hid
  refine .andThen (config_isolated hmine (hpart id hid)) fun d s' h => ?_
  obtain ⟨rfl, hwithin⟩ := h
  refine .bind (.mapError (.attempt (Ends.save (fun t _ s'' h => ?_) fun e => ?_)))
  · obtain ⟨-, old, nodes, hold, hset, rfl⟩ := updateIn_ok h
    exact .pure ⟨.setNode hold hset rfl hmine, Reply.within_ok hwithin⟩
  · exact .pure ⟨.refl, Reply.within_ok hwithin⟩

theorem ServiceRequest.handle_isolated (srv : Server) (hc : c.claims.tenantID = some own) {req : ServiceRequest}
    (hreq : (Endpoint.service req).byID = true) (hown : (Endpoint.service req).OwnOnly own srv.hub s) :
    Isolated own v s (req.handle srv c).1 := by
  cases req with
  | dnsZone req => exact Crud.handle_isolated DNSZoneHandler.keeps c hown
  | dnsRecord req => exact Crud.handle_isolated DNSRecordHandler.keeps c hown
  | cdnSite req => exact Crud.handle_isolated CDNSiteHandler.keeps c hown
  | purgeCache raw => exact CDNSiteHandler.purgeCache_isolated c raw
  | route req => exact Crud.handle_isolated RouteHandler.keeps c hown
  | node req =>
    cases req with
    | create parent body => exact NodeHandler.create_isolated hc body
    | list parent q => exact NodeHandler.list_isolated hc q
    | get raw => exact NodeHandler.get_isolated hc raw
    | update raw body => exact NodeHandler.update_isolated hc raw hown
    | delete raw => exact NodeHandler.delete_isolated hc raw
  | nodeHeartbeat raw => exact NodeHandler.heartbeat_isolated hc raw
  | nodeConfig raw part => exact NodeConfigHandler.get_isolated hown.1 hown.2
  | _ => cases hreq

end

end EdgeFabric
