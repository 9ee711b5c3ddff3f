/-
Tenants should not see or change what is another's: whatever a caller of one tenant
sends to the endpoints of users, API keys, zones, records, sites, routes and nodes, no
answer should show a row of another tenant, and every such row should stay as it was.

It does not (`foreign_zone_deleted`). The permission of a caller is checked against the
tenant in the caller's own claims, and only the handlers of nodes compare that tenant
with the one of the row they load; every other handler takes the identifier in the path
as it comes. In a session whose requests name only rows of the caller's tenant, or of
none, tenants are apart (`tenants_isolated`).
-/
import EdgeFabric.Security.HandlerIsolation

namespace EdgeFabric

/-! ## Callers -/

/-- Who sends the request, if they are let in. -/
def Server.caller (srv : Server) (v : Env) (r : Request) (w : World) : Option Claims :=
  ((auth srv.tokenSvc r.presented false).exec v w).1.toOption

def Server.CalledFrom (srv : Server) (v : Env) (own : ID) (r : Request) (w : World) : Prop :=
  ∀ claims ∈ srv.caller v r w, claims.tenantID = some own ∧ claims.role ≠ .superUser

/-! ## Requests -/

section
variable {own : ID} {v : Env} {s s' : Store} {claims : Claims}

theorem Store.UsedBy.unharmed (h : s.UsedBy s' claims) (hc : claims.tenantID = some own) : s.Unharmed own s' := by
  rcases h with rfl | ⟨k, hk, rfl, honly, t, hset⟩
  · exact .refl
  · have hmine : Mine own (some k.tenantID) := mine_of_eq hc
    have hspares : s.Spares own s' := by
      rw [honly]
      exact { Store.Spares.refl with apiKeys := .set hset (by rwa [tenantIn_of_mem hk]) }
    exact hspares.unharmed

theorem Store.UsedBy.keyTenant (h : s.UsedBy s' claims) : s'.keyTenant = s.keyTenant := by
  rcases h with rfl | ⟨k, hk, -, -, t, hset⟩
  · rfl
  · funext id
    by_cases hid : id = k.id
    · subst hid
      have hfind := Table.find_set_self hset
      rw [Store.keyTenant, Store.keyTenant, tenantIn_of_mem hk, tenantIn_of_find hfind]
    · rw [Store.keyTenant, Store.keyTenant, tenantIn, tenantIn, Table.find_set_of_ne hset hid]

theorem Store.UsedBy.only (h : s.UsedBy s' claims) : s.OnlyAPIKeys s' := by
  rcases h with rfl | ⟨-, -, -, honly, -⟩
  · exact .refl
  · exact honly

theorem Endpoint.OwnOnly.used {e : Endpoint} {hub : WireGuardHub} (h : e.OwnOnly own hub s)
    (hused : s.UsedBy s' claims) : e.OwnOnly own hub s' := by
  have hkeys := hused.keyTenant
  rw [hused.only] at hkeys ⊢
  unfold Endpoint.OwnOnly at h ⊢
  split at h
  · rwa [hkeys]
  all_goals exact h

theorem Isolates.after (hused : s.UsedBy s' claims) (hc : claims.tenantID = some own) {reply : Reply} {s'' : Store}
    (h : Isolates own v s' reply s'') : Isolates own v s reply s'' := by
  refine ⟨(hused.unharmed hc).trans h.1, ?_⟩
  have hwithin := h.2
  rw [hused.only] at hwithin
  exact hwithin.apiKeys

variable {srv : Server} {w : World}

theorem auth_isolated {r : Request} (hcaller : srv.CalledFrom v own r w) :
    (auth srv.tokenSvc r.presented false).Ensures id v w
      (fun claims w' => claims.tenantID = some own ∧ w.store.UsedBy w'.store claims)
      fun reply w' => w'.store = w.store ∧ reply.Refuses := by
  refine .of_exec fun w₁ hw result w' h => ?_
  obtain rfl : w = w₁ := hw.symm
  cases result with
  | error reply => exact (auth_used r.presented false).error rfl h
  | ok claims =>
    have hmem : claims ∈ srv.caller v r w := by rw [Server.caller, h]; rfl
    exact ⟨(hcaller claims hmem).1, (auth_used r.presented false).ok rfl h⟩

theorem AccountRequest.checks_ok {req : AccountRequest} {claims' : Claims} (h : req.checks claims = .ok claims') :
    claims' = claims := by
  obtain ⟨_, _, h⟩ := bind_ok.mp h
  exact (Except.ok.inj h).symm

theorem ServiceRequest.checks_ok {req : ServiceRequest} {claims' : Claims} (h : req.checks claims = .ok claims') :
    claims' = claims := by
  obtain ⟨_, _, h⟩ := bind_ok.mp h
  obtain ⟨_, _, h⟩ := bind_ok.mp h
  exact (Except.ok.inj h).symm

theorem Server.serve_isolated {r : Request} (hby : r.endpoint.byID = true) (hcaller : srv.CalledFrom v own r w)
    (hown : r.endpoint.OwnOnly own srv.hub w.store) :
    (srv.serve r).Ensures id v w (fun resp w' => Isolates own v w.store resp.reply w'.store)
      fun reply w' => Isolates own v w.store reply w'.store := by
  have hauth := auth_isolated hcaller
  obtain ⟨addr, presented, endpoint⟩ := r
  cases endpoint with
  | account req =>
    have hopen : req.openPath = false := by cases req <;> first | rfl | cases hby
    refine .bind ?_
    rw [AccountRequest.middleware_eq, hopen]
    refine .bind (hauth.mono (fun claims w₁ h => ?_) fun reply w₁ h => .refuse_same h.2 h.1)
    obtain ⟨hc, hused⟩ := h
    refine .ofExcept (fun claims' hchecks => ?_) fun reply hr => ?_
    · obtain rfl := AccountRequest.checks_ok hchecks
      refine (Ends.whole (AccountRequest.handle_isolated (c := ⟨claims', addr⟩) srv.tokenSvc srv.totpIssuer hc hby
        (hown.used hused))).mono (fun _ _ h => ?_) fun _ _ h => ?_
      · exact h.after hused hc
      · exact h.after hused hc
    · exact .refuse (AccountRequest.checks_refuses hr) (hused.unharmed hc)
  | service req =>
    refine .bind ?_
    rw [ServiceRequest.middleware_eq]
    refine .bind (hauth.mono (fun claims w₁ h => ?_) fun reply w₁ h => .refuse_same h.2 h.1)
    obtain ⟨hc, hused⟩ := h
    refine .ofExcept (fun claims' hchecks => ?_) fun reply hr => ?_
    · obtain rfl := ServiceRequest.checks_ok hchecks
      refine .bind ((Ends.whole (ServiceRequest.handle_isolated (c := ⟨claims', addr⟩) srv hc hby
        (hown.used hused))).mono (fun _ _ h => ?_) fun _ _ h => ?_)
      · exact .pure (h.after hused hc)
      · exact h.after hused hc
    · exact .refuse (ServiceRequest.checks_refuses hr) (hused.unharmed hc)
  | _ => cases hby

end

/-! ## Isolation -/

/-- **Tenant isolation**: in every session with requests of callers of one tenant to the
endpoints of users, API keys, zones, records, sites, routes and nodes that name only the
tenant's own, every row of another tenant is at the end as it was, and no answer shows
one. -/
theorem tenants_isolated (srv : Server) (v : Env) (own : ID) (w : World) (rs : List Request)
    (hby : ∀ r ∈ rs, r.endpoint.byID = true) (hcaller : Session.Along srv.serve v (srv.CalledFrom v own) rs w)
    (hown : Session.Along srv.serve v (fun r w => r.endpoint.OwnOnly own srv.hub w.store) rs w) :
    w.store.Unharmed own (Session.final srv.serve v rs w).store ∧
      ∀ x ∈ Session.run srv.serve v rs w, (Response.of x.answer).reply.Within own v x.before.store := by
  let Ok := fun (r : Request) (w : World) =>
    r.endpoint.byID = true ∧ srv.CalledFrom v own r w ∧ r.endpoint.OwnOnly own srv.hub w.store
  have halong : Session.Along srv.serve v Ok rs w :=
    (Session.Along.of_mem (fun r hr _ => hby r hr) w).and (hcaller.and hown)
  have hone : ∀ r w', Ok r w' →
      Isolates own v w'.store (Response.of ((srv.serve r).exec v w').1).reply ((srv.serve r).exec v w').2.store :=
    fun r w' h => Response.of_exec_whole (P := fun resp s' => Isolates own v w'.store resp.reply s')
      (Server.serve_isolated h.1 h.2.1 h.2.2)
  have hstep : ∀ r w', w.store.Unharmed own w'.store → Ok r w' →
      w.store.Unharmed own ((srv.serve r).exec v w').2.store :=
    fun r w' hw h => hw.trans (hone r w' h).1
  exact ⟨Session.final_invariant (I := fun w' => w.store.Unharmed own w'.store) hstep .refl halong,
    Session.run_forall (I := fun w' => w.store.Unharmed own w'.store) hstep (fun r w' _ h => (hone r w' h).2)
      .refl halong⟩

namespace Sample

def zoneAdmin : Claims := { userID := 7, tenantID := some 100, role := .admin }

def zoneOf (id tenantID : ID) : DNSZone :=
  { id, tenantID, name := "example.com", status := .active, serial := 1, ttl := 3600, nodeGroupID := none
    transferAllowedIPs := [], createdAt := 0, updatedAt := 0 }

def zoned : Store := { rented with dnsZones := ⟨[zoneOf 50 100, zoneOf 60 200], by decide⟩ }

def look (id : ID) : Request := inSession Env.calm zoneAdmin (.service (.dnsZone (.get id.text)))

def remove (id : ID) : Request := inSession Env.calm zoneAdmin (.service (.dnsZone (.delete id.text)))

def onZone (id : ID) : List Request := [look id, remove id]

theorem onZone_byID (id : ID) : ∀ r ∈ onZone id, r.endpoint.byID = true := by
  intro r hr
  rcases List.mem_cons.mp hr with rfl | hr
  · rfl
  · rw [List.mem_singleton.mp hr]
    rfl

theorem onZone_calledFrom (id : ID) (w : World) :
    Session.Along server.serve Env.calm (server.CalledFrom Env.calm 100) (onZone id) w := by
  have hcalled : ∀ endpoint w, server.CalledFrom Env.calm 100 (inSession Env.calm zoneAdmin endpoint) w := by
    intro endpoint w claims hclaims
    rw [Server.caller, auth_token_exec rfl (inSession_token _ _ _) (by decide) (.inl rfl)] at hclaims
    dsimp only at hclaims
    split at hclaims
    · cases hclaims
    · obtain rfl := Option.some.inj hclaims
      decide
  refine .of_mem (fun r hr w => ?_) w
  rcases List.mem_cons.mp hr with rfl | hr
  · exact hcalled _ w
  · rw [List.mem_singleton.mp hr]
    exact hcalled _ w

def looked (id : ID) : Except Reply Reply × World :=
  (DNSZoneHandler.handle ⟨zoneAdmin, ""⟩ (.get id.text)).1.exec Env.calm ⟨1, zoned⟩

def deleted (id : ID) : Except Reply Reply × World :=
  (DNSZoneHandler.handle ⟨zoneAdmin, ""⟩ (.delete id.text)).1.exec Env.calm (looked id).2.next

theorem serve_looked (id : ID) :
    (server.serve (look id)).exec Env.calm ⟨0, zoned⟩ =
      ((looked id).1.map fun reply => { reply }, (looked id).2) :=
  serve_service_inSession (by decide) rfl (by decide) rfl

theorem serve_deleted (id : ID) (hin : Time.unix (Env.calm.now (looked id).2.tick) ≤ 3600) :
    (server.serve (remove id)).exec Env.calm (looked id).2 =
      ((deleted id).1.map fun reply => { reply }, (deleted id).2) :=
  serve_service_inSession (by decide) rfl hin rfl

end Sample

theorem tenants_isolated_own_zone :
    let w : World := ⟨0, Sample.zoned⟩
    w.store.Unharmed 100 (Session.final Sample.server.serve Env.calm (Sample.onZone 50) w).store ∧
      ∀ x ∈ Session.run Sample.server.serve Env.calm (Sample.onZone 50) w,
        (Response.of x.answer).reply.Within 100 Env.calm x.before.store := by
  intro w
  have hnames : ∀ s : Store, s.zoneTenant 50 = some 100 → Names 100 "id" (ID.text 50) s.zoneTenant := by
    intro s hs id hid
    rw [parseID_text] at hid
    obtain rfl := Except.ok.inj hid
    exact mine_of_eq hs
  refine tenants_isolated Sample.server Env.calm 100 w (Sample.onZone 50) (Sample.onZone_byID 50)
    (Sample.onZone_calledFrom 50 w) ⟨hnames _ (by decide), ?_, trivial⟩
  rw [Sample.serve_looked]
  exact hnames _ (by decide)

/-- An administrator of one tenant looks at a zone of another and deletes it. -/
theorem foreign_zone_deleted :
    let w : World := ⟨0, Sample.zoned⟩
    (∀ r ∈ Sample.onZone 60, r.endpoint.byID = true) ∧
    Session.Along Sample.server.serve Env.calm (Sample.server.CalledFrom Env.calm 100) (Sample.onZone 60) w ∧
    ¬ w.store.Unharmed 100 (Session.final Sample.server.serve Env.calm (Sample.onZone 60) w).store ∧
    ∃ x ∈ Session.run Sample.server.serve Env.calm (Sample.onZone 60) w,
      ¬ (Response.of x.answer).reply.Within 100 Env.calm x.before.store := by
  intro w
  have hother : ¬ Mine 100 (some 200) := by simp
  refine ⟨Sample.onZone_byID 60, Sample.onZone_calledFrom 60 w, fun h => ?_,
    Session.exchange Sample.server.serve Env.calm (Sample.look 60) w, List.mem_cons_self, fun h => ?_⟩
  · have hfinal : (Session.final Sample.server.serve Env.calm (Sample.onZone 60) w).store =
      (Sample.deleted 60).2.store := by
      rw [Sample.onZone, Session.final, Sample.serve_looked, Session.final, Sample.serve_deleted 60 (by decide)]
      rfl
    have hkept : Sample.zoneOf 60 200 ∈ (Sample.deleted 60).2.store.dnsZones :=
      hfinal ▸ (h (.dnsZone (Sample.zoneOf 60 200)) (List.mem_cons_of_mem _ List.mem_cons_self) hother).1
    exact absurd hkept (by decide)
  · have hshown : Sample.looked 60 = (.ok (.ok (.dnsZone (Sample.zoneOf 60 200))), (Sample.looked 60).2) := rfl
    rw [Session.exchange, Sample.serve_looked, hshown] at h
    exact hother ((h _ List.mem_cons_self).mine _ List.mem_cons_self)

end EdgeFabric
