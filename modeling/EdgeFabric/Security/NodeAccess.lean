/-
How long an enrolled node keeps access to its configuration. Its agent sends one
token for good, whether it enrolled itself or took the identity an earlier start
saved; the controller takes the token until it expires, and only if the node had a
tenant when it enrolled, since the role of the token is refused without one.
-/
import EdgeFabric.NodeAgent

namespace EdgeFabric

def Node.agentClaims (n : Node) : Claims := { userID := n.id, tenantID := n.tenantID, role := .readOnly }

theorem AgentStart.enrollResult_ok {resp : Response} {state : NodeState} (h : enrollResult resp = .ok state) :
    ∃ nodeID, ∃ ip, resp.reply.body = .object (.enrolled nodeID ip) ∧ resp.token = some state.apiToken ∧
      state.nodeID = nodeID.text := by
  unfold enrollResult at h
  split at h
  · cases h
  · split at h
    · next nodeID ip apiToken hbody htoken =>
      obtain rfl := Except.ok.inj h
      exact ⟨nodeID, ip, hbody, htoken, rfl⟩
    · cases h

section
variable {v : Env} {w : World}

theorem AgentStart.enroll_issues (start : AgentStart) (srv : Server) :
    (start.enroll srv).Ensures id v w
      (fun state w' => ∃ n ∈ w.store.nodes, ∃ t, w.tick ≤ t ∧ t < w'.tick ∧ state.nodeID = n.id.text ∧
        state.apiToken = srv.tokenSvc.token v n.agentClaims (v.now t))
      fun _ _ => True := by
  refine .bind (.ofExcept (fun _ _ => ?_) fun _ _ => trivial)
  refine .bind (.mapError (.attempt ((EnrollmentHandler.enroll_issues srv.provisioner start.remoteAddr
    (.ok { token := start.enrollmentToken })).mono (fun resp w' hresp => ?_) fun reply w' _ => ?_)))
  · refine .bind (.ofExcept (fun _ _ => ?_) fun _ _ => trivial)
    refine .ofExcept (fun state hstate => ?_) fun _ _ => trivial
    obtain ⟨nodeID, ip, hbody, htoken, hid⟩ := enrollResult_ok hstate
    obtain ⟨n, hn, t, ip', hle, hlt, hreply, hissued⟩ := hresp state.apiToken htoken
    have hsame : Body.object (.enrolled n.id ip') = .object (.enrolled nodeID ip) := by
      rw [← hbody]
      exact (congrArg Reply.body hreply).symm
    obtain ⟨rfl, -⟩ := Datum.enrolled.inj (Body.object.inj hsame)
    exact ⟨n, hn, t, hle, hlt, hid, hissued⟩
  · refine .bind (.ofExcept (fun _ _ => ?_) fun _ _ => trivial)
    refine .ofExcept (fun state hstate => ?_) fun _ _ => trivial
    obtain ⟨_, _, _, htoken, _⟩ := enrollResult_ok hstate
    cases htoken

theorem requirePermission_agent (n : Node) (raw : String) (part : NodeConfig) :
    requirePermission n.agentClaims (ServiceRequest.nodeConfig raw part).permission =
      if n.tenantID.isSome then .ok () else .error (.forbidden "insufficient permissions") := by
  have hrole : Role.readOnly ≠ Role.superUser := by decide
  cases ht : n.tenantID with
  | none =>
    rw [requirePermission, authorize_noTenant hrole ht]
    rfl
  | some tenantID =>
    simp [requirePermission, ServiceRequest.permission, authorize, Node.agentClaims, ht, hrole, Action.reads]

theorem requireResourceOwnerOrAdmin_agent (n : Node) :
    requireResourceOwnerOrAdmin n.agentClaims "id" n.id.text = .ok () := by
  unfold requireResourceOwnerOrAdmin
  split
  · rfl
  · rw [parseID_text]
    exact require_ok.mpr rfl

theorem ServiceRequest.middleware_agent_exec {ts ts' : TokenService} (hkey : ts'.signingKey = ts.signingKey)
    {p : Presented} {n : Node} {t : Time} (hp : p.token = .ok (ts.token v n.agentClaims t)) (req : ServiceRequest) :
    (req.middleware ts' p).exec v w =
      (if ts.expiry t < Time.unix (v.now w.tick) then .error (.unauthorized "invalid or expired token")
        else req.checks n.agentClaims, w.next) := by
  have hbar : '|' ∉ Role.readOnly.toList := by decide
  exact middleware_token_exec hkey hp hbar rfl req

theorem fetch_claims {ts : TokenService} {srv : Server} (hkey : srv.tokenSvc.signingKey = ts.signingKey) {n : Node}
    {t : Time} {client : NodeClient} (hid : client.nodeID = n.id.text)
    (htoken : client.apiToken = ts.token v n.agentClaims t) (part : NodeConfig) :
    srv.claims v (client.fetch part) w =
      if n.tenantID.isSome ∧ (Time.unix (v.now w.tick) : Int) ≤ ts.expiry t then some n.agentClaims else none := by
  have hp : (client.fetch part).presented.token = .ok (ts.token v n.agentClaims t) := by
    rw [← htoken]
    exact Presented.token_bearer (htoken ▸ TokenService.token_ne_empty ts v _ t)
  have hexec : srv.claims v (client.fetch part) w =
    (Prog.exec v ((ServiceRequest.nodeConfig client.nodeID part).middleware
      srv.tokenSvc (client.fetch part).presented) w).1.toOption := rfl
  rw [hexec, ServiceRequest.middleware_agent_exec hkey hp]
  by_cases hlate : ts.expiry t < Time.unix (v.now w.tick)
  · have hnot : ¬ (Time.unix (v.now w.tick) : Int) ≤ ts.expiry t := by omega
    simp only [if_pos hlate, hnot, and_false, if_false]
    rfl
  · have hin : (Time.unix (v.now w.tick) : Int) ≤ ts.expiry t := by omega
    simp only [if_neg hlate, hin, and_true, ServiceRequest.checks, ServiceRequest.owner, Option.elim,
      requirePermission_agent, hid, requireResourceOwnerOrAdmin_agent]
    cases n.tenantID with
    | none => rfl
    | some _ => rfl

end

/-- The clients that an agent works with after an enrollment: the one it got, and those of
later starts that find the state which was saved. -/
inductive AgentStart.Identity (v : Env) (client : NodeClient) (disk : Option NodeState) : NodeClient → Prop where
  | fresh : Identity v client disk client
  | restarted {start : AgentStart} {srv : Server} {w : World} {state : NodeState} {client' : NodeClient}
      {s : World × Option NodeState} : disk = some state →
      (start.resolveNodeIdentity srv).exec v (w, disk) = (.ok client', s) → Identity v client disk client'

theorem AgentStart.Identity.issued {srv : Server} {v : Env} {start : AgentStart} {w : World} {client : NodeClient}
    {s : World × Option NodeState} (h : (start.resolveNodeIdentity srv).exec v (w, none) = (.ok client, s)) :
    ∃ n ∈ w.store.nodes, ∃ t, w.tick ≤ t ∧ t < s.1.tick ∧ ∀ client', Identity v client s.2 client' →
      client'.nodeID = n.id.text ∧ client'.apiToken = srv.tokenSvc.token v n.agentClaims (v.now t) := by
  obtain ⟨state, henroll, hclient, hdisk⟩ := resolveNodeIdentity_fresh h
  obtain ⟨n, hn, t, hle, hlt, hid, htoken⟩ := (start.enroll_issues srv).ok rfl henroll
  refine ⟨n, hn, t, hle, hlt, fun client' hclient' => ?_⟩
  have hsame : client' = { nodeID := state.nodeID, apiToken := state.apiToken } := by
    cases hclient' with
    | fresh => exact hclient
    | restarted hsaved hrestart =>
      rcases hdisk with hnone | hsome
      · rw [hnone] at hsaved
        cases hsaved
      · rw [hsome] at hrestart
        exact resolveNodeIdentity_saved hrestart
  rw [hsame]
  exact ⟨hid, htoken⟩

/-- An enrolled node gets to its configuration, at any later time, exactly if it had a
tenant when it enrolled and the token it was given then has not expired. -/
theorem enrolled_node_access {srv : Server} {v : Env} {start : AgentStart} {w : World} {client : NodeClient}
    {s : World × Option NodeState} (h : (start.resolveNodeIdentity srv).exec v (w, none) = (.ok client, s)) :
    ∃ n ∈ w.store.nodes, client.nodeID = n.id.text ∧ ∃ t, w.tick ≤ t ∧ t < s.1.tick ∧
      ∀ client', AgentStart.Identity v client s.2 client' →
      ∀ later : Server, later.tokenSvc.signingKey = srv.tokenSvc.signingKey → ∀ (part : NodeConfig) (w' : World),
        later.claims v (client'.fetch part) w' = some n.agentClaims ↔
          n.tenantID.isSome ∧ (Time.unix (v.now w'.tick) : Int) ≤ srv.tokenSvc.expiry (v.now t) := by
  obtain ⟨n, hn, t, hle, hlt, hissued⟩ := AgentStart.Identity.issued h
  refine ⟨n, hn, (hissued client .fresh).1, t, hle, hlt, fun client' hclient' later hkey part w' => ?_⟩
  obtain ⟨hid, htoken⟩ := hissued client' hclient'
  rw [fetch_claims hkey hid htoken]
  split
  · next hin => exact iff_of_true rfl hin
  · next hout => exact iff_of_false nofun hout

namespace Sample

def agent : AgentStart := { enrollmentToken := "first" }

def untenanted : Store :=
  { fleet with nodes := ⟨[{ node 10 100 with tenantID := none }, { node 11 100 with tenantID := none }], by decide⟩ }

def started (store : Store) : Except Err NodeClient × World × Option NodeState :=
  (agent.resolveNodeIdentity server).exec Env.calm (⟨0, store⟩, none)

theorem started_fleet : ∃ client s, started fleet = (.ok client, s) ∧ s.1.tick < 1000 := by
  have hok : (started fleet).1.isOk = true ∧ (started fleet).2.1.tick < 1000 := by decide
  rcases hrun : started fleet with ⟨e | client, s⟩
  · rw [hrun] at hok
    cases hok.1
  · rw [hrun] at hok
    exact ⟨client, s, rfl, hok.2⟩

theorem started_untenanted : ∃ client s, started untenanted = (.ok client, s) := by
  have hok : (started untenanted).1.isOk = true := by decide
  rcases hrun : started untenanted with ⟨e | client, s⟩
  · rw [hrun] at hok
    cases hok
  · exact ⟨client, s, rfl⟩

end Sample

theorem enrolled_node_access_soon :
    ∃ client s n, Sample.started Sample.fleet = (.ok client, s) ∧
      Sample.server.claims Env.calm (client.fetch .bgp) s.1 = some (Node.agentClaims n) := by
  obtain ⟨client, s, hrun, htick⟩ := Sample.started_fleet
  obtain ⟨n, hn, -, t, -, -, haccess⟩ := enrolled_node_access hrun
  have htenants : ∀ n ∈ Sample.fleet.nodes, n.tenantID.isSome := by decide
  refine ⟨client, s, n, hrun, (haccess client .fresh Sample.server rfl .bgp s.1).mpr ⟨htenants n hn, ?_⟩⟩
  simp only [Env.calm, TokenService.expiry, Time.unix, Sample.server]
  omega

/-- A token lasts for the time to live of all sessions, and a node without a tenant is
refused at once. -/
theorem enrolled_node_shut_out :
    (∃ client s, Sample.started Sample.fleet = (.ok client, s) ∧
      Sample.server.claims Env.calm (client.fetch .bgp) { s.1 with tick := 3700000000000 } = none) ∧
    ∃ client s, Sample.started Sample.untenanted = (.ok client, s) ∧
      Sample.server.claims Env.calm (client.fetch .bgp) s.1 = none := by
  constructor
  · obtain ⟨client, s, hrun, htick⟩ := Sample.started_fleet
    obtain ⟨n, hn, t, hle, hlt, hissued⟩ := AgentStart.Identity.issued hrun
    obtain ⟨hid, htoken⟩ := hissued client .fresh
    refine ⟨client, s, hrun, ?_⟩
    rw [fetch_claims rfl hid htoken, if_neg]
    rintro ⟨-, hin⟩
    simp only [Env.calm, TokenService.expiry, Time.unix, Sample.server] at hin
    omega
  · obtain ⟨client, s, hrun⟩ := Sample.started_untenanted
    obtain ⟨n, hn, t, hle, hlt, hissued⟩ := AgentStart.Identity.issued hrun
    obtain ⟨hid, htoken⟩ := hissued client .fresh
    refine ⟨client, s, hrun, ?_⟩
    have htenants : ∀ n ∈ Sample.untenanted.nodes, ¬ n.tenantID.isSome := by decide
    rw [fetch_claims rfl hid htoken, if_neg]
    rintro ⟨htenant, -⟩
    exact htenants n hn htenant

end EdgeFabric
