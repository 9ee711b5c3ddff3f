/-
Enrollment after failed attempts. `CompleteEnrollment` creates the peer record of a node in
one store call and stores the node's address in a later one; between the two the token is
marked. When it fails in between, the next attempt finds the record, takes the node to
have its address, and succeeds without one (`enrolled_without_address`).

If no attempt fails once it has created the record, every attempt that succeeds leaves the
node with the address of its record (`enrollment_recovers`).
-/
import EdgeFabric.Provisioning.Enrollment

namespace EdgeFabric

/-- The address that is stored for the node is one of each peer record of it. -/
def Store.Settled (s : Store) (n : ID) : Prop :=
  ∀ peer ∈ s.peersOf .node n, ∃ row, s.nodes.find n = some row ∧ row.wireGuardIP ≠ "" ∧
    row.wireGuardIP ++ "/32" ∈ peer.allowedIPs

/-- The node is stored with an address, which is in its peer record and was returned. -/
structure Enrolled (s : Store) (n : ID) (ip : String) : Prop where
  node : ∃ row, s.nodes.find n = some row ∧ row.wireGuardIP = ip
  ne : ip ≠ ""
  peer : ∃ peer, peer ∈ s.peersOf .node n
  allowed : ∀ peer ∈ s.peersOf .node n, ip ++ "/32" ∈ peer.allowedIPs

theorem Enrolled.settled {s : Store} {n : ID} {ip : String} (h : Enrolled s n ip) : s.Settled n := by
  intro peer hpeer
  obtain ⟨row, hrow, rfl⟩ := h.node
  exact ⟨row, hrow, h.ne, h.allowed peer hpeer⟩

/-! ## What is allocated is an address -/

theorem allocateOverlayIP_ne_empty {subnet controllerAddr ip : String} {peers : List WireGuardPeer} {nodes : List Node}
    (h : allocateOverlayIP subnet controllerAddr peers nodes = .ok ip) : ip ≠ "" := by
  unfold allocateOverlayIP at h
  split at h
  · cases h
  · split at h
    · split at h
      · next cs hcs =>
        cases h
        obtain ⟨a, rfl, -⟩ := firstFree4_some hcs
        exact IP.ofList_text4_ne_empty a
      · cases h
    · unfold allocateOverlayIPv6 at h
      split at h
      · next cs hcs =>
        cases h
        obtain ⟨k, -, -, rfl, -⟩ := firstFree6_some hcs
        exact IP.ofList_text_ne_empty _
      · cases h

theorem allocateAddresses_ne_empty {cfg : WireGuardHub} {peers : List WireGuardPeer} {nodes : List Node} {ip : String}
    {ip6 : Option String} (h : allocateAddresses cfg peers nodes = .ok (ip, ip6)) : ip ≠ "" := by
  simp only [allocateAddresses, bind_ok, mapError_eq_ok] at h
  obtain ⟨a, ha, h⟩ := h
  have hne := allocateOverlayIP_ne_empty ha
  split at h
  · cases h
    exact hne
  · simp only [bind_ok, mapError_eq_ok] at h
    obtain ⟨b, -, h⟩ := h
    cases h
    exact hne

/-! ## One attempt -/

/-- The row of the node meets the constraints that are checked when it is written. -/
def Store.NodeValid (s : Store) (n : ID) : Prop :=
  ∀ row ∈ s.nodes.find n, requireRow? "update node" row.tenantID s.tenants = .ok () ∧
    requireRow? "update node" row.sshKeyID s.sshKeys = .ok () ∧
    requireUnique (fun _ => "insert capability") row.capabilities = .ok ()

/-- The token is for the node. If the node has no peer record, the two store calls after the one that creates it, which
is the sixth, do not fail if those before them do not: the token can be marked and the node written. -/
structure AttemptFor (v : Env) (n : ID) (tok : String) (w : World) : Prop where
  token : ∀ k ∈ w.store.enrollmentTokens, k.token = tok → k.targetID = n
  marks : w.store.peersOf .node n = [] → v.Answers w [0, 2, 3, 8, 9, 11] 12
  updates : w.store.peersOf .node n = [] → v.Answers w [0, 2, 3, 8, 9, 11] 13
  valid : w.store.peersOf .node n = [] → w.store.NodeValid n

section
variable {v : Env} {w : World} {p : Provisioner} {n : ID} {tok : String}

theorem createNodePeer_at {node : Node} (hnone : w.store.peersOf .node node.id = []) :
    EndsAt v w (createNodePeer p node)
      (fun node' w' => (∀ i ∈ [4, 5, 7], v.fault (w.tick + i) = none) ∧ w'.tick = w.tick + 8 ∧
        (∃ ip ip6, node' = { node with wireGuardIP := ip, wireGuardIPv6 := ip6 } ∧ ip ≠ "" ∧
          ∀ peer ∈ w'.store.peersOf .node node.id, ip ++ "/32" ∈ peer.allowedIPs) ∧
        (∃ peer, peer ∈ w'.store.peersOf .node node.id) ∧
        ∃ rows, w'.store = { w.store with wireGuardPeers := rows })
      fun _ w' => w'.store = w.store := by
  refine .bind (.mapError (EndsAt.ask (fun keys _ => ?_) fun _ _ => rfl))
  refine .bind (.mapError (EndsAt.ask (fun psk _ => ?_) fun _ _ => rfl))
  refine .bind (.mapError (EndsAt.ask (fun encPriv _ => ?_) fun _ _ => rfl))
  refine .bind (.mapError (EndsAt.ask (fun encPSK _ => ?_) fun _ _ => rfl))
  refine .bind (.mapError (EndsAt.readAs (fun peers hfault₄ _ => ?_) (fun _ _ => rfl) fun _ _ _ => rfl))
  refine .bind (.mapError (EndsAt.read (fun nodes hfault₅ _ => ?_) (fun _ _ => rfl) fun _ _ => rfl))
  refine .bind (.ofExcept (fun addresses halloc => ?_) fun _ _ => rfl)
  obtain ⟨ip, ip6⟩ := addresses
  refine .bind (EndsAt.newID ?_)
  refine .bind (.mapError (EndsAt.writeAs (fun peer s' hfault₇ hcreate => .pure ?_) (fun _ _ => rfl) fun _ _ => rfl))
  obtain ⟨hpeer, rows, hins, rfl⟩ := Store.createWireGuardPeer_ok hcreate
  have hmem : ∀ q, q ∈ Store.peersOf .node node.id { w.store with wireGuardPeers := rows } ↔ q = peer := by
    intro q
    have hold : q ∉ w.store.peersOf .node node.id := by
      rw [hnone]
      exact List.not_mem_nil
    simp only [Store.mem_peersOf] at hold ⊢
    rw [Table.mem_insert hins]
    constructor
    · rintro ⟨hq | rfl, howner⟩
      · exact absurd ⟨hq, howner⟩ hold
      · rfl
    · rintro rfl
      exact ⟨.inr rfl, by rw [hpeer]; exact ⟨rfl, rfl⟩⟩
  refine ⟨fun i hi => ?_, rfl, ⟨ip, _, rfl, allocateAddresses_ne_empty halloc, fun q hq => ?_⟩,
    ⟨peer, (hmem peer).mpr rfl⟩, rows, rfl⟩
  · simp only [List.mem_cons, List.not_mem_nil, or_false] at hi
    obtain rfl | rfl | rfl := hi
    exacts [hfault₄, hfault₅, hfault₇]
  · rw [(hmem q).mp hq, hpeer]
    exact List.mem_cons_self

/-- The token and the node are written; `node` is what the attempt has made of the node. -/
def finishEnrollment (token : EnrollmentToken) (node : Node) : M EnrollmentResult := do
  (write (Store.markEnrollmentTokenUsed token.id)).under "mark token used"
  let node ← (write (Store.updateNode { node with status := .online })).under "update node status"
  return { nodeID := node.id, tenantID := node.tenantID, wireGuardIP := node.wireGuardIP }

theorem finishEnrollment_ends {s : Store} (token : EnrollmentToken) (node : Node) (hid : node.id = n)
    (hne : node.wireGuardIP ≠ "") (hpeer : ∃ peer, peer ∈ s.peersOf .node n)
      (hallowed : ∀ peer ∈ s.peersOf .node n, node.wireGuardIP ++ "/32" ∈ peer.allowedIPs) :
    Ends v s (finishEnrollment token node) (fun r s' => Enrolled s' n r.wireGuardIP)
      fun _ s' => s'.nodes = s.nodes ∧ s'.wireGuardPeers = s.wireGuardPeers := by
  refine .bind (.mapError (Ends.write (fun t _ s₂ hmark => ?_) fun _ => ⟨rfl, rfl⟩))
  obtain ⟨-, _, rfl⟩ := Store.markEnrollmentTokenUsed_ok hmark
  refine .bind (.mapError (Ends.write (fun t' node'' s₃ hupdate => .pure ?_) fun _ => ⟨rfl, rfl⟩))
  obtain ⟨old, rows, -, hset, rfl, rfl⟩ := Store.updateNode_ok hupdate
  have hfind := Table.find_set_self hset
  dsimp only at hfind
  rw [hid] at hfind
  exact ⟨⟨_, hfind, rfl⟩, hne, hpeer, hallowed⟩

/-- Where the token can be marked and the node written, the last two store calls succeed. -/
theorem finishEnrollment_succeeds {token : EnrollmentToken} {row : Node} {ip ip6 : String}
    (hfault : v.fault w.tick = none) (hfault' : v.fault (w.tick + 1) = none) (htoken : token ∈ w.store.enrollmentTokens)
    (hunused : token.usedAt = none) (hrow : w.store.nodes.find n = some row) (hvalid : w.store.NodeValid n) :
    EndsAt v w (finishEnrollment token { row with wireGuardIP := ip, wireGuardIPv6 := ip6 }) (fun _ _ => True)
      fun _ _ => False := by
  obtain ⟨htenant, hkey, hcaps⟩ := hvalid row hrow
  obtain ⟨-, rfl⟩ := Table.find_eq_some.mp hrow
  refine .bind (.mapError (EndsAt.writeAs (fun _ s₂ _ hmark => ?_) (fun msg h => ?_) fun e he => ?_))
  · obtain ⟨-, _, rfl⟩ := Store.markEnrollmentTokenUsed_ok hmark
    refine .bind (.mapError (EndsAt.writeAs (fun _ _ _ _ => .pure trivial) (fun msg h => ?_) fun e he => ?_))
    · cases hfault'.symm.trans h
    · obtain ⟨rows, hrows⟩ := updateRow_found (t := w.store.nodes)
        (f := fun old => { row with
          wireGuardIP := ip, wireGuardIPv6 := ip6, status := .online, updatedAt := v.now (w.tick + 1)
          createdAt := old.createdAt, lastHeartbeat := old.lastHeartbeat
          lastConfigSync := old.lastConfigSync }) hrow rfl
      simp only [Store.updateNode, hrows, htenant, hkey, hcaps] at he
      cases he
  · cases hfault.symm.trans h
  · have hfind : w.store.enrollmentTokens.find token.id = some token := Table.find_eq_some.mpr ⟨htoken, rfl⟩
    simp only [Store.markEnrollmentTokenUsed, hfind, hunused, if_true] at he
    cases he

theorem validateEnrollmentToken_at :
    EndsAt v w (validateEnrollmentToken tok).1
      (fun token w' => v.fault w.tick = none ∧ w' = ⟨w.tick + 2, w.store⟩ ∧ token ∈ w.store.enrollmentTokens ∧
        token.token = tok ∧ token.usedAt = none)
      fun _ w' => w'.store = w.store := by
  refine .bind (.mapError (EndsAt.read (fun token hfault htoken => ?_) (fun _ _ => rfl) fun _ _ => rfl))
  obtain ⟨hmem, htext⟩ := Store.getEnrollmentToken_ok htoken
  dsimp only
  split
  · exact .fail rfl
  · next hunused =>
    refine .bind (EndsAt.ask (fun t _ => ?_) fun _ _ => rfl)
    dsimp only
    split
    · exact .fail rfl
    · exact .pure ⟨hfault, rfl, hmem, htext, by simpa using hunused⟩

theorem Store.Settled.same {s s' : Store} (hs : s.Settled n) (hnodes : s'.nodes = s.nodes)
    (hpeers : s'.wireGuardPeers = s.wireGuardPeers) : s'.Settled n := by
  unfold Store.Settled Store.peersOf
  rwa [hnodes, hpeers]

theorem AttemptFor.ends (h : AttemptFor v n tok w) (hs : w.store.Settled n) :
    EndsAt v w (completeEnrollment p tok) (fun r w' => Enrolled w'.store n r.wireGuardIP)
      fun _ w' => w'.store.Settled n := by
  refine .bind (validateEnrollmentToken_at.mono ?_ fun _ w' hw => hw ▸ hs)
  rintro token w' ⟨hfault₀, rfl, hmem, htext, hunused⟩
  refine .bind (.mapError (EndsAt.read (fun node hfault₂ hnode => ?_) (fun _ _ => hs) fun _ _ => hs))
  have hrow := selectRow_ok.mp hnode
  rw [h.token token hmem htext] at hrow
  obtain ⟨-, hid⟩ := Table.find_eq_some.mp hrow
  refine .bind (f := finishEnrollment token) (.bind (.attempt (EndsAt.readAs (fun peer _ hpeer => .pure ?_)
    (fun _ _ => .fail hs) fun e hfault₃ he => ?_)))
  · -- the node has a record: whatever fails, node and record stay
    replace hpeer := hid ▸ Store.getWireGuardPeerByOwner_ok hpeer
    obtain ⟨row, hrow', hne, -⟩ := hs peer hpeer
    obtain rfl := Option.some.inj (hrow.symm.trans hrow')
    have hallowed : ∀ peer' ∈ w.store.peersOf .node n, node.wireGuardIP ++ "/32" ∈ peer'.allowedIPs := by
      intro peer' hpeer'
      obtain ⟨row, hrow', -, hallowed⟩ := hs peer' hpeer'
      obtain rfl := Option.some.inj (hrow.symm.trans hrow')
      exact hallowed
    have hfinish := finishEnrollment_ends (v := v) token node hid hne ⟨peer, hpeer⟩ hallowed
    exact Ends.whole (w := ⟨w.tick + 4, w.store⟩) (hfinish.mono (fun _ _ h => h) fun _ _ h => hs.same h.1 h.2)
  · have hnone := hid ▸ Store.getWireGuardPeerByOwner_error he
    have hnone' : w.store.peersOf .node node.id = [] := hid.symm ▸ hnone
    cases e with
    | notFound =>
      refine (createNodePeer_at (w := ⟨w.tick + 4, w.store⟩) hnone').mono ?_ fun _ w' hw => hw ▸ hs
      rintro node' ⟨tick, s'⟩ ⟨hfaults, rfl, ⟨ip, ip6, rfl, hne, hallowed⟩, hpeer, rows, rfl⟩
      rw [hid] at hpeer hallowed
      have hbefore : ∀ i ∈ [0, 2, 3, 8, 9, 11], v.fault (w.tick + i) = none := by
        simp only [List.mem_cons, List.not_mem_nil, or_false, forall_eq_or_imp, forall_eq] at hfaults ⊢
        exact ⟨hfault₀, hfault₂, hfault₃, hfaults⟩
      have hends := Ends.whole (v := v) (w := ⟨w.tick + 12, { w.store with wireGuardPeers := rows }⟩)
        (finishEnrollment_ends token { node with wireGuardIP := ip, wireGuardIPv6 := ip6 } hid hne hpeer hallowed)
      refine (hends.and (finishEnrollment_succeeds (h.marks hnone hbefore) (h.updates hnone hbefore) hmem hunused hrow
        (h.valid hnone))).mono (fun _ _ h => h.1) fun _ _ h => h.2.elim
    | _ => exact .fail hs

end

/-- In every sequence of attempts to enroll a node, each with a token for it, of which none
fails once it has created a peer record: after each one that succeeds the node is stored
with the address returned, which is in its peer record. -/
theorem enrollment_recovers (p : Provisioner) (v : Env) (n : ID) (toks : List String) (w : World)
    (hs : w.store.Settled n) (h : Session.Along (completeEnrollment p) v (AttemptFor v n) toks w) :
    ∀ x ∈ Session.run (completeEnrollment p) v toks w, ∀ r, x.answer = .ok r →
      Enrolled x.after.store n r.wireGuardIP := by
  refine Session.run_forall (I := fun w => w.store.Settled n)
    (P := fun x => ∀ r, x.answer = .ok r → Enrolled x.after.store n r.wireGuardIP)
    (fun tok w hs hok => ?_) (fun tok w hs hok r hr => ?_) hs h
  · exact Prog.Ensures.exec_view (I := fun w' : World => w'.store.Settled n)
      ((hok.ends hs).mono (fun _ _ h => h.settled) fun _ _ h => h) rfl
  · exact (hok.ends hs).ok rfl (Prod.ext hr rfl)

theorem Sample.fleet_settled : Sample.fleet.Settled 10 := by
  intro peer hpeer
  exact absurd hpeer (by decide +revert)

theorem Sample.first_answer :
    ((completeEnrollment Sample.provisioner "first").exec Env.calm ⟨0, Sample.fleet⟩).1 =
      .ok ⟨10, some 100, "10.100.0.2"⟩ := by
  decide

/-- A node is enrolled with the first token it presents. -/
theorem enrollment_recovers_first :
    Enrolled ((completeEnrollment Sample.provisioner "first").exec Env.calm ⟨0, Sample.fleet⟩).2.store 10
      "10.100.0.2" := by
  -- for every world, so that none is computed
  have hfirst : ∀ (w : World) (r : EnrollmentResult), w.store.Settled 10 → AttemptFor Env.calm 10 "first" w →
      ((completeEnrollment Sample.provisioner "first").exec Env.calm w).1 = .ok r →
      Enrolled ((completeEnrollment Sample.provisioner "first").exec Env.calm w).2.store 10 r.wireGuardIP :=
    fun w r hs hok hr => enrollment_recovers _ _ 10 ["first"] w hs ⟨hok, trivial⟩ (Session.exchange _ _ "first" w)
      List.mem_cons_self r hr
  have htarget : ∀ k ∈ Sample.fleet.enrollmentTokens, k.token = "first" → k.targetID = 10 := by decide
  have hvalid : Sample.fleet.NodeValid 10 := by
    intro row hrow
    obtain rfl := Option.some.inj (hrow.symm.trans (show Sample.fleet.nodes.find 10 = some (Sample.node 10 100) by rfl))
    decide
  exact hfirst _ _ Sample.fleet_settled ⟨htarget, fun _ _ => rfl, fun _ _ => rfl, fun _ => hvalid⟩ Sample.first_answer

/-- The call that marks the token fails. With the same token the next attempt succeeds, and
the node has no address. -/
theorem enrolled_without_address :
    let v := { Env.calm with fault := fun t => if t = 12 then some "disk I/O error" else none }
    Sample.fleet.Settled 10 ∧
    (Session.run (completeEnrollment Sample.provisioner) v ["first", "first"] ⟨0, Sample.fleet⟩).map (fun x =>
        (x.answer.toOption.map EnrollmentResult.wireGuardIP, (x.after.store.nodes.find 10).map Node.wireGuardIP,
          (x.after.store.peersOf .node 10).map WireGuardPeer.allowedIPs)) =
      [(none, some "", [["10.100.0.2/32"]]), (some "", some "", [["10.100.0.2/32"]])] :=
  ⟨Sample.fleet_settled, by decide⟩

end EdgeFabric
