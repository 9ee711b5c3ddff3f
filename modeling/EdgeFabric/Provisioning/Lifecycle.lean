/-
Decommissioned as the last status of a node. The transition table refuses every action
on a decommissioned node, but three other calls write the status column without asking
it: a heartbeat and an enrollment set `online`, and an update sets what it is told
(`heartbeat_revives`).

If none of these is aimed at the node, it stays decommissioned, whatever other
operations run and however they interleave (`decommissioned_terminal`).
-/
import EdgeFabric.Provisioning.Walk
import EdgeFabric.Fleet
import Mathlib.Tactic.FinCases

namespace EdgeFabric

inductive NodeCall where
  | heartbeat (id : ID)
  | enrollment (tokenStr : String)
  | update (id : ID) (req : FleetService.UpdateNodeRequest)
  deriving DecidableEq, Repr

def NodeCall.run (p : Provisioner) : NodeCall → M Unit
  | .heartbeat id => FleetService.recordNodeHeartbeat id
  | .enrollment tokenStr => do let _ ← completeEnrollment p tokenStr
  | .update id req => do let _ ← FleetService.updateNode id req

/-- What can change the status of a node: such a call, or a provisioning action with its
pipeline. -/
inductive NodeOperation where
  | call (c : NodeCall)
  | provisioning (action : ProvisioningAction) (nodeID initiatedBy : ID)
  deriving DecidableEq, Repr

def NodeOperation.run (p : Provisioner) : NodeOperation → M Unit
  | .call c => c.run p
  | .provisioning action nodeID initiatedBy => do let _ ← provision p nodeID initiatedBy action

def nodeOperations {ι : Type} (p : Provisioner) (ops : ι → NodeOperation) (w : World) :
    Sys ι Call Env World Err Unit :=
  { state := w, procs := fun i => (ops i).run p }

def Store.nodeStatus (s : Store) (n : ID) : Option NodeStatus := (s.nodes.find n).map Node.status

/-- None of the operations is a heartbeat of the node, an update that gives it another status, or
presents an enrollment token that was made out for it. -/
structure LeavesRetired {ι : Type} (n : ID) (ops : ι → NodeOperation) (s : Store) : Prop where
  heartbeat : ∀ i, ops i ≠ .call (.heartbeat n)
  update : ∀ i req status, ops i = .call (.update n req) → req.status = some status → status = .decommissioned
  enrollment : ∀ i tok, ops i = .call (.enrollment tok) → ∀ k ∈ s.enrollmentTokens, k.token = tok → k.targetID ≠ n

/-! ## What keeps a node decommissioned -/

/-- The node is decommissioned, and no token in `presented` is for it. -/
structure Retired (n : ID) (presented : String → Prop) (s : Store) : Prop where
  status : s.nodeStatus n = some .decommissioned
  tokens : ∀ k ∈ s.enrollmentTokens, presented k.token → k.targetID ≠ n

/-- Every step keeps the node decommissioned. -/
abbrev KeepsRetired (n : ID) (presented : String → Prop) {α : Type} (p : M α) (R : α → Prop) : Prop :=
  ∀ q : Unit, p.Follows (fun _ _ _ _ w' _ => Retired n presented w'.store) (fun _ w => Retired n presented w.store)
    (fun _ r => ∀ a, r = .ok a → R a) q

section
variable {n : ID} {presented : String → Prop} {α : Type}

theorem keepsRetired_walk : Walk (KeepsRetired n presented) := walk_follows fun q _ _ _ _ _ hI hs => ⟨q, hs ▸ hI⟩

theorem keepsRetired_writeAs {c : Call} {f : Time → Store → Except Err (α × Store)} {R : α → Prop}
    (hf : ∀ t s a s', Retired n presented s → f t s = .ok (a, s') → Retired n presented s' ∧ R a) :
    KeepsRetired n presented (writeAs c f) R := fun q =>
  follows_writeAs
    (fun v w a s' hI h => ⟨q, (hf _ _ _ _ hI h).1, fun a' ha' => by cases ha'; exact (hf _ _ _ _ hI h).2⟩)
    fun v w e hI _ => ⟨q, hI, fun _ h => by cases h⟩

theorem keepsRetired_other {c : Call} {f : Time → Store → Except Err (α × Store)}
    (hf : ∀ t s a s', f t s = .ok (a, s') → s'.nodes = s.nodes ∧ s'.enrollmentTokens = s.enrollmentTokens) :
    KeepsRetired n presented (writeAs c f) fun _ => True := by
  refine keepsRetired_writeAs fun t s a s' hs h => ⟨?_, trivial⟩
  obtain ⟨hnodes, htokens⟩ := hf t s a s' h
  exact ⟨by rw [Store.nodeStatus, hnodes]; exact hs.status, by rw [htokens]; exact hs.tokens⟩

theorem Retired.set {s : Store} {m : Node} {nodes : Table Node.id} (h : Retired n presented s)
    (hset : s.nodes.set m = some nodes) (hm : m.id = n → m.status = .decommissioned) :
    Retired n presented { s with nodes } := by
  refine ⟨?_, h.tokens⟩
  rw [Store.nodeStatus]
  by_cases hid : m.id = n
  · rw [← hid, Table.find_set_self hset, Option.map_some, hm hid]
  · rw [Table.find_set_of_ne hset (Ne.symm hid)]
    exact h.status

theorem updateNode_keepsRetired {m : Node} (hm : m.id = n → m.status = .decommissioned) :
    KeepsRetired n presented (write (Store.updateNode m)) fun m' => m'.id = m.id := by
  refine keepsRetired_writeAs fun t s a s' hs h => ?_
  obtain ⟨old, nodes, _, hset, rfl, rfl⟩ := Store.updateNode_ok h
  exact ⟨hs.set hset hm, rfl⟩

theorem generateEnrollmentToken_keepsRetired (tenantID : ID) {targetID : ID} (h : targetID ≠ n) :
    KeepsRetired n presented (generateEnrollmentToken tenantID targetID) fun _ => True := by
  refine keepsRetired_walk.enrollmentToken fun token htarget => keepsRetired_writeAs fun t s a s' hs h' => ⟨?_, trivial⟩
  obtain ⟨rfl, tokens, htexts, hins, rfl⟩ := Store.createEnrollmentToken_ok h'
  refine ⟨hs.status, fun k hk hpres => ?_⟩
  rcases (Table.mem_insert hins).mp hk with hk | rfl
  · exact hs.tokens k hk hpres
  · exact htarget ▸ h

theorem deleteNodePeer_keepsRetired (nodeID : ID) : KeepsRetired n presented (deleteNodePeer nodeID) fun _ => True := by
  refine keepsRetired_walk.peerDeletion fun id => keepsRetired_other fun t s a s' h => ?_
  obtain ⟨_, _, rfl⟩ := Store.deleteWireGuardPeer_ok h
  exact ⟨rfl, rfl⟩

theorem createNodePeer_keepsRetired (p : Provisioner) {node : Node} (hid : node.id ≠ n) :
    KeepsRetired n presented (createNodePeer p node) fun node' => node'.id ≠ n := by
  refine keepsRetired_walk.peerCreation (fun peer _ _ => keepsRetired_other fun t s a s' h => ?_) fun _ _ => hid
  obtain ⟨_, _, _, rfl⟩ := Store.createWireGuardPeer_ok h
  exact ⟨rfl, rfl⟩

theorem keepsRetired_pipelineWrites : PipelineWrites (KeepsRetired n presented) fun node => node.id ≠ n where
  status _ hid := hid
  node hid := keepsRetired_walk.mono (updateNode_keepsRetired fun h => absurd h hid) fun _ h => h ▸ hid
  token hid := generateEnrollmentToken_keepsRetired _ hid
  peer _ := deleteNodePeer_keepsRetired _

theorem getNode_keepsRetired (id : ID) :
    KeepsRetired n presented (read (Store.getNode id)).1 fun node => node.id = id ∧
      (id = n → node.status = .decommissioned) := by
  intro q
  refine follows_read (fun v w node hI h => ⟨q, hI, fun node' h' => ?_⟩) fun v w e hI => ⟨q, hI, fun _ h => by cases h⟩
  cases h'
  refine ⟨(Store.getNode_ok h).2, ?_⟩
  rintro rfl
  have hstatus := hI.status
  rw [Store.nodeStatus, selectRow_ok.mp h] at hstatus
  exact Option.some.inj hstatus

theorem isValidTransition_decommissioned (action : ProvisioningAction) :
    isValidTransition action .decommissioned = false := by
  cases action <;> decide

theorem provision_keepsRetired (p : Provisioner) (nodeID initiatedBy : ID) (action : ProvisioningAction) :
    KeepsRetired n presented (provision p nodeID initiatedBy action) fun _ => True := by
  have hF : Walk (KeepsRetired n presented) := keepsRetired_walk
  refine hF.bind (R := fun x => x.2.id ≠ n) ?_ fun started hid => ?_
  · refine hF.bind (hF.under (getNode_keepsRetired nodeID)) fun node hnode => ?_
    refine hF.bind (R := fun _ => node.id ≠ n) ?_ fun _ hid => hF.bind (hF.reads _) fun id _ =>
      hF.bind (hF.under (keepsRetired_other fun t s a s' h => ?_)) fun _ _ => hF.pure hid
    · by_cases hid : nodeID = n
      · rw [checkAction, if_neg (by rw [hnode.2 hid, isValidTransition_decommissioned]; exact Bool.false_ne_true)]
        exact hF.fail
      · exact hF.mono (hF.reads _) fun _ _ => hnode.1 ▸ hid
    · obtain ⟨_, _, _, rfl⟩ := Store.createProvisioningJob_ok h
      exact ⟨rfl, rfl⟩
  · refine hF.runPipeline keepsRetired_pipelineWrites (fun job => keepsRetired_other fun t s a s' h => ?_)
      (fun _ node hid => createNodePeer_keepsRetired p hid) hid
    obtain ⟨_, _, _, _, rfl⟩ := Store.updateProvisioningJob_ok h
    exact ⟨rfl, rfl⟩

theorem completeEnrollment_keepsRetired (p : Provisioner) {tok : String} (htok : presented tok) :
    KeepsRetired n presented (completeEnrollment p tok) fun _ => True := by
  have hF : Walk (KeepsRetired n presented) := keepsRetired_walk
  refine hF.completeEnrollment (K := fun token => token.targetID ≠ n) keepsRetired_pipelineWrites ?_ ?_ ?_
    fun node hid => createNodePeer_keepsRetired p hid
  · intro q
    refine follows_read (fun v w token hI h => ⟨q, hI, fun token' h' => ?_⟩) fun v w e hI =>
      ⟨q, hI, fun _ h => by cases h⟩
    cases h'
    obtain ⟨hmem, htext⟩ := Store.getEnrollmentToken_ok h
    exact hI.tokens token hmem (htext ▸ htok)
  · exact fun token htarget => hF.mono (getNode_keepsRetired _) fun node hnode => hnode.1 ▸ htarget
  · refine fun token _ => keepsRetired_writeAs fun t s a s' hs h => ⟨?_, trivial⟩
    obtain ⟨_, htexts, rfl⟩ := Store.markEnrollmentTokenUsed_ok h
    refine ⟨hs.status, fun k hk hpres => ?_⟩
    simp only [Table.mem_map] at hk
    obtain ⟨k', hk', rfl⟩ := hk
    by_cases hid : k'.id = token.id
    · rw [if_pos hid] at hpres ⊢
      exact hs.tokens k' hk' hpres
    · rw [if_neg hid] at hpres ⊢
      exact hs.tokens k' hk' hpres

theorem fleetUpdateNode_keepsRetired {id : ID} {req : FleetService.UpdateNodeRequest}
    (hreq : id = n → ∀ status, req.status = some status → status = .decommissioned) :
    KeepsRetired n presented (FleetService.updateNode id req).1 fun _ => True := by
  have hF : Walk (KeepsRetired n presented) := keepsRetired_walk
  refine hF.bind (getNode_keepsRetired id) fun node hnode => ?_
  have hrow : (req.apply node).id = n → (req.apply node).status = .decommissioned := by
    intro hid
    have hn : id = n := hnode.1.symm.trans hid
    cases hstatus : req.status with
    | none => simpa [FleetService.UpdateNodeRequest.apply, hstatus] using hnode.2 hn
    | some status => simpa [FleetService.UpdateNodeRequest.apply, hstatus] using hreq hn status hstatus
  have hwrite : KeepsRetired n presented (write (Store.updateNode (req.apply node))) fun _ => True :=
    hF.mono (updateNode_keepsRetired hrow) fun _ _ => trivial
  exact hF.under hwrite

theorem NodeOperation.run_keepsRetired {ι : Type} {ops : ι → NodeOperation} {s : Store} (h : LeavesRetired n ops s)
    (p : Provisioner) (i : ι) :
    KeepsRetired n (fun tok => ∃ j, ops j = .call (.enrollment tok)) ((ops i).run p) fun _ => True := by
  have hF : Walk (KeepsRetired n fun tok => ∃ j, ops j = .call (.enrollment tok)) := keepsRetired_walk
  rcases hop : ops i with (id | tok | ⟨id, req⟩) | ⟨action, nodeID, initiatedBy⟩
  · refine keepsRetired_writeAs fun t s a s' hs hok => ⟨?_, trivial⟩
    obtain ⟨_, old, nodes, hold, hset, rfl⟩ := updateIn_ok hok
    refine hs.set hset fun hid => ?_
    have : id = n := (Table.find_eq_some.mp hold).2.symm.trans hid
    exact absurd (this ▸ hop) (h.heartbeat i)
  · exact hF.bind (completeEnrollment_keepsRetired p ⟨i, hop⟩) fun _ _ => hF.pure trivial
  · refine hF.bind (fleetUpdateNode_keepsRetired fun hid status hstatus => ?_) fun _ _ => hF.pure trivial
    exact h.update i req status (hid ▸ hop) hstatus
  · exact hF.bind (provision_keepsRetired p _ _ _) fun _ _ => hF.pure trivial

end

/-- A node that is decommissioned stays so in every state that an interleaving of
heartbeats, enrollments, updates and provisioning actions reaches, if none of the first
three is aimed at its status. -/
theorem decommissioned_terminal {ι : Type} [DecidableEq ι] (p : Provisioner) (v : Env) (n : ID)
    (ops : ι → NodeOperation) (w : World) (sched : List ι) (hstatus : w.store.nodeStatus n = some .decommissioned)
    (hops : LeavesRetired n ops w.store) :
    ((nodeOperations p ops w).run v sched).state.store.nodeStatus n = some .decommissioned := by
  let presented : String → Prop := fun tok => ∃ j, ops j = .call (.enrollment tok)
  have hphased : (nodeOperations p ops w).Phased (fun _ (_ : Unit) _ _ _ w' _ => Retired n presented w'.store)
      (fun _ w => Retired n presented w.store) (fun _ _ r => ∀ a, r = .ok a → True) fun _ => () :=
    fun i => NodeOperation.run_keepsRetired hops p i ()
  have hinit : Retired n presented w.store :=
    ⟨hstatus, fun k hk ⟨j, hj⟩ => hops.enrollment j k.token hj k hk rfl⟩
  obtain ⟨_, _, hfinal⟩ := (Sys.reach_run v sched (nodeOperations p ops w)).phases
    (J := fun c _ => Retired n presented c.state.store) (fun _ _ h => h)
    (fun c q i l act next q' _ _ _ hp hT => by rw [Sys.step_of_step hp]; exact hT) hphased hinit
  exact hfinal.status

namespace Sample

def retiredFleet : Store :=
  { fleet with nodes := ⟨[{ node 10 100 with status := .decommissioned }, node 11 100], by decide⟩ }

def otherOperations : Fin 4 → NodeOperation
  | 0 => .call (.heartbeat 11)
  | 1 => .call (.enrollment "second")
  | 2 => .call (.update 10 { name := some "attic" })
  | 3 => .provisioning .restart 10 1

theorem otherOperations_leave : LeavesRetired 10 otherOperations retiredFleet := by
  refine ⟨by decide, fun i req status h hs => ?_, fun i tok h => ?_⟩
  · fin_cases i <;> cases h
    cases hs
  · fin_cases i <;> cases h
    decide

end Sample

theorem decommissioned_terminal_others :
    ((nodeOperations Sample.provisioner Sample.otherOperations ⟨0, Sample.retiredFleet⟩).run Env.calm
      [3, 0, 2, 1, 1, 2, 3, 1, 1]).state.store.nodeStatus 10 = some .decommissioned :=
  decommissioned_terminal _ _ 10 _ _ _ (by decide) Sample.otherOperations_leave

/-- One heartbeat, or the enrollment token that was never used, brings the node back. -/
theorem heartbeat_revives :
    let after := fun (c : NodeCall) (steps : Nat) =>
      ((nodeOperations Sample.provisioner (fun _ : Unit => .call c) ⟨0, Sample.retiredFleet⟩).run Env.calm
        (List.replicate steps ())).state.store.nodeStatus 10
    Sample.retiredFleet.nodeStatus 10 = some .decommissioned ∧
      after (.heartbeat 10) 1 = some .online ∧ after (.enrollment "first") 14 = some .online := by
  decide

end EdgeFabric
