/-
The provisioning operations that can run at the same time: the pipelines of every
action, and the enrollment calls of node agents. What all of them have in common
is proved once, by the way the programs are put together (`ProgramClass`): which
steps touch the peer records, and what such a step does to them.
-/
import EdgeFabric.Provisioning.Walk
import EdgeFabric.Lib.Interleave

namespace EdgeFabric

inductive Operation where
  | pipeline (action : ProvisioningAction) (nodeID initiatedBy : ID)
  | enrollment (tokenStr : String)
  deriving DecidableEq, Repr

def Operation.run (p : Provisioner) : Operation → M (Option ProvisioningJob)
  | .pipeline action nodeID initiatedBy => do return some (← provision p nodeID initiatedBy action)
  | .enrollment tokenStr => do
    let _ ← completeEnrollment p tokenStr
    return none

def operations {ι : Type} (p : Provisioner) (ops : ι → Operation) (w : World) :
    Sys ι Call Env World Err (Option ProvisioningJob) :=
  { state := w, procs := fun i => (ops i).run p }

/-- The status of the job with which pipeline `i` has ended. -/
def jobStatus {ι : Type} (c : Sys ι Call Env World Err (Option ProvisioningJob)) (i : ι) : Option ProvisioningStatus :=
  match c.result i with
  | some (.ok (some job)) => some job.status
  | _ => none

/-! ## Classes of programs -/

/-- A property of programs that programs which leave the peer records alone have. -/
structure ProgramClass (F : ∀ {α : Type}, M α → (α → Prop) → Prop) : Prop extends Walk F where
  write : ∀ {α : Type} {f : Time → Store → Except Err (α × Store)},
    (∀ t s a s', f t s = .ok (a, s') → s'.wireGuardPeers = s.wireGuardPeers) → F (write f) fun _ => True

namespace ProgramClass
variable {F : ∀ {α : Type}, M α → (α → Prop) → Prop} (hF : ProgramClass F)
include hF

theorem updateNode (n : Node) : F (EdgeFabric.write (Store.updateNode n)) fun _ => True := by
  refine hF.write fun t s a s' h => ?_
  obtain ⟨_, _, _, _, _, rfl⟩ := Store.updateNode_ok h
  rfl

theorem updateProvisioningJob (j : ProvisioningJob) :
    F (EdgeFabric.write (Store.updateProvisioningJob j)) fun _ => True := by
  refine hF.write fun t s a s' h => ?_
  obtain ⟨_, _, _, _, rfl⟩ := Store.updateProvisioningJob_ok h
  rfl

theorem generateEnrollmentToken (tenantID targetID : ID) :
    F (generateEnrollmentToken tenantID targetID) fun _ => True := by
  refine hF.enrollmentToken fun token _ => hF.write fun t s a s' h => ?_
  obtain ⟨_, _, _, _, rfl⟩ := Store.createEnrollmentToken_ok h
  rfl

theorem markEnrollmentTokenUsed (id : ID) : F (EdgeFabric.write (Store.markEnrollmentTokenUsed id)) fun _ => True := by
  refine hF.write fun t s a s' h => ?_
  obtain ⟨_, _, rfl⟩ := Store.markEnrollmentTokenUsed_ok h
  rfl

theorem startAction (nodeID initiatedBy : ID) (action : ProvisioningAction) :
    F (startAction nodeID initiatedBy action) fun _ => True := by
  refine hF.bind (hF.reads _) fun _ _ => hF.bind (hF.reads _) fun _ _ => hF.bind (hF.reads _) fun _ _ =>
    hF.bind (hF.under (hF.write fun t s a s' h => ?_)) fun _ _ => hF.pure trivial
  obtain ⟨_, _, _, rfl⟩ := Store.createProvisioningJob_ok h
  rfl

variable (hdelete : ∀ nodeID, F (deleteNodePeer nodeID) fun _ => True)
include hdelete

theorem pipelineWrites : PipelineWrites F fun _ => True where
  status _ _ := trivial
  node _ := hF.updateNode _
  token _ := hF.generateEnrollmentToken _ _
  peer _ := hdelete _

theorem operation {p : Provisioner} (hcreate : ∀ node, F (createNodePeer p node) fun _ => True) (op : Operation) :
    F (op.run p) fun _ => True := by
  have hw := hF.pipelineWrites hdelete
  cases op with
  | pipeline action nodeID initiatedBy =>
    exact hF.bind (hF.bind (hF.startAction _ _ _) fun started _ =>
      hF.runPipeline hw hF.updateProvisioningJob (fun _ node _ => hcreate node) trivial) fun _ _ => hF.pure trivial
  | enrollment tokenStr =>
    exact hF.bind (hF.completeEnrollment hw (hF.reads _) (fun _ _ => hF.reads _)
      (fun _ _ => hF.markEnrollmentTokenUsed _) fun node _ => hcreate node) fun _ _ => hF.pure trivial

end ProgramClass

/-! ## Steps on the peer records -/

/-- What a step can do to the peer records: nothing, add one for the node it is made
for, or remove one. -/
def PeerStep (c : Call) (w w' : World) : Prop :=
  w'.store.wireGuardPeers = w.store.wireGuardPeers ∨
  (∃ peer : WireGuardPeer, peer.ownerType = .node ∧ c = .createWireGuardPeer peer.ownerID ∧
    w.store.wireGuardPeers.insert peer = some w'.store.wireGuardPeers) ∨
  (∃ id, w.store.wireGuardPeers.erase id = some w'.store.wireGuardPeers)

section
variable {c : Call} {w w' : World} {n : ID}

theorem PeerStep.sublist (h : PeerStep c w w') (hc : c ≠ .createWireGuardPeer n) :
    (w'.store.peersOf .node n).Sublist (w.store.peersOf .node n) := by
  obtain hs | ⟨peer, _, hcreate, hins⟩ | ⟨id, herase⟩ := h
  · rw [Store.peersOf_congr hs]
  · rw [Store.peersOf_insert hins, if_neg fun ho : peer.ownerType = .node ∧ peer.ownerID = n => hc (ho.2 ▸ hcreate),
      List.append_nil]
  · refine Store.peersOf_sublist ?_ .node n
    rw [(Table.erase_eq_some herase).2]
    exact List.filter_sublist

theorem PeerStep.length_le (h : PeerStep c w w') :
    (w'.store.peersOf .node n).length ≤ (w.store.peersOf .node n).length + 1 := by
  by_cases hc : c = .createWireGuardPeer n
  · obtain hs | ⟨peer, _, _, hins⟩ | ⟨id, herase⟩ := h
    · rw [Store.peersOf_congr hs]; omega
    · rw [Store.peersOf_insert hins]
      split <;> simp
    · refine (Store.peersOf_sublist ?_ .node n).length_le.trans (Nat.le_succ _)
      rw [(Table.erase_eq_some herase).2]
      exact List.filter_sublist
  · exact (h.sublist hc).length_le.trans (Nat.le_succ _)

end

end EdgeFabric
