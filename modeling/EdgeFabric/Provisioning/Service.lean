/-
The provisioning service as the API calls it (`internal/provisioning/service.go`).
None of its calls changes a user or an API key.
-/
import EdgeFabric.Provisioning.Walk

namespace EdgeFabric

theorem accounts_pipelineWrites : PipelineWrites (Keeps Store.accounts) fun _ => True :=
  keeps_pipelineWrites (fun _ _ => rfl) (fun _ _ _ => rfl) fun _ _ => rfl

theorem startAction_accounts (nodeID initiatedBy : ID) (action : ProvisioningAction) :
    Keeps Store.accounts (startAction nodeID initiatedBy action) fun _ => True := by
  have hF : Walk (Keeps Store.accounts) := keeps_walk
  refine hF.bind (hF.reads _) fun _ _ => hF.bind (hF.reads _) fun _ _ => hF.bind (hF.reads _) fun _ _ =>
    hF.bind (hF.under (keeps_writeAs fun t s a s' h => ?_)) fun _ _ => hF.pure trivial
  obtain ⟨_, _, _, rfl⟩ := Store.createProvisioningJob_ok h
  rfl

theorem runPipeline_accounts (p : Provisioner) (job : ProvisioningJob) (node : Node) (steps : List ProvisioningStep) :
    Keeps Store.accounts (runPipeline p job node steps) fun _ => True := by
  refine keeps_walk.runPipeline accounts_pipelineWrites (fun job => keeps_writeAs fun t s a s' h => ?_)
    (fun _ node _ => createNodePeer_keeps (fun _ _ => rfl) p node) trivial
  obtain ⟨_, _, _, _, rfl⟩ := Store.updateProvisioningJob_ok h
  rfl

theorem completeEnrollment_accounts (p : Provisioner) (tokenStr : String) :
    Keeps Store.accounts (completeEnrollment p tokenStr) fun _ => True := by
  have hF : Walk (Keeps Store.accounts) := keeps_walk
  refine hF.completeEnrollment accounts_pipelineWrites (hF.reads _) (fun _ _ => hF.reads _)
    (fun token _ => keeps_writeAs fun t s a s' h => ?_) fun node _ => createNodePeer_keeps (fun _ _ => rfl) p node
  obtain ⟨_, _, rfl⟩ := Store.markEnrollmentTokenUsed_ok h
  rfl

section
variable {v : Env} {s : Store}

theorem createNodePeer_same (p : Provisioner) (node : Node) :
    Ends v s (createNodePeer p node) (fun n _ => n.id = node.id ∧ n.tenantID = node.tenantID) fun _ _ => True :=
  .bind_any fun _ _ => .bind_any fun _ _ => .bind_any fun _ _ => .bind_any fun _ _ => .bind_any fun _ _ =>
    .bind_any fun _ _ => .bind_any fun _ _ => .bind_any fun _ _ => .bind_any fun _ _ => .pure ⟨rfl, rfl⟩

theorem ensureNodePeer_same (p : Provisioner) (node : Node) :
    Ends v s (ensureNodePeer p node) (fun n _ => n.id = node.id ∧ n.tenantID = node.tenantID) fun _ _ => True := by
  refine .bind_any fun found s' => ?_
  rcases found with e | peer
  · cases e with
    | notFound => exact createNodePeer_same p node
    | _ => exact .fail trivial
  · exact .pure ⟨rfl, rfl⟩

/-- A stored enrollment token with that text is for the node. -/
def Store.EnrollmentFor (s : Store) (text : String) (nodeID : ID) : Prop :=
  ∃ k ∈ s.enrollmentTokens, k.token = text ∧ k.targetID = nodeID

theorem completeEnrollment_node (p : Provisioner) (tokenStr : String) :
    Ends v s (completeEnrollment p tokenStr)
      (fun r _ => ∃ n ∈ s.nodes, s.EnrollmentFor tokenStr n.id ∧ r.nodeID = n.id ∧ r.tenantID = n.tenantID)
      fun _ _ => True := by
  refine .bind ((validateEnrollmentToken_ends tokenStr).mono (fun token s' h => ?_) fun _ _ _ => trivial)
  obtain ⟨rfl, htoken, htext⟩ := h
  have hfor : Store.EnrollmentFor _ tokenStr token.targetID := ⟨token, htoken, htext, rfl⟩
  refine .bind (.mapError (Ends.read (fun node hnode => ?_) fun _ => trivial))
  obtain ⟨hmem, hid⟩ := Store.getNode_ok hnode
  refine .bind ((ensureNodePeer_same p node).mono (fun node' s' hsame => ?_) fun _ _ _ => trivial)
  refine .bind_any fun _ s'' => .bind (.mapError (Ends.write (fun t n s₁ h => ?_) fun _ => trivial))
  obtain ⟨_, _, _, _, rfl, _⟩ := Store.updateNode_ok h
  exact .pure ⟨node, hmem, hid ▸ hfor, hsame⟩

end

/-- A program that keeps the accounts, as a service call. -/
def Keeps.service {α : Type} {p : M α} {R : α → Prop} (h : Keeps Store.accounts p R) : Service α :=
  ⟨p, (h ()).within.mono fun _ _ _ hs => ⟨trivial, hs⟩⟩

namespace ProvisioningService

/-- `EnrollNode`, `StartNode` and so on, up to the start of the background pipeline. -/
def startAction (nodeID initiatedBy : ID) (action : ProvisioningAction) : Service (ProvisioningJob × Node) :=
  (startAction_accounts nodeID initiatedBy action).service

def runPipeline (p : Provisioner) (job : ProvisioningJob) (node : Node) (steps : List ProvisioningStep) :
    Service ProvisioningJob :=
  (runPipeline_accounts p job node steps).service

def getJob (id : ID) : Reads ProvisioningJob := read (Store.getProvisioningJob id)

def listJobs (nodeID : Option ID) (p : ListParams) : Reads (List ProvisioningJob × Nat) :=
  read (Store.listProvisioningJobs nodeID p)

def generateEnrollmentToken (tenantID targetID : ID) : Service EnrollmentToken :=
  (generateEnrollmentToken_keeps (fun _ _ _ => rfl) tenantID targetID).service

def completeEnrollment (p : Provisioner) (tokenStr : String) : Service EnrollmentResult :=
  (completeEnrollment_accounts p tokenStr).service

end ProvisioningService

end EdgeFabric
