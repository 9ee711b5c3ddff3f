/-
What a running pipeline writes back. `runPipeline` keeps the node as it was when the
action started and writes the whole row at several points, so that a change which
another call committed in between is lost (`pipeline_reverts_rename`).

If the row, whenever the pipeline writes it, still has the name, tenant, region and
overlay address of the pipeline's copy, then these columns hold what was last
committed by the other calls (`pipeline_reverts_nothing`).
-/
import EdgeFabric.Provisioning.Lifecycle

namespace EdgeFabric

/-- The actions whose pipelines assign an overlay address. -/
def ProvisioningAction.assignsOverlay : ProvisioningAction → Bool
  | .enroll | .reprovision => true
  | .start | .stop | .restart | .upgrade | .decommission => false

/-- The columns of a node that the pipeline of an action does not set. -/
structure UnsetColumns where
  name : String
  tenantID : Option ID
  region : String
  wireGuardIP : Option String
  deriving DecidableEq, Repr

def Node.unsetBy (action : ProvisioningAction) (n : Node) : UnsetColumns :=
  { name := n.name, tenantID := n.tenantID, region := n.region
    wireGuardIP := if action.assignsOverlay then none else some n.wireGuardIP }

def Store.unsetBy (action : ProvisioningAction) (s : Store) (id : ID) : Option UnsetColumns :=
  (s.nodes.find id).map (Node.unsetBy action)

/-- The pipeline of a job, started with its copy of the node, among other calls. -/
def pipelineAmong {ι : Type} (p : Provisioner) (job : ProvisioningJob) (node : Node) (calls : ι → NodeCall)
    (w : World) : Sys (Option ι) Call Env World Err Unit where
  state := w
  procs
    | none => do let _ ← runPipeline p job node (pipelineFor job.action)
    | some i => (calls i).run p

/-- The step is the store call `UpdateNode`. -/
def WritesNode (act : Env → World → World) : Prop := ∃ m, act = fun v w => (dbResult v w (Store.updateNode m)).2

/-- When the pipeline writes the node, the stored columns are still those of its copy. -/
def CopyCurrent {ι : Type} (action : ProvisioningAction) (node : Node) (c : Sys (Option ι) Call Env World Err Unit)
    (i : Option ι) : Prop :=
  i = none → ∀ l act next, c.procs none = .step l act next → WritesNode act →
    c.state.store.unsetBy action node.id = some (node.unsetBy action)

/-! ## The pipeline -/

/-- The pipeline's copy has the identity and the columns of `node`. -/
def CopyOf (action : ProvisioningAction) (node m : Node) : Prop :=
  m.id = node.id ∧ m.unsetBy action = node.unsetBy action

/-- A step writes a copy of `node`, or no node at all. -/
def PipelineStep (action : ProvisioningAction) (node : Node) (_ : Call) (act : Env → World → World) : Prop :=
  (∃ m, CopyOf action node m ∧ act = fun v w => (dbResult v w (Store.updateNode m)).2) ∨
    ∀ v w, (act v w).store.nodes = w.store.nodes

section
variable {action : ProvisioningAction} {node : Node}

theorem pipelineStep_walk : Walk fun p R => p.Each (PipelineStep action node) R where
  pure h := .pure h
  fail := .fail _
  bind hp hf := hp.bind hf
  attempt hp := hp.attempt
  under hp := hp.mapError
  reads q := .ofWithin q.2 fun _ _ h => .inr fun v w => congrArg _ (h v w).2
  mono hp h := hp.mono h

theorem pipelineStep_other {α : Type} {c : Call} {f : Time → Store → Except Err (α × Store)}
    (hf : ∀ t s a s', f t s = .ok (a, s') → s'.nodes = s.nodes) :
    (writeAs c f).Each (PipelineStep action node) fun _ => True :=
  .ofWithin (within_writeAs (R := fun s s' => s'.nodes = s.nodes) (fun _ => rfl) hf) fun _ _ h => .inr h

theorem updateNode_pipelineStep {m : Node} (hm : CopyOf action node m) :
    (write (Store.updateNode m)).Each (PipelineStep action node) (CopyOf action node) := by
  refine .call (.inl ⟨m, hm, rfl⟩) fun v w m' h => ?_
  obtain ⟨a, ha, hok⟩ | ⟨⟨e, he⟩, _⟩ := dbResult_cases (v := v) (w := w) (f := Store.updateNode m) rfl
  · obtain ⟨_, _, _, _, rfl, _⟩ := Store.updateNode_ok hok
    cases ha.symm.trans h
    exact hm
  · cases he.symm.trans h

theorem pipelineStep_pipelineWrites :
    PipelineWrites (fun p R => p.Each (PipelineStep action node) R) (CopyOf action node) where
  status _ hm := hm
  node hm := updateNode_pipelineStep hm
  token _ := by
    refine pipelineStep_walk.enrollmentToken fun token _ => pipelineStep_other fun t s a s' h => ?_
    obtain ⟨_, _, _, _, rfl⟩ := Store.createEnrollmentToken_ok h
    rfl
  peer _ := by
    refine pipelineStep_walk.peerDeletion fun id => pipelineStep_other fun t s a s' h => ?_
    obtain ⟨_, _, rfl⟩ := Store.deleteWireGuardPeer_ok h
    rfl

theorem createNodePeer_pipelineStep (p : Provisioner) (haction : action.assignsOverlay = true) {m : Node}
    (hm : CopyOf action node m) :
    (createNodePeer p m).Each (PipelineStep action node) (CopyOf action node) := by
  refine pipelineStep_walk.peerCreation (fun peer _ _ => pipelineStep_other fun t s a s' h => ?_) fun _ _ => ⟨hm.1, ?_⟩
  · obtain ⟨_, _, _, rfl⟩ := Store.createWireGuardPeer_ok h
    rfl
  · rw [← hm.2]
    simp only [Node.unsetBy, haction, if_true]

theorem assignsOverlay_of_mem (h : .generateWGKeys ∈ pipelineFor action) : action.assignsOverlay = true := by
  cases action <;> first | rfl | simp [pipelineFor] at h

theorem runPipeline_pipelineStep (p : Provisioner) (job : ProvisioningJob) (node : Node) :
    (runPipeline p job node (pipelineFor job.action)).Each (PipelineStep job.action node) fun _ => True := by
  refine pipelineStep_walk.runPipeline pipelineStep_pipelineWrites (fun job => pipelineStep_other fun t s a s' h => ?_)
    (fun hmem _ hm => createNodePeer_pipelineStep p (assignsOverlay_of_mem hmem) hm) ⟨rfl, rfl⟩
  obtain ⟨_, _, _, _, rfl⟩ := Store.updateProvisioningJob_ok h
  rfl

theorem PipelineStep.unsetBy_eq {c : Call} {act : Env → World → World} (h : PipelineStep action node c act) (v : Env)
    (w : World) (hcurrent : WritesNode act → w.store.unsetBy action node.id = some (node.unsetBy action)) :
    (act v w).store.unsetBy action node.id = w.store.unsetBy action node.id := by
  obtain ⟨m, hm, rfl⟩ | hsame := h
  · have hcols := hcurrent ⟨m, rfl⟩
    change (dbResult v w (Store.updateNode m)).2.store.unsetBy action node.id = _
    rcases hd : dbResult v w (Store.updateNode m) with ⟨r, w'⟩
    obtain ⟨_, _, hok⟩ | ⟨_, hs⟩ := dbResult_cases hd
    · obtain ⟨old, nodes, _, hset, _, hs⟩ := Store.updateNode_ok hok
      have hrow := hm.1 ▸ Table.find_set_self hset
      rw [hcols, hs, Store.unsetBy, hrow, ← hm.2]
      rfl
    · rw [hs]
  · rw [Store.unsetBy, hsame, Store.unsetBy]

end

/-! ## The other calls -/

inductive CallPhase where
  | working | committed

/-- Until a call commits it changes no node. -/
def CallStep (q : CallPhase) (_ : Call) (_ : Env) (w w' : World) (q' : CallPhase) : Prop :=
  q = .working ∧ (q' = .working ∧ w'.store.nodes = w.store.nodes ∨ q' = .committed)

def CommittedOk {α : Type} (q : CallPhase) (r : Except Err α) : Prop := q = .committed → ∃ a, r = .ok a

section
variable {α : Type} {I : Env → World → Prop}

theorem Keeps.follows_nodes {p : M α} {R : α → Prop} (h : Keeps Store.nodes p R) :
    p.Follows CallStep I (fun q _ => q = .working) .working := by
  refine .ofWithin (S := (· = .working)) (h ()).within ?_ (fun _ _ hq => hq) rfl
  rintro _ c v w w' rfl _ hs
  exact ⟨_, rfl, rfl, .inl ⟨rfl, hs⟩⟩

theorem Reads.follows_nodes (r : Reads α) : r.1.Follows CallStep I (fun q _ => q = .working) .working :=
  Keeps.follows_nodes (keeps_walk.reads r)

theorem commit_follows {f : Time → Store → Except Err (α × Store)} :
    (write f).Follows CallStep I CommittedOk .working :=
  follows_writeAs (fun _ _ a _ _ _ => ⟨.committed, ⟨rfl, .inr rfl⟩, fun _ => ⟨a, rfl⟩⟩)
    fun _ _ _ _ _ => ⟨.working, ⟨rfl, .inl ⟨rfl, rfl⟩⟩, nofun⟩

theorem CommittedOk.error {β : Type} {q : CallPhase} {e : Err} (h : CommittedOk q (.error e : Except Err α)) :
    CommittedOk q (.error e : Except Err β) := by
  intro hq
  obtain ⟨a, ha⟩ := h hq
  cases ha

theorem CommittedOk.mapError {f : Err → Err} {q : CallPhase} {r : Except Err α} (h : CommittedOk q r) :
    CommittedOk q (r.mapError f) := by
  intro hq
  obtain ⟨a, rfl⟩ := h hq
  exact ⟨a, rfl⟩

theorem CommittedOk.working {q : CallPhase} {r : Except Err α} (h : q = .working) : CommittedOk q r :=
  fun hq => by cases h.symm.trans hq

theorem completeEnrollment_follows_nodes (p : Provisioner) (tokenStr : String) :
    (completeEnrollment p tokenStr).Follows CallStep I CommittedOk .working := by
  refine .bind (Reads.follows_nodes _) ?_ fun _ _ => .working
  rintro _ token rfl
  refine .bind (Reads.follows_nodes _) ?_ fun _ _ => .working
  rintro _ node rfl
  refine .bind (Keeps.follows_nodes (keeps_walk.ensureNodePeer (createNodePeer_keeps (fun _ _ => rfl) p node) trivial))
    ?_ fun _ _ => .working
  rintro _ node rfl
  refine .bind (Keeps.follows_nodes (keeps_walk.under (keeps_writeAs fun t s a s' h => ?_))) ?_ fun _ _ => .working
  · obtain ⟨_, _, rfl⟩ := Store.markEnrollmentTokenUsed_ok h
    rfl
  · rintro _ _ rfl
    exact .bind (.mapError commit_follows fun _ _ h => h.mapError)
      (fun _ _ _ => .pure fun _ => ⟨_, rfl⟩) fun _ _ h => h.error

theorem NodeCall.run_follows (p : Provisioner) (c : NodeCall) : (c.run p).Follows CallStep I CommittedOk .working := by
  cases c with
  | heartbeat id => exact commit_follows
  | enrollment tokenStr =>
    exact .bind (completeEnrollment_follows_nodes p tokenStr)
      (fun _ _ _ => .pure fun _ => ⟨(), rfl⟩) fun _ _ h => h.error
  | update id req =>
    refine .bind (P := CommittedOk) ?_ (fun _ _ _ => .pure fun _ => ⟨(), rfl⟩) fun _ _ h => h.error
    refine .bind (Reads.follows_nodes (read (Store.getNode id))) ?_ fun _ _ => .working
    rintro _ node rfl
    exact .mapError commit_follows fun _ _ h => h.mapError

end

/-! ## Every interleaving -/

/-- The steps of the pipeline and of the other calls, by their phases. -/
def AmongStep {ι : Type} : Option ι → CallPhase → Call → Env → World → World → CallPhase → Prop
  | none => fun _ _ _ _ _ _ => True
  | some _ => CallStep

def AmongResult {ι : Type} : Option ι → CallPhase → Except Err Unit → Prop
  | none => fun _ _ => True
  | some _ => CommittedOk

/-- Along every interleaving of the pipeline of a job with heartbeats, updates and
enrollments in which the stored columns are those of the pipeline's copy whenever it
writes the node: name, tenant, region and, for an action that assigns none, the overlay
address are those of the last call that committed. -/
theorem pipeline_reverts_nothing {ι : Type} [DecidableEq ι] (p : Provisioner) (v : Env) (job : ProvisioningJob)
    (node : Node) (calls : ι → NodeCall) (w : World) (sched : List (Option ι))
    (h : Sys.Along v (CopyCurrent job.action node) sched (pipelineAmong p job node calls w)) :
    ((pipelineAmong p job node calls w).run v sched).state.store.unsetBy job.action node.id =
      Sys.lastCommitted v (fun i => i ≠ none) (fun w => w.store.unsetBy job.action node.id) sched
        (pipelineAmong p job node calls w) (w.store.unsetBy job.action node.id) := by
  have hphased : (pipelineAmong p job node calls w).Phased AmongStep (fun _ _ => True) AmongResult
      fun _ => .working := by
    rintro (_ | i)
    · exact .ofWithin (S := fun _ => True) (.all _) (fun q _ _ _ _ _ _ _ => ⟨q, trivial, trivial⟩)
        (fun _ _ _ => trivial) trivial
    · exact (calls i).run_follows p
  have hpipeline : ((pipelineAmong p job node calls w).procs none).Each (PipelineStep job.action node) fun _ => True :=
    (runPipeline_pipelineStep p job node).bind fun _ _ => .pure trivial
  refine hphased.run_eq_lastCommitted (fun w : World => w.store.unsetBy job.action node.id)
    (W := fun i => i ≠ none) (J := fun c _ => (c.procs none).Each (PipelineStep job.action node) fun _ => True)
      (fun _ _ _ => trivial) ?_ ?_ hpipeline h
  · intro c q i l act next q' _ hJ _ hp _
    rw [Sys.step_of_step hp]
    cases i with
    | none =>
      rw [hp, Prog.Each.step] at hJ
      simpa using hJ.2 v c.state
    | some i => simpa using hJ
  · intro c q i l act next q' hJ hok hp hT hnext
    cases i with
    | none =>
      rw [hp, Prog.Each.step] at hJ
      exact .inl (hJ.1.unsetBy_eq v c.state fun hw => hok rfl l act next hp hw)
    | some i =>
      obtain ⟨_, ⟨_, hs⟩ | rfl⟩ := hT
      · exact .inl (by rw [Store.unsetBy, hs, Store.unsetBy])
      · -- a call that has committed has returned, with success
        obtain ⟨r, hr, hok⟩ := hnext.ret_of_stuck (v := v) (s := c.state) trivial fun l w' q' hT => by cases hT.1
        obtain ⟨a, rfl⟩ := hok rfl
        exact .inr ⟨nofun, Sys.commits_of_ret hp hr⟩

namespace Sample

def restartJob : ProvisioningJob :=
  { id := 60, nodeID := 10, tenantID := some 100, action := .restart, status := .pending
    currentStep := some .sendCommand, steps := none, error := "", initiatedBy := 1, startedAt := none
    completedAt := none, createdAt := 0, updatedAt := 0 }

def restartAndRename : Sys (Option Unit) Call Env World Err Unit :=
  pipelineAmong provisioner restartJob { node 10 100 with status := .online }
    (fun _ => .update 10 { name := some "attic" }) ⟨0, onlineFleet⟩

end Sample

/-- The node is renamed after the pipeline has ended. -/
theorem pipeline_reverts_nothing_serial :
    let sched : List (Option Unit) := List.replicate 20 none ++ [some (), some ()]
    (Sample.restartAndRename.run Env.calm sched).result none = some (.ok ()) ∧
      ((Sample.restartAndRename.run Env.calm sched).state.store.unsetBy .restart 10).map UnsetColumns.name =
        some "attic" := by
  intro sched
  refine ⟨by decide, ?_⟩
  have hcurrent : Sys.Along Env.calm (fun c i => i = none → c.state.store.unsetBy .restart 10 =
      some ((Sample.node 10 100).unsetBy .restart)) sched Sample.restartAndRename := by decide
  have h := pipeline_reverts_nothing Sample.provisioner Env.calm Sample.restartJob
    { Sample.node 10 100 with status := .online } (fun _ : Unit => .update 10 { name := some "attic" })
    ⟨0, Sample.onlineFleet⟩ sched (hcurrent.mono fun _ _ h hi _ _ _ _ _ => h hi)
  exact (congrArg (Option.map UnsetColumns.name) h).trans (by decide)

/-- The node is renamed while the pipeline runs, and has its old name when it ends. -/
theorem pipeline_reverts_rename :
    let sched : List (Option Unit) := [none, none, some (), some ()] ++ List.replicate 20 none
    let stored := fun w : World => (w.store.unsetBy .restart 10).map UnsetColumns.name
    (Sample.restartAndRename.run Env.calm sched).result none = some (.ok ()) ∧
      stored (Sample.restartAndRename.run Env.calm sched).state = some "edge" ∧
      Sys.lastCommitted Env.calm (fun i => i ≠ none) stored sched Sample.restartAndRename
        (some "edge") = some "attic" := by
  decide

end EdgeFabric
