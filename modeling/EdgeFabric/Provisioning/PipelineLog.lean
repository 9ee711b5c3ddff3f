/-
The log of a pipeline (`pipeline_log`). The traced pipeline below is `runPipeline` with a
record of what it does beside what it writes down: the steps it executes with their
outcomes, the rollback, the node in memory. Without the record it is `runPipeline`
(`runPipelineTraced_fst`).

The steps are executed in order up to the first that fails, the job's results are those
steps and the rollback, and the job's and the node's status follow from the outcomes. No
step fails as a program, so every pipeline ends.
-/
import EdgeFabric.Provisioning.Walk

namespace EdgeFabric

/-! ## The traced pipeline -/

/-- What happens in a run of a pipeline: the steps executed, each with whether it
succeeded, the same of the rollback, the node in memory at the end, and whether the store
took the pipeline's own updates of the node and the last one of the job. -/
structure PipelineTrace where
  executed : List (ProvisioningStep × Bool)
  rollbacks : List Bool
  node : Node
  saved : Bool
  recorded : Bool

def taken {α : Type} (p : M α) : M Bool := do
  match ← p.attempt with
  | .ok _ => return true
  | .error _ => return false

def saveEnrollingTraced (job : ProvisioningJob) (node : Node) (status : NodeStatus) : M (Node × Bool) :=
  if job.action = .enroll then do
    let saved ← taken (write (Store.updateNode { node with status }))
    return ({ node with status }, saved)
  else pure (node, true)

def rollbackTraced (job : ProvisioningJob) (node : Node) (steps : List ProvisioningStep) (step : ProvisioningStep) :
    M (List StepResult × List Bool) :=
  if job.action = .upgrade ∧ shouldRollback step steps false then do
    let (_, rbResult, error) ← timed .rollback (do return (node, ← stepRollback node))
    return ([rbResult], [error.isNone])
  else pure ([], [])

def failJobTraced (job : ProvisioningJob) (node : Node) (steps : List ProvisioningStep)
    (step : ProvisioningStep) (e : Err) (results : List StepResult) : M (ProvisioningJob × PipelineTrace) := do
  let (rollback, rollbacks) ← rollbackTraced job node steps step
  let completedAt ← now
  let job := { job with
    status := .failed, error := "step " ++ step.text ++ " failed: " ++ e.message
    completedAt := some completedAt, steps := some (results ++ rollback) }
  let recorded ← taken (write (Store.updateProvisioningJob job))
  let (node, saved) ← saveEnrollingTraced job node .error
  return (job, { executed := [(step, false)], rollbacks, node, saved, recorded })

def runStepsTraced (p : Provisioner) (steps : List ProvisioningStep) :
    List ProvisioningStep → ProvisioningJob → Node → List StepResult → M (ProvisioningJob × PipelineTrace)
  | [], job, node, results => do
    let completedAt ← now
    let job := { job with status := .completed, completedAt := some completedAt, steps := some results }
    let recorded ← taken (write (Store.updateProvisioningJob job))
    let node := { node with status := statusAfter job.action }
    let saved ← taken (write (Store.updateNode node))
    return (job, { executed := [], rollbacks := [], node, saved, recorded })
  | step :: rest, job, node, results => do
    let job := { job with currentStep := some step, steps := some results }
    saveJob job
    let (node, result, error) ← timed step (executeStep p job node step)
    match error with
    | some e => failJobTraced job node steps step e (results ++ [result])
    | none =>
      let (job, trace) ← runStepsTraced p steps rest job node (results ++ [result])
      return (job, { trace with executed := (step, true) :: trace.executed })

def runPipelineTraced (p : Provisioner) (job : ProvisioningJob) (node : Node) (steps : List ProvisioningStep) :
    M (ProvisioningJob × PipelineTrace) := do
  let startedAt ← now
  let job := { job with status := .running, startedAt := some startedAt }
  saveJob job
  let (node, saved) ← saveEnrollingTraced job node .enrolling
  let (job, trace) ← runStepsTraced p steps steps job node []
  return (job, { trace with saved := saved && trace.saved })

/-! ### Without its record it is the pipeline -/

theorem taken_bind {α β : Type} (p : M α) (k : M β) : (taken p >>= fun _ => k) = p.attempt >>= fun _ => k := by
  rw [taken, bind_assoc]
  refine congrArg _ (funext fun r => ?_)
  cases r <;> rfl

theorem saveJob_bind {α : Type} (job : ProvisioningJob) (k : M α) :
    (saveJob job >>= fun _ => k) = taken (write (Store.updateProvisioningJob job)) >>= fun _ => k := by
  rw [taken_bind, saveJob, bind_assoc]
  rfl

theorem saveNode_bind {α : Type} (node : Node) (k : M α) :
    (saveNode node >>= fun _ => k) = taken (write (Store.updateNode node)) >>= fun _ => k := by
  rw [taken_bind, saveNode, bind_assoc]
  rfl

theorem saveEnrollingTraced_bind {α : Type} (job : ProvisioningJob) (node : Node) (status : NodeStatus)
    (k : Node → M α) : (saveEnrollingTraced job node status >>= fun x => k x.1) =
      saveEnrolling job node status >>= fun _ => k (if job.action = .enroll then { node with status } else node) := by
  unfold saveEnrollingTraced saveEnrolling
  split
  · rw [saveNode_bind, bind_assoc]
    rfl
  · rfl

theorem rollbackTraced_bind {α : Type} (job : ProvisioningJob) (node : Node) (steps : List ProvisioningStep)
    (step : ProvisioningStep) (k : List StepResult → M α) :
    (rollbackTraced job node steps step >>= fun x => k x.1) = rollbackResults job node steps step >>= k := by
  unfold rollbackTraced rollbackResults
  split
  · simp only [bind_assoc, pure_bind]
  · rfl

theorem failJobTraced_fst (job : ProvisioningJob) (node : Node) (steps : List ProvisioningStep)
    (step : ProvisioningStep) (e : Err) (results : List StepResult) :
    Prod.fst <$> failJobTraced job node steps step e results = failJob job node steps step e results := by
  simp only [failJobTraced, failJob, map_bind, map_pure]
  rw [← rollbackTraced_bind]
  refine congrArg _ (funext fun rollback => congrArg _ (funext fun t => ?_))
  rw [saveJob_bind]
  exact congrArg _ (funext fun _ => saveEnrollingTraced_bind _ node .error fun _ => pure _)

theorem runStepsTraced_fst (p : Provisioner) (steps : List ProvisioningStep) :
    ∀ rest job node results,
      Prod.fst <$> runStepsTraced p steps rest job node results = runSteps p steps rest job node results
  | [], job, node, results => by
    simp only [runStepsTraced, runSteps, map_bind, map_pure, updateNodeStatusAfterCompletion, saveJob_bind,
      saveNode_bind]
  | step :: rest, job, node, results => by
    simp only [runStepsTraced, runSteps, map_bind]
    refine congrArg _ (funext fun _ => congrArg _ (funext fun done => ?_))
    obtain ⟨node, result, _ | e⟩ := done
    · simp only [map_bind, map_pure]
      rw [← runStepsTraced_fst p steps rest, ← bind_pure_comp]
    · exact failJobTraced_fst _ _ _ _ _ _

theorem runPipelineTraced_fst (p : Provisioner) (job : ProvisioningJob) (node : Node) (steps : List ProvisioningStep) :
    Prod.fst <$> runPipelineTraced p job node steps = runPipeline p job node steps := by
  simp only [runPipelineTraced, runPipeline, map_bind, map_pure, ← runStepsTraced_fst]
  refine congrArg _ (funext fun t => congrArg _ (funext fun _ => ?_))
  simp only [← bind_pure_comp]
  exact saveEnrollingTraced_bind _ node .enrolling fun node =>
    runStepsTraced p steps steps _ node [] >>= fun x => pure x.1

/-! ## No step fails as a program -/

abbrev Finishes {α : Type} (p : M α) : Prop := ∀ v s, Ends v s p (fun _ _ => True) fun _ _ => False

namespace Finishes
variable {α β : Type} {p : M α}

theorem pure (a : α) : Finishes (Pure.pure a : M α) := fun _ _ => .pure trivial

theorem bind {f : α → M β} (hp : Finishes p) (hf : ∀ a, Finishes (f a)) : Finishes (p >>= f) := fun v s =>
  .andThen (hp v s) fun a s' _ => hf a v s'

theorem attempt : Finishes p.attempt := fun _ _ => .attempt (.of_forall (fun _ _ => trivial) fun _ _ => trivial)

theorem ask {c : Call} {f : Env → Nat → α} {hc : ¬ c.ChangesPeers} :
    Finishes (EdgeFabric.ask c (fun v t => .ok (f v t)) hc).1 := fun _ _ =>
  .of_exec fun _ _ _ _ h => by
    cases h
    trivial

end Finishes

theorem runCommand_finishes (cmd context : String) (finish : String → StepOutput) :
    Finishes (runCommand cmd context finish).1 := by
  refine .bind .ask fun r => ?_
  rcases r with ⟨output, _ | msg⟩
  · exact .pure _
  · exact .pure _

theorem remoteStep_finishes (node : Node) (cmd context : String) (finish : String → StepOutput) :
    Finishes (remoteStep node cmd context finish).1 := by
  refine .bind .attempt fun connected => ?_
  rcases connected with e | _
  · exact .pure _
  · exact runCommand_finishes _ _ _

theorem stepUploadBinary_finishes (p : Provisioner) (node : Node) : Finishes (stepUploadBinary p node).1 := by
  refine .bind .attempt fun opened => ?_
  rcases opened with e | size
  · exact .pure _
  · refine .bind (runCommand_finishes _ _ _) fun made => ?_
    rcases made with ⟨output, _ | e⟩
    · refine .bind .ask fun uploaded => ?_
      rcases uploaded with _ | msg
      · exact .pure _
      · exact .pure _
    · exact .pure _

theorem stepWriteConfig_finishes (p : Provisioner) (node : Node) : Finishes (stepWriteConfig p node) := by
  refine .bind .attempt fun connected => ?_
  rcases connected with e | _
  · exact .pure _
  · refine .bind .attempt fun generated => ?_
    rcases generated with e | token
    · exact .pure _
    · exact runCommand_finishes _ _ _

theorem stepConfigureWireGuard_finishes (p : Provisioner) (node : Node) :
    Finishes (stepConfigureWireGuard p node).1 := by
  unfold stepConfigureWireGuard
  split
  · exact .pure _
  · refine .bind .attempt fun generated => ?_
    rcases generated with e | wgConf
    · exact .pure _
    · refine .bind .attempt fun connected => ?_
      rcases connected with e | _
      · exact .pure _
      · refine .bind (runCommand_finishes _ _ _) fun wrote => ?_
        dsimp only
        split
        · exact .pure _
        · exact runCommand_finishes _ _ _

theorem stepGenerateWGKeys_finishes (p : Provisioner) (node : Node) : Finishes (stepGenerateWGKeys p node) := by
  refine .bind .attempt fun created => ?_
  rcases created with e | node'
  · exact .pure _
  · refine .bind .attempt fun stored => ?_
    rcases stored with e | node''
    · exact .pure _
    · exact .pure _

theorem deleteNodePeer_finishes (nodeID : ID) : Finishes (deleteNodePeer nodeID) := by
  refine .bind .attempt fun found => ?_
  rcases found with e | peer
  · exact .pure _
  · exact .bind .attempt fun _ => .pure _

theorem stepCleanup_finishes (node : Node) : Finishes (stepCleanup node) := by
  refine .bind (remoteStep_finishes _ _ _ _) fun cleaned => ?_
  rcases cleaned with ⟨output, _ | e⟩
  · exact .bind (deleteNodePeer_finishes _) fun _ => .pure _
  · exact .pure _

theorem executeStep_finishes (p : Provisioner) (job : ProvisioningJob) (node : Node) (step : ProvisioningStep) :
    Finishes (executeStep p job node step) := by
  cases step with
  | generateWGKeys => exact stepGenerateWGKeys_finishes p node
  | writeConfig => exact .bind (stepWriteConfig_finishes p node) fun _ => .pure _
  | cleanup => exact .bind (stepCleanup_finishes node) fun _ => .pure _
  | uploadBinary => exact .bind (stepUploadBinary_finishes p node) fun _ => .pure _
  | configureWireGuard => exact .bind (stepConfigureWireGuard_finishes p node) fun _ => .pure _
  | waitEnrollment => exact .bind (.pure _) fun _ => .pure _
  | _ => exact .bind (remoteStep_finishes _ _ _ _) fun _ => .pure _

/-! ## What a pipeline leaves -/

/-- The steps are executed in order, up to the first that fails. -/
inductive Tried : List ProvisioningStep → List (ProvisioningStep × Bool) → Prop where
  | nil : Tried [] []
  | passed {step rest executed} : Tried rest executed → Tried (step :: rest) ((step, true) :: executed)
  | failed {step rest} : Tried (step :: rest) [(step, false)]

def failedStep (executed : List (ProvisioningStep × Bool)) : Option ProvisioningStep :=
  (executed.find? fun x => !x.2).map Prod.fst

@[simp] theorem failedStep_passed (step : ProvisioningStep) (executed : List (ProvisioningStep × Bool)) :
    failedStep ((step, true) :: executed) = failedStep executed := rfl

@[simp] theorem failedStep_failed (step : ProvisioningStep) : failedStep [(step, false)] = some step := rfl

def StepResult.entry (r : StepResult) : ProvisioningStep × Bool := (r.step, r.status = .success)

def nodeStatusAfter (action : ProvisioningAction) (before : NodeStatus) : Option ProvisioningStep → NodeStatus
  | none => statusAfter action
  | some _ => if action = .enroll then .error else before

def Store.HasStatus (s : Store) (id : ID) (status : NodeStatus) : Prop :=
  ∃ row, s.nodes.find id = some row ∧ row.status = status

/-- The job is stored with the outcome it has in memory. -/
def Store.HasJob (s : Store) (job : ProvisioningJob) : Prop :=
  ∃ row, s.provisioningJobs.find job.id = some row ∧ row.status = job.status ∧ row.steps = job.steps

theorem Store.hasStatus_of_updateNode {node node' : Node} {t : Time} {s s' : Store}
    (h : Store.updateNode node t s = .ok (node', s')) : s'.HasStatus node.id node.status := by
  obtain ⟨old, nodes, _, hset, _, rfl⟩ := Store.updateNode_ok h
  have hfind := Table.find_set_self hset
  exact ⟨_, hfind, rfl⟩

theorem Store.hasJob_of_update {job job' : ProvisioningJob} {t : Time} {s s' : Store}
    (h : Store.updateProvisioningJob job t s = .ok (job', s')) : s'.HasJob job := by
  obtain ⟨old, jobs, hold, hset, rfl⟩ := Store.updateProvisioningJob_ok h
  have hfind := Table.find_set_self hset
  obtain ⟨_, hid⟩ := Table.find_eq_some.mp hold
  dsimp only at hfind
  rw [hid] at hfind
  exact ⟨_, hfind, rfl, rfl⟩

theorem walk_ends (v : Env) (I : Store → Prop) :
    Walk fun p R => ∀ s, I s → Ends v s p (fun a s' => R a ∧ I s') fun _ s' => I s' where
  pure h s hs := .pure ⟨h, hs⟩
  fail s hs := .fail hs
  bind hp hf s hs := .andThen (hp s hs) fun a s' h => hf a h.1 s' h.2
  attempt hp s hs := .attempt ((hp s hs).mono (fun a s' h => ⟨fun b hb => by cases hb; exact h.1, h.2⟩)
    fun e s' h => ⟨nofun, h⟩)
  under hp s hs := .mapError (hp s hs)
  reads q s hs := .reads (fun _ => ⟨trivial, hs⟩) fun _ => hs
  mono hp h s hs := (hp s hs).mono (fun a s' ha => ⟨h a ha.1, ha.2⟩) fun _ _ h => h

theorem Keeps.ends_nodes {α : Type} {p : M α} {R : α → Prop} (h : Keeps Store.nodes p R) {v : Env}
    {I : Table Node.id → Prop} (s : Store) (hs : I s.nodes) :
    Ends v s p (fun _ s' => True ∧ I s'.nodes) fun _ s' => I s'.nodes :=
  (Prog.Ensures.ofWithin (C := fun s s' : Store => s'.nodes = s.nodes) (fun _ => rfl)
    (fun _ _ _ h h' => h'.trans h) (h ()).within).mono (fun _ _ hn => ⟨trivial, hn ▸ hs⟩) fun _ _ hn => hn ▸ hs

section
variable {v : Env} {s : Store} {p : Provisioner} {job : ProvisioningJob} {node : Node} {known : Prop}
variable {Q : Bool → Store → Prop} {steps : List ProvisioningStep} {results : List StepResult}

/-- What the steps of a pipeline leave of the node it works on. -/
def SameNode (node node' : Node) : Prop := node'.id = node.id ∧ node'.status = node.status

theorem createNodePeer_sameNode (v : Env) (p : Provisioner) (node : Node) :
    Ends v s (createNodePeer p node) (fun node' _ => SameNode node node') fun _ _ => True := by
  refine .bind_any fun _ _ => .bind_any fun _ _ => .bind_any fun _ _ => .bind_any fun _ _ => .bind_any fun _ _ => ?_
  exact .bind_any fun _ _ => .bind_any fun _ _ => .bind_any fun _ _ => .bind_any fun _ _ => .pure ⟨rfl, rfl⟩

theorem executeStep_ends (step : ProvisioningStep) (hs : known → s.HasStatus node.id node.status) :
    Ends v s (executeStep p job node step)
      (fun x s' => SameNode node x.1 ∧ (known → s'.HasStatus node.id node.status)) fun _ _ => False := by
  have hF := walk_ends v fun s => known → s.HasStatus node.id node.status
  have hkeeps := fun {α : Type} {p : M α} (h : Keeps Store.nodes p fun _ => True) =>
    Keeps.ends_nodes (v := v) (I := fun nodes => known → ∃ row, nodes.find node.id = some row ∧
      row.status = node.status) h
  have hwrites : StepWrites (fun p R => ∀ s, (known → s.HasStatus node.id node.status) →
      Ends v s p (fun a s' => R a ∧ (known → s'.HasStatus node.id node.status))
        fun _ s' => known → s'.HasStatus node.id node.status) (SameNode node) := by
    refine ⟨fun {node'} hn s hs => .write (fun t a s' h => ?_) fun _ => hs,
      fun _ => hkeeps (generateEnrollmentToken_keeps (fun _ _ _ => rfl) _ _),
      fun _ => hkeeps (deleteNodePeer_keeps (fun _ _ => rfl) _)⟩
    have hstatus := Store.hasStatus_of_updateNode h
    obtain ⟨_, _, _, _, rfl, _⟩ := Store.updateNode_ok h
    rw [hn.1, hn.2] at hstatus
    exact ⟨hn, fun _ => hstatus⟩
  have hstep : Ends v s (executeStep p job node step) _ _ := hF.executeStep hwrites (fun _ node' hn s hs =>
    ((createNodePeer_sameNode v p node').and (hkeeps (createNodePeer_keeps (fun _ _ => rfl) p node') s hs)).mono
      (fun node'' s' h => ⟨⟨h.1.1.trans hn.1, h.1.2.trans hn.2⟩, h.2.2⟩) fun _ _ h => h.2) ⟨rfl, rfl⟩ s hs
  exact (hstep.and (executeStep_finishes p job node step v s)).mono (fun _ _ h => h.1) fun _ _ h => h.2

theorem timed_ends {step : ProvisioningStep} {run : M (Node × StepOutput)} {Q : Node → Store → Prop}
    (h : Ends v s run (fun x s' => Q x.1 s') fun _ _ => False) :
    Ends v s (timed step run) (fun x s' => x.2.1.entry = (step, x.2.2.isNone) ∧ Q x.1 s') fun _ _ => False := by
  refine .bind (Ends.now fun t => .andThen h fun x s' hx => ?_)
  obtain ⟨node', output, error⟩ := x
  refine .bind (Ends.now fun t' => .pure ⟨?_, hx⟩)
  cases error <;> rfl

theorem taken_ends {α : Type} {p : M α} (h : Ends v s p (fun _ => Q true) fun _ => Q false) :
    Ends v s (taken p) Q fun _ _ => False := by
  refine .bind (.attempt (h.mono (fun a s' ha => ?_) fun e s' he => ?_))
  · exact .pure ha
  · exact .pure he

theorem saveJob_ends {Q : Unit → Store → Prop} (hQ : ∀ s', s'.nodes = s.nodes → Q () s') :
    Ends v s (saveJob job) Q fun _ _ => False := by
  refine .bind (.attempt (Ends.write (fun t a s' h => .pure (hQ s' ?_)) fun _ => .pure (hQ s rfl)))
  obtain ⟨_, _, _, _, rfl⟩ := Store.updateProvisioningJob_ok h
  rfl

theorem recordJob_ends (hok : ∀ s', s'.nodes = s.nodes → s'.HasJob job → Q true s')
    (herr : Q false s) : Ends v s (taken (write (Store.updateProvisioningJob job))) Q fun _ _ => False := by
  refine taken_ends (.write (fun t a s' h => hok s' ?_ (Store.hasJob_of_update h)) fun _ => herr)
  obtain ⟨_, _, _, _, rfl⟩ := Store.updateProvisioningJob_ok h
  rfl

theorem saveNodeTraced_ends
    (hok : ∀ s', s'.provisioningJobs = s.provisioningJobs → s'.HasStatus node.id node.status → Q true s')
    (herr : Q false s) : Ends v s (taken (write (Store.updateNode node))) Q fun _ _ => False := by
  refine taken_ends (.write (fun t a s' h => hok s' ?_ (Store.hasStatus_of_updateNode h)) fun _ => herr)
  obtain ⟨_, _, _, _, _, rfl⟩ := Store.updateNode_ok h
  rfl

theorem saveEnrollingTraced_ends (status : NodeStatus) (hs : known → s.HasStatus node.id node.status) :
    Ends v s (saveEnrollingTraced job node status)
      (fun x s' => s'.provisioningJobs = s.provisioningJobs ∧ x.1.id = node.id ∧
        x.1.status = (if job.action = .enroll then status else node.status) ∧
        (known → x.2 = true → s'.HasStatus node.id x.1.status)) fun _ _ => False := by
  unfold saveEnrollingTraced
  split
  · refine .bind (saveNodeTraced_ends (fun s' hjobs hstatus => .pure ⟨hjobs, rfl, rfl, fun _ _ => hstatus⟩) ?_)
    exact .pure ⟨rfl, rfl, rfl, fun _ => nofun⟩
  · exact .pure ⟨rfl, rfl, rfl, fun hknown _ => hs hknown⟩

theorem rollbackTraced_ends (steps : List ProvisioningStep) (step : ProvisioningStep) :
    Ends v s (rollbackTraced job node steps step)
      (fun x s' => s' = s ∧ x.1.map StepResult.entry = x.2.map (ProvisioningStep.rollback, ·) ∧
        x.2.length = if job.action = .upgrade ∧ shouldRollback step steps false then 1 else 0) fun _ _ => False := by
  unfold rollbackTraced
  split
  · next hdue =>
    have hrun : Ends v s (do return (node, ← stepRollback node) : M (Node × StepOutput))
      (fun _ s' => s' = s) fun _ _ => False := by
      have hreads : Ends v s (stepRollback node).1 (fun _ s' => s' = s) fun _ s' => s' = s :=
        .reads (fun _ => rfl) fun _ => rfl
      refine .bind ((hreads.and (remoteStep_finishes node _ _ _ v s)).mono (fun out s' h => .pure h.1) fun _ _ h => h.2)
    refine .andThen (timed_ends (Q := fun _ s' => s' = s) hrun) fun x s' hx => .pure ⟨hx.2, ?_, rfl⟩
    exact congrArg (· :: []) hx.1
  · exact .pure ⟨rfl, rfl, rfl⟩

/-- What a pipeline with the steps `rest` to go, of `steps`, leaves: its trace, the job in
memory, and what the store has of both. -/
structure Logged (steps rest : List ProvisioningStep) (job : ProvisioningJob) (node : Node) (results : List StepResult)
    (known : Prop) (x : ProvisioningJob × PipelineTrace) (s : Store) : Prop where
  tried : Tried rest x.2.executed
  log : ∃ log, x.1.steps = some log ∧ log.map StepResult.entry =
    results.map StepResult.entry ++ (x.2.executed ++ x.2.rollbacks.map (ProvisioningStep.rollback, ·))
  rollbacks : x.2.rollbacks.length =
    if job.action = .upgrade ∧ ∃ step, failedStep x.2.executed = some step ∧
      shouldRollback step steps false then 1 else 0
  status : x.1.status = if failedStep x.2.executed = none then .completed else .failed
  id : x.1.id = job.id
  nodeID : x.2.node.id = node.id
  nodeStatus : x.2.node.status = nodeStatusAfter job.action node.status (failedStep x.2.executed)
  stored : known → x.2.saved = true → s.HasStatus node.id x.2.node.status
  recorded : x.2.recorded = true → s.HasJob x.1

theorem completed_ends {job' : ProvisioningJob} {recorded : Bool}
    (hid : job'.id = job.id) (haction : job'.action = job.action) (hstatus : job'.status = .completed)
    (hsteps : job'.steps = some results) (hjob : recorded = true → s.HasJob job') :
    Ends v s (taken (write (Store.updateNode { node with status := statusAfter job'.action })) >>= fun saved =>
        pure (job', (⟨[], [], { node with status := statusAfter job'.action }, saved, recorded⟩ : PipelineTrace)))
      (Logged steps [] job node results known) fun _ _ => False := by
  have hlogged : ∀ (saved : Bool) (s' : Store), s'.provisioningJobs = s.provisioningJobs →
      (saved = true → s'.HasStatus node.id (statusAfter job'.action)) →
      Logged steps [] job node results known
        (job', ⟨[], [], { node with status := statusAfter job'.action }, saved, recorded⟩) s' := by
    intro saved s' hjobs hstored
    refine ⟨.nil, ⟨results, hsteps, by simp⟩, by simp [failedStep], by simp [failedStep, hstatus], hid, rfl, ?_,
      fun _ => hstored, fun hb => ?_⟩
    · rw [haction]
      rfl
    · obtain ⟨row, hrow⟩ := hjob hb
      exact ⟨row, by rw [hjobs]; exact hrow⟩
  refine .bind (saveNodeTraced_ends (fun s' hjobs hnode => .pure (hlogged true s' hjobs fun _ => hnode)) ?_)
  exact .pure (hlogged false s rfl nofun)

theorem failed_ends {rest : List ProvisioningStep} {step : ProvisioningStep} {rollback : List StepResult}
    {result : StepResult} {rollbacks : List Bool} {job' : ProvisioningJob} {recorded : Bool}
    (hs : known → s.HasStatus node.id node.status) (hresult : result.entry = (step, false))
    (hrollback : rollback.map StepResult.entry = rollbacks.map (ProvisioningStep.rollback, ·))
    (hlength : rollbacks.length = if job.action = .upgrade ∧ shouldRollback step steps false then 1 else 0)
    (hid : job'.id = job.id) (haction : job'.action = job.action) (hstatus : job'.status = .failed)
    (hsteps : job'.steps = some (results ++ [result] ++ rollback)) (hjob : recorded = true → s.HasJob job') :
    Ends v s (saveEnrollingTraced job' node .error >>= fun x =>
        pure (job', (⟨[(step, false)], rollbacks, x.1, x.2, recorded⟩ : PipelineTrace)))
      (Logged steps (step :: rest) job node results known) fun _ _ => False := by
  refine .andThen (saveEnrollingTraced_ends .error hs) fun x s' hx => .pure ?_
  obtain ⟨hjobs, hnode, hnodeStatus, hstored⟩ := hx
  refine ⟨.failed, ⟨_, hsteps, ?_⟩, ?_, hstatus, hid, hnode, ?_, hstored, fun hb => ?_⟩
  · simp [hresult, hrollback]
  · simpa using hlength
  · rw [hnodeStatus, haction]
    rfl
  · obtain ⟨row, hrow⟩ := hjob hb
    exact ⟨row, by rw [hjobs]; exact hrow⟩

theorem failJobTraced_ends (rest : List ProvisioningStep) {step : ProvisioningStep} {e : Err}
    {result : StepResult} (hs : known → s.HasStatus node.id node.status)
    (hresult : result.entry = (step, false)) :
    Ends v s (failJobTraced job node steps step e (results ++ [result]))
      (Logged steps (step :: rest) job node results known) fun _ _ => False := by
  refine .andThen (rollbackTraced_ends steps step) ?_
  rintro ⟨rollback, rollbacks⟩ s' ⟨rfl, hentries, hlength⟩
  refine .bind (Ends.now fun t => .bind (recordJob_ends (fun s₁ hnodes hhas => ?_) ?_))
  · refine failed_ends ?_ hresult hentries hlength rfl rfl rfl rfl fun _ => hhas
    unfold Store.HasStatus
    rwa [hnodes]
  · exact failed_ends hs hresult hentries hlength rfl rfl rfl rfl nofun

theorem runStepsTraced_ends (known : Prop) (rest : List ProvisioningStep) (job : ProvisioningJob)
    (node : Node) (results : List StepResult) (s : Store) (hs : known → s.HasStatus node.id node.status) :
    Ends v s (runStepsTraced p steps rest job node results)
      (Logged steps rest job node results known) fun _ _ => False := by
  induction rest generalizing job node results s with
  | nil =>
    refine .bind (Ends.now fun t => .bind (recordJob_ends (fun s₁ _ hhas => ?_) ?_))
    · exact completed_ends rfl rfl rfl rfl fun _ => hhas
    · exact completed_ends rfl rfl rfl rfl nofun
  | cons step rest ih =>
    refine .bind (saveJob_ends fun s₁ hnodes => ?_)
    have hs₁ : known → s₁.HasStatus node.id node.status := by
      unfold Store.HasStatus
      rwa [hnodes]
    refine .andThen (timed_ends (Q := fun node' s₂ => SameNode node node' ∧ (known → s₂.HasStatus node.id node.status))
      (executeStep_ends step hs₁)) fun x s₂ hx => ?_
    obtain ⟨node', result, error⟩ := x
    obtain ⟨hresult, ⟨hid, hstatus⟩, hs₂⟩ := hx
    rw [← hid, ← hstatus] at hs₂
    cases error with
    | some e =>
      refine (failJobTraced_ends rest hs₂ hresult).mono (fun x s₃ hx => ?_) fun _ _ h => h
      exact ⟨hx.tried, hx.log, hx.rollbacks, hx.status, hx.id, hx.nodeID.trans hid, hstatus ▸ hx.nodeStatus,
        hid ▸ hx.stored, hx.recorded⟩
    | none =>
      refine .andThen (ih _ node' (results ++ [result]) s₂ hs₂) fun x s₃ hx => .pure ?_
      obtain ⟨log, hsteps, hlog⟩ := hx.log
      refine ⟨.passed hx.tried, ⟨log, hsteps, ?_⟩, hx.rollbacks, hx.status, hx.id, hx.nodeID.trans hid,
        hstatus ▸ hx.nodeStatus, hid ▸ hx.stored, hx.recorded⟩
      rw [hlog]
      simp [hresult]

theorem nodeStatusAfter_enrolling (action : ProvisioningAction) (before : NodeStatus)
    (failed : Option ProvisioningStep) :
    nodeStatusAfter action (if action = .enroll then .enrolling else before) failed =
      nodeStatusAfter action before failed := by
  cases failed with
  | none => rfl
  | some step => by_cases h : action = .enroll <;> simp [nodeStatusAfter, h]

theorem runPipelineTraced_ends :
    Ends v s (runPipelineTraced p job node steps)
      (Logged steps steps job node [] (s.HasStatus node.id node.status)) fun _ _ => False := by
  refine .bind (Ends.now fun t => .bind (saveJob_ends fun s₁ hnodes => ?_))
  have hs₁ : s.HasStatus node.id node.status → s₁.HasStatus node.id node.status := by
    unfold Store.HasStatus
    rw [hnodes]
    exact id
  refine .andThen (saveEnrollingTraced_ends .enrolling hs₁) fun x s₂ hx => ?_
  obtain ⟨node', saved⟩ := x
  obtain ⟨-, hid, hstatus, hs₂⟩ := hx
  dsimp only at hid hstatus hs₂
  have hnode' : s.HasStatus node.id node.status ∧ saved = true → s₂.HasStatus node'.id node'.status := by
    rw [hid]
    exact fun h => hs₂ h.1 h.2
  refine .andThen (runStepsTraced_ends (s.HasStatus node.id node.status ∧ saved = true) steps _ node' [] s₂
    hnode') fun x s₃ hx => .pure ?_
  refine ⟨hx.tried, hx.log, hx.rollbacks, hx.status, hx.id, hx.nodeID.trans hid, ?_,
    fun hknown hsaved => ?_, hx.recorded⟩
  · rw [hx.nodeStatus, hstatus]
    exact nodeStatusAfter_enrolling _ _ _
  · rw [Bool.and_eq_true] at hsaved
    exact hid ▸ hx.stored ⟨hknown, hsaved.1⟩ hsaved.2

def fromBackup : List ProvisioningStep := (pipelineFor .upgrade).dropWhile (· ≠ .backupBinary)

theorem shouldRollback_upgrade {step : ProvisioningStep} (h : step ∈ pipelineFor .upgrade) :
    shouldRollback step (pipelineFor .upgrade) false = true ↔ step ∈ fromBackup := by
  cases step <;> revert h <;> decide

theorem Tried.mem {executed : List (ProvisioningStep × Bool)} (h : Tried steps executed)
    {step : ProvisioningStep} (hfailed : failedStep executed = some step) : step ∈ steps := by
  induction h with
  | nil => cases hfailed
  | passed _ ih => exact List.mem_cons_of_mem _ (ih hfailed)
  | failed =>
    cases hfailed
    exact List.mem_cons_self

end

theorem runPipeline_logged (p : Provisioner) (v : Env) (w : World) (job : ProvisioningJob) (node : Node)
    (steps : List ProvisioningStep) :
    ∃ job' trace w', (runPipelineTraced p job node steps).exec v w = (.ok (job', trace), w') ∧
      (runPipeline p job node steps).exec v w = (.ok job', w') ∧
      Logged steps steps job node [] (w.store.HasStatus node.id node.status) (job', trace) w'.store := by
  rcases hrun : (runPipelineTraced p job node steps).exec v w with ⟨e | ⟨job', trace⟩, w'⟩
  · exact (runPipelineTraced_ends.error rfl hrun).elim
  · refine ⟨job', trace, w', rfl, ?_, runPipelineTraced_ends.ok rfl hrun⟩
    rw [← runPipelineTraced_fst, ← bind_pure_comp, Prog.exec_bind, hrun]
    rfl

/-- The log of a pipeline, whatever its steps and the rollback do: the steps up to the first
that fails and, if an upgrade failed in its backup or later, a rollback. The job is completed
if no step failed, and failed otherwise; the node gets the status of the action, that of an
error if an enrollment failed, and else keeps its own. The store has the same, as far as it
took the updates. -/
theorem pipeline_log (p : Provisioner) (v : Env) (w : World) (job : ProvisioningJob) (node : Node) :
    ∃ job' trace w',
      (runPipelineTraced p job node (pipelineFor job.action)).exec v w = (.ok (job', trace), w') ∧
      (runPipeline p job node (pipelineFor job.action)).exec v w = (.ok job', w') ∧
      Tried (pipelineFor job.action) trace.executed ∧
      job'.steps.map (List.map StepResult.entry) =
        some (trace.executed ++ trace.rollbacks.map (ProvisioningStep.rollback, ·)) ∧
      (trace.rollbacks.length =
        if job.action = .upgrade ∧ ∃ step, failedStep trace.executed = some step ∧ step ∈ fromBackup then 1 else 0) ∧
      job'.status = (if failedStep trace.executed = none then .completed else .failed) ∧
      trace.node.status = nodeStatusAfter job.action node.status (failedStep trace.executed) ∧
      (trace.recorded = true → w'.store.HasJob job') ∧
      (w.store.HasStatus node.id node.status → trace.saved = true → w'.store.HasStatus node.id trace.node.status) := by
  obtain ⟨job', trace, w', hrun, hplain, hlogged⟩ := runPipeline_logged p v w job node (pipelineFor job.action)
  obtain ⟨log, hsteps, hlog⟩ := hlogged.log
  refine ⟨job', trace, w', hrun, hplain, hlogged.tried, ?_, ?_, hlogged.status, hlogged.nodeStatus, hlogged.recorded,
    hlogged.stored⟩
  · dsimp only at hsteps
    rw [hsteps, Option.map_some, hlog, List.map_nil, List.nil_append]
  · rw [hlogged.rollbacks]
    refine if_congr (and_congr_right fun hup => exists_congr fun step => and_congr_right fun hfailed => ?_) rfl rfl
    have hmem := hlogged.tried.mem hfailed
    rw [hup] at hmem ⊢
    exact shouldRollback_upgrade hmem

namespace Sample

def job (action : ProvisioningAction) : ProvisioningJob :=
  { id := 40, nodeID := 10, tenantID := some 100, action, status := .pending, currentStep := none, steps := none
    error := "", initiatedBy := 1, startedAt := none, completedAt := none, createdAt := 0, updatedAt := 0 }

end Sample

/-- Of an upgrade the backup, the fifteenth call, fails; it is followed by the rollback. -/
theorem pipeline_log_backup_fails :
    let v := { Env.calm with remote := fun t _ => ⟨"edgefabric-ssh-ok", if t = 14 then some "exit 1" else none⟩ }
    let node := { Sample.node 10 100 with status := .online }
    ∃ (job' : ProvisioningJob) (trace : PipelineTrace) (w' : World),
      (runPipeline Sample.provisioner (Sample.job .upgrade) node (pipelineFor .upgrade)).exec v
        ⟨0, Sample.onlineFleet⟩ = (.ok job', w') ∧
      job'.steps.map (List.map StepResult.entry) =
        some (trace.executed ++ trace.rollbacks.map (ProvisioningStep.rollback, ·)) ∧
      trace.executed = [(.validateSSH, true), (.backupBinary, false)] ∧ trace.rollbacks = [true] ∧
      w'.store.HasStatus 10 .online := by
  intro v node
  obtain ⟨job', trace, w', hrun, hplain, -, hsteps, -, -, hstatus, -, hstored⟩ :=
    pipeline_log Sample.provisioner v ⟨0, Sample.onlineFleet⟩ (Sample.job .upgrade) node
  have hvalue : ((runPipelineTraced Sample.provisioner (Sample.job .upgrade) node (pipelineFor .upgrade)).exec v
      ⟨0, Sample.onlineFleet⟩).1.toOption.map (fun x => (x.2.executed, x.2.rollbacks, x.2.saved)) =
        some ([(.validateSSH, true), (.backupBinary, false)], [true], true) := by decide
  rw [show pipelineFor .upgrade = pipelineFor (Sample.job .upgrade).action from rfl, hrun] at hvalue
  obtain ⟨hexecuted, hrollbacks, hsaved⟩ : trace.executed = [(.validateSSH, true), (.backupBinary, false)] ∧
      trace.rollbacks = [true] ∧ trace.saved = true := by
    simpa [Except.toOption] using hvalue
  have hnode := hstored ⟨_, rfl, rfl⟩ hsaved
  rw [hstatus, hexecuted] at hnode
  exact ⟨job', trace, w', hplain, hsteps, hexecuted, hrollbacks, hnode⟩

end EdgeFabric
