/-
Provisioning jobs (`internal/provisioning/provisioner.go`, `statemachine.go`): an
action on a node is checked and recorded as a job, and its pipeline runs step by
step in the background. Store errors inside the pipeline are ignored, as in the
source.
-/
import EdgeFabric.Provisioning.Steps

namespace EdgeFabric

def pipelineFor : ProvisioningAction → List ProvisioningStep
  | .enroll | .reprovision =>
    [.validateSSH, .uploadBinary, .writeConfig, .installSystemd, .startService, .generateWGKeys,
      .configureWireGuard, .waitEnrollment, .verifyOnline]
  | .upgrade => [.validateSSH, .backupBinary, .uploadBinary, .stopService, .atomicSwap, .startService, .verifyOnline]
  | .start | .stop | .restart => [.sendCommand]
  | .decommission => [.sendCommand, .cleanup]

/-- `shouldRollback`: a backup was taken before the step that failed. -/
def shouldRollback (failedStep : ProvisioningStep) : List ProvisioningStep → Bool → Bool
  | [], _ => false
  | s :: rest, backupSeen =>
    let backupSeen := backupSeen || s = .backupBinary
    if s = failedStep then backupSeen else shouldRollback failedStep rest backupSeen

/-- `_ = p.jobs.UpdateProvisioningJob(ctx, job)`. -/
def saveJob (job : ProvisioningJob) : M Unit := do
  let _ ← (write (Store.updateProvisioningJob job)).attempt

/-- `_ = p.nodes.UpdateNode(ctx, node)`. -/
def saveNode (node : Node) : M Unit := do
  let _ ← (write (Store.updateNode node)).attempt

def timed (step : ProvisioningStep) (run : M (Node × StepOutput)) : M (Node × StepResult × Option Err) := do
  let startedAt ← now
  let (node, out) ← run
  let ended ← now
  return (node,
    { step, startedAt, durationMs := (ended - startedAt) / 1000000, output := out.output
      status := if out.error.isSome then .failed else .success
      error := (out.error.map Err.message).getD "" },
    out.error)

def statusAfter : ProvisioningAction → NodeStatus
  | .enroll | .start | .restart | .upgrade | .reprovision => .online
  | .stop => .offline
  | .decommission => .decommissioned

def updateNodeStatusAfterCompletion (node : Node) (action : ProvisioningAction) : M Unit :=
  saveNode { node with status := statusAfter action }

/-- An upgrade that fails past the backup step is rolled back, and the rollback
recorded. -/
def rollbackResults (job : ProvisioningJob) (node : Node) (steps : List ProvisioningStep) (step : ProvisioningStep) :
    M (List StepResult) :=
  if job.action = .upgrade ∧ shouldRollback step steps false then do
    let (_, rbResult, _) ← timed .rollback (do return (node, ← stepRollback node))
    return [rbResult]
  else pure []

/-- The node of an enrollment is stored with the status given; other actions leave
it alone until they complete. -/
def saveEnrolling (job : ProvisioningJob) (node : Node) (status : NodeStatus) : M Unit :=
  if job.action = .enroll then saveNode { node with status } else pure ()

/-- The end of a pipeline whose step `step` failed with `e`. -/
def failJob (job : ProvisioningJob) (node : Node) (steps : List ProvisioningStep) (step : ProvisioningStep) (e : Err)
    (results : List StepResult) : M ProvisioningJob := do
  let rollback ← rollbackResults job node steps step
  let completedAt ← now
  let job := { job with
    status := .failed, error := "step " ++ step.text ++ " failed: " ++ e.message
    completedAt := some completedAt, steps := some (results ++ rollback) }
  saveJob job
  saveEnrolling job node .error
  return job

/-- The loop of `runPipeline` over the remaining steps. -/
def runSteps (p : Provisioner) (steps : List ProvisioningStep) :
    List ProvisioningStep → ProvisioningJob → Node → List StepResult → M ProvisioningJob
  | [], job, node, results => do
    let completedAt ← now
    let job := { job with status := .completed, completedAt := some completedAt, steps := some results }
    saveJob job
    updateNodeStatusAfterCompletion node job.action
    return job
  | step :: rest, job, node, results => do
    let job := { job with currentStep := some step, steps := some results }
    saveJob job
    let (node, result, error) ← timed step (executeStep p job node step)
    match error with
    | some e => failJob job node steps step e (results ++ [result])
    | none => runSteps p steps rest job node (results ++ [result])

/-- `runPipeline`. The job is returned as it is in memory at the end. -/
def runPipeline (p : Provisioner) (job : ProvisioningJob) (node : Node) (steps : List ProvisioningStep) :
    M ProvisioningJob := do
  let startedAt ← now
  let job := { job with status := .running, startedAt := some startedAt }
  saveJob job
  saveEnrolling job node .enrolling
  let node := if job.action = .enroll then { node with status := NodeStatus.enrolling } else node
  runSteps p steps steps job node []

/-- The checks of `startAction`: the transition is valid and no other job is active. -/
def checkAction (node : Node) (action : ProvisioningAction) : Reads Unit :=
  if isValidTransition action node.status then do
    match ← (read (Store.getActiveProvisioningJob node.id)).attempt with
    | .ok _ => Query.fail (.detail .conflict "node already has an active provisioning job")
    | .error .notFound => pure ()
    | .error e => Query.fail (.under "check active job" e)
  else Query.fail (.detail .conflict ("cannot " ++ action.text ++ " node in " ++ node.status ++ " state"))

/-- `startAction` up to the start of the background pipeline: the new job, which the
caller gets, and the node the pipeline works on. -/
def startAction (nodeID initiatedBy : ID) (action : ProvisioningAction) : M (ProvisioningJob × Node) := do
  let node ← (read (Store.getNode nodeID)).under "get node"
  checkAction node action
  let id ← newID
  let job : ProvisioningJob :=
    { id, nodeID, tenantID := node.tenantID, action, status := .pending, currentStep := (pipelineFor action).head?
      steps := none, error := "", initiatedBy, startedAt := none, completedAt := none, createdAt := 0, updatedAt := 0 }
  let job ← (write (Store.createProvisioningJob job)).under "create job"
  return (job, node)

/-- A whole action: the request, and the pipeline it starts. -/
def provision (p : Provisioner) (nodeID initiatedBy : ID) (action : ProvisioningAction) : M ProvisioningJob := do
  let (job, node) ← startAction nodeID initiatedBy action
  runPipeline p job node (pipelineFor action)

end EdgeFabric
