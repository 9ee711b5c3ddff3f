/-
The steps of the provisioning pipelines (`internal/provisioning/steps.go`). A
step's Go signature is `(string, error)`: its output is kept also when it fails,
so a step returns a `StepOutput` and does not fail as a program. The key step
also changes the node it works on.
-/
import EdgeFabric.Provisioning.Enrollment

namespace EdgeFabric

structure StepOutput where
  output : String
  error : Option Err := none
  deriving DecidableEq, Repr

def connectToNode (node : Node) : Reads Unit :=
  match node.sshKeyID with
  | none => Query.fail (.text "node has no SSH key assigned")
  | some keyID => do
    let key ← (read (Store.getSSHKey keyID)).under "get SSH key"
    let privateKey ← (decryptSecret key.privateKey).under "decrypt SSH private key"
    let target : SSHTarget := { host := node.publicIP, port := node.sshPort, user := node.sshUser, privateKey }
    Reads.under "SSH connect" (ask .ssh fun v t =>
      match v.connect t target with
      | none => .ok ()
      | some msg => .error (.text msg))

/-- Where `connectToNode` connects to, and with which key. -/
def nodeTarget (node : Node) : Reads SSHTarget :=
  match node.sshKeyID with
  | none => Query.fail (.text "node has no SSH key assigned")
  | some keyID => do
    let key ← (read (Store.getSSHKey keyID)).under "get SSH key"
    let privateKey ← (decryptSecret key.privateKey).under "decrypt SSH private key"
    return { host := node.publicIP, port := node.sshPort, user := node.sshUser, privateKey }

/-- `ssh.Client.Connect`. -/
def sshConnect (target : SSHTarget) : Reads Unit := ask .ssh fun v t =>
  match v.connect t target with
  | none => .ok ()
  | some msg => .error (.text msg)

theorem connectToNode_eq (node : Node) :
    connectToNode node = nodeTarget node >>= fun target => (sshConnect target).under "SSH connect" := by
  unfold connectToNode nodeTarget
  split
  · rfl
  · refine Subtype.ext ?_
    simp only [Query.bind_val, bind_assoc, Query.pure_val, pure_bind]
    rfl

/-- `session.Run` with the handling every step gives it: `finish` is what the step
makes of the output of a command that succeeds. -/
def runCommand (cmd context : String) (finish : String → StepOutput) : Reads StepOutput := do
  let r ← ask .ssh fun v t => .ok (v.remote t cmd)
  match r.error with
  | some msg => return { output := r.output, error := some (.under context (.text msg)) }
  | none => return finish r.output

def remoteStep (node : Node) (cmd context : String) (finish : String → StepOutput) : Reads StepOutput := do
  match ← (connectToNode node).attempt with
  | .error e => return { output := "", error := some e }
  | .ok _ => runCommand cmd context finish

/-- `strings.Contains`. -/
def containsText (s sub : String) : Bool := s.toList.tails.any (sub.toList.isPrefixOf ·)

def remoteBinaryPath : String := "/usr/local/bin/edgefabric"
def remoteBinaryStaging : String := "/usr/local/bin/edgefabric.new"
def remoteBinaryBackup : String := "/usr/local/bin/edgefabric.bak"

def stepValidateSSH (node : Node) : Reads StepOutput :=
  remoteStep node "echo edgefabric-ssh-ok && uname -a" "SSH validation failed" fun output =>
    if containsText output "edgefabric-ssh-ok" then { output }
    else { output, error := some (.text "SSH validation: unexpected output") }

def openBinary (p : Provisioner) : Reads Nat :=
  if p.binaryPath = "" then Query.fail (.text "binary_path not configured on provisioner")
  else do
    Reads.under ("open binary " ++ p.binaryPath) (ask .files fun v t => orErr (v.openBinary t))
    Reads.under "stat binary" (ask .files fun v t => orErr (v.statBinary t))

def stepUploadBinary (p : Provisioner) (node : Node) : Reads StepOutput := do
  match ← (do let size ← openBinary p; connectToNode node; return size : Reads Nat).attempt with
  | .error e => return { output := "", error := some e }
  | .ok size =>
    let made ← runCommand "mkdir -p /usr/local/bin" "create /usr/local/bin" fun output => { output }
    if made.error.isSome then return made
    match ← ask .ssh fun v t => .ok (v.upload t) with
    | some msg => return { output := "", error := some (.under "upload binary via SCP" (.text msg)) }
    | none => return { output := "binary uploaded to " ++ remoteBinaryStaging ++ " (" ++ toString size ++ " bytes)" }

def stepBackupBinary (node : Node) : Reads StepOutput :=
  remoteStep node ("if [ -f " ++ remoteBinaryPath ++ " ]; then cp " ++ remoteBinaryPath ++ " " ++ remoteBinaryBackup ++
    " && echo backed-up; else echo no-existing-binary; fi") "backup binary" fun output => { output }

def stepAtomicSwap (node : Node) : Reads StepOutput :=
  remoteStep node ("mv " ++ remoteBinaryStaging ++ " " ++ remoteBinaryPath) "atomic swap" fun _ =>
    { output := "binary swapped atomically" }

def stepRollback (node : Node) : Reads StepOutput :=
  remoteStep node ("if [ -f " ++ remoteBinaryBackup ++ " ]; then mv " ++ remoteBinaryBackup ++ " " ++
    remoteBinaryPath ++
    " && systemctl restart edgefabric && echo rolled-back; else echo no-backup-available; fi") "rollback"
    fun output => { output }

/-- `provisioning.GenerateNodeConfig`. -/
def generateAgentConfig (controllerAddr enrollmentToken dataDir : String) : String :=
  "role: node\nlog_level: info\nnode:\n" ++
  "  controller_addr: " ++ quote controllerAddr ++ "\n" ++
  "  enrollment_token: " ++ quote enrollmentToken ++ "\n" ++
  "  data_dir: " ++ quote dataDir ++ "\n"

/-- Writes the agent's configuration, with a fresh enrollment token. A node without a
tenant gets a token of the zero tenant. -/
def stepWriteConfig (p : Provisioner) (node : Node) : M StepOutput := do
  match ← (connectToNode node).attempt with
  | .error e => return { output := "", error := some e }
  | .ok _ =>
    match ← (generateEnrollmentToken (node.tenantID.getD 0) node.id).attempt with
    | .error e => return { output := "", error := some (.under "generate enrollment token" e) }
    | .ok token =>
      let cfg := generateAgentConfig p.extURL token.token "/var/lib/edgefabric"
      runCommand ("mkdir -p /etc/edgefabric && cat > /etc/edgefabric/config.yaml << 'EFCONFIG'\n" ++ cfg ++
        "\nEFCONFIG") "write config" fun _ => { output := "config written to /etc/edgefabric/config.yaml" }

def generateSystemdUnit : String :=
  "[Unit]\nDescription=EdgeFabric Agent\nAfter=network-online.target\nWants=network-online.target\n\n" ++
  "[Service]\nType=simple\nExecStart=/usr/local/bin/edgefabric --config /etc/edgefabric/config.yaml\n" ++
  "Restart=on-failure\nRestartSec=5\nLimitNOFILE=65535\n\n[Install]\nWantedBy=multi-user.target"

def stepInstallSystemd (node : Node) : Reads StepOutput :=
  remoteStep node ("cat > /etc/systemd/system/edgefabric.service << 'EFUNIT'\n" ++ generateSystemdUnit ++
    "\nEFUNIT\nsystemctl daemon-reload && systemctl enable edgefabric") "install systemd unit" fun _ =>
    { output := "systemd unit installed and enabled" }

def stepStartService (node : Node) : Reads StepOutput :=
  remoteStep node "systemctl start edgefabric" "start service" fun _ => { output := "edgefabric service started" }

def stepStopService (node : Node) : Reads StepOutput :=
  remoteStep node "systemctl stop edgefabric" "stop service" fun _ => { output := "edgefabric service stopped" }

/-- Keys, overlay addresses and a peer record for the node, whether or not it has one
already. The node keeps its new addresses in memory even if storing them fails. -/
def stepGenerateWGKeys (p : Provisioner) (node : Node) : M (Node × StepOutput) := do
  match ← (createNodePeer p node).attempt with
  | .error e => return (node, { output := "", error := some e })
  | .ok node =>
    match ← (write (Store.updateNode node)).attempt with
    | .error e => return (node, { output := "", error := some (.under "update node overlay IP" e) })
    | .ok node => return (node, { output := "WG keys generated, overlay IP " ++ node.wireGuardIP ++ " assigned" })

def stepConfigureWireGuard (p : Provisioner) (node : Node) : Reads StepOutput := do
  match p.wgConfigGen with
  | none => return { output := "wireguard config sync skipped (config generator not configured)" }
  | some gen =>
    match ← (gen node.id).attempt with
    | .error e => return { output := "", error := some (.under "generate WG config" e) }
    | .ok wgConf =>
      match ← (connectToNode node).attempt with
      | .error e => return { output := "", error := some e }
      | .ok _ =>
        let wrote ← runCommand ("mkdir -p /etc/wireguard && cat > /etc/wireguard/wg0.conf << 'WGCONF'\n" ++ wgConf ++
          "\nWGCONF") "write wg0.conf" fun output => { output }
        if wrote.error.isSome then return wrote
        runCommand "wg-quick down wg0 2>/dev/null; wg-quick up wg0" "wg-quick up" fun _ =>
          { output := "wireguard config written and interface started" }

def stepWaitEnrollment : Reads StepOutput := pure { output := "enrollment acknowledged (v1: auto-complete)" }

def stepVerifyOnline (node : Node) : Reads StepOutput :=
  remoteStep node "systemctl is-active edgefabric" "service not active" fun output =>
    if containsText output "active" then { output := "edgefabric service verified active" }
    else { output, error := some (.text ("service status: " ++ output)) }

def commandFor : ProvisioningAction → String
  | .start => "systemctl start edgefabric"
  | .stop | .decommission => "systemctl stop edgefabric"
  | .restart | .upgrade => "systemctl restart edgefabric"
  | .enroll | .reprovision => "systemctl status edgefabric"

def stepSendCommand (action : ProvisioningAction) (node : Node) : Reads StepOutput :=
  let cmd := commandFor action
  remoteStep node cmd ("send command " ++ quote cmd) fun _ => { output := "command " ++ quote cmd ++ " executed" }

def cleanupCommand : String :=
  " && ".intercalate
    [ "systemctl disable edgefabric 2>/dev/null || true",
      "rm -f /etc/systemd/system/edgefabric.service",
      "systemctl daemon-reload",
      "rm -f /usr/local/bin/edgefabric",
      "rm -rf /etc/edgefabric",
      "rm -rf /var/lib/edgefabric" ]

/-- The record that the lookup finds is deleted; both errors are ignored. -/
def deleteNodePeer (nodeID : ID) : M Unit := do
  match ← (lookupNodePeer nodeID).attempt with
  | .error _ => pure ()
  | .ok peer =>
    let _ ← (writeAs (.deleteWireGuardPeer nodeID) fun _ => Store.deleteWireGuardPeer peer.id).attempt

def stepCleanup (node : Node) : M StepOutput := do
  let cleaned ← remoteStep node cleanupCommand "cleanup" fun _ => { output := "node cleaned up and decommissioned" }
  match cleaned.error with
  | some _ => return cleaned
  | none =>
    deleteNodePeer node.id
    return cleaned

/-- `executeStep`: what the step makes of the node, and its output. -/
def executeStep (p : Provisioner) (job : ProvisioningJob) (node : Node) : ProvisioningStep → M (Node × StepOutput)
  | .generateWGKeys => stepGenerateWGKeys p node
  | .writeConfig => do return (node, ← stepWriteConfig p node)
  | .cleanup => do return (node, ← stepCleanup node)
  | .validateSSH => do return (node, ← stepValidateSSH node)
  | .uploadBinary => do return (node, ← stepUploadBinary p node)
  | .installSystemd => do return (node, ← stepInstallSystemd node)
  | .startService => do return (node, ← stepStartService node)
  | .configureWireGuard => do return (node, ← stepConfigureWireGuard p node)
  | .waitEnrollment => do return (node, ← stepWaitEnrollment)
  | .verifyOnline => do return (node, ← stepVerifyOnline node)
  | .stopService => do return (node, ← stepStopService node)
  | .sendCommand => do return (node, ← stepSendCommand job.action node)
  | .backupBinary => do return (node, ← stepBackupBinary node)
  | .atomicSwap => do return (node, ← stepAtomicSwap node)
  | .rollback => do return (node, ← stepRollback node)

end EdgeFabric
