/-
Rotation of SSH keys (`internal/provisioning/rotation.go`): `RotateSSHKey` stores
a new key pair, `DeploySSHKey` brings the public key to the nodes that use it.

The client that opens sessions is an interface in the source, and a parameter
here: programs that deploy run in any monad that can read the store.
-/
import EdgeFabric.Provisioning.Steps
import EdgeFabric.Store.Services

namespace EdgeFabric

/-- `ssh.Client` and the sessions it opens. -/
structure SSHClient (m : Type → Type) where
  connect : SSHTarget → m (Except Err Unit)
  run : SSHTarget → (cmd : String) → m RemoteResult

def sshClient : SSHClient Reads where
  connect target := (sshConnect target).attempt
  run _ cmd := ask .ssh fun v t => .ok (v.remote t cmd)

def rotateSSHKey (keyID : ID) : Service SSHKey := do
  let existing ← (read (Store.getSSHKey keyID)).under "get SSH key"
  let key ← Reads.under "generate ed25519 key" (ask .random fun v t => orErr (v.ed25519 t))
  let publicKey ← Reads.under "convert public key" (ask .library fun v _ => orErr (v.authorizedKey key))
  let privKeyPEM ← Reads.under "marshal private key" (ask .random fun v t => orErr (v.privateKeyPEM t key))
  let privateKey ← (encryptSecret privKeyPEM).under "encrypt private key"
  let fingerprint ← ask .library fun v _ => .ok (v.fingerprintSHA256 publicKey)
  let t ← now
  let rotated := { existing with publicKey, privateKey, fingerprint, lastRotatedAt := t }
  (save fun _ => Store.updateSSHKey rotated).under "update SSH key"
  return { rotated with privateKey := "" }

/-- Where `deployKeyToNode` connects to. -/
def deployTarget (node : Node) (privKey : String) : SSHTarget :=
  { host := node.publicIP
    port := if node.sshPort = 0 then 22 else node.sshPort
    user := if node.sshUser = "" then "root" else node.sshUser
    privateKey := privKey }

/-- The command that adds a line to `authorized_keys` unless it is there. -/
def appendCommand (pubKey : String) : String :=
  "grep -qF " ++ quote pubKey ++ " ~/.ssh/authorized_keys 2>/dev/null || echo " ++ quote pubKey ++
    " >> ~/.ssh/authorized_keys"

/-- The nodes that `DeploySSHKey` does not skip. -/
def deploysTo (keyID : ID) (node : Node) : Bool :=
  node.sshKeyID = some keyID && (node.status = .online || node.status = .offline)

section
variable {m : Type → Type} [Monad m] (client : SSHClient m)

def deployKeyToNode (node : Node) (pubKey privKey : String) : m (Except Err Unit) := do
  let target := deployTarget node privKey
  match ← client.connect target with
  | .error e => return .error (.under "connect" e)
  | .ok _ =>
    let r ← client.run target (appendCommand pubKey)
    match r.error with
    | some msg => return .error (.under "append authorized_keys" (.text msg))
    | none => return .ok ()

/-- The loop of `DeploySSHKey`: the errors of the nodes it failed on. -/
def deployToNodes (keyID : ID) (pubKey privKey : String) : List Node → m (List String)
  | [] => return []
  | node :: nodes => do
    if deploysTo keyID node then
      match ← deployKeyToNode client node pubKey privKey with
      | .error e =>
        let rest ← deployToNodes keyID pubKey privKey nodes
        return ("node " ++ node.name ++ " (" ++ ID.text node.id ++ "): " ++ e.message) :: rest
      | .ok _ => deployToNodes keyID pubKey privKey nodes
    else deployToNodes keyID pubKey privKey nodes

/-- `DeploySSHKey`. The connections are made with the key that is stored. -/
def deploySSHKey [MonadLiftT Reads m] (keyID : ID) : m Unit := do
  let key ← (read (Store.getSSHKey keyID)).under "get SSH key"
  let privKeyPlain ← (decryptSecret key.privateKey).under "decrypt private key"
  let (nodes, _) ← (read (Store.listNodes none everything)).under "list nodes"
  match ← deployToNodes client keyID key.publicKey privKeyPlain nodes with
  | [] => return ()
  | e :: es =>
    let failed : Reads Unit :=
      Query.fail (.text ("deploy failed on " ++ toString (es.length + 1) ++ " node(s): " ++ e))
    failed

end

end EdgeFabric
