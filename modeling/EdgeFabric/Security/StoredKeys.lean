/-
SSH private keys on their way from the API to the SSH client. `SSHKeyHandler.Create`
stores the text that was sent; `connectToNode` decrypts what is stored. So it hands
over what `Decrypt` makes of the text, which is never the text (`createSSHKey_handsOver`);
a key that was sent as it is lies in the store in the clear, and no connection with it
can be made (`createSSHKey_stores_plaintext`).
-/
import EdgeFabric.Api.Router

namespace EdgeFabric

/-- What `Decrypt` returns is shorter than what it was given, which is base64 text with a nonce and a tag. -/
def Env.Shortens (v : Env) : Prop := ∀ c text, v.decrypt c = .ok text → text.length < c.length

/-- The text is one that `Encrypt` returns. -/
def Env.Ciphertext (v : Env) (c : String) : Prop := ∃ t text, v.encrypt t text = .ok c

/-- `connectToNode` comes to the SSH client, and hands it the private key. -/
def HandsOver (v : Env) (w : World) (node : Node) (privateKey : String) : Prop :=
  ∃ target w', (nodeTarget node).1.exec v w = (.ok target, w') ∧ target.privateKey = privateKey ∧
    (connectToNode node).1.exec v w = ((sshConnect target).under "SSH connect").1.exec v w'

section
variable {v : Env} {w : World} {s : Store} {node : Node}

theorem handsOver_iff {key : SSHKey} (hfault : v.fault w.tick = none) (hnode : node.sshKeyID = some key.id)
    (hkey : w.store.sshKeys.find key.id = some key) (privateKey : String) :
    HandsOver v w node privateKey ↔ v.decrypt key.privateKey = .ok privateKey := by
  have hget : dbAnswer v w (Store.getSSHKey key.id) = .ok key := by
    simp only [dbAnswer, hfault]
    exact selectRow_ok.mpr hkey
  have hread : ((read (Store.getSSHKey key.id)).under "get SSH key").1.exec v w = (.ok key, w.next) :=
    Reads.under_ok.mpr (Prod.ext hget rfl)
  have htarget : (nodeTarget node).1.exec v w =
      (do let privateKey ← (decryptSecret key.privateKey).under "decrypt SSH private key"
          pure ⟨node.publicIP, node.sshPort, node.sshUser, privateKey⟩ : Reads SSHTarget).1.exec v w.next := by
    unfold nodeTarget
    rw [hnode]
    dsimp only
    rw [Query.bind_val, Prog.exec_bind, hread]
  rw [Query.bind_val, Prog.exec_bind] at htarget
  constructor
  · rintro ⟨target, w', hrun, rfl, -⟩
    rw [htarget] at hrun
    rcases hdec : ((decryptSecret key.privateKey).under "decrypt SSH private key").1.exec v
      w.next with ⟨_ | text, w''⟩ <;> rw [hdec] at hrun <;> cases hrun
    exact orErr_ok.mp (congrArg Prod.fst (Reads.under_ok.mp hdec))
  · intro hdec
    have hplain : ((decryptSecret key.privateKey).under "decrypt SSH private key").1.exec v w.next =
        (.ok privateKey, w.next.next) :=
      Reads.under_ok.mpr (Prod.ext (orErr_ok.mpr hdec) rfl)
    rw [hplain] at htarget
    refine ⟨_, _, htarget, rfl, ?_⟩
    rw [connectToNode_eq, Query.bind_val, Prog.exec_bind, htarget]
    rfl

theorem SSHKeyHandler.create_ends (c : Caller) (req : SSHKeyHandler.CreateRequest) :
    Ends v s (SSHKeyHandler.create c (.ok req)).1
      (fun reply s' => ∃ k, reply = .created (.sshKey k.json) ∧ s'.sshKeys.find k.id = some k ∧
        k.privateKey = req.privateKey)
      fun _ _ => True := by
  refine .bind (.ofExcept (fun req' hreq => ?_) fun _ _ => trivial)
  cases hreq
  refine .bind (.ofExcept (fun _ _ => ?_) fun _ _ => trivial)
  refine .bind (.mapError (Ends.newID fun id => ?_))
  refine .bind (.mapError (Ends.save (fun now k s' hs => ?_) fun _ => trivial))
  obtain ⟨hk, t', hins, hs'⟩ := insertInto_ok hs
  have hfind : s'.sshKeys.find k.id = some k := by
    rw [hs']
    exact Table.find_eq_some.mpr ⟨(Table.mem_insert hins).mpr (.inr hk), rfl⟩
  refine .bind (auditLog_ends fun auditEvents => .pure ⟨k, rfl, hfind, ?_⟩)
  rw [hk]

end

/-- The private key of an accepted request is stored as it was sent. For as long as it is stored, and for every
node with the key, `connectToNode` hands what `Decrypt` makes of it to the SSH client, which is never the key itself. -/
theorem createSSHKey_handsOver {srv : Server} {v : Env} (hv : v.Shortens) {w : World} {r : Request}
    {req : SSHKeyHandler.CreateRequest} {resp : Response} (hr : r.endpoint = .service (.createSSHKey (.ok req)))
    (hresp : ((srv.serve r).exec v w).1 = .ok resp) :
    ∃ k, resp.reply = .created (.sshKey k.json) ∧
      ((srv.serve r).exec v w).2.store.sshKeys.find k.id = some k ∧ k.privateKey = req.privateKey ∧
      ∀ w' node, v.fault w'.tick = none → w'.store.sshKeys.find k.id = some k → node.sshKeyID = some k.id →
        (∀ text, HandsOver v w' node text ↔ v.decrypt req.privateKey = .ok text) ∧
          ¬ HandsOver v w' node req.privateKey := by
  have hends : Ends v w.store (srv.serve r) (fun resp s' => ∃ k, resp.reply = .created (.sshKey k.json) ∧
      s'.sshKeys.find k.id = some k ∧ k.privateKey = req.privateKey) fun _ _ => True := by
    unfold Server.serve
    rw [hr]
    refine .bind ((ServiceRequest.middleware_ends r.presented _).mono (fun claims s' _ => ?_) fun _ _ _ => trivial)
    refine .bind ((SSHKeyHandler.create_ends _ req).mono (fun reply s'' h => ?_) fun _ _ _ => trivial)
    exact .pure h
  obtain ⟨k, hreply, hstored, hpriv⟩ := hends.ok rfl (Prod.ext hresp rfl)
  refine ⟨k, hreply, hstored, hpriv, fun w' node hfault hkey hnode => ?_⟩
  have hands := handsOver_iff hfault hnode hkey
  rw [hpriv] at hands
  exact ⟨hands, fun h => (hv _ _ ((hands _).mp h)).false⟩

namespace Sample

def sealing : Env :=
  { Env.calm with
    encrypt := fun _ text => .ok ("enc:" ++ text)
    decrypt := fun c =>
      match Text.strip "enc:".toList c.toList with
      | some text => .ok (String.ofList text)
      | none => .error "ciphertext too short" }

theorem sealing_made {c text : String} (h : sealing.decrypt c = .ok text) : c = "enc:" ++ text := by
  unfold sealing at h
  dsimp only at h
  split at h
  · next rest hrest =>
    cases h
    rw [← String.toList_inj, String.toList_append, Text.strip_eq_some.mp hrest]
    exact congrArg _ String.toList_ofList.symm
  · cases h

theorem sealing_ciphertext {c text : String} (h : sealing.decrypt c = .ok text) : sealing.Ciphertext c :=
  ⟨0, text, congrArg Except.ok (sealing_made h).symm⟩

theorem sealing_shortens : sealing.Shortens := by
  intro c text h
  rw [sealing_made h, String.length_append]
  exact Nat.lt_add_of_pos_left (by decide)

def createKey (privateKey : String) : Request :=
  inSession sealing { userID := 7, tenantID := none, role := .superUser }
    (.service (.createSSHKey (.ok { name := "deploy", publicKey := "public", privateKey })))

def keyCreated (privateKey : String) : Except Reply Response × World :=
  (server.serve (createKey privateKey)).exec sealing ⟨0, fleet⟩

theorem keyCreated_eq (privateKey : String) :
    keyCreated privateKey =
      (((SSHKeyHandler.create ⟨{ userID := 7, tenantID := none, role := .superUser }, ""⟩
          (.ok { name := "deploy", publicKey := "public", privateKey })).1.exec sealing ⟨1, fleet⟩).1.map
            fun reply => { reply },
        ((SSHKeyHandler.create ⟨{ userID := 7, tenantID := none, role := .superUser }, ""⟩
          (.ok { name := "deploy", publicKey := "public", privateKey })).1.exec sealing ⟨1, fleet⟩).2) := by
  have hrole : '|' ∉ Role.superUser.toList := by decide
  exact serve_service_inSession hrole rfl (by decide) rfl

end Sample

/-- The private key is sent encrypted. -/
theorem createSSHKey_handsOver_sealed :
    ∃ resp k, (Sample.keyCreated "enc:private").1 = .ok resp ∧
      resp.reply = .created (.sshKey k.json) ∧ k.privateKey = "enc:private" ∧
      ∀ w' node, Sample.sealing.fault w'.tick = none → w'.store.sshKeys.find k.id = some k →
        node.sshKeyID = some k.id →
          HandsOver Sample.sealing w' node "private" ∧ ¬ HandsOver Sample.sealing w' node "enc:private" := by
  have hok : (Sample.keyCreated "enc:private").1.isOk = true := by
    rw [Sample.keyCreated_eq]
    decide
  cases hresp : (Sample.keyCreated "enc:private").1 with
  | error reply =>
    rw [hresp] at hok
    cases hok
  | ok resp =>
    obtain ⟨k, hreply, -, hpriv, hands⟩ := createSSHKey_handsOver Sample.sealing_shortens rfl hresp
    refine ⟨resp, k, rfl, hreply, hpriv, fun w' node hfault hkey hnode => ?_⟩
    exact ⟨((hands w' node hfault hkey hnode).1 "private").mpr (by decide), (hands w' node hfault hkey hnode).2⟩

/-- A private key is accepted as it is. It is stored in the clear, and a connection to a
node that uses it fails. -/
theorem createSSHKey_stores_plaintext :
    (∀ c text, Sample.sealing.decrypt c = .ok text → Sample.sealing.Ciphertext c) ∧
    (Response.of (Sample.keyCreated "private").1).reply.status = 201 ∧
    ∃ k ∈ (Sample.keyCreated "private").2.store.sshKeys, k.privateKey = "private" ∧
      ¬ Sample.sealing.Ciphertext k.privateKey ∧
      ((connectToNode { Sample.node 10 100 with sshKeyID := some k.id }).1.exec Sample.sealing
        (Sample.keyCreated "private").2).1 =
        .error (.under "decrypt SSH private key" (.text "ciphertext too short")) := by
  have hrun : (Response.of (Sample.keyCreated "private").1).reply.status = 201 ∧
      ∃ k ∈ (Sample.keyCreated "private").2.store.sshKeys.rows, k.privateKey = "private" ∧
      ((connectToNode { Sample.node 10 100 with sshKeyID := some k.id }).1.exec Sample.sealing
        (Sample.keyCreated "private").2).1 =
        .error (.under "decrypt SSH private key" (.text "ciphertext too short")) := by
    rw [Sample.keyCreated_eq]
    decide
  obtain ⟨hstatus, k, hk, hpriv, hconnect⟩ := hrun
  refine ⟨fun _ _ => Sample.sealing_ciphertext, hstatus, k, hk, hpriv, ?_, hconnect⟩
  rw [hpriv]
  intro hcipher
  obtain ⟨t, text, henc⟩ := hcipher
  have hlen := congrArg String.toList (Except.ok.inj henc)
  rw [String.toList_append] at hlen
  cases hlen

end EdgeFabric
