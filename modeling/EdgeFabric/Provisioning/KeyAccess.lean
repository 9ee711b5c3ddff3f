/-
Whether the hosts let the controller in while an SSH key is rotated. The hosts'
`authorized_keys` are part of the state here, next to the controller's own;
`DeploySSHKey` runs with a client that a host lets in by what its file says.

The connections of `DeploySSHKey` are made with the key that `RotateSSHKey` has
just stored, which the hosts do not know yet: after a rotation the controller is
locked out of every node (`rotation_locks_out`). A deployment adds lines only where
the new key is let in already, so that the hosts keep letting the controller in
precisely if the new key has come to all of them by other means
(`rotation_keeps_access`).
-/
import EdgeFabric.Provisioning.Rotation

namespace EdgeFabric

/-- An account on a host. -/
structure SSHAccount where
  host : String
  port : Int
  user : String
  deriving DecidableEq, Repr

def SSHTarget.account (target : SSHTarget) : SSHAccount := ⟨target.host, target.port, target.user⟩

abbrev Hosts := SSHAccount → List String

/-- What runs on the hosts: the server knows which lines let a private key in, and the
shell may change the lines. -/
structure Remote where
  authorizes : (line privateKey : String) → Bool
  shell : (cmd : String) → List String → List String

namespace Remote
variable (r : Remote)

def accepts (hosts : Hosts) (target : SSHTarget) : Bool :=
  (hosts target.account).any fun line => r.authorizes line target.privateKey

end Remote

abbrev Hosted := Prog Call Env (World × Hosts) Err

instance : MonadLift Reads Hosted := ⟨fun q => q.1.onFst⟩
instance : MonadLift Service Hosted := ⟨fun q => q.1.onFst⟩

/-- The client. A connection may be lost, or be refused by the host. -/
def Remote.client (r : Remote) : SSHClient Hosted where
  connect target := .call .ssh fun v s =>
    (.ok (match v.connect s.1.tick target with
      | some msg => .error (.text msg)
      | none => if r.accepts s.2 target then .ok () else .error (.text "ssh: unable to authenticate")),
      s.1.next, s.2)
  run target cmd := .call .ssh fun v s =>
    (.ok (v.remote s.1.tick cmd),
      s.1.next, Function.update s.2 target.account (r.shell cmd (s.2 target.account)))

/-- `DeploySSHKey`, called a number of times. -/
def deployments (r : Remote) (v : Env) (keyID : ID) (n : Nat) (x : World × Hosts) :
    List (Session.Exchange Unit (World × Hosts) Err Unit) :=
  Session.run (fun _ => deploySSHKey r.client keyID) v (.replicate n ()) x

/-- The store and the hosts: what of the state the statements below are about. -/
def hostedView (x : World × Hosts) : Store × Hosts := (x.1.store, x.2)

/-- Every node that is online or offline and uses the key lets the private key in that is
stored for it. -/
def KeyAccepted (r : Remote) (v : Env) (keyID : ID) (x : Store × Hosts) : Prop :=
  ∃ key privKey, x.1.getSSHKey keyID = .ok key ∧ v.decrypt key.privateKey = .ok privKey ∧
    ∀ node ∈ x.1.nodes, deploysTo keyID node = true → r.accepts x.2 (deployTarget node privKey) = true

/-- Neither the database nor a connection fails. -/
structure Env.Reliable (v : Env) : Prop where
  fault : ∀ t, v.fault t = none
  connect : ∀ t target, v.connect t target = none
  remote : ∀ t cmd, (v.remote t cmd).error = none

/-- Adding a line to `authorized_keys` removes none. -/
def Remote.KeepsLines (r : Remote) : Prop := ∀ pubKey lines, lines ⊆ r.shell (appendCommand pubKey) lines

/-! ## Deployments -/

/-- Lines have been added, and only to files that let the private key in. -/
def Hosts.Reached (r : Remote) (privKey : String) (hosts hosts' : Hosts) : Prop :=
  ∀ account, hosts account ⊆ hosts' account ∧
    ((hosts account).any (r.authorizes · privKey) = false → hosts' account = hosts account)

section
variable {r : Remote} {v : Env} {keyID : ID} {s : Store} {privKey : String} {hosts hosts' : Hosts}

theorem Hosts.Reached.refl : hosts.Reached r privKey hosts := fun _ => ⟨List.Subset.refl _, fun _ => rfl⟩

theorem Hosts.Reached.trans {hosts'' : Hosts} (h : hosts.Reached r privKey hosts')
    (h' : hosts'.Reached r privKey hosts'') : hosts.Reached r privKey hosts'' := by
  refine fun account => ⟨List.Subset.trans (h account).1 (h' account).1, fun hnone => ?_⟩
  have hsame := (h account).2 hnone
  rw [(h' account).2 (hsame ▸ hnone), hsame]

theorem Hosts.Reached.accepts (h : hosts.Reached r privKey hosts') (node : Node) :
    r.accepts hosts' (deployTarget node privKey) = r.accepts hosts (deployTarget node privKey) := by
  unfold Remote.accepts
  cases hacc : (hosts (deployTarget node privKey).account).any (r.authorizes · privKey) with
  | false => exact congrArg (List.any · _) ((h _).2 hacc)
  | true =>
    obtain ⟨line, hline, hauth⟩ := List.any_eq_true.mp hacc
    exact (List.any_eq_true.mpr ⟨line, (h _).1 hline, hauth⟩).trans hacc.symm

/-- Started with the store `s` and the hosts `hosts`, the program keeps the store and adds lines
to files only that let the private key in; its value is in `Q`, and if it fails, in `E`. -/
abbrev Deploys {α : Type} (r : Remote) (privKey : String) (v : Env) (s : Store) (hosts : Hosts) (p : Hosted α)
    (Q : α → Prop) (E : Prop) : Prop :=
  p.Ensures hostedView v (s, hosts) (fun a x => Q a ∧ x.1 = s ∧ hosts.Reached r privKey x.2)
    fun _ x => E ∧ x.1 = s ∧ hosts.Reached r privKey x.2

variable {E : Prop}

theorem Deploys.reads {α : Type} {q : Reads α} {Q : α → Prop}
    (h : Ends v s q.1 (fun a s' => Q a ∧ s' = s) fun _ _ => False) : Deploys r privKey v s hosts (liftM q) Q E :=
  .onFst (h.mono (fun _ _ ha => ⟨ha.1, ha.2, .refl⟩) fun _ _ he => he.elim)

theorem Deploys.bind {α β : Type} {p : Hosted α} {f : α → Hosted β} {R : α → Prop} {Q : β → Prop}
    (hp : Deploys r privKey v s hosts p R E)
    (hf : ∀ a, R a → ∀ hosts', hosts.Reached r privKey hosts' → Deploys r privKey v s hosts' (f a) Q E) :
    Deploys r privKey v s hosts (p >>= f) Q E := by
  refine Prog.Ensures.bind (hp.mono ?_ fun _ _ he => he)
  intro a x hx
  obtain ⟨s', hosts'⟩ := x
  obtain ⟨ha, hs, hreached⟩ := hx
  cases hs
  exact (hf a ha hosts' hreached).mono (fun b y hb => ⟨hb.1, hb.2.1, hreached.trans hb.2.2⟩)
    fun _ _ he => ⟨he.1, he.2.1, hreached.trans he.2.2⟩

theorem Deploys.pure {α : Type} {a : α} {Q : α → Prop} (h : Q a) : Deploys r privKey v s hosts (Pure.pure a) Q E :=
  Prog.Ensures.pure ⟨h, rfl, .refl⟩

variable (hv : v.Reliable) (hr : r.KeepsLines)
include hv

theorem connect_deploys (target : SSHTarget) :
    Deploys r privKey v s hosts (r.client.connect target)
      (fun res => res = .ok () ↔ r.accepts hosts target = true) E := by
  refine .of_exec fun x hx res x' h => ?_
  obtain ⟨w, hosts₁⟩ := x
  obtain ⟨hs, rfl⟩ := Prod.mk.inj hx
  cases h
  refine ⟨?_, hs, .refl⟩
  rw [hv.connect]
  cases hacc : r.accepts hosts₁ target <;> simp

include hr

theorem append_deploys {target : SSHTarget} (htarget : target.privateKey = privKey)
    (hacc : r.accepts hosts target = true) (pubKey : String) :
    Deploys r privKey v s hosts (r.client.run target (appendCommand pubKey)) (fun res => res.error = none) E := by
  refine .of_exec fun x hx res x' h => ?_
  obtain ⟨w, hosts₁⟩ := x
  obtain ⟨hs, rfl⟩ := Prod.mk.inj hx
  cases h
  refine ⟨hv.remote _ _, hs, fun account => ?_⟩
  change _ ⊆ Function.update hosts₁ _ _ account ∧ (_ → Function.update hosts₁ _ _ account = _)
  by_cases ha : account = target.account
  · rw [ha, Function.update_self]
    refine ⟨hr pubKey _, fun hnone => ?_⟩
    rw [← htarget] at hnone
    exact absurd (hacc.symm.trans hnone) (by decide)
  · rw [Function.update_of_ne ha]
    exact ⟨List.Subset.refl _, fun _ => rfl⟩

theorem deployKeyToNode_deploys (node : Node) (pubKey : String) :
    Deploys r privKey v s hosts (deployKeyToNode r.client node pubKey privKey)
      (fun res => r.accepts hosts (deployTarget node privKey) = true → res = .ok ()) E := by
  refine .bind (connect_deploys hv _) ?_
  intro connected hc hosts₁ h₁
  cases connected with
  | error e => exact .pure fun hacc => nomatch hc.mpr hacc
  | ok u =>
    refine .bind (append_deploys hv hr rfl ((h₁.accepts node).trans (hc.mp rfl)) _) ?_
    intro res hres hosts₂ _
    rw [hres]
    exact .pure fun _ => rfl

/-- The loop, by induction on the nodes: whether a host lets the key in does not change. -/
theorem deployToNodes_deploys (pubKey : String) (nodes : List Node) :
    Deploys r privKey v s hosts (deployToNodes r.client keyID pubKey privKey nodes)
      (fun errors => (∀ node ∈ nodes, deploysTo keyID node = true →
        r.accepts hosts (deployTarget node privKey) = true) → errors = []) E := by
  induction nodes generalizing hosts with
  | nil => exact .pure fun _ => rfl
  | cons node nodes ih =>
    have hrest : ∀ hosts', hosts.Reached r privKey hosts' →
        Deploys r privKey v s hosts' (deployToNodes r.client keyID pubKey privKey nodes) (fun errors =>
          (∀ n ∈ node :: nodes, deploysTo keyID n = true → r.accepts hosts (deployTarget n privKey) = true) →
            errors = [])
          E := fun hosts' hreached => by
      refine ih.mono (fun errors x hx => ⟨fun hall => hx.1 fun n hn hd => ?_, hx.2⟩) fun _ _ he => he
      rw [hreached.accepts]
      exact hall n (List.mem_cons_of_mem _ hn) hd
    unfold deployToNodes
    split
    · next hd =>
      refine .bind (deployKeyToNode_deploys hv hr node pubKey) ?_
      intro deployed hdep hosts₁ hreached
      cases deployed with
      | ok u => exact hrest hosts₁ hreached
      | error e =>
        refine .bind (hrest hosts₁ hreached) fun errors _ hosts₂ _ => .pure fun hall => ?_
        exact nomatch hdep (hall node List.mem_cons_self hd)
    · exact hrest hosts .refl

/-- A deployment succeeds if all nodes let the stored private key in. -/
theorem deploySSHKey_deploys {key : SSHKey} (hget : s.getSSHKey keyID = .ok key)
    (hdec : v.decrypt key.privateKey = .ok privKey) :
    Deploys r privKey v s hosts (deploySSHKey r.client keyID) (fun _ => True)
      (¬ ∀ node ∈ s.nodes, deploysTo keyID node = true → r.accepts hosts (deployTarget node privKey) = true) := by
  refine .bind (R := (· = key)) (.reads (.mapError (Ends.read_ok hv.fault hget ⟨rfl, rfl⟩))) ?_
  intro key' hkey hosts₁ h₁
  subst hkey
  refine .bind (R := (· = privKey)) (.reads (.mapError (Ends.ask_ok (fun _ => orErr_ok.mpr hdec) ⟨rfl, rfl⟩))) ?_
  intro privKey' hpriv hosts₂ h₂
  subst hpriv
  refine .bind (R := fun page => ∀ node ∈ page.1, node ∈ s.nodes)
    (.reads (.mapError (Ends.read_ok hv.fault rfl
      ⟨fun node hn => mem_newestFirst.mp (ListParams.mem_of_mem_page hn), rfl⟩))) ?_
  intro page hpage hosts₃ h₃
  obtain ⟨nodes, total⟩ := page
  refine .bind (deployToNodes_deploys hv hr _ nodes) ?_
  intro errors herrors hosts₄ h₄
  cases errors with
  | nil => exact .pure trivial
  | cons e es =>
    refine Prog.Ensures.fail ⟨fun hall => ?_, rfl, .refl⟩
    refine List.cons_ne_nil e es (herrors fun node hn hd => ?_)
    rw [((h₁.trans h₂).trans h₃).accepts]
    exact hall node (hpage node hn) hd

/-- Whatever comes of the deployments, the store stays, and so does what lets the key in. -/
theorem final_deploys {x : World × Hosts} {key : SSHKey} (hget : x.1.store.getSSHKey keyID = .ok key)
    (hdec : v.decrypt key.privateKey = .ok privKey) (n : Nat) :
    (Session.final (fun _ => deploySSHKey r.client keyID) v (.replicate n ()) x).1.store = x.1.store ∧
      x.2.Reached r privKey (Session.final (fun _ => deploySSHKey r.client keyID) v (.replicate n ()) x).2 := by
  induction n generalizing x with
  | zero => exact ⟨rfl, .refl⟩
  | succ n ih =>
    have hstep : ((deploySSHKey r.client keyID).exec v x).2.1.store = x.1.store ∧
        x.2.Reached r privKey ((deploySSHKey r.client keyID).exec v x).2.2 :=
      Prog.Ensures.exec_view (I := fun y : Store × Hosts => y.1 = x.1.store ∧ x.2.Reached r privKey y.2)
        ((deploySSHKey_deploys hv hr hget hdec).mono (fun _ _ h => h.2) fun _ _ h => h.2) rfl
    obtain ⟨hstore, hreached⟩ := ih (x := ((deploySSHKey r.client keyID).exec v x).2) (by rw [hstep.1]; exact hget)
    exact ⟨hstore.trans hstep.1, hstep.2.trans hreached⟩

end

/-! ## Rotations -/

/-- What `RotateSSHKey` finds and is given: a row of the key, and a key pair, of whose private key in PEM the secret
store makes a text that it can decrypt. -/
structure Rotates (v : Env) (keyID : ID) (w : World) (privKeyPEM : String) : Prop where
  stored : ∃ existing, w.store.getSSHKey keyID = .ok existing
  pair : ∃ key publicKey, v.ed25519 (w.tick + 1) = .ok key ∧ v.authorizedKey key = .ok publicKey ∧
    v.privateKeyPEM (w.tick + 3) key = .ok privKeyPEM
  sealed : ∃ text, v.encrypt (w.tick + 4) privKeyPEM = .ok text ∧ v.decrypt text = .ok privKeyPEM

theorem Rotates.ends {v : Env} (hv : v.Reliable) {keyID : ID} {w : World} {privKeyPEM : String}
    (h : Rotates v keyID w privKeyPEM) :
    EndsAt v w (rotateSSHKey keyID).1
      (fun _ w' => w'.store.nodes = w.store.nodes ∧ ∃ key, w'.store.getSSHKey keyID = .ok key ∧
        v.decrypt key.privateKey = .ok privKeyPEM)
      fun _ _ => False := by
  obtain ⟨existing, hget⟩ := h.stored
  obtain ⟨key, publicKey, hkey, hpub, hpem⟩ := h.pair
  obtain ⟨text, henc, hdec⟩ := h.sealed
  have hfault : ∀ t msg, v.fault t ≠ some msg := fun t msg hf => nomatch (hv.fault t).symm.trans hf
  refine .bind (.mapError
    (EndsAt.read ?_ (fun msg hf => hfault _ msg hf) fun e he => nomatch hget.symm.trans he))
  intro existing' _ hget'
  obtain rfl : existing' = existing := Except.ok.inj (hget'.symm.trans hget)
  have hfind := selectRow_ok.mp hget'
  have hid : existing'.id = keyID := (Table.find_eq_some.mp hfind).2
  refine .bind (.mapError (EndsAt.ask_ok (orErr_ok.mpr hkey) ?_))
  refine .bind (.mapError (EndsAt.ask_ok (orErr_ok.mpr hpub) ?_))
  refine .bind (.mapError (EndsAt.ask_ok (orErr_ok.mpr hpem) ?_))
  refine .bind (.mapError (EndsAt.ask_ok (orErr_ok.mpr henc) ?_))
  refine .bind (EndsAt.lift (EndsAt.ask_ok rfl ?_))
  refine .bind (EndsAt.lift (EndsAt.ask_ok rfl ?_))
  refine .bind (.mapError (EndsAt.save ?_ (fun msg hf => hfault _ msg hf) ?_))
  · intro _ s' _ hsave
    obtain ⟨-, old, rows, -, hset, rfl⟩ := updateIn_ok hsave
    exact .pure ⟨rfl, _, selectRow_ok.mpr (hid ▸ Table.find_set_self hset), hdec⟩
  · exact fun e he => updateIn_found (hid ▸ hfind) rfl he

/-- `RotateSSHKey` succeeds, and after any number of `DeploySSHKey` calls the last one has succeeded and every node that
uses the key lets the stored private key in, precisely if the files of all of them let the new private key in when
the first of these calls starts. -/
theorem rotation_keeps_access {r : Remote} {v : Env} (hv : v.Reliable) (hr : r.KeepsLines) {keyID : ID} {w : World}
    {privKeyPEM : String} (hrotates : Rotates v keyID w privKeyPEM) (hosts : Hosts) (n : Nat) :
    (((rotateSSHKey keyID).1.exec v w).1.isOk = true ∧
      ∃ y, (deployments r v keyID (n + 1) (((rotateSSHKey keyID).1.exec v w).2, hosts)).getLast? = some y ∧
        y.answer = .ok () ∧ KeyAccepted r v keyID (hostedView y.after)) ↔
      ∀ node ∈ w.store.nodes, deploysTo keyID node = true → r.accepts hosts (deployTarget node privKeyPEM) = true := by
  rcases hrun : (rotateSSHKey keyID).1.exec v w with ⟨answer | answer, w₁⟩
  · exact ((hrotates.ends hv).error rfl hrun).elim
  obtain ⟨hnodes, key, hget, hdec⟩ : w₁.store.nodes = w.store.nodes ∧ _ := (hrotates.ends hv).ok rfl hrun
  obtain ⟨hstore, hreached⟩ := final_deploys (x := (w₁, hosts)) hv hr hget hdec n
  rw [deployments, List.replicate_succ', Session.run_concat, List.getLast?_concat]
  set x := Session.final (fun _ => deploySSHKey r.client keyID) v (.replicate n ()) (w₁, hosts)
  have hview : hostedView x = (w₁.store, x.2) := Prod.ext hstore rfl
  have hlast : Deploys r privKeyPEM v w₁.store x.2 (deploySSHKey r.client keyID) (fun _ => True) _ :=
    deploySSHKey_deploys hv hr hget hdec
  constructor
  · rintro ⟨-, y, hy, hok, key', privKey, hget', hdec', hall⟩ node hn hd
    obtain rfl := Option.some.inj hy
    obtain ⟨-, hs, hreached'⟩ := hlast.ok hview (Prod.ext hok rfl)
    simp only [Session.exchange] at hget' hall
    rw [hs] at hget' hall
    obtain rfl := Except.ok.inj (hget.symm.trans hget')
    obtain rfl := Except.ok.inj (hdec.symm.trans hdec')
    rw [← hreached.accepts, ← hreached'.accepts]
    exact hall node (hnodes ▸ hn) hd
  · intro hall
    have hstill : ∀ node ∈ w₁.store.nodes, deploysTo keyID node = true →
        r.accepts x.2 (deployTarget node privKeyPEM) = true := fun node hn hd =>
      (hreached.accepts node).trans (hall node (hnodes ▸ hn) hd)
    refine ⟨rfl, _, rfl, ?_⟩
    rcases hexec : (deploySSHKey r.client keyID).exec v x with ⟨e | u, x'⟩
    · exact ((hlast.error hview hexec).1 hstill).elim
    · obtain ⟨-, hs, hreached'⟩ := hlast.ok hview hexec
      simp only [Session.exchange, hexec]
      refine ⟨trivial, key, privKeyPEM, ?_, hdec, ?_⟩
      · rw [hs]
        exact hget
      · rw [hs]
        exact fun node hn hd => (hreached'.accepts node).trans (hstill node hn hd)

namespace Sample

/-- A server for which the text after `public` and `private` tells which keys belong
together, and a shell that carries out the command of a deployment. -/
def remote : Remote where
  authorizes line privateKey := line.toList.drop 6 = privateKey.toList.drop 7
  shell cmd lines :=
    match cmd.toList.splitOn '"' with
    | [_, key, _, _, _] => if String.ofList key ∈ lines then lines else lines ++ [String.ofList key]
    | _ => lines

def keyedFleet : Store :=
  { onlineFleet with
    sshKeys := ⟨[{ sshKey with publicKey := "public old", privateKey := "private old" }], List.pairwise_singleton _ _⟩ }

def hosts (lines : List String) : Hosts := fun _ => lines

theorem calm_reliable : Env.calm.Reliable := ⟨fun _ => rfl, fun _ _ => rfl, fun _ _ => rfl⟩

theorem remote_keepsLines : remote.KeepsLines := by
  intro pubKey lines
  unfold remote
  dsimp only
  split
  · split
    · exact List.Subset.refl _
    · exact List.subset_append_left _ _
  · exact List.Subset.refl _

end Sample

/-- The new public key has been brought to the host by hand. -/
theorem rotation_keeps_access_installed :
    ((rotateSSHKey 50).1.exec Env.calm ⟨0, Sample.keyedFleet⟩).1.isOk = true ∧
      ∃ y, (deployments Sample.remote Env.calm 50 2
          (((rotateSSHKey 50).1.exec Env.calm ⟨0, Sample.keyedFleet⟩).2,
            Sample.hosts ["public old", "public 1"])).getLast? = some y ∧
        y.answer = .ok () ∧ KeyAccepted Sample.remote Env.calm 50 (hostedView y.after) :=
  (rotation_keeps_access Sample.calm_reliable Sample.remote_keepsLines
    ⟨⟨_, rfl⟩, ⟨"1", "public 1", rfl, rfl, rfl⟩, ⟨_, rfl, rfl⟩⟩ _ 1).mpr (by decide +kernel)

/-- The host lets the stored key in. After a rotation it does not know the new one, and the
deployment, which connects with the new one, fails. -/
theorem rotation_locks_out :
    KeyAccepted Sample.remote Env.calm 50 (Sample.keyedFleet, Sample.hosts ["public old"]) ∧
    (deployments Sample.remote Env.calm 50 1
        (((rotateSSHKey 50).1.exec Env.calm ⟨0, Sample.keyedFleet⟩).2, Sample.hosts ["public old"])).map (·.answer) =
      [.error (.text ("deploy failed on 1 node(s): node edge (" ++ ID.text 10 ++
        "): connect: ssh: unable to authenticate"))] := by
  refine ⟨⟨_, _, rfl, rfl, by decide +kernel⟩, by decide +kernel⟩

end EdgeFabric
