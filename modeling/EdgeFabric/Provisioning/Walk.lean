/-
Walking through the provisioning programs once. A property of programs and of what
they return that is closed under the ways programs are put together (`Walk`) holds of
a whole pipeline if it holds of the store calls by which the pipeline writes. What a
pipeline carries along, the node in memory, is kept in a set `N` that the steps do not
leave.
-/
import EdgeFabric.Provisioning.Pipeline

namespace EdgeFabric

/-- A property of programs with what they return, closed under the ways programs are put
together, and true of programs that only read. -/
structure Walk (F : ∀ {α : Type}, M α → (α → Prop) → Prop) : Prop where
  pure : ∀ {α : Type} {R : α → Prop} {a : α}, R a → F (pure a : M α) R
  fail : ∀ {α : Type} {R : α → Prop} {e : Err}, F (Prog.fail e : M α) R
  bind : ∀ {α β : Type} {R : α → Prop} {S : β → Prop} {p : M α} {f : α → M β}, F p R → (∀ a, R a → F (f a) S) →
    F (p >>= f) S
  attempt : ∀ {α : Type} {R : α → Prop} {p : M α}, F p R → F p.attempt fun r => ∀ a, r = .ok a → R a
  under : ∀ {α : Type} {R : α → Prop} {context : String} {p : M α}, F p R → F (p.under context) R
  reads : ∀ {α : Type} (q : Reads α), F q.1 fun _ => True
  mono : ∀ {α : Type} {R S : α → Prop} {p : M α}, F p R → (∀ a, R a → S a) → F p S

/-- Programs that follow phases, whatever phase they start in; a call that leaves the store
alone may be made in each. -/
theorem walk_follows {Q : Type} {T : Q → Call → Env → World → World → Q → Prop} {I : Env → World → Prop}
    (hstay : ∀ q c v w w', ¬ c.ChangesPeers → I v w → w'.store = w.store → ∃ q', T q c v w w' q') :
    Walk fun p R => ∀ q, p.Follows T I (fun _ r => ∀ a, r = .ok a → R a) q where
  pure h _ := .pure fun a ha => by cases ha; exact h
  fail _ := .fail nofun
  bind hp hf q := .bind (hp q) (fun q a ha => hf a (ha a rfl) q) fun _ _ _ => nofun
  attempt hp q := .attempt (hp q) fun _ r hr a ha => by
    cases ha
    exact hr
  under hp q := .mapError (hp q) fun _ r hr a ha => by
    cases r with
    | ok b => exact hr a ha
    | error e => cases ha
  reads r _ := .ofWithin (S := fun _ => True) r.2
    (fun q c v w w' _ hI ⟨hc, hs⟩ => (hstay q c v w w' hc hI hs).imp fun _ h => ⟨trivial, h⟩)
    (fun _ _ _ _ _ => trivial) trivial
  mono hp h q := (hp q).mono fun _ _ hr a ha => h a (hr a ha)

namespace Walk
variable {F : ∀ {α : Type}, M α → (α → Prop) → Prop} (hF : Walk F)
include hF

theorem enrollmentToken {tenantID targetID : ID} {R : EnrollmentToken → Prop}
    (h : ∀ token : EnrollmentToken, token.targetID = targetID → F (write (Store.createEnrollmentToken token)) R) :
    F (generateEnrollmentToken tenantID targetID) R :=
  hF.bind (hF.reads _) fun _ _ => hF.bind (hF.reads _) fun _ _ => hF.bind (hF.reads _) fun _ _ => hF.under (h _ rfl)

theorem peerDeletion {nodeID : ID}
    (h : ∀ id, F (writeAs (.deleteWireGuardPeer nodeID) fun _ => Store.deleteWireGuardPeer id) fun _ => True) :
    F (deleteNodePeer nodeID) fun _ => True := by
  refine hF.bind (hF.reads _) fun found _ => ?_
  rcases found with e | peer
  · exact hF.pure trivial
  · exact hF.bind (hF.attempt (h peer.id)) fun _ _ => hF.pure trivial

theorem peerCreation {p : Provisioner} {node : Node} {N : Node → Prop}
    (h : ∀ peer : WireGuardPeer, peer.ownerType = .node → peer.ownerID = node.id →
      F (writeAs (.createWireGuardPeer node.id) (Store.createWireGuardPeer peer)) fun _ => True)
    (hN : ∀ ip ip6, N { node with wireGuardIP := ip, wireGuardIPv6 := ip6 }) : F (createNodePeer p node) N := by
  have hexcept : ∀ {α : Type} (r : Except Err α), F (Prog.ofExcept r : M α) fun _ => True :=
    fun r => hF.reads (Query.ofExcept r)
  unfold createNodePeer
  refine hF.bind (hF.reads _) fun kp _ => hF.bind (hF.reads _) fun psk _ => hF.bind (hF.reads _) fun encPriv _ =>
    hF.bind (hF.reads _) fun encPSK _ => hF.bind (hF.reads _) fun peers _ => hF.bind (hF.reads _) fun nodes _ => ?_
  exact hF.bind (hexcept _) fun ips _ => hF.bind (hF.reads _) fun id _ => hF.bind (hF.under (h _ rfl rfl)) fun _ _ =>
    hF.pure (hN _ _)

end Walk

/-- No step changes `view` of the store. -/
abbrev Keeps {τ : Type} (view : Store → τ) {α : Type} (p : M α) (R : α → Prop) : Prop :=
  ∀ q : Unit, p.Follows (fun _ _ _ w w' _ => view w'.store = view w.store) (fun _ _ => True)
    (fun _ r => ∀ a, r = .ok a → R a) q

section
variable {τ : Type} {view : Store → τ}

theorem keeps_walk : Walk (Keeps view) := walk_follows fun q _ _ _ _ _ _ hs => ⟨q, congrArg _ hs⟩

theorem keeps_writeAs {α : Type} {c : Call} {f : Time → Store → Except Err (α × Store)}
    (hf : ∀ t s a s', f t s = .ok (a, s') → view s' = view s) : Keeps view (writeAs c f) fun _ => True := fun q =>
  follows_writeAs (fun _ _ _ _ _ h => ⟨q, hf _ _ _ _ h, fun _ _ => trivial⟩) fun _ _ _ _ _ =>
    ⟨q, rfl, fun _ h => by cases h⟩

theorem createNodePeer_keeps (hview : ∀ s peers, view { s with wireGuardPeers := peers } = view s) (p : Provisioner)
    (node : Node) : Keeps view (createNodePeer p node) fun _ => True :=
  fun q => .ofWithin (S := fun _ => True) (createNodePeer_within p node)
    (fun _ _ _ w w' _ _ ⟨peers, hs⟩ => ⟨q, trivial, by rw [hs]; exact hview _ _⟩) (fun _ _ _ _ _ => trivial) trivial

end

/-- The writes of the steps on a node in `N`, apart from those that create a peer. -/
structure StepWrites (F : ∀ {α : Type}, M α → (α → Prop) → Prop) (N : Node → Prop) : Prop where
  node : ∀ {node : Node}, N node → F (write (Store.updateNode node)) N
  token : ∀ {node : Node}, N node → F (generateEnrollmentToken (node.tenantID.getD 0) node.id) fun _ => True
  peer : ∀ {node : Node}, N node → F (deleteNodePeer node.id) fun _ => True

/-- The writes of a pipeline on a node in `N`, apart from those to the job and those that
create a peer. -/
structure PipelineWrites (F : ∀ {α : Type}, M α → (α → Prop) → Prop) (N : Node → Prop) : Prop
    extends StepWrites F N where
  status : ∀ {node : Node} (status : NodeStatus), N node → N { node with status }

section
variable {τ : Type} {view : Store → τ}

theorem generateEnrollmentToken_keeps
    (hview : ∀ s tokens htexts, view { s with enrollmentTokens := tokens, tokenTexts := htexts } = view s)
    (tenantID targetID : ID) : Keeps view (generateEnrollmentToken tenantID targetID) fun _ => True := by
  refine keeps_walk.enrollmentToken fun token _ => keeps_writeAs fun t s a s' h => ?_
  obtain ⟨_, _, _, _, rfl⟩ := Store.createEnrollmentToken_ok h
  exact hview _ _ _

theorem deleteNodePeer_keeps (hpeers : ∀ s peers, view { s with wireGuardPeers := peers } = view s) (nodeID : ID) :
    Keeps view (deleteNodePeer nodeID) fun _ => True := by
  refine keeps_walk.peerDeletion fun id => keeps_writeAs fun t s a s' h => ?_
  obtain ⟨_, _, rfl⟩ := Store.deleteWireGuardPeer_ok h
  exact hpeers _ _

theorem keeps_pipelineWrites (hnodes : ∀ s nodes, view { s with nodes } = view s)
    (htokens : ∀ s tokens htexts, view { s with enrollmentTokens := tokens, tokenTexts := htexts } = view s)
    (hpeers : ∀ s peers, view { s with wireGuardPeers := peers } = view s) :
    PipelineWrites (Keeps view) fun _ => True where
  status _ _ := trivial
  node _ := keeps_writeAs fun t s a s' h => by
    obtain ⟨_, _, _, _, _, rfl⟩ := Store.updateNode_ok h
    exact hnodes _ _
  token _ := generateEnrollmentToken_keeps htokens _ _
  peer _ := deleteNodePeer_keeps hpeers _

end

namespace Walk
variable {F : ∀ {α : Type}, M α → (α → Prop) → Prop} (hF : Walk F) {N : Node → Prop} {p : Provisioner} {node : Node}
include hF

theorem saveNode (h : F (write (Store.updateNode node)) N) : F (saveNode node) fun _ => True :=
  hF.bind (hF.attempt h) fun _ _ => hF.pure trivial

theorem saveJob {job : ProvisioningJob} {R : ProvisioningJob → Prop}
    (h : F (write (Store.updateProvisioningJob job)) R) : F (saveJob job) fun _ => True :=
  hF.bind (hF.attempt h) fun _ _ => hF.pure trivial

theorem stepWriteConfig (hw : StepWrites F N) (hN : N node) : F (stepWriteConfig p node) fun _ => True := by
  refine hF.bind (hF.reads _) fun connected _ => ?_
  rcases connected with e | _
  · exact hF.pure trivial
  · refine hF.bind (hF.attempt (hw.token hN)) fun generated _ => ?_
    rcases generated with e | token
    · exact hF.pure trivial
    · exact hF.reads _

theorem stepGenerateWGKeys (hw : StepWrites F N) (hcreate : F (createNodePeer p node) N) (hN : N node) :
    F (stepGenerateWGKeys p node) fun x => N x.1 := by
  refine hF.bind (hF.attempt hcreate) fun created hcreated => ?_
  rcases created with e | node'
  · exact hF.pure hN
  · have hN' := hcreated node' rfl
    refine hF.bind (hF.attempt (hw.node hN')) fun stored hstored => ?_
    rcases stored with e | node''
    · exact hF.pure hN'
    · exact hF.pure (hstored node'' rfl)

theorem stepCleanup (hw : StepWrites F N) (hN : N node) : F (stepCleanup node) fun _ => True := by
  refine hF.bind (hF.reads _) fun cleaned _ => ?_
  rcases cleaned with ⟨output, _ | e⟩
  · exact hF.bind (hw.peer hN) fun _ _ => hF.pure trivial
  · exact hF.pure trivial

theorem executeStep (hw : StepWrites F N) {job : ProvisioningJob} {step : ProvisioningStep}
    (hcreate : step = .generateWGKeys → ∀ node, N node → F (createNodePeer p node) N) (hN : N node) :
    F (executeStep p job node step) fun x => N x.1 := by
  cases step with
  | generateWGKeys => exact hF.stepGenerateWGKeys hw (hcreate rfl node hN) hN
  | writeConfig => exact hF.bind (hF.stepWriteConfig hw hN) fun _ _ => hF.pure hN
  | cleanup => exact hF.bind (hF.stepCleanup hw hN) fun _ _ => hF.pure hN
  | _ => exact hF.bind (hF.reads _) fun _ _ => hF.pure hN

theorem timed {step : ProvisioningStep} {run : M (Node × StepOutput)} (h : F run fun x => N x.1) :
    F (timed step run) fun x => N x.1 :=
  hF.bind (hF.reads _) fun _ _ => hF.bind h fun _ hx => hF.bind (hF.reads _) fun _ _ => hF.pure hx

theorem saveEnrolling {job : ProvisioningJob} {status : NodeStatus}
    (h : F (write (Store.updateNode { node with status })) N) : F (saveEnrolling job node status) fun _ => True := by
  unfold EdgeFabric.saveEnrolling
  split
  · exact hF.saveNode h
  · exact hF.pure trivial

theorem rollbackResults (job : ProvisioningJob) (node : Node) (steps : List ProvisioningStep)
    (step : ProvisioningStep) : F (rollbackResults job node steps step) fun _ => True := by
  unfold EdgeFabric.rollbackResults
  split
  · refine hF.bind (hF.timed (N := fun _ => True) ?_) fun _ _ => hF.pure trivial
    exact hF.bind (hF.reads _) fun _ _ => hF.pure trivial
  · exact hF.pure trivial

section
variable (hw : PipelineWrites F N)
  (hjob : ∀ job, F (write (Store.updateProvisioningJob job)) fun _ => True)
include hw hjob

theorem failJob {job : ProvisioningJob} {steps : List ProvisioningStep} {step : ProvisioningStep} {e : Err}
    {results : List StepResult} (hN : N node) : F (failJob job node steps step e results) fun _ => True :=
  hF.bind (hF.rollbackResults _ _ _ _) fun _ _ => hF.bind (hF.reads _) fun _ _ =>
    hF.bind (hF.saveJob (hjob _)) fun _ _ =>
    hF.bind (hF.saveEnrolling (hw.node (hw.status _ hN))) fun _ _ => hF.pure trivial

theorem runSteps (steps : List ProvisioningStep) :
    ∀ rest job node results, (.generateWGKeys ∈ rest → ∀ node, N node → F (createNodePeer p node) N) → N node →
      F (runSteps p steps rest job node results) fun _ => True
  | [], job, node, results, _, hN =>
    hF.bind (hF.reads _) fun _ _ => hF.bind (hF.saveJob (hjob _)) fun _ _ =>
      hF.bind (hF.saveNode (hw.node (hw.status _ hN))) fun _ _ => hF.pure trivial
  | step :: rest, job, node, results, hcreate, hN => by
    have hstep : step = .generateWGKeys → ∀ node, N node → F (createNodePeer p node) N :=
      fun h => hcreate (h ▸ List.mem_cons_self)
    refine hF.bind (hF.saveJob (hjob _)) fun _ _ =>
      hF.bind (hF.timed (hF.executeStep hw.toStepWrites hstep hN)) fun done hdone => ?_
    obtain ⟨node, result, _ | e⟩ := done
    · exact runSteps steps rest _ _ _ (fun h => hcreate (List.mem_cons_of_mem _ h)) hdone
    · exact hF.failJob hw hjob hdone

theorem runPipeline {job : ProvisioningJob} {steps : List ProvisioningStep}
    (hcreate : .generateWGKeys ∈ steps → ∀ node, N node → F (createNodePeer p node) N) (hN : N node) :
    F (runPipeline p job node steps) fun _ => True := by
  refine hF.bind (hF.reads _) fun _ _ => hF.bind (hF.saveJob (hjob _)) fun _ _ =>
    hF.bind (hF.saveEnrolling (hw.node (hw.status _ hN))) fun _ _ => hF.runSteps hw hjob _ _ _ _ _ hcreate ?_
  split
  · exact hw.status _ hN
  · exact hN

end

theorem ensureNodePeer (hcreate : F (createNodePeer p node) N) (hN : N node) : F (ensureNodePeer p node) N := by
  refine hF.bind (hF.reads _) fun found _ => ?_
  rcases found with e | peer
  · cases e with
    | notFound => exact hcreate
    | _ => exact hF.fail
  · exact hF.pure hN

theorem validateEnrollmentToken {K : EnrollmentToken → Prop} {tokenStr : String}
    (hget : F (read (Store.getEnrollmentToken tokenStr)).1 K) : F (validateEnrollmentToken tokenStr).1 K := by
  refine hF.bind (hF.under hget) fun token hK => ?_
  dsimp only
  split
  · exact hF.fail
  · refine hF.bind (hF.reads _) fun t _ => ?_
    dsimp only
    split
    · exact hF.fail
    · exact hF.pure hK

theorem completeEnrollment {K : EnrollmentToken → Prop} {tokenStr : String} (hw : PipelineWrites F N)
    (htoken : F (read (Store.getEnrollmentToken tokenStr)).1 K)
    (hget : ∀ token, K token → F (read (Store.getNode token.targetID)).1 N)
    (hmark : ∀ token, K token → F (write (Store.markEnrollmentTokenUsed token.id)) fun _ => True)
    (hcreate : ∀ node, N node → F (createNodePeer p node) N) : F (completeEnrollment p tokenStr) fun _ => True :=
  hF.bind (hF.validateEnrollmentToken htoken) fun token hK => hF.bind (hF.under (hget token hK)) fun node hN =>
    hF.bind (hF.ensureNodePeer (hcreate node hN) hN) fun _ hN' => hF.bind (hF.under (hmark token hK)) fun _ _ =>
    hF.bind (hF.under (hw.node (hw.status _ hN'))) fun _ _ => hF.pure trivial

end Walk

end EdgeFabric
