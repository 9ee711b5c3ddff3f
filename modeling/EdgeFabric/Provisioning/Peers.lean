/-
One WireGuard peer record per node. `stepGenerateWGKeys` creates a record without
looking for an existing one, and no constraint of the store forbids a second. A
node keeps at most one record if no allocation for it starts while it owns one or
while another allocation for it is under way.
-/
import EdgeFabric.Provisioning.Operations
import Mathlib.Data.Fintype.Basic

namespace EdgeFabric

/-- Where a process is in allocating a peer. -/
inductive AllocPhase where
  | idle
  /-- it has listed the peers for this node and not yet created one -/
  | listed (node : ID)
  deriving DecidableEq

/-- A listing of the peers starts an allocation, and the creation of a record ends it. -/
def AllocStep (q : AllocPhase) (c : Call) (_ : Env) (w w' : World) (q' : AllocPhase) : Prop :=
  PeerStep c w w' ∧
    match c with
    | .listWireGuardPeers n => q' = .listed n
    | .createWireGuardPeer n => q = .listed n ∧ q' = .idle
    | _ => q' = q

/-- Allocations are made the way `AllocStep` says, from any phase. -/
def Orderly {α : Type} (p : M α) : Prop := ∀ q, p.Follows AllocStep (fun _ _ => True) (fun _ _ => True) q

theorem AllocStep.ofKept {q : AllocPhase} {c : Call} {v : Env} {w w' : World} (hc : ¬ c.ChangesPeers)
    (h : w'.store.wireGuardPeers = w.store.wireGuardPeers) : ∃ q', AllocStep q c v w w' q' := by
  cases c with
  | listWireGuardPeers n => exact ⟨.listed n, .inl h, rfl⟩
  | createWireGuardPeer n => exact absurd trivial hc
  | _ => exact ⟨q, .inl h, rfl⟩

theorem orderly_class :
    ProgramClass fun p R => ∀ q, p.Follows AllocStep (fun _ _ => True) (fun _ r => ∀ a, r = .ok a → R a) q where
  toWalk := walk_follows fun _ _ _ _ _ hc _ hs => AllocStep.ofKept hc (congrArg _ hs)
  write hf q := follows_writeAs
    (fun _ _ _ _ _ h => ⟨q, ⟨.inl (hf _ _ _ _ h), rfl⟩, fun _ _ => trivial⟩)
    (fun _ _ _ _ _ => ⟨q, ⟨.inl rfl, rfl⟩, nofun⟩)

theorem readAs_orderly {α : Type} {c : Call} {f : Nat → Store → Except Err α} {hc : ¬ c.ChangesPeers}
    {q q' : AllocPhase} (h : ∀ v w, AllocStep q c v w w.next q') :
    (readAs c f hc).1.Follows AllocStep (fun _ _ => True) (fun q₁ _ => q₁ = q') q :=
  .call fun v w _ => ⟨q', h v w, rfl⟩

theorem createNodePeer_orderly (p : Provisioner) (node : Node) (q : AllocPhase) :
    (createNodePeer p node).Follows AllocStep (fun _ _ => True) (fun _ r => ∀ a, r = .ok a → True) q := by
  have hF := orderly_class
  unfold createNodePeer
  refine hF.bind (hF.reads _) (fun kp _ => hF.bind (hF.reads _) fun psk _ => hF.bind (hF.reads _) fun encPriv _ =>
    hF.bind (hF.reads _) fun encPSK _ q => ?_) q
  refine .bind (P := fun q _ => q = .listed node.id)
    (.mapError (readAs_orderly fun _ _ => ⟨.inl rfl, rfl⟩) fun _ _ h => h) ?_ fun _ _ _ _ _ => trivial
  rintro _ peers rfl
  refine .bind (P := fun q _ => q = .listed node.id)
    (.mapError (readAs_orderly fun _ _ => ⟨.inl rfl, rfl⟩) fun _ _ h => h) ?_ fun _ _ _ _ _ => trivial
  rintro _ nodes rfl
  refine .bind (P := fun q' _ => q' = .listed node.id) (.ofExcept rfl) ?_ fun _ _ _ _ _ => trivial
  rintro _ ips rfl
  refine .bind (P := fun q' _ => q' = .listed node.id) (.call fun v w _ => ?_) ?_ fun _ _ _ _ _ => trivial
  · exact ⟨.listed node.id, ⟨.inl rfl, rfl⟩, rfl⟩
  rintro _ id rfl
  refine .bind (P := fun _ _ => True) (.mapError (follows_writeAs ?_ ?_) fun _ _ h => h) ?_ fun _ _ _ _ _ => trivial
  · intro v w a s' _ h
    obtain ⟨rfl, rows, hins, rfl⟩ := Store.createWireGuardPeer_ok h
    exact ⟨.idle, ⟨.inr (.inl ⟨_, rfl, rfl, hins⟩), rfl, rfl⟩, trivial⟩
  · exact fun v w e _ _ => ⟨.idle, ⟨.inl rfl, rfl, rfl⟩, trivial⟩
  · exact fun _ _ _ => .pure fun _ _ => trivial

theorem deleteNodePeer_orderly (nodeID : ID) (q : AllocPhase) :
    (deleteNodePeer nodeID).Follows AllocStep (fun _ _ => True) (fun _ r => ∀ a, r = .ok a → True) q := by
  refine orderly_class.peerDeletion (fun id q => follows_writeAs ?_ ?_) q
  · intro v w a s' _ h
    obtain ⟨rows, herase, rfl⟩ := Store.deleteWireGuardPeer_ok h
    exact ⟨q, ⟨.inr (.inr ⟨id, herase⟩), rfl⟩, fun _ _ => trivial⟩
  · exact fun v w e _ _ => ⟨q, ⟨.inl rfl, rfl⟩, nofun⟩

theorem operation_orderly (p : Provisioner) (op : Operation) : Orderly (op.run p) :=
  fun q => (orderly_class.operation deleteNodePeer_orderly (createNodePeer_orderly p) op q).mono fun _ _ _ => trivial

/-! ## Runs in which allocations are fresh -/

section
variable {ι : Type} [DecidableEq ι]

/-- The node for which process `j`, by the steps it took, has listed the peers and
not yet created one. -/
def allocatingFor (j : ι) : List (ι × Call) → Option ID
  | [] => none
  | (k, c) :: past =>
    if k = j then
      match c with
      | .listWireGuardPeers n => some n
      | .createWireGuardPeer _ => none
      | _ => allocatingFor j past
    else allocatingFor j past

/-- When process `i` is about to list the peers for a node, that node owns no peer
record and no other running process is allocating one for it. -/
def FreshAllocation {α : Type} (c : Sys ι Call Env World Err α) (i : ι) : Prop :=
  ∀ n, c.label i = some (.listWireGuardPeers n) →
    c.state.store.peersOf .node n = [] ∧ ∀ j, j ≠ i → c.result j = none → allocatingFor j c.trace ≠ some n

/-- Process `j` is running and allocates a peer for `n`. -/
def Listed {α : Type} (c : Sys ι Call Env World Err α) (q : ι → AllocPhase) (j : ι) (n : ID) : Prop :=
  q j = .listed n ∧ c.result j = none

/-- Every node owns at most one record; the node of a running allocation owns none,
and no other process allocates for it. -/
structure OnePeer {α : Type} (c : Sys ι Call Env World Err α) (q : ι → AllocPhase) : Prop where
  one : ∀ n, (c.state.store.peersOf .node n).length ≤ 1
  traced : ∀ j n, q j = .listed n → allocatingFor j c.trace = some n
  free : ∀ j n, Listed c q j n → c.state.store.peersOf .node n = []
  alone : ∀ j k n, Listed c q j n → Listed c q k n → j = k

section
variable {α : Type} {c : Sys ι Call Env World Err α} {q : ι → AllocPhase} {i : ι} {l : Call} {v : Env}
  {act : Env → World → World} {next : Env → World → M α} {q' : AllocPhase}

/-- A process that allocates for `n` after a step did so before, or the step is its
listing of the peers. -/
theorem Listed.before_step (hp : c.procs i = .step l act next)
    (hT : AllocStep (q i) l v c.state (act v c.state) q') {j : ι} {n : ID}
    (h : Listed (c.step v i) (Function.update q i q') j n) :
    (Listed c q j n ∧ (j = i → l ≠ .createWireGuardPeer n)) ∨ (j = i ∧ l = .listWireGuardPeers n) := by
  obtain ⟨hq, hr⟩ := h
  by_cases hji : j = i
  · subst hji
    have hj := Sys.result_of_step hp
    rw [Function.update_self] at hq
    subst hq
    obtain ⟨_, hphase⟩ := hT
    cases l with
    | listWireGuardPeers m => cases hphase; exact .inr ⟨rfl, rfl⟩
    | createWireGuardPeer m => cases hphase.2
    | _ => exact .inl ⟨⟨hphase.symm, hj⟩, fun _ => by simp⟩
  · rw [Function.update_of_ne hji] at hq
    rw [Sys.result_step_of_ne hji] at hr
    exact .inl ⟨⟨hq, hr⟩, fun he => absurd he hji⟩

theorem OnePeer.step (h : OnePeer c q) (hok : FreshAllocation c i) (hp : c.procs i = .step l act next)
    (hT : AllocStep (q i) l v c.state (act v c.state) q') : OnePeer (c.step v i) (Function.update q i q') := by
  have hlabel := Sys.label_of_step hp
  have hstate : (c.step v i).state = act v c.state := by rw [Sys.step_of_step hp]
  -- whoever creates a record for a node has listed the peers for it
  have hcreate : ∀ n, l = .createWireGuardPeer n → Listed c q i n := by
    rintro n rfl
    exact ⟨hT.2.1, Sys.result_of_step hp⟩
  have hother : ∀ j n, Listed c q j n → l = .listWireGuardPeers n → j = i := by
    rintro j n hj rfl
    by_contra hji
    exact (hok n hlabel).2 j hji hj.2 (h.traced j n hj.1)
  refine ⟨fun n => ?_, fun j n hj => ?_, fun j n hj => ?_, fun j k n hj hk => ?_⟩
  · rw [hstate]
    by_cases hl : l = .createWireGuardPeer n
    · have hlen := hT.1.length_le (n := n)
      rw [h.free i n (hcreate n hl)] at hlen
      exact hlen
    · exact (hT.1.sublist hl).length_le.trans (h.one n)
  · rw [Sys.step_of_step hp]
    by_cases hji : j = i
    · subst hji
      rw [Function.update_self] at hj
      subst hj
      obtain ⟨_, hphase⟩ := hT
      cases l with
      | listWireGuardPeers m => cases hphase; simp [allocatingFor]
      | createWireGuardPeer m => cases hphase.2
      | _ => simpa [allocatingFor] using h.traced j n hphase.symm
    · rw [Function.update_of_ne hji] at hj
      simpa [allocatingFor, Ne.symm hji] using h.traced j n hj
  · rw [hstate]
    obtain ⟨hold, hne⟩ | ⟨rfl, rfl⟩ := hj.before_step hp hT
    · have hl : l ≠ .createWireGuardPeer n := fun hl => hne (h.alone j i n hold (hcreate n hl)) hl
      exact List.sublist_nil.mp (h.free j n hold ▸ hT.1.sublist hl)
    · exact List.sublist_nil.mp ((hok n hlabel).1 ▸ hT.1.sublist (by simp))
  · obtain ⟨hold, _⟩ | ⟨rfl, hl⟩ := hj.before_step hp hT <;> obtain ⟨hold', _⟩ | ⟨rfl, hl'⟩ := hk.before_step hp hT
    · exact h.alone j k n hold hold'
    · exact hother j n hold hl'
    · exact (hother k n hold' hl).symm
    · rfl

end

/-- From a store without node peers, whatever operations run at the same time: as
long as every allocation is fresh, each node owns at most one peer record, and it
does not matter which row `GetWireGuardPeerByOwner` finds first. -/
theorem one_peer_per_node {v : Env} (p : Provisioner) (ops : ι → Operation) (w : World)
    {c : Sys ι Call Env World Err (Option ProvisioningJob)} (hw : ∀ n, w.store.peersOf .node n = [])
    (h : Sys.Reach v FreshAllocation (operations p ops w) c) (n : ID) :
    (c.state.store.peersOf .node n).length ≤ 1 ∧
      ∀ a b, Store.getWireGuardPeerByOwner .node n a c.state.store =
        Store.getWireGuardPeerByOwner .node n b c.state.store := by
  have h₀ : (operations p ops w).Phased (fun _ => AllocStep) (fun _ _ => True) (fun _ _ _ => True) fun _ => .idle :=
    fun i => operation_orderly p (ops i) .idle
  have hinit : OnePeer (operations p ops w) fun _ => .idle :=
    ⟨fun n => by simp [operations, hw n], fun _ _ hq => (by cases hq), fun _ _ hq => (by cases hq.1),
      fun _ _ _ hq => (by cases hq.1)⟩
  obtain ⟨q, _, hinv⟩ := h.phases (fun _ _ _ => trivial)
    (fun c q i l act next q' _ hJ hok hp hT => hJ.step hok hp hT) h₀ hinit
  refine ⟨hinv.one n, fun a b => ?_⟩
  have hone := hinv.one n
  simp only [Store.getWireGuardPeerByOwner]
  rcases hrows : c.state.store.peersOf .node n with _ | ⟨r, rest⟩
  · rfl
  · rw [hrows] at hone
    obtain rfl : rest = [] := List.length_eq_zero_iff.mp (by simpa using hone)
    simp [Nat.mod_one]

end

instance {ι α : Type} [DecidableEq ι] [Fintype ι] (c : Sys ι Call Env World Err α) (i : ι) :
    Decidable (FreshAllocation c i) :=
  match h : c.label i with
  | some (.listWireGuardPeers n) =>
    decidable_of_iff (c.state.store.peersOf .node n = [] ∧
      ∀ j, j ≠ i → c.result j = none → allocatingFor j c.trace ≠ some n) (by simp [FreshAllocation, h])
  | none => isTrue (by simp [FreshAllocation, h])
  | some .clock | some .newID | some .random | some .secrets | some .files | some .ssh | some .library | some .db
  | some (.createWireGuardPeer _) | some (.getWireGuardPeerByOwner _) | some (.deleteWireGuardPeer _) =>
    isTrue (by simp [FreshAllocation, h])

def enrollTwo : Sys (Fin 2) Call Env World Err (Option ProvisioningJob) :=
  operations Sample.provisioner (fun i => .enrollment (if i.val = 0 then "first" else "second")) ⟨0, Sample.fleet⟩

theorem one_peer_per_node_enroll :
    let c := enrollTwo.run Env.calm (List.replicate 16 [0, 1]).flatten
    c.state.store.peersOf .node 10 ≠ [] ∧ (c.state.store.peersOf .node 10).length ≤ 1 := by
  have hreach : Sys.Reach Env.calm FreshAllocation enrollTwo
    (enrollTwo.run Env.calm (List.replicate 16 [0, 1]).flatten) :=
    Sys.reach_of_along (by decide)
  exact ⟨by decide, (one_peer_per_node _ _ _ (fun _ => rfl) hreach 10).1⟩

/-- Enroll a node, then reprovision it: both jobs complete, and it owns two records. -/
theorem reprovision_second_peer :
    let c := Sys.run Env.calm (List.replicate 80 0 ++ List.replicate 80 1)
      (operations Sample.provisioner
        (fun i : Fin 2 => .pipeline (if i = 0 then .enroll else .reprovision) 10 0) ⟨0, Sample.fleet⟩)
    (∀ n, Sample.fleet.peersOf .node n = []) ∧ jobStatus c 0 = some .completed ∧ jobStatus c 1 = some .completed ∧
      (c.state.store.peersOf .node 10).length = 2 := by
  exact ⟨fun _ => rfl, by decide +kernel⟩

end EdgeFabric
