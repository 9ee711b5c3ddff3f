/-
Enrollment tokens are single-use. Checking a token and marking it used are two
store calls with key generation and other calls between them; what decides a
race is the conditional update of `markEnrollmentTokenUsed`. A call that has got
past that update has claimed the token, and no two calls can have.
-/
import EdgeFabric.Provisioning.Enrollment
import EdgeFabric.Lib.Interleave
import Mathlib.Data.Set.Subsingleton

namespace EdgeFabric

/-- Identifier and text of every token; enrollment does not change them. -/
def Store.tokenTextsByID (s : Store) : List (ID × String) := s.enrollmentTokens.rows.map fun k => (k.id, k.token)

def Store.Unclaimed (tok : String) (s : Store) : Prop := ∃ k ∈ s.enrollmentTokens, k.token = tok ∧ k.usedAt = none

inductive ClaimPhase where
  | before | claimed
  deriving DecidableEq

/-- A step leaves the claim as it is, or claims a token that nobody had claimed. -/
def ClaimStep (tok : String) (q : ClaimPhase) (_ : Call) (_ : Env) (w w' : World) (q' : ClaimPhase) : Prop :=
  w'.store.tokenTextsByID = w.store.tokenTextsByID ∧
    ((q' = q ∧ (w'.store.Unclaimed tok → w.store.Unclaimed tok)) ∨
      (q' = .claimed ∧ w.store.Unclaimed tok ∧ ¬ w'.store.Unclaimed tok))

section
variable {tok : String} {I : Env → World → Prop} {q : ClaimPhase} {α : Type}

theorem ClaimStep.ofTokens {c : Call} {v : Env} {w w' : World}
    (h : w'.store.enrollmentTokens = w.store.enrollmentTokens) : ClaimStep tok q c v w w' q := by
  unfold ClaimStep Store.tokenTextsByID Store.Unclaimed
  rw [h]
  exact ⟨rfl, .inl ⟨rfl, fun hu => hu⟩⟩

theorem follows_of_tokens {p : M α} (h : p.Within fun _ w w' => w'.store.enrollmentTokens = w.store.enrollmentTokens) :
    p.Follows (ClaimStep tok) I (fun q' _ => q' = q) q :=
  .ofWithin (S := (· = q)) h (fun _ _ _ _ _ hq _ hs => ⟨_, hq, .ofTokens hs⟩) (fun _ _ hq => hq) rfl

theorem Reads.follows_claim (r : Reads α) : r.1.Follows (ClaimStep tok) I (fun q' _ => q' = q) q :=
  follows_of_tokens (r.within (R := fun s s' => s'.enrollmentTokens = s.enrollmentTokens) fun _ => rfl)

theorem createNodePeer_follows_claim (p : Provisioner) (node : Node) :
    (createNodePeer p node).Follows (ClaimStep tok) I (fun q' _ => q' = q) q :=
  follows_of_tokens ((createNodePeer_within p node).mono fun _ w w' ⟨peers, h⟩ => by rw [h])

theorem ensureNodePeer_follows_claim (p : Provisioner) (node : Node) :
    (ensureNodePeer p node).Follows (ClaimStep tok) I (fun q' _ => q' = q) q := by
  refine .bind (Reads.follows_claim _) ?_ fun _ _ hq => hq
  rintro _ (e | peer) rfl
  · cases e with
    | notFound => exact createNodePeer_follows_claim p node
    | _ => exact .fail rfl
  · exact .pure rfl

theorem updateNode_follows_claim (node : Node) :
    (write (Store.updateNode node)).Follows (ClaimStep tok) I (fun q' _ => q' = q) q := by
  refine follows_of_tokens (within_writeAs (R := fun s s' => s'.enrollmentTokens = s.enrollmentTokens)
    (fun _ => rfl) ?_)
  intro t s a s' h
  obtain ⟨old, nodes, _, _, _, hs⟩ := Store.updateNode_ok h
  rw [hs]

end

theorem Store.markEnrollmentTokenUsed_claims {tok : String} {id : ID} {t : Time} {s s' : Store} {u : Unit}
    (hid : (id, tok) ∈ s.tokenTextsByID) (h : markEnrollmentTokenUsed id t s = .ok (u, s')) :
    s'.tokenTextsByID = s.tokenTextsByID ∧ s.Unclaimed tok ∧ ¬ s'.Unclaimed tok := by
  obtain ⟨⟨k, hk, rfl, hfree⟩, _, rfl⟩ := markEnrollmentTokenUsed_ok h
  have htok : k.token = tok := by
    obtain ⟨k', hk', he⟩ := List.mem_map.mp hid
    obtain ⟨hid', htok'⟩ := Prod.mk.inj he
    rw [← s.enrollmentTokens.key_inj hk' hk hid', htok']
  refine ⟨?_, ⟨k, hk, htok, hfree⟩, ?_⟩
  · simp only [tokenTextsByID, Table.rows_map, List.map_map]
    refine List.map_congr_left fun b _ => ?_
    simp only [Function.comp_apply]
    split <;> rfl
  · rintro ⟨b, hb, hbtok, hbfree⟩
    simp only [Table.mem_map] at hb
    obtain ⟨a, ha, rfl⟩ := hb
    by_cases hak : a.id = k.id
    · simp [hak] at hbfree
    · -- a second row with the token's text contradicts the unique column
      simp only [hak, if_false] at hbtok
      exact hak (congrArg EnrollmentToken.id (s.tokenTexts.inj ha hk (hbtok.trans htok.symm)))

section
variable {tok : String} {texts : List (ID × String)}

/-- What every step of a claiming call may rely on: the texts of the tokens. -/
abbrev TextsKept (texts : List (ID × String)) (_ : Env) (w : World) : Prop := w.store.tokenTextsByID = texts

theorem validateEnrollmentToken_follows_claim :
    (validateEnrollmentToken tok).1.Follows (ClaimStep tok) (TextsKept texts)
      (fun q r => q = .before ∧ ∀ k, r = .ok k → (k.id, tok) ∈ texts) .before := by
  refine validateEnrollmentToken_follows (fun _ _ _ _ _ hs => .ofTokens (congrArg _ hs)) fun v w k hI hk htok => ?_
  rw [← hI, ← htok]
  exact List.mem_map.mpr ⟨k, hk, rfl⟩

theorem markEnrollmentTokenUsed_follows_claim {id : ID} (hid : (id, tok) ∈ texts) :
    (write (Store.markEnrollmentTokenUsed id)).Follows (ClaimStep tok) (TextsKept texts)
      (fun q r => True ∧ ∀ u, r = .ok u → q = .claimed) .before := by
  refine follows_writeAs (fun v w u s' hI hmark => ?_) fun v w e _ _ =>
    ⟨.before, .ofTokens rfl, trivial, fun u h => by cases h⟩
  obtain ⟨htexts, hfree, hused⟩ := Store.markEnrollmentTokenUsed_claims (hI ▸ hid) hmark
  exact ⟨.claimed, ⟨htexts, .inr ⟨rfl, hfree, hused⟩⟩, trivial, fun _ _ => rfl⟩

theorem completeEnrollment_follows_claim (p : Provisioner) :
    (completeEnrollment p tok).Follows (ClaimStep tok) (TextsKept texts)
      (fun q r => ∀ a, r = .ok a → q = .claimed) .before := by
  unfold completeEnrollment
  refine .bind validateEnrollmentToken_follows_claim ?_ fun _ _ _ _ h => by cases h
  rintro _ token ⟨rfl, hid⟩
  refine .bind (Reads.follows_claim _) ?_ fun _ _ _ _ h => by cases h
  rintro _ node rfl
  refine .bind (ensureNodePeer_follows_claim p node) ?_ fun _ _ _ _ h => by cases h
  rintro _ node rfl
  refine .bind (.mapError_ok (markEnrollmentTokenUsed_follows_claim (hid token rfl))) (fun q u ⟨_, hq⟩ => ?_)
    fun _ _ _ _ h => by cases h
  obtain rfl := hq u rfl
  refine .bind (.mapError (updateNode_follows_claim _) (N := fun q _ => q = .claimed) fun _ _ hq => hq) ?_
    fun _ _ _ _ h => by cases h
  rintro q node rfl
  exact .pure fun _ _ => rfl

end

section
variable {ι : Type} [DecidableEq ι]

/-- At most one call has claimed the token, and then nobody else can. -/
structure ClaimInv (tok : String) (texts : List (ID × String)) (w : World) (q : ι → ClaimPhase) : Prop where
  texts : w.store.tokenTextsByID = texts
  one : ∀ i j, q i = .claimed → q j = .claimed → i = j
  used : ∀ i, q i = .claimed → ¬ w.store.Unclaimed tok

theorem ClaimInv.step {tok : String} {texts : List (ID × String)} {w w' : World} {q : ι → ClaimPhase} {i : ι}
    {c : Call} {v : Env} {q' : ClaimPhase} (h : ClaimInv tok texts w q) (hs : ClaimStep tok (q i) c v w w' q') :
    ClaimInv tok texts w' (Function.update q i q') := by
  obtain ⟨htexts, ⟨rfl, hmono⟩ | ⟨rfl, hfree, hused⟩⟩ := hs
  · rw [Function.update_eq_self]
    exact ⟨htexts.trans h.texts, h.one, fun j hj hu => h.used j hj (hmono hu)⟩
  · -- whoever claims now is alone: the token was still free
    have hnone : ∀ j, q j = .claimed → False := fun j hj => h.used j hj hfree
    have honly : ∀ j, Function.update q i .claimed j = .claimed → j = i := by
      intro j hj
      by_contra hne
      exact hnone j (by simpa [hne] using hj)
    exact ⟨htexts.trans h.texts, fun j k hj hk => (honly j hj).trans (honly k hk).symm, fun _ _ => hused⟩

/-- Of any number of enrollment calls with one token, interleaved in any way and
with any store call failing, at most one returns a result. -/
theorem enrollment_token_single_use (p : Provisioner) (v : Env) (tok : String) (w : World) (sched : List ι) :
    {i | ∃ a, (Sys.run v sched ⟨w, fun _ => completeEnrollment p tok, []⟩).result i = some (.ok a)}.Subsingleton := by
  rintro i ⟨a, hi⟩ j ⟨b, hj⟩
  let c₀ : Sys ι Call Env World Err EnrollmentResult := ⟨w, fun _ => completeEnrollment p tok, []⟩
  have h₀ : c₀.Phased (fun _ => ClaimStep tok) (TextsKept w.store.tokenTextsByID)
      (fun _ q r => ∀ a, r = .ok a → q = .claimed) fun _ => .before :=
    fun _ => completeEnrollment_follows_claim p
  have hinit : ClaimInv tok w.store.tokenTextsByID c₀.state fun _ : ι => .before :=
    ⟨rfl, fun _ _ h => (by cases h), fun _ h => (by cases h)⟩
  obtain ⟨q, hq, hinv⟩ := (Sys.reach_run v sched c₀).phases
    (J := fun c q => ClaimInv tok w.store.tokenTextsByID c.state q) (fun _ _ h => h.texts)
    (fun c q k l act next q' _ hJ _ hp hT => by
      rw [Sys.step_of_step hp]
      exact hJ.step hT)
    h₀ hinit
  exact hinv.one i j (hq.result hi a rfl) (hq.result hj b rfl)

end

/-- Two calls that run in lockstep: the first gets a result, and so the second does not. -/
theorem enrollment_token_race :
    let c := Sys.run Env.calm ((List.replicate 14 [0, 1]).flatten)
      ⟨⟨0, Sample.fleet⟩, fun _ : Fin 2 => completeEnrollment Sample.provisioner "first", []⟩
    c.result 0 = some (.ok ⟨10, some 100, "10.100.0.2"⟩) ∧ ∀ b, c.result 1 ≠ some (.ok b) := by
  intro c
  have h : c.result 0 = some (.ok ⟨10, some 100, "10.100.0.2"⟩) := by decide
  exact ⟨h, fun b hb => absurd (enrollment_token_single_use _ _ _ _ _ ⟨_, h⟩ ⟨b, hb⟩) (by decide)⟩

end EdgeFabric
