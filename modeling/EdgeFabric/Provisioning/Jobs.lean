/-
One provisioning job per node at a time. `startAction` looks for an active job and, in
another store call, creates the new one; two calls that both look before either
creates both get their job (`concurrent_jobs`).

If no call looks while another is between its look and its creation, at most one job of
the node is pending or running at every moment (`one_active_job`). What carries the
proof is who owns the active job: only its pipeline ends it, and while a call that has
looked is under way there is none.
-/
import EdgeFabric.Provisioning.Walk

namespace EdgeFabric

def ProvisioningJob.Active (n : ID) (j : ProvisioningJob) : Prop :=
  j.nodeID = n ∧ (j.status = .pending ∨ j.status = .running)

instance (n : ID) (j : ProvisioningJob) : Decidable (j.Active n) := inferInstanceAs (Decidable (_ ∧ _))

def Store.activeJobs (s : Store) (n : ID) : List ProvisioningJob := s.provisioningJobs.rows.filter fun j => j.Active n

/-- Any number of actions on the node `n`, each with its pipeline. -/
def provisions {ι : Type} (p : Provisioner) (n : ID) (actions : ι → ProvisioningAction × ID) (w : World) :
    Sys ι Call Env World Err ProvisioningJob :=
  { state := w, procs := fun i => provision p n (actions i).2 (actions i).1 }

/-- The database calls that process `i` has made. -/
def dbCalls {ι : Type} [DecidableEq ι] (c : Sys ι Call Env World Err ProvisioningJob) (i : ι) : Nat :=
  c.trace.count (i, .db)

/-- A call makes its second database call, which looks for an active job, only while no
other call has made its second and not yet its third, which creates the job. -/
def LooksAlone {ι : Type} [DecidableEq ι] (c : Sys ι Call Env World Err ProvisioningJob) (i : ι) : Prop :=
  c.label i = some .db → dbCalls c i = 1 → ∀ j, j ≠ i → dbCalls c j = 2 → c.result j ≠ none

/-! ## What an action does to the jobs -/

inductive JobPhase where
  | start
  | loaded
  | looked
  | owns (id : ID)
  | ended

/-- The steps of an action on the node `n`, by what they do to the jobs. -/
inductive JobStep (n : ID) : JobPhase → Call → Env → World → World → JobPhase → Prop where
  | loads {v w w'} : w'.store.provisioningJobs = w.store.provisioningJobs → JobStep n .start .db v w w' .loaded
  | looks {v w w'} : w'.store.provisioningJobs = w.store.provisioningJobs →
      (∀ j ∈ w.store.provisioningJobs, ¬ j.Active n) → JobStep n .loaded .db v w w' .looked
  | names {c v w w'} : c ≠ .db → w'.store.provisioningJobs = w.store.provisioningJobs →
      JobStep n .looked c v w w' .looked
  | creates {v w w' j} : w.store.provisioningJobs.insert j = some w'.store.provisioningJobs → j.Active n →
      JobStep n .looked .db v w w' (.owns j.id)
  | works {id c v w w'} : w'.store.provisioningJobs = w.store.provisioningJobs →
      JobStep n (.owns id) c v w w' (.owns id)
  | saves {id v w w' old j} : w.store.provisioningJobs.set j = some w'.store.provisioningJobs → j.id = id →
      w.store.provisioningJobs.find id = some old → j.nodeID = old.nodeID → j.status = .pending ∨ j.status = .running →
      JobStep n (.owns id) .db v w w' (.owns id)
  | ends {id v w w' j} : w.store.provisioningJobs.set j = some w'.store.provisioningJobs → j.id = id →
      ¬ (j.status = .pending ∨ j.status = .running) → JobStep n (.owns id) .db v w w' .ended
  | stops {q c v w w'} : q ≠ .start → (∀ id, q ≠ .owns id) → w'.store.provisioningJobs = w.store.provisioningJobs →
      JobStep n q c v w w' .ended

/-! ### Programs that leave the jobs alone -/

theorem keepsJobs_pipelineWrites : PipelineWrites (Keeps Store.provisioningJobs) fun _ => True :=
  keeps_pipelineWrites (fun _ _ => rfl) (fun _ _ _ => rfl) fun _ _ => rfl

section
variable {n id : ID} {q : JobPhase} {I : Env → World → Prop} {α : Type}
variable {job : ProvisioningJob} {node : Node} {steps : List ProvisioningStep}

/-- Where the owner of a job is: at work, or past the save that ends the job. -/
def JobPhase.Past (id : ID) (q : JobPhase) : Prop := q = .owns id ∨ q = .ended

theorem Keeps.follows_jobs {p : M α} {R : α → Prop} (h : Keeps Store.provisioningJobs p R) (hq : q.Past id) :
    p.Follows (JobStep n) I (fun q' _ => q' = q) q := by
  refine .ofWithin (S := (· = q)) (h ()).within ?_ (fun _ _ hq => hq) rfl
  rintro _ c v w w' rfl _ hs
  rcases hq with rfl | rfl
  · exact ⟨_, rfl, .works hs⟩
  · exact ⟨_, rfl, .stops nofun nofun hs⟩

theorem Reads.follows_jobs (r : Reads α) (hq : q.Past id) : r.1.Follows (JobStep n) I (fun q' _ => q' = q) q :=
  Keeps.follows_jobs (keeps_walk.reads r) hq

/-! ### The pipeline -/

theorem saveJob_follows (hid : job.id = id) (hactive : job.status = .pending ∨ job.status = .running) :
    (saveJob job).Follows (JobStep n) I (fun q _ => q = .owns id) (.owns id) := by
  refine .handle (P := fun q _ => q = .owns id) (follows_writeAs ?_ ?_) fun _ _ hq => .pure hq
  · intro v w a s' _ h
    obtain ⟨old, jobs, hold, hset, rfl⟩ := Store.updateProvisioningJob_ok h
    have hkey : old.id = job.id := (Table.find_eq_some.mp hold).2
    rw [hid] at hold
    exact ⟨.owns id, .saves hset (hkey.trans hid) hold rfl hactive, rfl⟩
  · exact fun v w e _ _ => ⟨.owns id, .works rfl, rfl⟩

theorem saveJob_final_follows (hid : job.id = id)
    (hended : ¬ (job.status = .pending ∨ job.status = .running)) :
    (saveJob job).Follows (JobStep n) I (fun q _ => q.Past id) (.owns id) := by
  refine .handle (P := fun q _ => JobPhase.Past id q) (follows_writeAs ?_ ?_) fun _ _ hq => .pure hq
  · intro v w a s' _ h
    obtain ⟨old, jobs, hold, hset, rfl⟩ := Store.updateProvisioningJob_ok h
    have hkey : old.id = job.id := (Table.find_eq_some.mp hold).2
    exact ⟨.ended, .ends hset (hkey.trans hid) hended, .inr rfl⟩
  · exact fun v w e _ _ => ⟨.owns id, .works rfl, .inl rfl⟩

theorem failJob_follows {step : ProvisioningStep}
    {e : Err} {results : List StepResult} (hid : job.id = id) :
    (failJob job node steps step e results).Follows (JobStep n) I (fun _ _ => True) (.owns id) := by
  refine .bind (Keeps.follows_jobs (keeps_walk.rollbackResults _ _ _ _) (.inl rfl)) ?_ fun _ _ _ => trivial
  rintro _ rb rfl
  refine .bind (Reads.follows_jobs _ (.inl rfl)) ?_ fun _ _ _ => trivial
  rintro _ t rfl
  refine .bind (saveJob_final_follows hid (by simp)) (fun q _ hq => ?_) fun _ _ _ => trivial
  refine .bind (Keeps.follows_jobs (keeps_walk.saveEnrolling (keepsJobs_pipelineWrites.node trivial)) hq) ?_
    fun _ _ _ => trivial
  exact fun _ _ _ => .pure trivial

/-- The loop of the pipeline, by induction on the steps that remain: the job in memory is
the one owned, and it runs. -/
theorem runSteps_follows {p : Provisioner} :
    ∀ rest job node results, job.id = id → job.status = .running →
      (runSteps p steps rest job node results).Follows (JobStep n) I (fun _ _ => True) (.owns id)
  | [], job, node, results, hid, _ => by
    refine .bind (Reads.follows_jobs _ (.inl rfl)) ?_ fun _ _ _ => trivial
    rintro _ t rfl
    refine .bind (saveJob_final_follows hid (by simp)) (fun q _ hq => ?_) fun _ _ _ => trivial
    refine .bind (Keeps.follows_jobs (keeps_walk.saveNode (keepsJobs_pipelineWrites.node trivial)) hq) ?_
      fun _ _ _ => trivial
    exact fun _ _ _ => .pure trivial
  | step :: rest, job, node, results, hid, hrun => by
    refine .bind (saveJob_follows hid (.inr hrun)) ?_ fun _ _ _ => trivial
    rintro _ _ rfl
    refine .bind (Keeps.follows_jobs (keeps_walk.timed (N := fun _ => True)
      (keeps_walk.executeStep keepsJobs_pipelineWrites.toStepWrites
      (fun _ node _ => createNodePeer_keeps (fun _ _ => rfl) p node) trivial)) (.inl rfl)) ?_ fun _ _ _ => trivial
    rintro _ ⟨node, result, _ | e⟩ rfl
    · exact runSteps_follows rest _ _ _ hid hrun
    · exact failJob_follows hid

theorem runPipeline_follows {p : Provisioner}
    (hid : job.id = id) : (runPipeline p job node steps).Follows (JobStep n) I (fun _ _ => True) (.owns id) := by
  refine .bind (Reads.follows_jobs _ (.inl rfl)) ?_ fun _ _ _ => trivial
  rintro _ t rfl
  refine .bind (saveJob_follows hid (.inr rfl)) ?_ fun _ _ _ => trivial
  rintro _ _ rfl
  refine .bind (Keeps.follows_jobs (keeps_walk.saveEnrolling (keepsJobs_pipelineWrites.node trivial)) (.inl rfl)) ?_
    fun _ _ _ => trivial
  rintro _ _ rfl
  exact runSteps_follows _ _ _ _ hid rfl

/-! ### The start of an action -/

theorem lookForJob_follows :
    (read (Store.getActiveProvisioningJob n)).1.Follows (JobStep n) I (fun q r => r = .error .notFound → q = .looked)
      .loaded := by
  refine .call fun v w _ => ?_
  dsimp only
  by_cases hnone : dbAnswer v w (Store.getActiveProvisioningJob n) = .error .notFound
  · have hactive := Store.getActiveProvisioningJob_error (dbAnswer_sentinel (fun _ h => by cases h) hnone)
    exact ⟨.looked, .looks rfl hactive, fun _ => rfl⟩
  · exact ⟨.ended, .stops nofun nofun rfl, fun h => absurd h hnone⟩

theorem checkAction_follows (hid : node.id = n) (action : ProvisioningAction) :
    (checkAction node action).1.Follows (JobStep n) I (fun q r => ∀ u, r = .ok u → q = .looked) .loaded := by
  have hno : ∀ {q : JobPhase} {e : Err}, ∀ u, (.error e : Except Err Unit) = .ok u → q = .looked :=
    fun u h => by cases h
  unfold checkAction
  split
  · rw [hid]
    refine .bind (P := fun q r => ∀ x, r = .ok x → x = .error .notFound → q = .looked)
      (.attempt lookForJob_follows fun q r hq x hx => ?_) (fun q x hq => ?_) fun _ _ _ => hno
    · cases hx
      exact hq
    · rcases x with e | job
      · cases e with
        | notFound => exact .pure fun _ _ => hq _ rfl rfl
        | _ => exact .fail hno
      · exact .fail hno
  · exact .fail hno

theorem startAction_follows (initiatedBy : ID) (action : ProvisioningAction) :
    (startAction n initiatedBy action).Follows (JobStep n) I (fun q r => ∀ x, r = .ok x → q = .owns x.1.id) .start := by
  have hno : ∀ {q : JobPhase} {e : Err}, ∀ x : ProvisioningJob × Node, (.error e : Except Err _) = .ok x →
    q = .owns x.1.id :=
    fun x h => by cases h
  have hget : (read (Store.getNode n)).1.Follows (JobStep n) I
      (fun q r => q = .loaded ∧ ∀ node, r = .ok node → node.id = n) .start := by
    refine follows_read (fun v w node _ h => ?_) fun v w e _ => ⟨.loaded, .loads rfl, rfl, fun _ h => by cases h⟩
    refine ⟨.loaded, .loads rfl, rfl, fun node' h' => ?_⟩
    cases h'
    exact (Store.getNode_ok h).2
  refine .bind (.mapError_ok hget) ?_ fun _ _ _ => hno
  rintro _ node ⟨rfl, hid⟩
  refine .bind (checkAction_follows (hid node rfl) action) (fun q u hq => ?_) fun _ _ _ => hno
  obtain rfl := hq u rfl
  refine .bind (P := fun q _ => q = .looked) (.call fun v w _ => ⟨.looked, .names nofun rfl, rfl⟩) ?_ fun _ _ _ => hno
  rintro _ id rfl
  refine .bind (P := fun q r => True ∧ ∀ j, r = .ok j → q = .owns j.id) (.mapError_ok (follows_writeAs ?_ ?_))
    (fun q job hq => ?_) fun _ _ _ => hno
  · intro v w job s' _ h
    obtain ⟨rfl, jobs, hins, rfl⟩ := Store.createProvisioningJob_ok h
    exact ⟨_, .creates hins ⟨rfl, .inl rfl⟩, trivial, fun j hj => by cases hj; rfl⟩
  · exact fun v w e _ _ => ⟨.ended, .stops nofun nofun rfl, trivial, fun _ h => by cases h⟩
  · obtain rfl := hq.2 job rfl
    exact .pure fun x hx => by cases hx; rfl

theorem provision_follows (p : Provisioner) (initiatedBy : ID) (action : ProvisioningAction) :
    (provision p n initiatedBy action).Follows (JobStep n) I (fun _ _ => True) .start := by
  refine .bind (startAction_follows initiatedBy action) (fun q started hq => ?_) fun _ _ _ => trivial
  obtain rfl := hq started rfl
  exact runPipeline_follows rfl

end

/-! ## Every interleaving -/

/-- How many database calls an action has made before it creates its job. -/
def JobPhase.calls : JobPhase → Option Nat
  | .start => some 0
  | .loaded => some 1
  | .looked => some 2
  | .owns _ | .ended => none

section
variable {ι : Type} [DecidableEq ι] {n : ID}

/-- At most one job is active. Only its owner ends it, and none is active while an action
that has looked is under way. -/
structure JobsInv (n : ID) (c : Sys ι Call Env World Err ProvisioningJob) (q : ι → JobPhase) : Prop where
  one : ∀ a ∈ c.state.store.provisioningJobs, ∀ b ∈ c.state.store.provisioningJobs, a.Active n → b.Active n → a = b
  calls : ∀ i k, (q i).calls = some k → dbCalls c i = k
  free : ∀ i, q i = .looked → c.result i = none → ∀ a ∈ c.state.store.provisioningJobs, ¬ a.Active n
  alone : ∀ i j, q i = .looked → q j = .looked → c.result i = none → c.result j = none → i = j
  owner : ∀ i id, q i = .owns id → ∃ a ∈ c.state.store.provisioningJobs, a.id = id ∧ a.Active n
  single : ∀ i j id id', q i = .owns id → q j = .owns id' → i = j

variable {c : Sys ι Call Env World Err ProvisioningJob} {q : ι → JobPhase} {v : Env} {i : ι} {l : Call}
  {act : Env → World → World} {next : Env → World → M ProvisioningJob} {q' : JobPhase}

theorem dbCalls_step_of_ne (hp : c.procs i = .step l act next) {j : ι} (hj : j ≠ i) :
    dbCalls (c.step v i) j = dbCalls c j := by
  rw [dbCalls, Sys.step_of_step hp, List.count_cons_of_ne, dbCalls]
  exact fun h => hj (congrArg Prod.fst h).symm

theorem dbCalls_step_of_eq (hp : c.procs i = .step .db act next) : dbCalls (c.step v i) i = dbCalls c i + 1 := by
  rw [dbCalls, Sys.step_of_step hp, List.count_cons_self, dbCalls]

theorem dbCalls_step_of_other (hp : c.procs i = .step l act next) (hl : l ≠ .db) :
    dbCalls (c.step v i) i = dbCalls c i := by
  rw [dbCalls, Sys.step_of_step hp, List.count_cons_of_ne, dbCalls]
  exact fun h => hl (congrArg Prod.snd h)

theorem JobsInv.calls_step (h : JobsInv n c q) (hp : c.procs i = .step l act next)
    (hT : JobStep n (q i) l v c.state (act v c.state) q') (j : ι) (k : Nat)
    (hk : (Function.update q i q' j).calls = some k) : dbCalls (c.step v i) j = k := by
  by_cases hji : j = i
  · subst hji
    rw [Function.update_self] at hk
    generalize hqi : q j = qi at hT
    cases hT with
    | loads _ =>
      cases hk
      rw [dbCalls_step_of_eq hp, h.calls j 0 (by rw [hqi]; rfl)]
    | looks _ _ =>
      cases hk
      rw [dbCalls_step_of_eq hp, h.calls j 1 (by rw [hqi]; rfl)]
    | names hl _ =>
      cases hk
      rw [dbCalls_step_of_other hp hl, h.calls j 2 (by rw [hqi]; rfl)]
    | _ => cases hk
  · rw [Function.update_of_ne hji] at hk
    rw [dbCalls_step_of_ne hp hji]
    exact h.calls j k hk

theorem JobsInv.kept (h : JobsInv n c q) (hp : c.procs i = .step l act next)
    (hT : JobStep n (q i) l v c.state (act v c.state) q')
    (hjobs : (act v c.state).store.provisioningJobs = c.state.store.provisioningJobs)
    (hlook : q' = .looked → (∀ a ∈ c.state.store.provisioningJobs, ¬ a.Active n) ∧
      ∀ j, j ≠ i → q j = .looked → c.result j ≠ none)
    (howns : ∀ id, q' = .owns id → q i = .owns id) : JobsInv n (c.step v i) (Function.update q i q') := by
  have hstate : (c.step v i).state.store.provisioningJobs = c.state.store.provisioningJobs := by
    rw [Sys.step_of_step hp]
    exact hjobs
  have hold : ∀ j id, Function.update q i q' j = .owns id → q j = .owns id := by
    intro j id hj
    rcases eq_or_ne j i with rfl | hji
    · exact howns id (by rwa [Function.update_self] at hj)
    · rwa [Function.update_of_ne hji] at hj
  refine ⟨by rw [hstate]; exact h.one, h.calls_step hp hT, fun j hj hrun => ?_, fun j k hj hk hrj hrk => ?_,
    fun j id hj => by rw [hstate]; exact h.owner j id (hold j id hj),
    fun j k id id' hj hk => h.single j k id id' (hold j id hj) (hold k id' hk)⟩
  · rw [hstate]
    rcases eq_or_ne j i with rfl | hji
    · exact (hlook (by rwa [Function.update_self] at hj)).1
    · rw [Function.update_of_ne hji] at hj
      rw [Sys.result_step_of_ne hji] at hrun
      exact h.free j hj hrun
  · by_contra hjk
    rcases eq_or_ne j i with rfl | hji
    · rw [Function.update_self] at hj
      rw [Function.update_of_ne (Ne.symm hjk)] at hk
      rw [Sys.result_step_of_ne (Ne.symm hjk)] at hrk
      exact (hlook hj).2 k (Ne.symm hjk) hk hrk
    · rw [Function.update_of_ne hji] at hj
      rw [Sys.result_step_of_ne hji] at hrj
      rcases eq_or_ne k i with rfl | hki
      · exact (hlook (by rwa [Function.update_self] at hk)).2 j hji hj hrj
      · rw [Function.update_of_ne hki] at hk
        rw [Sys.result_step_of_ne hki] at hrk
        exact hjk (h.alone j k hj hk hrj hrk)

theorem JobsInv.changed (h : JobsInv n c q) (hp : c.procs i = .step l act next)
    (hT : JobStep n (q i) l v c.state (act v c.state) q') (hlook : q' ≠ .looked)
    (hidle : ∀ j, j ≠ i → q j = .looked → c.result j ≠ none) (hothers : ∀ j, j ≠ i → ∀ id, q j ≠ .owns id)
    (hactive : ∀ a ∈ (act v c.state).store.provisioningJobs, a.Active n → q' = .owns a.id)
    (howner : ∀ id, q' = .owns id → ∃ a ∈ (act v c.state).store.provisioningJobs, a.id = id ∧ a.Active n) :
    JobsInv n (c.step v i) (Function.update q i q') := by
  have hstate : (c.step v i).state = act v c.state := by rw [Sys.step_of_step hp]
  have hnot : ∀ j, Function.update q i q' j = .looked → (c.step v i).result j ≠ none := by
    intro j hj
    rcases eq_or_ne j i with rfl | hji
    · exact absurd (by rwa [Function.update_self] at hj) hlook
    · rw [Function.update_of_ne hji] at hj
      rw [Sys.result_step_of_ne hji]
      exact hidle j hji hj
  have hself : ∀ j id, Function.update q i q' j = .owns id → j = i ∧ q' = .owns id := by
    intro j id hj
    rcases eq_or_ne j i with rfl | hji
    · exact ⟨rfl, by rwa [Function.update_self] at hj⟩
    · rw [Function.update_of_ne hji] at hj
      exact absurd hj (hothers j hji id)
  refine ⟨fun a ha b hb haa hab => ?_, h.calls_step hp hT, fun j hj hrun => absurd hrun (hnot j hj),
    fun j _ hj _ hrun => absurd hrun (hnot j hj), fun j id hj => ?_, fun j k id id' hj hk => ?_⟩
  · rw [hstate] at ha hb
    have hid := (hactive a ha haa).symm.trans (hactive b hb hab)
    exact Table.key_inj ha hb (JobPhase.owns.inj hid)
  · rw [hstate]
    exact howner id (hself j id hj).2
  · exact (hself j id hj).1.trans (hself k id' hk).1.symm

theorem JobsInv.of_owns (h : JobsInv n c q) {id : ID} (hi : q i = .owns id) :
    (∀ j, j ≠ i → q j = .looked → c.result j ≠ none) ∧ (∀ j, j ≠ i → ∀ id', q j ≠ .owns id') ∧
      ∀ a ∈ c.state.store.provisioningJobs, a.Active n → a.id = id := by
  obtain ⟨a, ha, rfl, hactive⟩ := h.owner i id hi
  refine ⟨fun j _ hj hrun => h.free j hj hrun a ha hactive, fun j hji id' hj => hji (h.single j i id' _ hj hi),
    fun b hb hb' => congrArg _ (h.one b hb a ha hb' hactive)⟩

theorem JobsInv.step (h : JobsInv n c q) (hok : LooksAlone c i) (hp : c.procs i = .step l act next)
    (hT : JobStep n (q i) l v c.state (act v c.state) q') : JobsInv n (c.step v i) (Function.update q i q') := by
  have hrun : c.result i = none := Sys.result_of_step hp
  generalize hqi : q i = qi at hT
  generalize hw : act v c.state = w' at hT
  have hT' := hT
  rw [← hqi, ← hw] at hT'
  cases hT with
  | loads hjobs => exact h.kept hp hT' (hw ▸ hjobs) nofun nofun
  | looks hjobs hnone =>
    refine h.kept hp hT' (hw ▸ hjobs) (fun _ => ⟨hnone, fun j hji hj => ?_⟩) nofun
    have hi : dbCalls c i = 1 := h.calls i 1 (by rw [hqi]; rfl)
    exact hok (Sys.label_of_step hp) hi j hji (h.calls j 2 (by rw [hj]; rfl))
  | names _ hjobs =>
    refine h.kept hp hT' (hw ▸ hjobs) (fun _ => ⟨h.free i hqi hrun, fun j hji hj hrj => ?_⟩) nofun
    exact hji (h.alone j i hj hqi hrj hrun)
  | creates hins hactive =>
    have hnone := h.free i hqi hrun
    refine h.changed hp hT' nofun (fun j hji hj hrj => hji (h.alone j i hj hqi hrj hrun)) (fun j _ id hj => ?_)
      (fun a ha haa => ?_) fun id hid => ?_
    · obtain ⟨a, ha, _, haa⟩ := h.owner j id hj
      exact hnone a ha haa
    · rw [hw, Table.mem_insert hins] at ha
      rcases ha with ha | rfl
      · exact absurd haa (hnone a ha)
      · rfl
    · rw [hw]
      exact ⟨_, (Table.mem_insert hins).mpr (.inr rfl), JobPhase.owns.inj hid, hactive⟩
  | works hjobs => exact h.kept hp hT' (hw ▸ hjobs) nofun fun id hid => hid ▸ hqi
  | @saves id _ _ _ old j hset hid hold hnode hstatus =>
    obtain ⟨hidle, hothers, honly⟩ := h.of_owns hqi
    refine h.changed hp hT' nofun hidle hothers (fun a ha haa => ?_) fun id' hid' => ?_
    · rw [hw, Table.mem_set hset] at ha
      rcases ha with ⟨ha, hne⟩ | rfl
      · exact absurd ((honly a ha haa).trans hid.symm) hne
      · rw [hid]
    · obtain ⟨a, ha, hida, haa⟩ := h.owner i id hqi
      have haold : a = old := by
        obtain ⟨hmem, hkey⟩ := Table.find_eq_some.mp hold
        exact Table.key_inj ha hmem (hida.trans hkey.symm)
      rw [hw]
      exact ⟨j, (Table.mem_set hset).mpr (.inr rfl), hid.trans (JobPhase.owns.inj hid'),
        hnode.trans (haold ▸ haa.1), hstatus⟩
  | ends hset hid hended =>
    obtain ⟨hidle, hothers, honly⟩ := h.of_owns hqi
    refine h.changed hp hT' nofun hidle hothers (fun a ha haa => ?_) nofun
    rw [hw, Table.mem_set hset] at ha
    rcases ha with ⟨ha, hne⟩ | rfl
    · exact absurd ((honly a ha haa).trans hid.symm) hne
    · exact absurd haa.2 hended
  | stops _ _ hjobs => exact h.kept hp hT' (hw ▸ hjobs) nofun nofun

theorem Store.activeJobs_length_le_one {s : Store} :
    (s.activeJobs n).length ≤ 1 ↔
      ∀ a ∈ s.provisioningJobs, ∀ b ∈ s.provisioningJobs, a.Active n → b.Active n → a = b := by
  simp only [Store.activeJobs, Table.length_filter_le_one, decide_eq_true_eq]

/-- In every state that an interleaving of actions on a node reaches, with their pipelines,
in which no action looks for an active job while another is between its look and the
creation of its own: at most one job of the node is pending or running. -/
theorem one_active_job (p : Provisioner) (v : Env) (n : ID) (actions : ι → ProvisioningAction × ID) (w : World)
    (hinit : (w.store.activeJobs n).length ≤ 1) {c : Sys ι Call Env World Err ProvisioningJob}
    (h : Sys.Reach v LooksAlone (provisions p n actions w) c) : (c.state.store.activeJobs n).length ≤ 1 := by
  have hphased : (provisions p n actions w).Phased (fun _ => JobStep n) (fun _ _ => True) (fun _ _ _ => True)
      fun _ => .start := fun i => provision_follows p _ _
  have hstart : JobsInv n (provisions p n actions w) fun _ => .start := by
    refine ⟨Store.activeJobs_length_le_one.mp hinit, fun i k hk => ?_, nofun, nofun, nofun, nofun⟩
    cases hk
    rfl
  obtain ⟨q, _, hinv⟩ := h.phases (J := JobsInv n) (fun _ _ _ => trivial)
    (fun c q i l act next q' _ hinv hok hp hT => hinv.step hok hp hT) hphased hstart
  exact Store.activeJobs_length_le_one.mpr hinv.one

end

namespace Sample

def restartAndStop : Fin 2 → ProvisioningAction × ID
  | 0 => (.restart, 1)
  | 1 => (.stop, 2)

instance (c : Sys (Fin 2) Call Env World Err ProvisioningJob) (i : Fin 2) : Decidable (LooksAlone c i) :=
  inferInstanceAs (Decidable (_ → _ → _))

end Sample

/-- The second action looks after the first has created its job, and is refused. -/
theorem one_active_job_second_refused :
    let c := provisions Sample.provisioner 10 Sample.restartAndStop ⟨0, Sample.onlineFleet⟩
    let sched : List (Fin 2) := [0, 1, 0, 0, 0, 1, 0]
    ((c.run Env.calm sched).state.store.activeJobs 10).length ≤ 1 ∧ ((c.run Env.calm sched).result 1).isSome := by
  intro c sched
  have halong : Sys.Along Env.calm LooksAlone sched c := by decide
  exact ⟨one_active_job _ _ 10 _ _ (by decide) (Sys.reach_of_along halong), by decide⟩

/-- Both actions look before either creates its job: the node has two active jobs. -/
theorem concurrent_jobs :
    let c := provisions Sample.provisioner 10 Sample.restartAndStop ⟨0, Sample.onlineFleet⟩
    let sched : List (Fin 2) := [0, 1, 0, 1, 0, 1, 0, 1]
    ((c.run Env.calm sched).state.store.activeJobs 10).length = 2 := by
  decide

end EdgeFabric
