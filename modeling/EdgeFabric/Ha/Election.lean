/-
What the leader flags say about the lock. The flag and the lock change in separate
steps, so two electors report leadership at one moment when the lock goes away under a
flag that is still set and another gets it: the session of a leader is lost before its
next tick, or a leader that took the lock once gives it back in its shutdown, before it
clears the flag. In every run in which the lock is got only while no other flag is set,
and not lost again before the flag follows, at most one elector reports leadership
(`one_leader`).

Every tick of a leader takes the lock once more and the shutdown gives it back
once, so an elector that was leader at no tick frees the lock (`shutdown_frees_lock`).
-/
import EdgeFabric.Ha.Leader
import Mathlib.Data.Fintype.Basic

namespace EdgeFabric.Ha
variable {ι : Type} [DecidableEq ι]

abbrev Electors (ι : Type) := Sys (Party ι) Op Network (Cluster ι) SqlError Unit

/-! ## At most one leader -/

/-- The lock is got only while no other elector reports leadership, and no session is lost that has got it and whose
elector does not report leadership yet. -/
def KeepsLock (c : Electors ι) : Party ι → Prop
  | .session i => 0 < c.state.lock.count i → c.state.isLeader i = true
  | .elector i => c.label (.elector i) = some .tryAdvisoryLock → (c.state.lock.tryLock i).1 = true →
      ∀ j, j ≠ i → c.state.isLeader j = false

instance [Fintype ι] (c : Electors ι) : (p : Party ι) → Decidable (KeepsLock c p)
  | .session i => inferInstanceAs (Decidable (0 < c.state.lock.count i → c.state.isLeader i = true))
  | .elector i => inferInstanceAs (Decidable (c.label (.elector i) = some .tryAdvisoryLock →
      (c.state.lock.tryLock i).1 = true → ∀ j, j ≠ i → c.state.isLeader j = false))

/-- The elector reports leadership, or is about to. -/
def View.Claims (w : View) (q : Phase) : Prop := w.leader = true ∨ q = .granted ∨ q = .electing

/-- Whoever is about to report leadership holds the lock. -/
def View.Backed (w : View) (q : Phase) : Prop := q = .granted ∨ q = .electing → w.leader = false → 0 < w.taken

section
variable {i : ι} {q q' : Phase} {l : Op} {v : Network} {s s' : Cluster ι}

theorem View.Backed.move (hm : Moves i q l v s s' q') (h : (s.view i).Backed q) : (s'.view i).Backed q' := by
  cases hm with
  | ask =>
    rintro (hq | hq)
    · obtain ⟨hview, hres⟩ | ⟨_, hres⟩ := s.view_statement (i := i) v (AdvisoryLock.tryLock i)
      · have hgot := hres true (Phase.answered_eq_granted.mp hq)
        simp [hview, s.lock.count_tryLock_self i, ← hgot]
      · exact absurd (Phase.answered_eq_granted.mp hq) (hres true)
    · exact absurd hq Phase.answered_ne_electing
  | wasNoLeader => exact fun _ hlead => h (.inl rfl) hlead
  | _ => simp [View.Backed]

/-- Only the grant of the lock makes an elector claim leadership. -/
theorem View.Claims.move (hm : Moves i q l v s s' q') (h : (s'.view i).Claims q') :
    (s.view i).Claims q ∨ l = .tryAdvisoryLock ∧ (s.lock.tryLock i).1 = true := by
  cases hm with
  | connect | noConn =>
    obtain ⟨b, hb⟩ := s.view_conn_self (i := i) v
    rw [hb] at h
    exact .inl (by simpa [View.Claims] using h)
  | ask =>
    rcases h with hlead | hq | hq
    · refine .inl (.inl ?_)
      obtain ⟨hview, _⟩ | ⟨hview, _⟩ := s.view_statement (i := i) v (AdvisoryLock.tryLock i)
      · rwa [hview] at hlead
      · rwa [hview] at hlead
    · obtain ⟨_, hres⟩ | ⟨_, hres⟩ := s.view_statement (i := i) v (AdvisoryLock.tryLock i)
      · exact .inr ⟨rfl, (hres true (Phase.answered_eq_granted.mp hq)).symm⟩
      · exact absurd (Phase.answered_eq_granted.mp hq) (hres true)
    · exact absurd hq Phase.answered_ne_electing
  | release =>
    obtain ⟨hview, _⟩ | ⟨hview, _⟩ := s.view_statement (i := i) v (AdvisoryLock.unlock i)
    · exact .inl (by simpa [hview, View.Claims] using h)
    · exact .inl (by simpa [hview, View.Claims] using h)
  | wasNoLeader => exact .inl (.inr (.inl rfl))
  | elect => exact .inl (.inr (.inr rfl))
  | demote | stop => simp [View.Claims] at h
  | wasLeader hlead | lost hlead | close hlead => exact .inl (.inl hlead)
  | follower hlead | closeFollower hlead => simp [View.Claims, Cluster.view, hlead] at h

end

/-- At most one elector claims leadership. -/
structure SoleClaim (s : Cluster ι) (q : Party ι → Phase) : Prop where
  backed : ∀ i, (s.view i).Backed (q (.elector i))
  sole : ∀ i j, (s.view i).Claims (q (.elector i)) → (s.view j).Claims (q (.elector j)) → i = j

theorem SoleClaim.move {c : Electors ι} {q : Party ι → Phase} {i : ι} {l : Op} {v : Network}
    {s' : Cluster ι} {q' : Phase}
    (h : SoleClaim c.state q) (hok : KeepsLock c (.elector i)) (hl : c.label (.elector i) = some l)
    (hm : Moves i (q (.elector i)) l v c.state s' q') : SoleClaim s' (Function.update q (.elector i) q') := by
  -- the others stay as they are
  have hother : ∀ j, j ≠ i → s'.view j = c.state.view j ∧
      Function.update q (.elector i) q' (.elector j) = q (.elector j) :=
    fun j hj => ⟨hm.view_ne hj, by simp [hj]⟩
  have hnew : ∀ j, j ≠ i → (s'.view i).Claims q' → ¬ (c.state.view j).Claims (q (.elector j)) := by
    intro j hj hi hclaims
    obtain hi | ⟨rfl, hgot⟩ := View.Claims.move hm hi
    · exact hj (h.sole j i hclaims hi)
    · have hno : c.state.isLeader j = false := hok hl hgot j hj
      have hheld : 0 < c.state.lock.count j :=
        h.backed j (hclaims.resolve_left fun hlead => absurd (hlead.symm.trans hno) (by decide)) hno
      have htaken : 0 < (c.state.lock.tryLock i).2.count i := by simp [c.state.lock.count_tryLock_self i, hgot]
      refine hj (AdvisoryLock.count_exclusive (l := (c.state.lock.tryLock i).2) ?_ htaken)
      rwa [AdvisoryLock.count_tryLock_ne hj]
  refine ⟨fun j => ?_, fun j k hj hk => ?_⟩
  · by_cases hij : j = i
    · subst hij
      simpa using View.Backed.move hm (h.backed j)
    · rw [(hother j hij).1, (hother j hij).2]
      exact h.backed j
  · by_cases hji : j = i <;> by_cases hki : k = i
    · exact hji.trans hki.symm
    · subst hji
      rw [(hother k hki).1, (hother k hki).2] at hk
      exact absurd hk (hnew k hki (by simpa using hj))
    · subst hki
      rw [(hother j hji).1, (hother j hji).2] at hj
      exact absurd hj (hnew j hji (by simpa using hk))
    · rw [(hother j hji).1, (hother j hji).2] at hj
      rw [(hother k hki).1, (hother k hki).2] at hk
      exact h.sole j k hj hk

theorem SoleClaim.drop {c : Electors ι} {q : Party ι → Phase} {i : ι} (h : SoleClaim c.state q)
    (hok : KeepsLock c (.session i)) : SoleClaim (c.state.drop i) q := by
  have hleader : ∀ j, ((c.state.drop i).view j).leader = (c.state.view j).leader := fun _ => rfl
  refine ⟨fun j hq hlead => ?_, fun j k hj hk => h.sole j k (by simpa [View.Claims, hleader] using hj)
    (by simpa [View.Claims, hleader] using hk)⟩
  have hheld := h.backed j hq hlead
  by_cases hij : j = i
  · subst hij
    exact absurd ((hok hheld).symm.trans hlead) (by decide)
  · rwa [Cluster.view_drop_ne c.state hij]

/-- **At most one leader.** -/
theorem one_leader (v : Network) (ticks : ι → Nat) (c : Electors ι)
    (h : Sys.Reach v KeepsLock (electors ticks) c) (i j : ι) (hi : c.state.isLeader i = true)
    (hj : c.state.isLeader j = true) : i = j := by
  have hstep : ∀ (c : Electors ι) q p l act next q', Sys.Phased PartyMoves (fun _ _ => True) PartyEnds c q →
      SoleClaim c.state q → KeepsLock c p → c.procs p = .step l act next →
        PartyMoves p (q p) l v c.state (act v c.state) q' →
      SoleClaim (c.step v p).state (Function.update q p q') := by
    intro c q p l act next q' _ hJ hok hp hT
    rw [Sys.step_of_step hp]
    cases p with
    | elector i => exact hJ.move hok (Sys.label_of_step hp) hT
    | session i =>
      obtain ⟨hs, rfl⟩ := hT
      rw [Function.update_eq_self, hs]
      exact hJ.drop hok
  obtain ⟨q, _, hsole⟩ := Sys.Reach.phases (J := fun c q => SoleClaim c.state q) (fun _ _ _ => trivial) hstep
    (electors_phased ticks) ⟨by simp [electors, View.Backed], by simp [electors, View.Claims]⟩ h
  exact hsole.sole i j (.inl hi) (.inl hj)

namespace Sample

def network : Network := { connects := fun _ => true, statement := fun _ => .executed }

/-- Elector `i` connects, gets the lock and stores its flag. -/
def elected (i : Bool) : List (Party Bool) := .replicate 4 (.elector i)

/-- Two electors; `true` gets the lock, takes it again at its one tick and begins its
shutdown. -/
def shutdown : Electors Bool :=
  (electors fun _ => 1).run network (elected true ++ .replicate 4 (.elector true) ++ elected false)

end Sample

theorem one_leader_of_shutdown :
    Sample.shutdown.state.isLeader true = true ∧ ¬ Sample.shutdown.state.isLeader false = true := by
  have hreach : Sys.Reach Sample.network KeepsLock (electors fun _ => 1) Sample.shutdown :=
    Sys.reach_of_along (by decide)
  have hleader : Sample.shutdown.state.isLeader true = true := by decide
  refine ⟨hleader, fun hj => ?_⟩
  exact absurd (one_leader Sample.network _ _ hreach true false hleader hj) (by decide)

/-- The leader's session is lost, and another elector gets the lock before the leader's
next tick. -/
def Sample.lostSession : Electors Bool :=
  (electors fun _ => 1).run network (elected true ++ [.session true] ++ elected false)

/-- A leader that took the lock once gives it back, and another elector gets it before
the first one clears its flag. -/
def Sample.givenBack : Electors Bool :=
  (electors fun _ => 0).run network (elected true ++ [.elector true, .elector true] ++ elected false)

theorem two_leaders :
    (Sample.lostSession.state.isLeader true = true ∧ Sample.lostSession.state.isLeader false = true) ∧
      Sample.givenBack.state.isLeader true = true ∧ Sample.givenBack.state.isLeader false = true := by
  decide

/-! ## Shutdown -/

/-- Elector `i` takes no tick as leader, its lock statements are not executed without an
answer, and its unlock is executed. -/
def TakesOnce (v : Network) (i : ι) (c : Electors ι) (p : Party ι) : Prop :=
  p = .elector i →
    (c.label p = some .tryAdvisoryLock → c.state.isLeader i = false ∧ v.statement c.state.clock ≠ .unanswered) ∧
      (c.label p = some .advisoryUnlock → v.statement c.state.clock = .executed)

instance (v : Network) (i : ι) (c : Electors ι) (p : Party ι) : Decidable (TakesOnce v i c p) :=
  inferInstanceAs (Decidable (p = .elector i →
    (c.label p = some .tryAdvisoryLock → c.state.isLeader i = false ∧ v.statement c.state.clock ≠ .unanswered) ∧
      (c.label p = some .advisoryUnlock → v.statement c.state.clock = .executed)))

/-- What the elector's program point says about the lock and the flag. -/
def Phase.Knows (w : View) : Phase → Prop
  | .idle => w.taken = 0 ∧ w.leader = false
  | .calm => w.leader = false → w.taken = 0
  | .granted | .electing => w.leader = false
  | .closing => True
  | .refused | .demoting | .released | .stopped => w.taken = 0

/-- The lock is taken at most once, by an open session, and not without the flag. -/
structure TakenOnce (w : View) (q : Phase) : Prop where
  once : w.taken ≤ 1
  lost : w.sessionOpen = false → w.taken = 0
  knows : q.Knows w

theorem TakenOnce.drop {w : View} {q : Phase} (h : TakenOnce w q) :
    TakenOnce { w with taken := 0, sessionOpen := false } q := by
  refine ⟨by simp, fun _ => rfl, ?_⟩
  have hk := h.knows
  cases q with
  | idle => exact ⟨rfl, hk.2⟩
  | granted | electing => exact hk
  | closing => trivial
  | calm => exact fun _ => rfl
  | refused | demoting | released | stopped => rfl

theorem TakenOnce.move {i : ι} {q q' : Phase} {l : Op} {v : Network} {s s' : Cluster ι}
    (hask : l = .tryAdvisoryLock → s.isLeader i = false ∧ v.statement s.clock ≠ .unanswered)
    (hunlock : l = .advisoryUnlock → v.statement s.clock = .executed) (hm : Moves i q l v s s' q')
    (h : TakenOnce (s.view i) q) : TakenOnce (s'.view i) q' := by
  have hknows := h.knows
  cases hm with
  | connect | noConn =>
    obtain ⟨b, hb⟩ := s.view_conn_self (i := i) v
    rw [hb]
    exact ⟨h.once, fun _ => hknows.1, by simp [Phase.Knows, hknows.1]⟩
  | ask =>
    obtain ⟨hlead, hanswer⟩ := hask rfl
    have hnone : s.lock.count i = 0 := hknows hlead
    obtain ⟨hopen, hres, hview⟩ | ⟨_, ⟨e, hres⟩, hview⟩ :=
      s.statement_answered (i := i) (f := AdvisoryLock.tryLock i) v hanswer
    · have hcount := s.lock.count_tryLock_self i
      rw [hview, hres]
      cases hgot : (s.lock.tryLock i).1 with
      | true =>
        have htaken : (s.lock.tryLock i).2.count i = 1 := by simp [hcount, hgot, hnone]
        exact ⟨by simp [htaken], by simp [Cluster.view, hopen], hlead⟩
      | false =>
        have htaken : (s.lock.tryLock i).2.count i = 0 := by simp [hcount, hgot]
        exact ⟨by simp [htaken], fun _ => htaken, htaken⟩
    · rw [hview, hres]
      exact ⟨h.once, h.lost, hnone⟩
  | release =>
    have hexec := hunlock rfl
    obtain ⟨_, _, hview⟩ | ⟨hopen | hfailed, _, hview⟩ :=
      s.statement_answered (i := i) (f := AdvisoryLock.unlock i) v (by simp [hexec])
    · have honce : s.lock.count i ≤ 1 := h.once
      have htaken : (s.lock.unlock i).2.count i = 0 := by rw [s.lock.count_unlock_self i]; omega
      rw [hview]
      exact ⟨by simp [htaken], fun _ => htaken, htaken⟩
    · rw [hview]
      exact ⟨h.once, h.lost, h.lost hopen⟩
    · simp [hexec] at hfailed
  | wasNoLeader => exact ⟨h.once, h.lost, hknows⟩
  | wasLeader hlead => exact absurd hlead (by rw [show s.isLeader i = false from hknows]; decide)
  | elect => exact ⟨by simpa using h.once, by simpa using h.lost, by simp [Phase.Knows]⟩
  | lost => exact ⟨h.once, h.lost, hknows⟩
  | follower => exact ⟨h.once, h.lost, fun _ => hknows⟩
  | demote => exact ⟨by simpa using h.once, by simpa using h.lost, fun _ => by simpa [Phase.Knows] using hknows⟩
  | close => exact ⟨h.once, h.lost, trivial⟩
  | closeFollower hlead => exact ⟨h.once, h.lost, hknows hlead⟩
  | stop => exact ⟨by simpa using h.once, by simpa using h.lost, by simpa [Phase.Knows] using hknows⟩

/-- **A shutdown frees the lock**, once `Start` has returned. -/
theorem shutdown_frees_lock (v : Network) (ticks : ι → Nat) (i : ι) (c : Electors ι)
    (h : Sys.Reach v (TakesOnce v i) (electors ticks) c) (hret : (c.result (.elector i)).isSome) :
    c.state.lock.count i = 0 := by
  obtain ⟨q, hq, hstopped⟩ := view_invariant i TakenOnce ⟨by simp, fun _ => rfl, ⟨rfl, rfl⟩⟩
    (fun c q l s' q' hok hl hm hJ => TakenOnce.move (fun he => (hok rfl).1 (by rw [hl, he]))
      (fun he => (hok rfl).2 (by rw [hl, he])) hm hJ)
    (fun c q _ hJ => by simpa using hJ.drop) h
  have hknows := hq.knows
  rw [hstopped hret] at hknows
  exact hknows

/-- Elector `true` is refused at its first try, gets the lock at its tick and is shut down;
elector `false` had the lock and lost its session. -/
def Sample.takenOver : Electors Bool :=
  (electors fun _ => 1).run network
    (elected false ++ .replicate 3 (.elector true) ++ [.session false] ++ .replicate 6 (.elector true))

theorem shutdown_frees_lock_taken_over :
    Sample.takenOver.trace.length = 14 ∧ Sample.takenOver.state.lock.count true = 0 := by
  have hreach : Sys.Reach Sample.network (TakesOnce Sample.network true) (electors fun _ => 1) Sample.takenOver :=
    Sys.reach_of_along (by decide)
  exact ⟨by decide, shutdown_frees_lock _ _ true _ hreach (by decide)⟩

def Sample.leaderForATick : Electors Unit := (electors fun _ => 1).run network (.replicate 9 (.elector ()))

theorem shutdown_leaves_lock :
    (Sample.leaderForATick.result (.elector ())).isSome = true ∧ Sample.leaderForATick.state.lock.count () = 1 := by
  decide

end EdgeFabric.Ha
