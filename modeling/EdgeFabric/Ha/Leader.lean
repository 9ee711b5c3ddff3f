/-
Leader election (`internal/ha/leader.go`): the PostgreSQL elector, whose leader
flag follows a session advisory lock that it asks for again at every tick.

The electors of a cluster run at the same time. An SQL statement, a load or a
store of the flag and the loss of a session are one atomic step each. What the
network does to a statement is the environment's: it may be executed, fail
before it reaches the server, or be executed without an answer. The waiting
between two ticks is not a step, so an elector's run is given by the number of
ticks before its context is cancelled. `Moves` is the elector as a machine of
program points (`start_follows`).
-/
import EdgeFabric.Lib.Interleave
import EdgeFabric.Lib.AdvisoryLock

namespace EdgeFabric.Ha

/-- What becomes of a statement that is sent on an open session. -/
inductive Outcome where
  | executed | failed | unanswered
  deriving DecidableEq, Repr

/-- What the network does, by the number of the statement. -/
structure Network where
  connects : Nat → Bool
  statement : Nat → Outcome

inductive SqlError where
  | connect | connDone | failed
  deriving DecidableEq, Repr

/-- The database and the leader flags of the electors `ι`. Elector `i` works on session
`i`, the one connection it takes from its pool. -/
structure Cluster (ι : Type) where
  clock : Nat
  lock : AdvisoryLock ι
  sessionOpen : ι → Bool
  isLeader : ι → Bool

inductive Op where
  | conn | tryAdvisoryLock | advisoryUnlock | load | store (leader : Bool) | drop
  deriving DecidableEq, Repr

variable {ι : Type}

namespace Cluster

def init : Cluster ι := { clock := 0, lock := ⟨none⟩, sessionOpen := fun _ => false, isLeader := fun _ => false }

variable [DecidableEq ι]

def conn (i : ι) (v : Network) (s : Cluster ι) : Except SqlError Unit × Cluster ι :=
  if v.connects s.clock then
    (.ok (), { s with clock := s.clock + 1, sessionOpen := Function.update s.sessionOpen i true })
  else (.error .connect, { s with clock := s.clock + 1 })

/-- A statement of session `i`. A connection whose session is lost stays unusable. -/
def statement {α : Type} (i : ι) (f : AdvisoryLock ι → α × AdvisoryLock ι) (v : Network) (s : Cluster ι) :
    Except SqlError α × Cluster ι :=
  if s.sessionOpen i then
    match v.statement s.clock with
    | .executed => (.ok (f s.lock).1, { s with clock := s.clock + 1, lock := (f s.lock).2 })
    | .failed => (.error .failed, { s with clock := s.clock + 1 })
    | .unanswered => (.error .failed, { s with clock := s.clock + 1, lock := (f s.lock).2 })
  else (.error .connDone, { s with clock := s.clock + 1 })

def setLeader (i : ι) (leader : Bool) (s : Cluster ι) : Cluster ι :=
  { s with isLeader := Function.update s.isLeader i leader }

/-- The session of elector `i` is lost, and its locks with it. -/
def drop (i : ι) (s : Cluster ι) : Cluster ι :=
  { s with lock := s.lock.endSession i, sessionOpen := Function.update s.sessionOpen i false }

end Cluster

section Programs
variable [DecidableEq ι]

abbrev Elector (ι α : Type) := Prog Op Network (Cluster ι) SqlError α

def loadLeader (i : ι) : Elector ι Bool := .call .load fun _ s => (.ok (s.isLeader i), s)

def storeLeader (i : ι) (leader : Bool) : Elector ι Unit :=
  .call (.store leader) fun _ s => (.ok (), s.setLeader i leader)

def elect (i : ι) : Elector ι Unit := storeLeader i true

def demote (i : ι) : Elector ι Unit := storeLeader i false

def tryAdvisoryLock (i : ι) : Elector ι Bool := .call .tryAdvisoryLock (Cluster.statement i (AdvisoryLock.tryLock i))

def tryAcquire (i : ι) : Elector ι Unit := do
  match ← (tryAdvisoryLock i).attempt with
  | .error _ => if ← loadLeader i then demote i
  | .ok acquired =>
    let wasLeader ← loadLeader i
    if acquired && !wasLeader then elect i
    else if !acquired && wasLeader then demote i

/-- An error of the unlock is only logged. -/
def releaseLock (i : ι) : Elector ι Unit := do
  let _ ← Prog.attempt (.call .advisoryUnlock (Cluster.statement i (AdvisoryLock.unlock i)))

/-- The loop of `Start`, with the number of ticks before the context is done. -/
def loop (i : ι) : Nat → Elector ι Unit
  | 0 => do
    if ← loadLeader i then
      releaseLock i
      demote i
  | ticks + 1 => do
    tryAcquire i
    loop i ticks

/-- `Start`. The deferred `conn.Close` gives the connection back to the pool, with its
session open, so it changes nothing here. -/
def start (i : ι) (ticks : Nat) : Elector ι Unit := do
  .call .conn (Cluster.conn i)
  tryAcquire i
  loop i ticks

/-- The loss of the session of elector `i`. -/
def loseSession (i : ι) : Elector ι Unit := .call .drop fun _ s => (.ok (), s.drop i)

end Programs

/-- Who takes steps: the electors, and the network that may end a session. -/
inductive Party (ι : Type) where
  | elector (i : ι) | session (i : ι)
  deriving DecidableEq, Repr

/-- All electors before their `Start`; elector `i` is shut down after `ticks i` ticks. -/
def electors [DecidableEq ι] (ticks : ι → Nat) : Sys (Party ι) Op Network (Cluster ι) SqlError Unit where
  state := .init
  procs
    | .elector i => start i (ticks i)
    | .session i => loseSession i

/-! ## What the steps change -/

/-- What an elector's steps depend on: how often its session holds the lock, its flag,
and whether the session is open. -/
structure View where
  taken : Nat
  leader : Bool
  sessionOpen : Bool

variable [DecidableEq ι]

def Cluster.view (s : Cluster ι) (i : ι) : View := ⟨s.lock.count i, s.isLeader i, s.sessionOpen i⟩

@[simp] theorem Cluster.view_init (i : ι) : (Cluster.init : Cluster ι).view i = ⟨0, false, false⟩ := rfl

namespace Cluster
variable {i j : ι} (v : Network) (s : Cluster ι)

theorem view_conn_self : ∃ b, (s.conn i v).2.view i = { s.view i with sessionOpen := b } := by
  unfold conn
  split
  · exact ⟨true, by simp [view]⟩
  · exact ⟨s.sessionOpen i, rfl⟩

theorem view_conn_ne (h : j ≠ i) : (s.conn i v).2.view j = s.view j := by
  unfold conn
  split <;> simp [view, h]

theorem view_statement_ne {α : Type} {f : AdvisoryLock ι → α × AdvisoryLock ι}
    (h : ∀ l, (f l).2.count j = l.count j) : (s.statement i f v).2.view j = s.view j := by
  unfold statement
  split
  · split <;> simp [view, h]
  · rfl

theorem view_statement {α : Type} (f : AdvisoryLock ι → α × AdvisoryLock ι) :
    ((s.statement i f v).2.view i = { s.view i with taken := (f s.lock).2.count i } ∧
        ∀ a, (s.statement i f v).1 = .ok a → a = (f s.lock).1) ∨
      ((s.statement i f v).2.view i = s.view i ∧ ∀ a, (s.statement i f v).1 ≠ .ok a) := by
  unfold statement
  split
  · split
    · exact .inl ⟨rfl, fun a h => (Except.ok.inj h).symm⟩
    · exact .inr ⟨rfl, fun a h => by cases h⟩
    · exact .inl ⟨rfl, fun a h => by cases h⟩
  · exact .inr ⟨rfl, fun a h => by cases h⟩

theorem statement_answered {α : Type} {f : AdvisoryLock ι → α × AdvisoryLock ι}
    (h : v.statement s.clock ≠ .unanswered) :
    (s.sessionOpen i = true ∧ (s.statement i f v).1 = .ok (f s.lock).1 ∧
        (s.statement i f v).2.view i = { s.view i with taken := (f s.lock).2.count i }) ∨
      ((s.sessionOpen i = false ∨ v.statement s.clock = .failed) ∧ (∃ e, (s.statement i f v).1 = .error e) ∧
        (s.statement i f v).2.view i = s.view i) := by
  unfold statement
  split
  · next hopen =>
    split
    · exact .inl ⟨hopen, rfl, rfl⟩
    · next hfailed => exact .inr ⟨.inr hfailed, ⟨_, rfl⟩, rfl⟩
    · next hlost => exact absurd hlost h
  · next hopen => exact .inr ⟨.inl (by simpa using hopen), ⟨_, rfl⟩, rfl⟩

@[simp] theorem view_setLeader_self (b : Bool) : (s.setLeader i b).view i = { s.view i with leader := b } := by
  simp [setLeader, view]

theorem view_setLeader_ne (b : Bool) (h : j ≠ i) : (s.setLeader i b).view j = s.view j := by
  simp [setLeader, view, h]

@[simp] theorem view_drop_self : (s.drop i).view i = { s.view i with taken := 0, sessionOpen := false } := by
  simp [drop, view]

theorem view_drop_ne (h : j ≠ i) : (s.drop i).view j = s.view j := by
  simp [drop, view, h, AdvisoryLock.count_endSession_ne h]

end Cluster

/-! ## The elector as a machine -/

/-- Where an elector is: what its last statement said, and what it does about it. -/
inductive Phase where
  | idle | calm | granted | electing | refused | demoting | closing | released | stopped
  deriving DecidableEq, Repr

/-- The answer of the lock statement; an error counts as a refusal. -/
def Phase.answered : Except SqlError Bool → Phase
  | .ok true => .granted
  | _ => .refused

@[simp] theorem Phase.answered_eq_granted {r : Except SqlError Bool} : answered r = .granted ↔ r = .ok true := by
  rcases r with e | ⟨_ | _⟩ <;> simp [answered]

@[simp] theorem Phase.answered_ne_electing {r : Except SqlError Bool} : answered r ≠ .electing := by
  rcases r with e | ⟨_ | _⟩ <;> simp [answered]

/-- The steps of elector `i`. -/
inductive Moves (i : ι) : Phase → Op → Network → Cluster ι → Cluster ι → Phase → Prop where
  | connect {v s} : v.connects s.clock = true → Moves i .idle .conn v s (s.conn i v).2 .calm
  | noConn {v s} : v.connects s.clock = false → Moves i .idle .conn v s (s.conn i v).2 .stopped
  | ask {v s} : Moves i .calm .tryAdvisoryLock v s (s.statement i (AdvisoryLock.tryLock i) v).2
      (.answered (s.statement i (AdvisoryLock.tryLock i) v).1)
  | wasNoLeader {v s} : s.isLeader i = false → Moves i .granted .load v s s .electing
  | wasLeader {v s} : s.isLeader i = true → Moves i .granted .load v s s .calm
  | elect {v s} : Moves i .electing (.store true) v s (s.setLeader i true) .calm
  | lost {v s} : s.isLeader i = true → Moves i .refused .load v s s .demoting
  | follower {v s} : s.isLeader i = false → Moves i .refused .load v s s .calm
  | demote {v s} : Moves i .demoting (.store false) v s (s.setLeader i false) .calm
  | close {v s} : s.isLeader i = true → Moves i .calm .load v s s .closing
  | closeFollower {v s} : s.isLeader i = false → Moves i .calm .load v s s .stopped
  | release {v s} : Moves i .closing .advisoryUnlock v s (s.statement i (AdvisoryLock.unlock i) v).2 .released
  | stop {v s} : Moves i .released (.store false) v s (s.setLeader i false) .stopped

def PartyMoves : Party ι → Phase → Op → Network → Cluster ι → Cluster ι → Phase → Prop
  | .elector i => Moves i
  | .session i => fun q _ _ s s' q' => s' = s.drop i ∧ q' = q

def PartyEnds {ε α : Type} : Party ι → Phase → Except ε α → Prop
  | .elector _ => fun q _ => q = .stopped
  | .session _ => fun _ _ => True

section Follows
variable {I : Network → Cluster ι → Prop} (i : ι)

theorem loadLeader_follows {q : Phase} {α : Type} {f : Bool → Elector ι α} {P : Phase → Except SqlError α → Prop}
    (next : Bool → Phase) (hmove : ∀ v s, Moves i q .load v s s (next (s.isLeader i)))
    (h : ∀ b, (f b).Follows (Moves i) I P (next b)) : (loadLeader i >>= f).Follows (Moves i) I P q := by
  refine .bind (P := fun q' r => ∃ b, r = .ok b ∧ q' = next b) (.call fun v s _ => ?_) ?_ ?_
  · exact ⟨_, hmove v s, _, rfl, rfl⟩
  · rintro q' b ⟨_, hb, rfl⟩
    cases hb
    exact h b
  · rintro q' e ⟨_, hb, _⟩
    cases hb

theorem storeLeader_follows {q q' : Phase} {b : Bool} {P : Phase → Except SqlError Unit → Prop}
    (hmove : ∀ v s, Moves i q (.store b) v s (s.setLeader i b) q') (h : P q' (.ok ())) :
    (storeLeader i b).Follows (Moves i) I P q :=
  .call fun v s _ => ⟨q', hmove v s, h⟩

theorem tryAcquire_follows : (tryAcquire i).Follows (Moves i) I (fun q r => q = .calm ∧ r = .ok ()) .calm := by
  have hdemote : ((loadLeader i >>= fun b => if b then demote i else pure ()).Follows (Moves i) I
      (fun q r => q = .calm ∧ r = .ok ()) .refused) := by
    refine loadLeader_follows i (fun b => if b then .demoting else .calm) (fun v s => ?_) fun b => ?_
    · cases hb : s.isLeader i with
      | true => exact .lost hb
      | false => exact .follower hb
    · cases b with
      | true => exact storeLeader_follows i (fun _ _ => .demote) ⟨rfl, rfl⟩
      | false => exact .pure ⟨rfl, rfl⟩
  have helect : ((loadLeader i >>= fun b => if !b then elect i else pure ()).Follows (Moves i) I
      (fun q r => q = .calm ∧ r = .ok ()) .granted) := by
    refine loadLeader_follows i (fun b => if b then .calm else .electing) (fun v s => ?_) fun b => ?_
    · cases hb : s.isLeader i with
      | true => exact .wasLeader hb
      | false => exact .wasNoLeader hb
    · cases b with
      | true => exact .pure ⟨rfl, rfl⟩
      | false => exact storeLeader_follows i (fun _ _ => .elect) ⟨rfl, rfl⟩
  refine .handle (P := fun q a => q = .answered a) (.call fun v s _ => ⟨_, .ask, rfl⟩) fun q a hq => ?_
  rw [hq]
  cases a with
  | error e => exact hdemote
  | ok acquired =>
    cases acquired with
    | true => simpa [Phase.answered] using helect
    | false => simpa [Phase.answered] using hdemote

theorem loop_follows (ticks : Nat) : (loop i ticks).Follows (Moves i) I (fun q _ => q = .stopped) .calm := by
  induction ticks with
  | zero =>
    refine loadLeader_follows i (fun b => if b then .closing else .stopped) (fun v s => ?_) fun b => ?_
    · cases hb : s.isLeader i with
      | true => exact .close hb
      | false => exact .closeFollower hb
    · cases b with
      | false => exact .pure rfl
      | true =>
        refine .bind (P := fun q r => q = .released ∧ r = .ok ()) ?_ (fun q _ hq => ?_) fun q e hq => by cases hq.2
        · exact .handle (P := fun q _ => q = .released) (.call fun v s _ => ⟨.released, .release, rfl⟩)
            fun q r hq => .pure ⟨hq, rfl⟩
        · rw [hq.1]
          exact storeLeader_follows i (fun _ _ => .stop) rfl
  | succ ticks ih =>
    refine .bind (tryAcquire_follows i) (fun q _ hq => ?_) fun q e hq => ?_
    · rw [hq.1]
      exact ih
    · cases hq.2

theorem start_follows (ticks : Nat) : (start i ticks).Follows (Moves i) I (fun q _ => q = .stopped) .idle := by
  refine .bind (P := fun q r => (r = .ok () ∧ q = .calm) ∨ ((∃ e, r = .error e) ∧ q = .stopped)) (.call fun v s _ => ?_)
    ?_ ?_
  · cases hc : v.connects s.clock with
    | true => exact ⟨.calm, .connect hc, .inl ⟨by simp [Cluster.conn, hc], rfl⟩⟩
    | false => exact ⟨.stopped, .noConn hc, .inr ⟨⟨.connect, by simp [Cluster.conn, hc]⟩, rfl⟩⟩
  · rintro q a (⟨_, rfl⟩ | ⟨⟨e, he⟩, _⟩)
    · refine .bind (tryAcquire_follows i) (fun q _ hq => ?_) fun q e hq => ?_
      · rw [hq.1]
        exact loop_follows i ticks
      · cases hq.2
    · cases he
  · rintro q e (⟨he, _⟩ | ⟨_, hq⟩)
    · cases he
    · exact hq

end Follows

theorem Moves.view_ne {i j : ι} {q q' : Phase} {l : Op} {v : Network} {s s' : Cluster ι} (h : Moves i q l v s s' q')
    (hj : j ≠ i) : s'.view j = s.view j := by
  cases h with
  | connect | noConn => exact s.view_conn_ne v hj
  | ask => exact s.view_statement_ne v (AdvisoryLock.count_tryLock_ne hj)
  | release => exact s.view_statement_ne v (AdvisoryLock.count_unlock_ne hj)
  | elect | demote | stop => exact s.view_setLeader_ne _ hj
  | _ => rfl

theorem electors_phased {I : Network → Cluster ι → Prop} (ticks : ι → Nat) :
    Sys.Phased PartyMoves I PartyEnds (electors ticks) fun _ => .idle := by
  intro p
  cases p with
  | elector i => exact start_follows i (ticks i)
  | session i => exact .call fun v s _ => ⟨.idle, ⟨rfl, rfl⟩, trivial⟩

/-- The rule for one elector: what its own steps and the loss of its session keep, of its
view and its program point, holds in every state reached. -/
theorem view_invariant {v : Network} {Ok : Sys (Party ι) Op Network (Cluster ι) SqlError Unit → Party ι → Prop}
    {ticks : ι → Nat} (i : ι) (J : View → Phase → Prop) (hinit : J ⟨0, false, false⟩ .idle)
    (hmove : ∀ c q l s' q', Ok c (.elector i) → c.label (.elector i) = some l → Moves i q l v c.state s' q' →
      J (c.state.view i) q → J (s'.view i) q')
    (hdrop : ∀ c q, Ok c (.session i) → J (c.state.view i) q → J ((c.state.drop i).view i) q)
    {c : Sys (Party ι) Op Network (Cluster ι) SqlError Unit} (h : Sys.Reach v Ok (electors ticks) c) :
    ∃ q, J (c.state.view i) q ∧ ((c.result (.elector i)).isSome → q = .stopped) := by
  have hstep : ∀ c q p l act next q', Sys.Phased PartyMoves (fun _ _ => True) PartyEnds c q →
      J (c.state.view i) (q (.elector i)) → Ok c p → c.procs p = .step l act next →
      PartyMoves p (q p) l v c.state (act v c.state) q' →
      J ((c.step v p).state.view i) (Function.update q p q' (.elector i)) := by
    intro c q p l act next q' _ hJ hok hp hT
    rw [Sys.step_of_step hp]
    cases p with
    | elector j =>
      by_cases hij : i = j
      · subst hij
        simpa using hmove c _ l _ q' hok (Sys.label_of_step hp) hT hJ
      · simpa [Moves.view_ne hT hij, hij] using hJ
    | session j =>
      obtain ⟨hs, _⟩ := hT
      simp only [hs]
      by_cases hij : i = j
      · subst hij
        simpa using hdrop c _ hok hJ
      · simpa [Cluster.view_drop_ne c.state hij] using hJ
  obtain ⟨q, hq, hJ⟩ := Sys.Reach.phases (J := fun c q => J (c.state.view i) (q (.elector i)))
    (fun _ _ _ => trivial) hstep (electors_phased ticks) hinit h
  refine ⟨q (.elector i), hJ, fun hr => ?_⟩
  obtain ⟨r, hr⟩ := Option.isSome_iff_exists.mp hr
  exact hq.result hr

end EdgeFabric.Ha
