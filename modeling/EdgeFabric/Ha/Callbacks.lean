/-
The callbacks of an elector. Whether the lock is granted, refused or cannot be asked for is
given here attempt by attempt, so that every sequence of outcomes is covered, also those
that no lock server would send. The elector calls back when its flag changes, and only
then: `Agrees` ties the flag to the last call.

`tryAcquire_store` relates this to the elector as a program on the database
(`Ha/Leader.lean`): an attempt there stores what an attempt here calls back.
-/
import EdgeFabric.Ha.Leader
import EdgeFabric.Lib.Trace
import Mathlib.Data.List.Chain

namespace EdgeFabric.Ha

inductive Attempt where
  | acquired | refused | error
  deriving DecidableEq, Repr

inductive Callback where
  | onElected | onDemoted
  deriving DecidableEq, Repr

/-- The flag of an elector, and its callbacks so far. -/
structure PostgresLeaderElector where
  isLeader : Bool
  called : List Callback
  deriving DecidableEq, Repr

namespace PostgresLeaderElector

def new : PostgresLeaderElector := { isLeader := false, called := [] }

def elect (e : PostgresLeaderElector) : PostgresLeaderElector :=
  { isLeader := true, called := e.called ++ [.onElected] }

def demote (e : PostgresLeaderElector) : PostgresLeaderElector :=
  { isLeader := false, called := e.called ++ [.onDemoted] }

def tryAcquire (a : Attempt) (e : PostgresLeaderElector) : PostgresLeaderElector :=
  match a with
  | .error => if e.isLeader then e.demote else e
  | .acquired => if !e.isLeader then e.elect else e
  | .refused => if e.isLeader then e.demote else e

/-- The loop of `Start`, with an attempt before it and one at each tick. -/
def attempts (as : List Attempt) (e : PostgresLeaderElector) : PostgresLeaderElector :=
  as.foldl (fun e a => e.tryAcquire a) e

def cancelled (e : PostgresLeaderElector) : PostgresLeaderElector := if e.isLeader then e.demote else e

/-! ## The flag and the calls -/

/-- The calls alternate, the first is `onElected`, and the last says what the flag is. -/
structure Agrees (e : PostgresLeaderElector) : Prop where
  alternate : e.called.IsChain (· ≠ ·)
  first : ∀ c ∈ e.called.head?, c = .onElected
  last : e.isLeader = true ↔ e.called.getLast? = some .onElected

variable {e : PostgresLeaderElector}

theorem Agrees.push (h : e.Agrees) (b : Bool) (c : Callback) (hb : b = true ↔ c = .onElected)
    (hc : e.isLeader ≠ b) : Agrees { isLeader := b, called := e.called ++ [c] } := by
  have hlast : ∀ c' ∈ e.called.getLast?, c' ≠ c := by
    rintro c' hc' rfl
    refine hc (Bool.eq_iff_iff.mpr (h.last.trans ?_))
    rw [hb, Option.mem_def.mp hc', Option.some_inj]
  refine ⟨?_, ?_, ?_⟩
  · refine List.isChain_append.mpr ⟨h.alternate, List.isChain_singleton c, fun x hx y hy => ?_⟩
    obtain rfl : c = y := by simpa using hy
    exact hlast x hx
  · intro c' hc'
    cases hcalled : e.called with
    | nil =>
      -- nobody was called yet, so the flag is down and goes up now
      rw [hcalled] at hc'
      obtain rfl : c = c' := by simpa using hc'
      have hdown : e.isLeader = false := by simpa [hcalled] using h.last
      exact hb.mp (by simpa [hdown] using hc.symm)
    | cons first rest =>
      rw [hcalled] at hc'
      obtain rfl : first = c' := by simpa using hc'
      exact h.first first (by simp [hcalled])
  · simpa using hb

theorem Agrees.new : PostgresLeaderElector.new.Agrees :=
  ⟨List.isChain_nil, by simp [PostgresLeaderElector.new], by simp [PostgresLeaderElector.new]⟩

theorem Agrees.demote (h : e.Agrees) (hlead : e.isLeader = true) : e.demote.Agrees :=
  h.push false .onDemoted (by simp) (by simp [hlead])

theorem Agrees.tryAcquire (h : e.Agrees) (a : Attempt) : (e.tryAcquire a).Agrees := by
  unfold PostgresLeaderElector.tryAcquire
  cases hlead : e.isLeader <;> cases a
  case true.error => exact h.demote hlead
  case true.refused => exact h.demote hlead
  case false.acquired => exact h.push true .onElected (by simp) (by simp [hlead])
  all_goals exact h

theorem Agrees.attempts (h : e.Agrees) (as : List Attempt) : (e.attempts as).Agrees := by
  induction as generalizing e with
  | nil => exact h
  | cons a as ih => exact ih (h.tryAcquire a)

theorem Agrees.cancelled (h : e.Agrees) : e.cancelled.Agrees := by
  unfold PostgresLeaderElector.cancelled
  split
  · next hlead => exact h.demote hlead
  · exact h

theorem isLeader_cancelled (e : PostgresLeaderElector) : e.cancelled.isLeader = false := by
  unfold PostgresLeaderElector.cancelled
  split
  · rfl
  · next hlead => simpa using hlead

/-- After any attempts, whatever came of them, the callbacks were called in turn, `onElected` first, and
the elector is the leader if and only if the last one was `onElected`; so too when the context was
cancelled after them, and then the elector is not the leader. -/
theorem callbacks_alternate (as : List Attempt) :
    (new.attempts as).Agrees ∧ (new.attempts as).cancelled.Agrees ∧ (new.attempts as).cancelled.isLeader = false :=
  ⟨Agrees.new.attempts as, (Agrees.new.attempts as).cancelled, isLeader_cancelled _⟩

example : ((new.attempts [.refused, .acquired, .acquired, .error, .acquired]).cancelled).called =
    [.onElected, .onDemoted, .onElected, .onDemoted] := by decide

end PostgresLeaderElector

/-! ## The elector on the database -/

def Attempt.ofAnswer : Except SqlError Bool → Attempt
  | .ok true => .acquired
  | .ok false => .refused
  | .error _ => .error

def Callback.ofOp : Op → Option Callback
  | .store true => some .onElected
  | .store false => some .onDemoted
  | _ => none

variable {ι : Type} [DecidableEq ι]

/-- An attempt of the elector `i` on the database: its flag and its stores are those of an attempt with
that outcome. -/
theorem tryAcquire_store (v : Network) (s : Cluster ι) (i : ι) (called : List Callback) :
    (PostgresLeaderElector.mk (((tryAcquire i).exec v s).2.isLeader i)
        (called ++ ((tryAcquire i).trace v s).filterMap Callback.ofOp)) =
      (PostgresLeaderElector.mk (s.isLeader i) called).tryAcquire
        (.ofAnswer (s.statement i (AdvisoryLock.tryLock i) v).1) := by
  have hflag : (s.statement i (AdvisoryLock.tryLock i) v).2.isLeader = s.isLeader := by
    unfold Cluster.statement
    split
    · split <;> rfl
    · rfl
  rcases hs : s.statement i (AdvisoryLock.tryLock i) v with ⟨answer, s'⟩
  rw [hs] at hflag
  have hlead : s'.isLeader i = s.isLeader i := congrFun hflag i
  rcases answer with _ | _ | _ <;> cases hb : s.isLeader i <;>
    simp [tryAcquire, tryAdvisoryLock, loadLeader, Ha.elect, Ha.demote, storeLeader, Prog.exec_bind,
      Prog.trace_bind, hs,
      hlead, hb, Attempt.ofAnswer, Callback.ofOp, PostgresLeaderElector.tryAcquire, PostgresLeaderElector.elect,
      PostgresLeaderElector.demote, Cluster.setLeader, List.filterMap_cons]

end EdgeFabric.Ha
