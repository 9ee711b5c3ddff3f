/-
A session advisory lock of a database, for one lock identifier. A session that
holds the lock may take it again; it has to give it back as often as it took it.
The end of a session frees what it holds. What the operations do is said by
`count`, how often a session holds the lock.
-/
import Mathlib.Logic.Basic

/-- A lock that is held: by whom, and how often it was taken and not given back. -/
structure AdvisoryLock.Hold (ι : Type) where
  session : ι
  count : Nat
  taken : 0 < count

/-- The lock, free or held by one session. -/
structure AdvisoryLock (ι : Type) where
  hold : Option (AdvisoryLock.Hold ι)

namespace AdvisoryLock
variable {ι : Type} [DecidableEq ι]

def free : AdvisoryLock ι := ⟨none⟩

/-- How often session `i` holds the lock. -/
def count (l : AdvisoryLock ι) (i : ι) : Nat :=
  match l.hold with
  | none => 0
  | some h => if h.session = i then h.count else 0

/-- The lock is given to a session if no other one holds it. -/
def tryLock (i : ι) (l : AdvisoryLock ι) : Bool × AdvisoryLock ι :=
  match l.hold with
  | none => (true, ⟨some ⟨i, 1, Nat.one_pos⟩⟩)
  | some h => if h.session = i then (true, ⟨some ⟨i, h.count + 1, h.count.succ_pos⟩⟩) else (false, l)

/-- Gives the lock back once; `false` if the session did not hold it. -/
def unlock (i : ι) (l : AdvisoryLock ι) : Bool × AdvisoryLock ι :=
  match l.hold with
  | none => (false, l)
  | some h =>
    if h.session = i then (true, if hc : 0 < h.count - 1 then ⟨some ⟨i, h.count - 1, hc⟩⟩ else free) else (false, l)

/-- The end of session `i`. -/
def endSession (i : ι) (l : AdvisoryLock ι) : AdvisoryLock ι := if 0 < l.count i then free else l

@[simp] theorem count_free (i : ι) : (free : AdvisoryLock ι).count i = 0 := rfl

theorem count_exclusive {l : AdvisoryLock ι} {i j : ι} (hi : 0 < l.count i) (hj : 0 < l.count j) : i = j := by
  unfold count at hi hj
  split at hi
  · omega
  · next h heq =>
    simp only [heq] at hj
    split at hi <;> split at hj <;> first | omega | skip
    next hi' hj' => exact hi'.symm.trans hj'

theorem count_tryLock_ne {i j : ι} (h : j ≠ i) (l : AdvisoryLock ι) : (l.tryLock i).2.count j = l.count j := by
  unfold tryLock count
  cases hl : l.hold with
  | none => simp [h.symm]
  | some held => by_cases hs : held.session = i <;> simp [hs, hl, h.symm]

theorem count_tryLock_self (i : ι) (l : AdvisoryLock ι) :
    (l.tryLock i).2.count i = if (l.tryLock i).1 then l.count i + 1 else 0 := by
  unfold tryLock count
  cases hl : l.hold with
  | none => simp
  | some held => by_cases hs : held.session = i <;> simp [hs, hl]

theorem count_unlock_ne {i j : ι} (h : j ≠ i) (l : AdvisoryLock ι) : (l.unlock i).2.count j = l.count j := by
  unfold unlock
  cases hl : l.hold with
  | none => rfl
  | some held =>
    by_cases hs : held.session = i
    · by_cases hc : 0 < held.count - 1 <;> simp [hs, hc, count, free, hl, h.symm]
    · simp [hs]

theorem count_unlock_self (i : ι) (l : AdvisoryLock ι) : (l.unlock i).2.count i = l.count i - 1 := by
  unfold unlock
  cases hl : l.hold with
  | none => simp [count, hl]
  | some held =>
    by_cases hs : held.session = i
    · by_cases hc : 0 < held.count - 1 <;> simp [hs, hc, count, free, hl]
      omega
    · simp [hs, count, hl]

theorem count_endSession_ne {i j : ι} (h : j ≠ i) (l : AdvisoryLock ι) : (l.endSession i).count j = l.count j := by
  unfold endSession
  split
  · next hi =>
    -- nobody but `i` held it
    rcases Nat.eq_zero_or_pos (l.count j) with hj | hj
    · exact hj.symm
    · exact absurd (count_exclusive hj hi) h
  · rfl

@[simp] theorem count_endSession_self (i : ι) (l : AdvisoryLock ι) : (l.endSession i).count i = 0 := by
  unfold endSession
  split
  · rfl
  · next hi => omega

end AdvisoryLock
