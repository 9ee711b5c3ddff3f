/-
Calls of a hybrid cache that interleave. A move lets a call begin, lets one that
has begun do its next operation, lets time pass, or restarts the process: the
memory is then empty, the calls are gone, and the index is rebuilt from the
directory. The log has what was called and what was returned, the last first.

`HybridRun.Sound P S T` is the shape of an invariant of such runs: `P` holds of every
copy of an entry, in the cache or out of it in some call, `S` of what a `Get` is going
to return, and `T` of what a `Put` was called with. `Sound.operation` reduces its
preservation to what happens to copies when they are moved.
-/
import EdgeFabric.CdnServer.HybridCache
import EdgeFabric.Lib.Machine

namespace EdgeFabric.CdnServer

inductive HybridCall where
  | get (key : Bytes)
  | put (key : Bytes) (r : Response) (ttl : Int)
  deriving DecidableEq

def HybridCall.task : HybridCall → Task
  | .get key => .lookup key
  | .put key r ttl => .store { key, response := r, ttl, promoted := none }

inductive Event where
  | begin (id : Nat) (call : HybridCall) (time : Time)
  | finish (id : Nat) (call : HybridCall) (entry : Option CacheEntry) (time : Time)
  deriving DecidableEq

structure ActiveCall where
  id : Nat
  call : HybridCall
  task : Task

structure HybridRun where
  hybrid : Hybrid
  now : Time
  next : Nat
  active : Table ActiveCall.id
  /-- the call that has the memory locked -/
  holder : Option Nat
  log : List Event

inductive HybridMove where
  | call (c : HybridCall)
  | step (id : Nat) (choice : DiskChoice)
  | advance (d : Nat)
  | restart (order : RangeOrder)

def Task.waits (holder : Option Nat) : Task → Bool
  | .lookup _ | .store _ => holder ≠ none
  | .read _ | .spill _ _ | .remove _ => false

/-- Who has the memory locked after an operation of the call. -/
def Next.holder (id : Nat) (holder : Option Nat) : Next → Option Nat
  | .task (.spill _ _) => some id
  | _ => if holder = some id then none else holder

def HybridRun.after (a : ActiveCall) (next : Next) (hybrid : Hybrid) (s : HybridRun) : HybridRun :=
  let holder := next.holder a.id s.holder
  match next with
  | .task t => { s with hybrid, holder, active := s.active.put { a with task := t } }
  | .done e => { s with hybrid, holder, active := s.active.remove a.id, log := .finish a.id a.call e s.now :: s.log }

def HybridRun.step (v : Platform) (memEntries maxBytes : Int) (m : HybridMove) (s : HybridRun) : Option HybridRun :=
  match m with
  | .call c =>
    some { s with
      next := s.next + 1, active := s.active.put { id := s.next, call := c, task := c.task }
      log := .begin s.next c s.now :: s.log }
  | .step id choice => do
    let a ← s.active.find id
    if a.task.waits s.holder then none
    else
      let (next, hybrid) ← a.task.step v choice s.now s.hybrid
      return s.after a next hybrid
  | .advance d => some { s with now := s.now + d }
  | .restart order =>
    some { s with
      hybrid := newHybridCache memEntries maxBytes order s.hybrid.disk.dir, active := ∅, holder := none }

def HybridRun.start (memEntries maxBytes : Int) (now : Time) : HybridRun :=
  { hybrid := newHybridCache memEntries maxBytes .asStored ∅, now, next := 0, active := ∅, holder := none, log := [] }

section
variable {v : Platform} {memEntries maxBytes : Int} {s s' : HybridRun} {id : Nat} {choice : DiskChoice}

theorem HybridRun.step_inv (h : s.step v memEntries maxBytes (.step id choice) = some s') :
    ∃ a ∈ s.active, a.id = id ∧ a.task.waits s.holder = false ∧ ∃ next hybrid,
      a.task.step v choice s.now s.hybrid = some (next, hybrid) ∧ s' = s.after a next hybrid := by
  obtain ⟨a, ha, hrest⟩ := Option.bind_eq_some_iff.mp h
  obtain ⟨hmem, hid⟩ := Table.find_eq_some.mp ha
  split at hrest
  · cases hrest
  · next hwaits =>
    obtain ⟨⟨next, hybrid⟩, hstep, hafter⟩ := Option.bind_eq_some_iff.mp hrest
    cases hafter
    exact ⟨a, hmem, hid, by simpa using hwaits, next, hybrid, hstep, rfl⟩

/-- Something is true of every hit, with what was logged before it. -/
def AllHits (Q : List Event → Nat → Bytes → CacheEntry → Time → Prop) (log : List Event) : Prop :=
  ∀ newer id key e time older, log = newer ++ .finish id (.get key) (some e) time :: older → Q older id key e time

theorem AllHits.nil {Q : List Event → Nat → Bytes → CacheEntry → Time → Prop} : AllHits Q [] :=
  fun _ _ _ _ _ _ h => absurd h (by simp)

theorem AllHits.cons {Q : List Event → Nat → Bytes → CacheEntry → Time → Prop} {ev : Event} {log : List Event}
    (h : AllHits Q log) (hev : ∀ id key e time, ev = .finish id (.get key) (some e) time → Q log id key e time) :
    AllHits Q (ev :: log) := by
  intro newer id key e time older hlog
  cases newer with
  | nil =>
    obtain ⟨rfl, rfl⟩ : ev = _ ∧ log = older := by simpa using hlog
    exact hev id key e time rfl
  | cons ev' newer =>
    obtain ⟨-, rfl⟩ : ev = ev' ∧ log = _ := by simpa using hlog
    exact h newer id key e time older rfl

def HybridRun.Begun (s : HybridRun) : Prop :=
  ∀ a ∈ s.active, ∃ time, time ≤ s.now ∧ .begin a.id a.call time ∈ s.log

theorem HybridRun.Begun.move {m : HybridMove} (hs : s.Begun) (h : s.step v memEntries maxBytes m = some s') :
    s'.Begun := by
  cases m with
  | call c =>
    cases h
    intro a ha
    rcases Table.mem_put.mp ha with ⟨ha, -⟩ | rfl
    · obtain ⟨time, hle, hbegin⟩ := hs a ha
      exact ⟨time, hle, List.mem_cons_of_mem _ hbegin⟩
    · exact ⟨s.now, le_rfl, List.mem_cons_self⟩
  | step id choice =>
    obtain ⟨a, ha, -, -, next, hybrid, -, rfl⟩ := HybridRun.step_inv h
    cases next with
    | task t =>
      intro b hb
      rcases Table.mem_put.mp hb with ⟨hb, -⟩ | rfl
      · exact hs b hb
      · exact hs a ha
    | done e =>
      intro b hb
      obtain ⟨time, hle, hbegin⟩ := hs b (Table.mem_remove.mp hb).1
      exact ⟨time, hle, List.mem_cons_of_mem _ hbegin⟩
  | advance d =>
    cases h
    intro a ha
    obtain ⟨time, hle, hbegin⟩ := hs a ha
    exact ⟨time, Nat.le_add_right_of_le hle, hbegin⟩
  | restart order =>
    cases h
    exact fun a ha => absurd ha Table.not_mem_empty

end

/-! ## Copies of entries -/

def Task.pending : Task → Option Pending
  | .store p | .spill _ p => some p
  | _ => none

section
variable (v : Platform) (P : CacheEntry → Prop) (S : Nat → CacheEntry → Prop) (T : Bytes → Response → Prop)

/-- What a call is about to put into memory: what it was called with, or what it found on the
disk. -/
def Pending.From (a : ActiveCall) (p : Pending) : Prop :=
  match p.promoted with
  | none => a.call = .put p.key p.response p.ttl ∧ T p.key p.response
  | some e => p = e.promote ∧ a.call = .get e.key ∧ P e ∧ S a.id e

def ActiveCall.Sound (s : HybridRun) (a : ActiveCall) : Task → Prop
  | .lookup key | .read key => a.call = .get key
  | .store p => p.From P S T a
  | .spill x p => (P x ∧ x.key ≠ p.key) ∧ s.holder = some a.id ∧ s.hybrid.memory.entries.find p.key = none ∧
      cacheable v p.response = true ∧ p.From P S T a
  | .remove e => a.call = .get e.key ∧ S a.id e

structure HybridRun.Sound (s : HybridRun) : Prop where
  hybrid : s.hybrid.Holds v.names P
  active : ∀ a ∈ s.active, a.Sound v P S T s a.task

/-- How a call ends that has stored nothing: a `Get` with what it knows, or a `Put` of a response
that is not cached. -/
def ActiveCall.Ends (a : ActiveCall) (entry : Option CacheEntry) : Prop :=
  (∃ key, a.call = .get key ∧ ∀ e ∈ entry, e.key = key ∧ S a.id e) ∨
    ∃ key r ttl, a.call = .put key r ttl ∧ ¬ cacheable v r = true ∧ entry = none

/-- A `Put` has stored its response: the memory has it, and nothing else under its key. -/
structure HybridRun.Stored (s : HybridRun) (a : ActiveCall) (hybrid : Hybrid) (p : Pending) : Prop where
  pending : a.task.pending = some p
  promoted : p.promoted = none
  call : a.call = .put p.key p.response p.ttl
  put : T p.key p.response
  cacheable : cacheable v p.response = true
  memory : hybrid.memory.Stored P p s.now
  disk : hybrid.disk.Holds v.names P
  others : ∀ b ∈ s.active, b.id ≠ a.id → b.Sound v P S T (s.after a (.done none) hybrid) b.task
  alone : ∀ b ∈ s.active, b.id ≠ a.id → ∀ x q, b.task ≠ .spill x q

end

section
variable {v : Platform} {P P' : CacheEntry → Prop} {S S' : Nat → CacheEntry → Prop} {T : Bytes → Response → Prop}
  {s s' : HybridRun} {a b : ActiveCall} {next : Next} {hybrid : Hybrid} {e : CacheEntry} {p : Pending} {t : Task}
  {choice : DiskChoice}

theorem Pending.From.of_some (h : p.From P S T a) (hp : p.promoted = some e) :
    p = e.promote ∧ a.call = .get e.key ∧ P e ∧ S a.id e := by
  unfold Pending.From at h
  rwa [hp] at h

theorem Pending.From.of_none (h : p.From P S T a) (hp : p.promoted = none) :
    a.call = .put p.key p.response p.ttl ∧ T p.key p.response := by
  unfold Pending.From at h
  rwa [hp] at h

theorem Pending.From.mono (h : p.From P S T a) (hP : ∀ e ∈ p.promoted, P e → P' e) (hS : ∀ id e, S id e → S' id e) :
    p.From P' S' T a := by
  unfold Pending.From
  cases hp : p.promoted with
  | none => exact h.of_none hp
  | some e =>
    obtain ⟨hpe, hcall, he, hseen⟩ := h.of_some hp
    exact ⟨hpe, hcall, hP e (by rw [hp]; rfl) he, hS a.id e hseen⟩

/-- The entries that a task has out of the cache. -/
def Task.moved : Task → List CacheEntry
  | .store p => p.promoted.toList
  | .spill x p => x :: p.promoted.toList
  | _ => []

theorem ActiveCall.Sound.mono (h : a.Sound v P S T s t) (hP : ∀ e ∈ t.moved, P e → P' e)
    (hS : ∀ id e, S id e → S' id e)
    (hlock : ∀ x p, t = .spill x p → s'.hybrid.memory = s.hybrid.memory ∧ s'.holder = s.holder) :
    a.Sound v P' S' T s' t := by
  cases t with
  | lookup key => exact h
  | read key => exact h
  | store p => exact Pending.From.mono h (fun e he => hP e (Option.mem_toList.mpr he)) hS
  | spill x p =>
    obtain ⟨⟨hx, hne⟩, hholder, hfree, hcache, hp⟩ := h
    obtain ⟨hmemory, hsame⟩ := hlock x p rfl
    refine ⟨⟨hP x List.mem_cons_self hx, hne⟩, hsame.trans hholder, by rw [hmemory]; exact hfree, hcache, ?_⟩
    exact hp.mono (fun e he => hP e (List.mem_cons_of_mem _ (Option.mem_toList.mpr he))) hS
  | remove e => exact ⟨h.1, hS a.id e h.2⟩

theorem HybridRun.Sound.mono (hs : s.Sound v P S T) (hP : ∀ e, P e → P' e) (hS : ∀ id e, S id e → S' id e) :
    s.Sound v P' S' T :=
  ⟨hs.hybrid.mono hP, fun a ha => (hs.active a ha).mono (fun e _ => hP e) hS fun _ _ _ => ⟨rfl, rfl⟩⟩

theorem Next.holder_of_not_spill {id : Nat} {holder : Option Nat} (h : ∀ x p, next ≠ .task (.spill x p))
    (hne : holder ≠ some id) : next.holder id holder = holder := by
  cases next with
  | done e => exact if_neg hne
  | task t =>
    cases t with
    | spill x p => exact absurd rfl (h x p)
    | _ => exact if_neg hne

theorem HybridRun.Sound.alone (hs : s.Sound v P S T) (ha : a ∈ s.active) (hwaits : a.task.waits s.holder = false)
    (hmemory : a.task.pending ≠ none ∨ ∃ key, a.task = .lookup key) (hb : b ∈ s.active) (hne : b.id ≠ a.id)
    {x : CacheEntry} {q : Pending} : b.task ≠ .spill x q := by
  intro hspill
  have hbtask := hs.active b hb
  rw [hspill] at hbtask
  have hatask := hs.active a ha
  rw [hbtask.2.1] at hwaits
  cases htask : a.task with
  | lookup key => rw [htask] at hwaits; exact absurd hwaits (by simp [Task.waits])
  | store p' => rw [htask] at hwaits; exact absurd hwaits (by simp [Task.waits])
  | spill y p' =>
    rw [htask] at hatask
    exact hne (Option.some.inj (hbtask.2.1.symm.trans hatask.2.1))
  | read key => rw [htask] at hmemory; simp [Task.pending] at hmemory
  | remove e => rw [htask] at hmemory; simp [Task.pending] at hmemory

theorem HybridRun.Sound.others (hs : s.Sound v P S T) (ha : a ∈ s.active) (hwaits : a.task.waits s.holder = false)
    (hkeeps : a.task.pending = none → (∀ key, a.task ≠ .lookup key) →
      hybrid.memory = s.hybrid.memory ∧ ∀ x p, next ≠ .task (.spill x p))
    (hb : b ∈ s.active) (hne : b.id ≠ a.id) : b.Sound v P S T (s.after a next hybrid) b.task := by
  refine (hs.active b hb).mono (fun _ _ he => he) (fun _ _ he => he) fun x p hspill => ?_
  have hlocked : ¬ (a.task.pending ≠ none ∨ ∃ key, a.task = .lookup key) := fun h =>
    hs.alone ha hwaits h hb hne hspill
  simp only [ne_eq, not_or, not_not, not_exists] at hlocked
  obtain ⟨hmemory, hnext⟩ := hkeeps hlocked.1 hlocked.2
  have hbtask := hs.active b hb
  rw [hspill] at hbtask
  have hholder : next.holder a.id s.holder = s.holder :=
    Next.holder_of_not_spill hnext fun he => hne (Option.some.inj (hbtask.2.1.symm.trans he))
  cases next with
  | task t => exact ⟨hmemory, hholder⟩
  | done e => exact ⟨hmemory, hholder⟩

theorem HybridRun.Sound.after (hs : s.Sound v P S T) (ha : a ∈ s.active) (hwaits : a.task.waits s.holder = false)
    (hkeeps : a.task.pending = none → (∀ key, a.task ≠ .lookup key) →
      hybrid.memory = s.hybrid.memory ∧ ∀ x p, next ≠ .task (.spill x p))
    (hhybrid : hybrid.Holds v.names P) (htask : ∀ t, next = .task t → a.Sound v P S T (s.after a next hybrid) t) :
    (s.after a next hybrid).Sound v P S T := by
  have hothers : ∀ b ∈ s.active, b.id ≠ a.id → b.Sound v P S T (s.after a next hybrid) b.task :=
    fun b hb hne => hs.others ha hwaits hkeeps hb hne
  cases next with
  | task t =>
    refine ⟨hhybrid, fun b hb => ?_⟩
    rcases Table.mem_put.mp hb with ⟨hb, hne⟩ | rfl
    · exact hothers b hb hne
    · exact htask t rfl
  | done e =>
    refine ⟨hhybrid, fun b hb => ?_⟩
    obtain ⟨hb, hne⟩ := Table.mem_remove.mp hb
    exact hothers b hb hne

/-- The two ways in which an operation can leave the invariant. -/
def HybridRun.Moved (v : Platform) (P : CacheEntry → Prop) (S : Nat → CacheEntry → Prop) (T : Bytes → Response → Prop)
    (s : HybridRun) (a : ActiveCall) (next : Next) (hybrid : Hybrid) : Prop :=
  ((s.after a next hybrid).Sound v P S T ∧ ∀ entry, next = .done entry → a.Ends v S entry) ∨
    next = .done none ∧ ∃ p, s.Stored v P S T a hybrid p

theorem HybridRun.Sound.answer (hs : s.Sound v P S T) (ha : a ∈ s.active) (hwaits : a.task.waits s.holder = false)
    {key : Bytes} {entry : Option CacheEntry} (hcall : a.call = .get key)
    (hkeeps : (∀ key, a.task ≠ .lookup key) → hybrid.memory = s.hybrid.memory)
    (hentry : ∀ e ∈ entry, e.key = key ∧ S a.id e) (hhybrid : hybrid.Holds v.names P) :
    s.Moved v P S T a (.done entry) hybrid := by
  refine .inl ⟨hs.after ha hwaits (fun _ h => ⟨hkeeps h, fun _ _ he => by cases he⟩) hhybrid (fun t ht => by cases ht),
    ?_⟩
  intro entry' he
  cases he
  exact .inl ⟨key, hcall, hentry⟩

theorem HybridRun.Sound.promoted (hs : s.Sound v P S T) (ha : a ∈ s.active) (hwaits : a.task.waits s.holder = false)
    (hp : a.task.pending = some p) (hfrom : p.From P S T a) (he : p.promoted = some e)
      (hhybrid : hybrid.Holds v.names P) :
    s.Moved v P S T a p.after hybrid := by
  obtain ⟨-, hcall, -, hseen⟩ := hfrom.of_some he
  have hafter : p.after = .task (.remove e) := by rw [Pending.after, he]
  rw [hafter]
  refine .inl ⟨hs.after ha hwaits (fun h => by rw [hp] at h; cases h) hhybrid fun t ht => ?_, fun _ h => by cases h⟩
  cases ht
  exact ⟨hcall, hseen⟩

theorem HybridRun.Sound.storing (hs : s.Sound v P S T) (ha : a ∈ s.active) (hwaits : a.task.waits s.holder = false)
    (hp : a.task.pending = some p) (hfrom : p.From P S T a) (hcache : cacheable v p.response = true)
    (hpromote : ∀ e ∈ p.promoted, P e → P { e with storedAt := s.now }) (hdisk : hybrid.disk.Holds v.names P)
    (hcases : next = p.after ∧ hybrid.memory.Stored P p s.now ∨
      ∃ x, next = .task (.spill x p) ∧ (P x ∧ x.key ≠ p.key) ∧ hybrid.memory.Holds P ∧
        hybrid.memory.entries.find p.key = none) :
    s.Moved v P S T a next hybrid := by
  have hbusy : ∀ {R : Prop}, a.task.pending = none → R := fun h => by rw [hp] at h; cases h
  rcases hcases with ⟨rfl, hmemory⟩ | ⟨x, rfl, hx, hmemory, hfree⟩
  · cases he : p.promoted with
    | some e =>
      obtain ⟨rfl, -, hP, -⟩ := hfrom.of_some he
      exact hs.promoted ha hwaits hp hfrom he ⟨hmemory.holds (hpromote e he hP), hdisk⟩
    | none =>
      obtain ⟨hcall, hput⟩ := hfrom.of_none he
      have hafter : p.after = .done none := by rw [Pending.after, he]
      rw [hafter]
      exact .inr ⟨rfl, p, hp, he, hcall, hput, hcache, hmemory, hdisk, fun b hb hne => hs.others ha hwaits hbusy hb hne,
        fun b hb hne x q => hs.alone ha hwaits (.inl (by simp [hp])) hb hne⟩
  · refine .inl ⟨hs.after ha hwaits hbusy ⟨hmemory, hdisk⟩ fun t ht => ?_, fun _ h => by cases h⟩
    cases ht
    exact ⟨hx, rfl, hfree, hcache, hfrom⟩

/-- What one operation of a call does. Either every copy is still one of `P`, and a call that ends
has stored nothing, or a `Put` has stored its response. -/
theorem HybridRun.Sound.operation (hs : s.Sound v P S T) (ha : a ∈ s.active) (hwaits : a.task.waits s.holder = false)
    (hfound : ∀ e, a.call = .get e.key → P e → ¬ e.expired s.now = true → S a.id e)
    (hspill : ∀ x p, a.task = .spill x p → P x → P (x.spilled v s.now))
    (hpromote : ∀ p, a.task.pending = some p → ∀ e ∈ p.promoted, P e → P { e with storedAt := s.now })
    (hstep : a.task.step v choice s.now s.hybrid = some (next, hybrid)) : s.Moved v P S T a next hybrid := by
  have hknown := hs.active a ha
  cases htask : a.task with
  | lookup key =>
    rw [htask] at hknown hstep
    have hcall : a.call = .get key := hknown
    obtain ⟨hmemory, hdisk, hnext⟩ := Task.lookup_spec hs.hybrid.memory hstep
    have hhybrid : hybrid.Holds v.names P := ⟨hmemory, hdisk ▸ hs.hybrid.disk⟩
    rcases hnext with rfl | ⟨e, rfl, he, rfl, hlive⟩
    · refine .inl ⟨hs.after ha hwaits (fun _ h => absurd htask (h key)) hhybrid fun t ht => ?_, fun _ h => by cases h⟩
      cases ht
      exact hcall
    · refine hs.answer ha hwaits hcall (fun h => absurd htask (h e.key)) (fun e' he' => ?_) hhybrid
      cases he'
      exact ⟨rfl, hfound e hcall he hlive⟩
  | read key =>
    rw [htask] at hknown hstep
    have hcall : a.call = .get key := hknown
    obtain ⟨hmemory, hsub, hnext⟩ := Task.read_spec hs.hybrid.disk hstep
    have hhybrid : hybrid.Holds v.names P := ⟨hmemory ▸ hs.hybrid.memory, hs.hybrid.disk.sub hsub⟩
    rcases hnext with rfl | ⟨e, rfl, he, rfl, hlive⟩
    · exact hs.answer ha hwaits hcall (fun _ => hmemory) (fun e' he' => by cases he') hhybrid
    · refine .inl ⟨hs.after ha hwaits (fun _ _ => ⟨hmemory, fun _ _ h => by cases h⟩) hhybrid fun t ht => ?_,
        fun _ h => by cases h⟩
      cases ht
      exact ⟨rfl, hcall, he, hfound e hcall he hlive⟩
  | store p =>
    have hp : a.task.pending = some p := by rw [htask]; rfl
    rw [htask] at hknown hstep
    obtain ⟨hdisk, hcases⟩ := Task.store_spec hs.hybrid.memory hstep
    have hdisk : hybrid.disk.Holds v.names P := hdisk ▸ hs.hybrid.disk
    rcases hcases with ⟨hskip, rfl, rfl⟩ | ⟨hcache, hdone⟩ | ⟨hcache, hspilled⟩
    · -- a response that is not cached changes nothing
      cases he : p.promoted with
      | some e => exact hs.promoted ha hwaits hp hknown he hs.hybrid
      | none =>
        obtain ⟨hcall, -⟩ := Pending.From.of_none hknown he
        have hafter : p.after = .done none := by rw [Pending.after, he]
        rw [hafter]
        refine .inl ⟨hs.after ha hwaits (fun h => by rw [hp] at h; cases h) hs.hybrid (fun t ht => by cases ht), ?_⟩
        intro entry hentry
        cases hentry
        exact .inr ⟨p.key, p.response, p.ttl, hcall, hskip, rfl⟩
    · exact hs.storing ha hwaits hp hknown hcache (hpromote p hp) hdisk (.inl hdone)
    · exact hs.storing ha hwaits hp hknown hcache (hpromote p hp) hdisk (.inr hspilled)
  | spill x p =>
    have hp : a.task.pending = some p := by rw [htask]; rfl
    rw [htask] at hknown hstep
    obtain ⟨⟨hx, -⟩, -, hfree, hcache, hfrom⟩ := hknown
    obtain ⟨hput, hcases⟩ := Task.spill_spec hs.hybrid.memory hfree hstep
    have hdisk : hybrid.disk.Holds v.names P := hs.hybrid.disk.put rfl (v.names_spill (hspill x p htask hx)) hput
    exact hs.storing ha hwaits hp hfrom hcache (hpromote p hp) hdisk hcases
  | remove e =>
    rw [htask] at hknown hstep
    obtain ⟨rfl, hmemory, hsub⟩ := Task.remove_spec hstep
    refine hs.answer ha hwaits hknown.1 (fun _ => hmemory) (fun e' he' => ?_)
      ⟨hmemory ▸ hs.hybrid.memory, hs.hybrid.disk.sub hsub⟩
    cases he'
    exact ⟨rfl, hknown.2⟩

theorem HybridRun.Sound.files (hs : s.Sound v P S T) (ha : a ∈ s.active)
    (hstep : a.task.step v choice s.now s.hybrid = some (next, hybrid)) :
    ∀ f ∈ hybrid.disk.dir, f ∈ s.hybrid.disk.dir ∨ ∃ x p, a.task = .spill x p ∧ f.hash = v.sha256 x.key ∧
      ∀ m, f.metadata = some m → m.key = v.jsonText x.key := by
  have hknown := hs.active a ha
  intro f hf
  cases htask : a.task with
  | lookup key =>
    rw [htask] at hstep
    obtain ⟨-, hdisk, -⟩ := Task.lookup_spec hs.hybrid.memory hstep
    exact .inl (hdisk ▸ hf)
  | read key =>
    rw [htask] at hstep
    obtain ⟨-, hsub, -⟩ := Task.read_spec hs.hybrid.disk hstep
    exact .inl (hsub.dir f hf)
  | store p =>
    rw [htask] at hstep
    obtain ⟨hdisk, -⟩ := Task.store_spec hs.hybrid.memory hstep
    exact .inl (hdisk ▸ hf)
  | spill x p =>
    rw [htask] at hknown hstep
    obtain ⟨-, -, hfree, -⟩ := hknown
    obtain ⟨hput, -⟩ := Task.spill_spec hs.hybrid.memory hfree hstep
    rcases Disk.put_cases hput with hsub | ⟨d, hsub, hwrite⟩
    · exact .inl (hsub.dir f hf)
    · rw [hwrite] at hf
      rcases Table.mem_put.mp hf with hf | rfl
      · exact .inl (hsub.dir f hf.1)
      · refine .inr ⟨x, p, rfl, rfl, fun m hm => ?_⟩
        cases hm
        rfl
  | remove e =>
    rw [htask] at hstep
    obtain ⟨-, -, hsub⟩ := Task.remove_spec hstep
    exact .inl (hsub.dir f hf)

theorem HybridRun.Sound.call {memEntries maxBytes : Int} {c : HybridCall} (hs : s.Sound v P S T)
    (hput : ∀ key r ttl, c = .put key r ttl → T key r)
    (hstep : s.step v memEntries maxBytes (.call c) = some s') : s'.Sound v P S T := by
  cases hstep
  refine ⟨hs.hybrid, fun a ha => ?_⟩
  rcases Table.mem_put.mp ha with ⟨ha, -⟩ | rfl
  · exact (hs.active a ha).mono (fun _ _ he => he) (fun _ _ he => he) fun _ _ _ => ⟨rfl, rfl⟩
  · cases c with
    | get key => exact rfl
    | put key r ttl => exact ⟨rfl, hput key r ttl rfl⟩

theorem HybridRun.Sound.advance {memEntries maxBytes : Int} {d : Nat} (hs : s.Sound v P S T)
    (hstep : s.step v memEntries maxBytes (.advance d) = some s') : s'.Sound v P S T := by
  cases hstep
  exact ⟨hs.hybrid, fun a ha => (hs.active a ha).mono (fun _ _ he => he) (fun _ _ he => he) fun _ _ _ => ⟨rfl, rfl⟩⟩

theorem HybridRun.Sound.restart {memEntries maxBytes : Int} {order : RangeOrder} (hs : s.Sound v P S T)
    (hnamed : ∀ f ∈ s.hybrid.disk.dir, ∀ m, f.metadata = some m → f.hash = v.sha256 m.key)
    (hstep : s.step v memEntries maxBytes (.restart order) = some s') : s'.Sound v P S T := by
  cases hstep
  exact ⟨⟨⟨[], .new _, fun e he => absurd he List.not_mem_nil⟩, hs.hybrid.disk.rebuild hnamed⟩,
    fun a ha => absurd ha Table.not_mem_empty⟩

theorem HybridRun.Sound.start (memEntries maxBytes : Int) (now : Time) :
    (HybridRun.start memEntries maxBytes now).Sound v P S T := by
  refine ⟨⟨⟨[], .new _, fun e he => absurd he List.not_mem_nil⟩, fun ie hie => ?_,
    fun f hf => absurd hf Table.not_mem_empty⟩, fun a ha => absurd ha Table.not_mem_empty⟩
  obtain ⟨f, hf, -⟩ := Disk.mem_newDiskCache hie
  exact absurd hf List.not_mem_nil

end

namespace Sample

def undisturbed (id : Nat) (c : HybridCall) (operations : Nat) : List HybridMove :=
  .call c :: List.replicate operations (.step id choice)

def log (moves : List HybridMove) : Option (List Event) :=
  (Machine.run (HybridRun.step .plain 1 1000) moves (.start 1 1000 0)).map HybridRun.log

end Sample
end EdgeFabric.CdnServer
