/-
The hybrid cache and lifetimes: a `Get` should not return a response for longer than
the lifetime it was put with.

It may (`hybrid_outlives`). An entry that is evicted is put on the disk and one that is
found there is put back into memory, and each of these is a `Put` like any other: the
lifetime starts again. Where an entry with a lifetime is moved only at the moment it was
stored, every hit is in time (`hybrid_in_time`): the time of storage of every copy, in
memory, on the disk and in between, is that of the `Put` it stems from.
-/
import EdgeFabric.CdnServer.Calls

namespace EdgeFabric.CdnServer

/-- The entry stems from a `Put` at the time it has for its storage, if it has a lifetime. -/
def Dated (v : Platform) (log : List Event) (e : CacheEntry) : Prop :=
  0 < e.ttl → ∃ id r, .finish id (.put e.key r e.ttl) none e.storedAt ∈ log ∧ r.Copy v e.toResponse

/-- At a time since the call began, no more than the lifetime of the entry had passed since the
`Put` it stems from. -/
def InTime (v : Platform) (log : List Event) (now : Time) (id : Nat) (e : CacheEntry) : Prop :=
  0 < e.ttl → ∃ begun found : Time, .begin id (.get e.key) begun ∈ log ∧ begun ≤ found ∧ found ≤ now ∧
    ∃ id' r, ∃ stored : Time, .finish id' (.put e.key r e.ttl) none stored ∈ log ∧ r.Copy v e.toResponse ∧
      (found : Int) - stored ≤ e.ttl

/-- Every hit in the log was in time. For a `Get` during which no time passes, this is the time of
the hit itself. -/
def AllInTime (v : Platform) (log : List Event) : Prop :=
  AllHits (fun older id key e time => e.key = key ∧ InTime v older time id e) log

/-- An entry that is moved has no lifetime, or was stored this very moment. -/
def HybridMove.Prompt (m : HybridMove) (s : HybridRun) : Prop :=
  match m with
  | .step id _ => ∀ a ∈ s.active, a.id = id → ∀ e ∈ a.task.moved, e.ttl ≤ 0 ∨ e.storedAt = s.now
  | _ => True

instance : (m : HybridMove) → (s : HybridRun) → Decidable (m.Prompt s)
  | .step id _, s =>
    inferInstanceAs (Decidable (∀ a ∈ s.active, a.id = id → ∀ e ∈ a.task.moved, e.ttl ≤ 0 ∨ e.storedAt = s.now))
  | .call _, _ | .advance _, _ | .restart _, _ => isTrue trivial

def HybridMove.restarts : HybridMove → Bool
  | .restart _ => true
  | _ => false

section
variable {v : Platform} {s s' : HybridRun} {a : ActiveCall} {next : Next} {hybrid : Hybrid} {log log' : List Event}
  {e e' : CacheEntry} {now now' : Time} {id : Nat}

theorem Dated.mono (h : Dated v log e) (hlog : log ⊆ log') : Dated v log' e := by
  intro httl
  obtain ⟨id, r, hput, hcopy⟩ := h httl
  exact ⟨id, r, hlog hput, hcopy⟩

theorem Dated.copy (h : Dated v log e) (hkey : e'.key = e.key) (httl : e'.ttl = e.ttl)
    (hcopy : ∀ r : Response, r.Copy v e.toResponse → r.Copy v e'.toResponse)
    (hprompt : e.ttl ≤ 0 ∨ e'.storedAt = e.storedAt) : Dated v log e' := by
  intro hpos
  rw [httl] at hpos
  have hstored : e'.storedAt = e.storedAt := hprompt.resolve_left (by omega)
  obtain ⟨id, r, hput, hr⟩ := h hpos
  exact ⟨id, r, by rw [hkey, httl, hstored]; exact hput, hcopy r hr⟩

theorem InTime.mono (h : InTime v log now id e) (hlog : log ⊆ log') (hnow : now ≤ now') : InTime v log' now' id e := by
  intro httl
  obtain ⟨begun, found, hbegin, hle, hfound, id', r, stored, hput, hrest⟩ := h httl
  exact ⟨begun, found, hlog hbegin, hle, hfound.trans hnow, id', r, stored, hlog hput, hrest⟩

theorem Task.mem_moved {t : Task} {p : Pending} (hp : t.pending = some p) (he : e ∈ p.promoted) : e ∈ t.moved := by
  cases t with
  | store q =>
    cases hp
    exact Option.mem_toList.mpr he
  | spill x q =>
    cases hp
    exact List.mem_cons_of_mem _ (Option.mem_toList.mpr he)
  | lookup key => cases hp
  | read key => cases hp
  | remove e => cases hp

structure HybridRun.OnTime (v : Platform) (s : HybridRun) : Prop where
  sound : s.Sound v (Dated v s.log) (InTime v s.log s.now) fun _ _ => True
  begun : s.Begun
  log : AllInTime v s.log

theorem HybridRun.Sound.later {T : Bytes → Response → Prop} (hs : s.Sound v (Dated v log) (InTime v log now) T)
    (hlog : log ⊆ log') (hnow : now ≤ now') : s.Sound v (Dated v log') (InTime v log' now') T :=
  hs.mono (fun _ he => he.mono hlog) fun _ _ he => he.mono hlog hnow

theorem HybridRun.OnTime.moved {choice : DiskChoice} (hs : s.OnTime v) (ha : a ∈ s.active)
    (hwaits : a.task.waits s.holder = false) (hprompt : HybridMove.Prompt (.step a.id choice) s)
    (hstep : a.task.step v choice s.now s.hybrid = some (next, hybrid)) :
    s.Moved v (Dated v s.log) (InTime v s.log s.now) (fun _ _ => True) a next hybrid := by
  refine hs.sound.operation ha hwaits (fun e hcall he hlive httl => ?_) (fun x p htask hx => ?_)
    (fun p hp e he hdated => ?_) hstep
  · obtain ⟨begun, hle, hbegin⟩ := hs.begun a ha
    obtain ⟨id, r, hput, hcopy⟩ := he httl
    have hage : (s.now : Int) - e.storedAt ≤ e.ttl := by
      simp only [CacheEntry.expired, decide_eq_true_eq, not_and, not_lt] at hlive
      exact hlive httl
    exact ⟨begun, s.now, hcall ▸ hbegin, hle, le_rfl, id, r, e.storedAt, hput, hcopy, hage⟩
  · have hmoved : x.ttl ≤ 0 ∨ x.storedAt = s.now := hprompt a ha rfl x (by rw [htask]; exact List.mem_cons_self)
    exact hx.copy rfl rfl (fun _ hr => hr.spilled s.now) (hmoved.imp_right Eq.symm)
  · have hmoved : e.ttl ≤ 0 ∨ e.storedAt = s.now := hprompt a ha rfl e (Task.mem_moved hp he)
    exact hdated.copy rfl rfl (fun _ hr => hr) (hmoved.imp_right Eq.symm)

theorem HybridRun.OnTime.operation {choice : DiskChoice} (hs : s.OnTime v) (ha : a ∈ s.active)
    (hwaits : a.task.waits s.holder = false) (hprompt : HybridMove.Prompt (.step a.id choice) s)
    (hstep : a.task.step v choice s.now s.hybrid = some (next, hybrid)) :
    let s' := s.after a next hybrid
    s'.Sound v (Dated v s'.log) (InTime v s'.log s'.now) (fun _ _ => True) ∧ AllInTime v s'.log := by
  rcases hs.moved ha hwaits hprompt hstep with ⟨hsound, hends⟩ | ⟨rfl, p, hstored⟩
  · cases next with
    | task t => exact ⟨hsound, hs.log⟩
    | done entry =>
      refine ⟨hsound.later (List.subset_cons_self _ _) le_rfl, AllHits.cons hs.log fun id key e time hev => ?_⟩
      obtain ⟨rfl, hcall', rfl, rfl⟩ := Event.finish.inj hev
      rcases hends _ rfl with ⟨key', hcall, hentry⟩ | ⟨_, _, _, hcall, -⟩
      · cases hcall.symm.trans hcall'
        exact hentry e rfl
      · cases hcall.symm.trans hcall'
  · have hlog : s.log ⊆ (s.after a (.done none) hybrid).log := List.subset_cons_self _ _
    have hput : .finish a.id (.put p.key p.response p.ttl) none s.now ∈ (s.after a (.done none) hybrid).log := by
      rw [← hstored.call]
      exact List.mem_cons_self
    refine ⟨⟨⟨?_, ?_⟩, fun b hb => ?_⟩, AllHits.cons hs.log fun _ _ _ _ h => ?_⟩
    · exact hstored.memory.holds_of (fun _ => ⟨a.id, p.response, hput, .refl _⟩) fun e he => he.mono hlog
    · exact hstored.disk.mono fun _ _ _ _ _ _ he => he.mono hlog
    · obtain ⟨hb, hne⟩ := Table.mem_remove.mp hb
      exact (hstored.others b hb hne).mono (fun _ _ he => he.mono hlog) (fun _ _ he => he.mono hlog le_rfl)
        fun _ _ _ => ⟨rfl, rfl⟩
    · rw [hstored.call] at h
      cases h

theorem HybridRun.OnTime.move {memEntries maxBytes : Int} {m : HybridMove} (hs : s.OnTime v)
    (hrestart : m.restarts = false) (hprompt : m.Prompt s) (hstep : s.step v memEntries maxBytes m = some s') :
    s'.OnTime v := by
  have hbegun := hs.begun.move hstep
  cases m with
  | call c =>
    have hsound := hs.sound.call (fun _ _ _ _ => trivial) hstep
    cases hstep
    exact ⟨hsound.later (List.subset_cons_self _ _) le_rfl, hbegun, AllHits.cons hs.log fun _ _ _ _ h => by cases h⟩
  | step id choice =>
    obtain ⟨a, ha, rfl, hwaits, next, hybrid, htask, rfl⟩ := HybridRun.step_inv hstep
    obtain ⟨hsound, hlog⟩ := hs.operation ha hwaits hprompt htask
    exact ⟨hsound, hbegun, hlog⟩
  | advance d =>
    have hsound := hs.sound.advance hstep
    cases hstep
    exact ⟨hsound.later (List.Subset.refl _) (Nat.le_add_right _ _), hbegun, hs.log⟩
  | restart order => cases hrestart

theorem HybridRun.OnTime.start (memEntries maxBytes : Int) (now : Time) :
    (HybridRun.start memEntries maxBytes now).OnTime v := by
  exact ⟨.start memEntries maxBytes now, fun a ha => absurd ha Table.not_mem_empty, AllHits.nil⟩

end

/-- In every run in which an entry with a lifetime is moved between memory and disk only at the
moment it was stored, every hit is in time. -/
theorem hybrid_in_time (v : Platform) (memEntries maxBytes : Int) (start : Time) (moves : List HybridMove)
    (s : HybridRun) (hrestart : ∀ m ∈ moves, m.restarts = false)
    (hprompt : Machine.Along (HybridRun.step v memEntries maxBytes) HybridMove.Prompt moves
      (.start memEntries maxBytes start))
    (hrun : Machine.run (HybridRun.step v memEntries maxBytes) moves (.start memEntries maxBytes start) = some s) :
    AllInTime v s.log := by
  have hall : Machine.Along (HybridRun.step v memEntries maxBytes) (fun m s => m.restarts = false ∧ m.Prompt s) moves
      (.start memEntries maxBytes start) := Machine.Along.and (.of_mem hrestart) hprompt
  exact (Machine.run_invariant (fun m s s' hs hm hstep => HybridRun.OnTime.move hs hm.1 hm.2 hstep)
    (HybridRun.OnTime.start memEntries maxBytes start) hall hrun).log

namespace Sample

/-- With room for one entry in memory: `a` is put for ten, goes to the disk and comes back at once,
and is hit when ten have passed. -/
def atOnce : List HybridMove :=
  undisturbed 0 (.put [97] (page 1) 10) 1 ++ undisturbed 1 (.put [98] (page 9) 0) 2 ++ undisturbed 2 (.get [97]) 5 ++
    [.advance 10] ++ undisturbed 3 (.get [97]) 1

/-- The same, but `a` goes to the disk when eight have passed, and is looked for when sixteen
have. -/
def belated : List HybridMove :=
  undisturbed 0 (.put [97] (page 1) 10) 1 ++ [.advance 8] ++ undisturbed 1 (.put [98] (page 9) 0) 2 ++ [.advance 8] ++
    undisturbed 2 (.get [97]) 5

/-- What was called before the `Get` of `belated` ended. -/
def belatedCalls : List Event :=
  [.begin 2 (.get [97]) 16, .finish 1 (.put [98] (page 9) 0) none 8, .begin 1 (.put [98] (page 9) 0) 8,
    .finish 0 (.put [97] (page 1) 10) none 0, .begin 0 (.put [97] (page 1) 10) 0]

theorem log_belated :
    log belated = some (.finish 2 (.get [97]) (some { page 1 with key := [97], storedAt := 8, ttl := 10 }) 16 ::
      belatedCalls) := by
  decide +kernel

theorem not_inTime :
    ¬ InTime .plain belatedCalls 16 2 { page 1 with key := [97], storedAt := 8, ttl := 10 } := by
  intro h
  obtain ⟨begun, found, hbegin, hle, -, id', r, stored, hput, -, hage⟩ := h (by decide)
  have hbegun : begun = 16 := by simpa [belatedCalls] using hbegin
  have hstored : stored = 0 := by
    simp only [belatedCalls, List.mem_cons, Event.finish.injEq, HybridCall.put.injEq, reduceCtorEq, List.not_mem_nil,
      or_false, false_or] at hput
    rcases hput with ⟨-, ⟨hkey, -⟩, -⟩ | hput
    · exact absurd hkey (by decide)
    · exact hput.2.2.2
  subst hbegun hstored
  have hten : (found : Int) - ((0 : Time) : Int) ≤ 10 := hage
  have hle : (16 : Int) ≤ found := by exact_mod_cast hle
  omega

end Sample

/-- The last hit comes when the lifetime is just over. -/
theorem hybrid_in_time_atOnce :
    ∃ s, Machine.run (HybridRun.step .plain 1 1000) Sample.atOnce (.start 1 1000 0) = some s ∧
      (s.log.head?.any fun ev => ev = .finish 3 (.get [97])
        (some { Sample.page 1 with key := [97], storedAt := 0, ttl := 10 }) 10) ∧
      AllInTime .plain s.log := by
  have hlog : (Sample.log Sample.atOnce).any (fun log => log.head?.any fun ev =>
      ev = .finish 3 (.get [97]) (some { Sample.page 1 with key := [97], storedAt := 0, ttl := 10 }) 10) = true := by
    decide +kernel
  cases hrun : Machine.run (HybridRun.step .plain 1 1000) Sample.atOnce (.start 1 1000 0) with
  | none => rw [Sample.log, hrun] at hlog; cases hlog
  | some s =>
    rw [Sample.log, hrun] at hlog
    exact ⟨s, rfl, hlog, hybrid_in_time .plain 1 1000 0 Sample.atOnce s (by decide) (by decide +kernel) hrun⟩

/-- What was put for ten is returned after sixteen. -/
theorem hybrid_outlives :
    ∃ s, Machine.run (HybridRun.step .plain 1 1000) Sample.belated (.start 1 1000 0) = some s ∧
      ¬ AllInTime .plain s.log := by
  have hlog := Sample.log_belated
  cases hrun : Machine.run (HybridRun.step .plain 1 1000) Sample.belated (.start 1 1000 0) with
  | none => rw [Sample.log, hrun] at hlog; cases hlog
  | some s =>
    rw [Sample.log, hrun] at hlog
    have hlog : s.log = _ := Option.some.inj hlog
    exact ⟨s, rfl, fun hall => Sample.not_inTime (hall [] 2 [97] _ 16 _ hlog).2⟩

end EdgeFabric.CdnServer
