/-
The hybrid cache and time: a `Get` that hits should return the latest response that
was put under its key before it began, or one that was put meanwhile.

It need not (`hybrid_goes_back`). A `Put` goes into memory only and leaves an older
copy of its key on the disk; when the newer one is gone, by expiry or a restart, the
older one is found again. And a `Get` that has read an older copy puts it into memory
over what was put since. Where a `Put` meets no older copy of its key on the disk or
on its way from there, nothing goes back (`hybrid_current`): every copy, in memory, on
the disk and in between, is the latest of its key.
-/
import EdgeFabric.CdnServer.Calls

namespace EdgeFabric.CdnServer
open Text (bytes)

/-! ## The latest response -/

/-- The latest response that was stored under the key. -/
def lastPut (v : Platform) (key : Bytes) : List Event → Option Response
  | [] => none
  | .finish _ (.put k r _) _ _ :: log => if k = key ∧ cacheable v r then some r else lastPut v key log
  | _ :: log => lastPut v key log

/-- The response is the latest that was put under the key before the call began, or one that was
put since. -/
def Current (v : Platform) (log : List Event) (id : Nat) (key : Bytes) (r : Response) : Prop :=
  ∃ since before time, log = since ++ .begin id (.get key) time :: before ∧
    (lastPut v key before = some r ∨
      cacheable v r = true ∧ ∃ id' ttl entry time', .finish id' (.put key r ttl) entry time' ∈ since)

def NeverBack (v : Platform) (log : List Event) : Prop :=
  AllHits (fun older id key e _ => Current v older id key e.toResponse) log

/-- The response was the latest under its key at some time since the call began. -/
def Seen (v : Platform) (log : List Event) (id : Nat) (e : CacheEntry) : Prop :=
  ∃ l, l <:+ log ∧ (∃ time, .begin id (.get e.key) time ∈ l) ∧ lastPut v e.key l = some e.toResponse

section
variable {v : Platform} {log : List Event} {key : Bytes} {r : Response} {id : Nat} {e : CacheEntry}

theorem lastPut_append {since before : List Event} (h : lastPut v key (since ++ before) = some r) :
    lastPut v key before = some r ∨
      cacheable v r = true ∧ ∃ id' ttl entry time', .finish id' (.put key r ttl) entry time' ∈ since := by
  induction since with
  | nil => exact .inl h
  | cons ev since ih =>
    have hrest : lastPut v key (since ++ before) = some r → lastPut v key before = some r ∨ cacheable v r = true ∧
        ∃ id' ttl entry time', .finish id' (.put key r ttl) entry time' ∈ ev :: since := fun h => by
      rcases ih h with hbefore | ⟨hcache, id', ttl, entry, time', hmem⟩
      · exact .inl hbefore
      · exact .inr ⟨hcache, id', ttl, entry, time', List.mem_cons_of_mem _ hmem⟩
    cases ev with
    | begin id' c time => exact hrest h
    | finish id' c entry time =>
      cases c with
      | get k => exact hrest h
      | put k r' ttl =>
        rw [List.cons_append, lastPut] at h
        split at h
        · next hput =>
          obtain ⟨rfl, hcache⟩ := hput
          cases h
          exact .inr ⟨hcache, id', ttl, entry, time, List.mem_cons_self⟩
        · exact hrest h

theorem Seen.current (h : Seen v log id e) : Current v log id e.key e.toResponse := by
  obtain ⟨l, ⟨pre, rfl⟩, ⟨time, hbegin⟩, hlast⟩ := h
  obtain ⟨since, before, rfl⟩ := List.append_of_mem hbegin
  refine ⟨pre ++ since, before, time, by simp, ?_⟩
  rcases lastPut_append hlast with hbefore | ⟨hcache, id', ttl, entry, time', hmem⟩
  · exact .inl hbefore
  · exact .inr ⟨hcache, id', ttl, entry, time', List.mem_append_right _ hmem⟩

theorem Seen.mono {log' : List Event} (h : Seen v log id e) (hlog : log <:+ log') : Seen v log' id e := by
  obtain ⟨l, hl, hbegin, hlast⟩ := h
  exact ⟨l, hl.trans hlog, hbegin, hlast⟩

end

/-! ## The invariant -/

/-- The entry is the latest of its key, in texts that survive JSON. -/
structure CacheEntry.Latest (v : Platform) (log : List Event) (e : CacheEntry) : Prop where
  last : lastPut v e.key log = some e.toResponse
  key : Utf8 e.key
  headers : e.headers.Utf8

/-- Every copy is the latest of its key, and the files on the disk have the names of their keys. -/
structure HybridRun.Fresh (v : Platform) (s : HybridRun) : Prop where
  sound : s.Sound v (CacheEntry.Latest v s.log) (Seen v s.log) Portable
  begun : s.Begun
  named : ∀ f ∈ s.hybrid.disk.dir, ∀ m, f.metadata = some m → f.hash = v.sha256 m.key
  log : NeverBack v s.log

/-- The key under which a `Put` is about to store. -/
def Task.puts (t : Task) : Option Bytes := (t.pending.filter (·.promoted.isNone)).map Pending.key

/-- The key of an entry that is on its way from the disk into memory. -/
def Task.promotes (t : Task) : Option Bytes := (t.pending.filter (·.promoted.isSome)).map Pending.key

/-- While a `Put` is carried out, no older copy of its key is on the disk or on its way from
there. -/
def HybridMove.Meets (v : Platform) (m : HybridMove) (s : HybridRun) : Prop :=
  match m with
  | .step id _ => ∀ a ∈ s.active, a.id = id → ∀ key ∈ a.task.puts,
      (∀ f ∈ s.hybrid.disk.dir, f.hash ≠ v.sha256 key) ∧ ∀ b ∈ s.active, b.task.promotes ≠ some key
  | _ => True

instance (v : Platform) (m : HybridMove) (s : HybridRun) : Decidable (m.Meets v s) := by
  unfold HybridMove.Meets
  cases m <;> infer_instance

def HybridMove.Utf8 : HybridMove → Prop
  | .call (.put key r _) => Portable key r
  | _ => True

section
variable {v : Platform} {s s' : HybridRun} {a b : ActiveCall} {next : Next} {hybrid : Hybrid} {log log' : List Event}
  {e : CacheEntry} {p : Pending}

theorem CacheEntry.Latest.mono (h : e.Latest v log) (hlast : lastPut v e.key log' = lastPut v e.key log) :
    e.Latest v log' :=
  ⟨hlast.trans h.last, h.key, h.headers⟩

theorem CacheEntry.Latest.copy {e' : CacheEntry} (h : e.Latest v log) (hkey : e'.key = e.key)
    (hresponse : e'.toResponse = e.toResponse) : e'.Latest v log := by
  have hheaders : e'.headers = e.headers := congrArg Response.headers hresponse
  exact ⟨by rw [hkey, hresponse]; exact h.last, hkey ▸ h.key, hheaders ▸ h.headers⟩

theorem lastPut_finish_put {id : Nat} {key k : Bytes} {r : Response} {ttl : Int} {entry : Option CacheEntry}
    {time : Time} (hk : ¬ (key = k ∧ cacheable v r = true)) :
    lastPut v k (.finish id (.put key r ttl) entry time :: log) = lastPut v k log := by
  rw [lastPut, if_neg hk]

theorem lastPut_finish {S : Nat → CacheEntry → Prop} {entry : Option CacheEntry} {time : Time} (h : a.Ends v S entry)
    (k : Bytes) : lastPut v k (.finish a.id a.call entry time :: log) = lastPut v k log := by
  rcases h with ⟨key, hcall, -⟩ | ⟨key, r, ttl, hcall, hskip, -⟩
  · rw [hcall]
    rfl
  · rw [hcall, lastPut_finish_put fun hk => hskip hk.2]

theorem HybridRun.Sound.relog {T : Bytes → Response → Prop}
    (hs : s.Sound v (CacheEntry.Latest v log) (Seen v log) T) (hlog : log <:+ log')
    (hlast : ∀ k, lastPut v k log' = lastPut v k log) : s.Sound v (CacheEntry.Latest v log') (Seen v log') T :=
  hs.mono (fun e he => he.mono (hlast e.key)) fun _ _ he => he.mono hlog

theorem Task.puts_eq {t : Task} (hp : t.pending = some p) (hpromoted : p.promoted = none) : t.puts = some p.key := by
  simp [Task.puts, hp, hpromoted]

theorem HybridRun.Fresh.elsewhere {choice : DiskChoice} (hs : s.Fresh v) (ha : a ∈ s.active)
    (hmeets : HybridMove.Meets v (.step a.id choice) s)
    (hstep : a.task.step v choice s.now s.hybrid = some (next, hybrid))
    (hstored : s.Stored v (CacheEntry.Latest v s.log) (Seen v s.log) Portable a hybrid p) :
    (∀ f ∈ hybrid.disk.dir, f.hash ≠ v.sha256 p.key) ∧
      ∀ b ∈ s.active, b.id ≠ a.id → ∀ e ∈ b.task.moved, e.key ≠ p.key := by
  obtain ⟨hdir, hpromotions⟩ := hmeets a ha rfl p.key (Task.puts_eq hstored.pending hstored.promoted)
  refine ⟨fun f hf hhash => ?_, fun b hb hne e he hkey => ?_⟩
  · rcases hs.sound.files ha hstep f hf with hf | ⟨x, q, htask, hx, -⟩
    · exact hdir f hf hhash
    · have hknown := hs.sound.active a ha
      have hpending := hstored.pending
      rw [htask] at hknown hpending
      cases hpending
      exact hknown.1.2 (v.sha256_injective (hx.symm.trans hhash))
  · have hknown := hs.sound.active b hb
    cases hbtask : b.task with
    | store q =>
      rw [hbtask] at hknown he
      have hq : q.promoted = some e := by simpa [Task.moved] using he
      have hqkey : q.key = e.key := congrArg Pending.key (Pending.From.of_some hknown hq).1
      refine hpromotions b hb ?_
      rw [hbtask]
      simp [Task.promotes, Task.pending, hq, hqkey, hkey]
    | spill x q => exact absurd hbtask (hstored.alone b hb hne x q)
    | lookup key => rw [hbtask] at he; exact absurd he List.not_mem_nil
    | read key => rw [hbtask] at he; exact absurd he List.not_mem_nil
    | remove e => rw [hbtask] at he; exact absurd he List.not_mem_nil

theorem HybridRun.Fresh.stored {choice : DiskChoice} (hs : s.Fresh v) (ha : a ∈ s.active)
    (hmeets : HybridMove.Meets v (.step a.id choice) s)
    (hstep : a.task.step v choice s.now s.hybrid = some (next, hybrid))
    (hstored : s.Stored v (CacheEntry.Latest v s.log) (Seen v s.log) Portable a hybrid p) :
    let s' := s.after a (.done none) hybrid
    s'.Sound v (CacheEntry.Latest v s'.log) (Seen v s'.log) Portable ∧ NeverBack v s'.log := by
  intro s'
  obtain ⟨hdir, hmoved⟩ := hs.elsewhere ha hmeets hstep hstored
  have hlog : s'.log = .finish a.id (.put p.key p.response p.ttl) none s.now :: s.log := by
    rw [← hstored.call]
    rfl
  have hother : ∀ k, k ≠ p.key → lastPut v k s'.log = lastPut v k s.log := fun k hk => by
    rw [hlog, lastPut_finish_put fun h => hk h.1.symm]
  refine ⟨⟨⟨?_, ?_⟩, fun b hb => ?_⟩, ?_⟩
  · refine Cache.Holds.mono hstored.memory fun e he => ?_
    rcases he with rfl | ⟨he, hne⟩
    · refine ⟨?_, hstored.put.1, hstored.put.2⟩
      rw [hlog]
      exact if_pos ⟨rfl, hstored.cacheable⟩
    · exact he.mono (hother e.key hne)
  · refine hstored.disk.mono fun f hf key body m hhash hm => hm.mono (hother key fun hk => ?_)
    exact hdir f hf (hk ▸ hhash)
  · obtain ⟨hb, hne⟩ := Table.mem_remove.mp hb
    refine (hstored.others b hb hne).mono (fun e he hlatest => ?_) (fun _ _ hseen => ?_) fun _ _ _ => ⟨rfl, rfl⟩
    · exact hlatest.mono (hother e.key (hmoved b hb hne e he))
    · exact hseen.mono (List.suffix_cons _ _)
  · rw [hlog]
    exact AllHits.cons hs.log fun _ _ _ _ h => by cases h

theorem HybridRun.Fresh.operation {choice : DiskChoice} (hs : s.Fresh v) (ha : a ∈ s.active)
    (hwaits : a.task.waits s.holder = false) (hmeets : HybridMove.Meets v (.step a.id choice) s)
    (hstep : a.task.step v choice s.now s.hybrid = some (next, hybrid)) :
    let s' := s.after a next hybrid
    s'.Sound v (CacheEntry.Latest v s'.log) (Seen v s'.log) Portable ∧ NeverBack v s'.log := by
  have hmoved : s.Moved v (CacheEntry.Latest v s.log) (Seen v s.log) Portable a next hybrid := by
    refine hs.sound.operation ha hwaits (fun e hcall he _ => ?_) (fun x _ _ hx => ?_) (fun _ _ e _ he => ?_) hstep
    · obtain ⟨time, -, hbegin⟩ := hs.begun a ha
      exact ⟨s.log, List.suffix_rfl, ⟨time, hcall ▸ hbegin⟩, he.last⟩
    · have hcoded : x.spilled v s.now = { x with storedAt := s.now } := by
        rw [CacheEntry.spilled, hx.headers.coded]
      rw [hcoded]
      exact hx.copy rfl rfl
    · exact he.copy rfl rfl
  rcases hmoved with ⟨hsound, hends⟩ | ⟨rfl, p, hstored⟩
  · cases next with
    | task t => exact ⟨hsound, hs.log⟩
    | done entry =>
      have hend := hends entry rfl
      refine ⟨hsound.relog (List.suffix_cons _ _) (lastPut_finish hend),
        AllHits.cons hs.log fun id key e time hev => ?_⟩
      obtain ⟨rfl, hcall', rfl, -⟩ := Event.finish.inj hev
      rcases hend with ⟨key', hcall, hentry⟩ | ⟨_, _, _, hcall, -⟩
      · cases hcall.symm.trans hcall'
        obtain ⟨rfl, hseen⟩ := hentry e rfl
        exact hseen.current
      · cases hcall.symm.trans hcall'
  · exact hs.stored ha hmeets hstep hstored

theorem HybridRun.Fresh.move {memEntries maxBytes : Int} {m : HybridMove} (hs : s.Fresh v) (hutf8 : m.Utf8)
    (hmeets : m.Meets v s) (hstep : s.step v memEntries maxBytes m = some s') : s'.Fresh v := by
  have hbegun := hs.begun.move hstep
  cases m with
  | call c =>
    have hsound := hs.sound.call (fun key r ttl hc => by rw [hc] at hutf8; exact hutf8) hstep
    cases hstep
    exact ⟨hsound.relog (List.suffix_cons _ _) fun _ => rfl, hbegun, hs.named,
      AllHits.cons hs.log fun _ _ _ _ h => by cases h⟩
  | step id choice =>
    obtain ⟨a, ha, rfl, hwaits, next, hybrid, htask, rfl⟩ := HybridRun.step_inv hstep
    obtain ⟨hsound, hlog⟩ := hs.operation ha hwaits hmeets htask
    refine ⟨hsound, hbegun, fun f hf m hm => ?_, hlog⟩
    have hf : f ∈ hybrid.disk.dir := by
      cases next with
      | task t => exact hf
      | done entry => exact hf
    rcases hs.sound.files ha htask f hf with hf | ⟨x, p, hspill, hhash, hkey⟩
    · exact hs.named f hf m hm
    · have hknown := hs.sound.active a ha
      rw [hspill] at hknown
      rw [hhash, hkey m hm, hknown.1.1.key.jsonText]
  | advance d =>
    have hsound := hs.sound.advance hstep
    cases hstep
    exact ⟨hsound, hbegun, hs.named, hs.log⟩
  | restart order =>
    have hsound := hs.sound.restart hs.named hstep
    cases hstep
    exact ⟨hsound, hbegun, hs.named, hs.log⟩

theorem HybridRun.Fresh.start (memEntries maxBytes : Int) (now : Time) :
    (HybridRun.start memEntries maxBytes now).Fresh v := by
  exact ⟨.start memEntries maxBytes now, fun a ha => absurd ha Table.not_mem_empty,
    fun f hf => absurd hf Table.not_mem_empty, AllHits.nil⟩

end

/-- In every run in which a `Put` meets no older copy of its key on the disk or on its way from
there, and what is put survives JSON, every hit returns the latest response put before it
began or one put since. -/
theorem hybrid_current (v : Platform) (memEntries maxBytes : Int) (start : Time) (moves : List HybridMove)
    (s : HybridRun) (hutf8 : ∀ m ∈ moves, m.Utf8)
    (hmeets : Machine.Along (HybridRun.step v memEntries maxBytes) (HybridMove.Meets v) moves
      (.start memEntries maxBytes start))
    (hrun : Machine.run (HybridRun.step v memEntries maxBytes) moves (.start memEntries maxBytes start) = some s) :
    NeverBack v s.log := by
  have hall : Machine.Along (HybridRun.step v memEntries maxBytes) (fun m s => m.Utf8 ∧ m.Meets v s) moves
      (.start memEntries maxBytes start) := Machine.Along.and (.of_mem hutf8) hmeets
  exact (Machine.run_invariant (fun m s s' hs hm hstep => HybridRun.Fresh.move hs hm.1 hm.2 hstep)
    (HybridRun.Fresh.start memEntries maxBytes start) hall hrun).log

namespace Sample

/-- With room for one entry in memory: `a` is put, goes to the disk for `b`, and comes back. -/
def roundTrip : List HybridMove :=
  undisturbed 0 (.put [97] (page 1) 0) 1 ++ undisturbed 1 (.put [98] (page 9) 0) 2 ++ undisturbed 2 (.get [97]) 5

/-- The same, but `a` is put again while it is on the disk, and the process restarts before the
`Get`. -/
def goingBack : List HybridMove :=
  undisturbed 0 (.put [97] (page 1) 0) 1 ++ undisturbed 1 (.put [98] (page 9) 0) 2 ++
    undisturbed 2 (.put [97] (page 2) 0) 2 ++ [.restart .asStored] ++ undisturbed 3 (.get [97]) 4

/-- What was called before the `Get` of `goingBack`. -/
def puts : List Event :=
  [.finish 2 (.put [97] (page 2) 0) none 0, .begin 2 (.put [97] (page 2) 0) 0, .finish 1 (.put [98] (page 9) 0) none 0,
    .begin 1 (.put [98] (page 9) 0) 0, .finish 0 (.put [97] (page 1) 0) none 0, .begin 0 (.put [97] (page 1) 0) 0]

theorem log_goingBack :
    log goingBack = some (.finish 3 (.get [97]) (some { page 1 with key := [97], storedAt := 0, ttl := 0 }) 0 ::
      .begin 3 (.get [97]) 0 :: puts) := by
  decide +kernel

theorem not_current : ¬ Current .plain (.begin 3 (.get [97]) 0 :: puts) 3 [97] (page 1) := by
  rintro ⟨since, before, time, hlog, hcurrent⟩
  cases since with
  | nil =>
    obtain ⟨-, rfl⟩ : _ ∧ puts = before := by simpa using hlog
    rcases hcurrent with hlast | ⟨-, _, _, _, _, hmem⟩
    · exact absurd hlast (by decide)
    · exact absurd hmem List.not_mem_nil
  | cons ev since =>
    obtain ⟨-, hputs⟩ : _ ∧ puts = since ++ .begin 3 (.get [97]) time :: before := by simpa using hlog
    have hmem : Event.begin 3 (.get [97]) time ∈ puts := by rw [hputs]; simp
    simp [puts] at hmem

end Sample

/-- The entry that comes back from the disk is the one that was put. -/
theorem hybrid_current_roundTrip :
    ∃ s, Machine.run (HybridRun.step .plain 1 1000) Sample.roundTrip (.start 1 1000 0) = some s ∧
      (s.log.head?.any fun ev => ev = .finish 2 (.get [97])
        (some { Sample.page 1 with key := [97], storedAt := 0, ttl := 0 }) 0) ∧
      NeverBack .plain s.log := by
  have hlog : (Sample.log Sample.roundTrip).any (fun log => log.head?.any fun ev =>
      ev = .finish 2 (.get [97]) (some { Sample.page 1 with key := [97], storedAt := 0, ttl := 0 }) 0) = true := by
    decide +kernel
  cases hrun : Machine.run (HybridRun.step .plain 1 1000) Sample.roundTrip (.start 1 1000 0) with
  | none => rw [Sample.log, hrun] at hlog; cases hlog
  | some s =>
    rw [Sample.log, hrun] at hlog
    refine ⟨s, rfl, hlog, hybrid_current .plain 1 1000 0 Sample.roundTrip s ?_ (by decide +kernel) hrun⟩
    simp [Sample.roundTrip, Sample.undisturbed, HybridMove.Utf8, Portable, Sample.utf8_a, Sample.utf8_b,
      Sample.utf8_page]

/-- A `Get` that begins after the second `Put` of the key has ended returns what the first one
put. -/
theorem hybrid_goes_back :
    ∃ s, Machine.run (HybridRun.step .plain 1 1000) Sample.goingBack (.start 1 1000 0) = some s ∧
      ¬ NeverBack .plain s.log := by
  have hlog := Sample.log_goingBack
  cases hrun : Machine.run (HybridRun.step .plain 1 1000) Sample.goingBack (.start 1 1000 0) with
  | none => rw [Sample.log, hrun] at hlog; cases hlog
  | some s =>
    rw [Sample.log, hrun] at hlog
    have hlog : s.log = _ := Option.some.inj hlog
    exact ⟨s, rfl, fun hback => Sample.not_current (hback [] 3 [97] _ 0 _ hlog)⟩

end EdgeFabric.CdnServer
