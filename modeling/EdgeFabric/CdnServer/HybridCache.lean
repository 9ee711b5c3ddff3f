/-
The memory cache with a disk cache behind it: what the memory evicts is put on the
disk, and what is found on the disk is put back into memory.

A call is a sequence of operations on the two levels, and calls interleave between
them. `Task` is what a call does next; `Task.step` does it, with the memory locked
from the eviction of an entry until its successor is in. A call that is alone runs
its tasks to the end (`Task.finish`).
-/
import EdgeFabric.CdnServer.DiskCache

namespace EdgeFabric.CdnServer

structure Hybrid where
  memory : Cache
  disk : Disk

/-- `NewHybridCache` on a directory. -/
def newHybridCache (memEntries diskMaxBytes : Int) (order : RangeOrder) (dir : Dir) : Hybrid where
  memory := newCache memEntries
  disk := { cache := newDiskCache diskMaxBytes (order.order 0 dir.rows), dir }

/-- What is to be put into memory; in a `Get`, with the entry it was found as on the disk. -/
structure Pending where
  key : Bytes
  response : Response
  ttl : Int
  promoted : Option CacheEntry

def CacheEntry.promote (e : CacheEntry) : Pending :=
  { key := e.key, response := e.toResponse, ttl := e.ttl, promoted := some e }

def Pending.entry (now : Time) (p : Pending) : CacheEntry :=
  { p.response with key := p.key, storedAt := now, ttl := p.ttl }

inductive Task where
  /-- `memory.Get` -/
  | lookup (key : Bytes)
  /-- `disk.Get` -/
  | read (key : Bytes)
  /-- `memory.Put` -/
  | store (p : Pending)
  /-- `OnEvict` within `memory.Put`: the evicted entry goes to the disk -/
  | spill (evicted : CacheEntry) (p : Pending)
  /-- the copy on the disk of what is now in memory is removed -/
  | remove (entry : CacheEntry)

inductive Next where
  | task (t : Task)
  | done (entry : Option CacheEntry)

def Pending.after (p : Pending) : Next :=
  match p.promoted with
  | some e => .task (.remove e)
  | none => .done none

/-- The loop of `memory.Put`: an entry is evicted if the memory is full, else the new one goes in.
With nothing to evict from a full memory the loop would not end. -/
def Hybrid.insertOrEvict (p : Pending) (now : Time) (h : Hybrid) : Option (Next × Hybrid) :=
  if h.memory.full then
    match h.memory.evictTail with
    | (memory, some evicted) => some (.task (.spill evicted p), { h with memory })
    | (_, none) => none
  else some (p.after, { h with memory := h.memory.insert p.key p.response now p.ttl })

def Task.step (v : Platform) (choice : DiskChoice) (now : Time) (t : Task) (h : Hybrid) : Option (Next × Hybrid) :=
  match t with
  | .lookup key =>
    match h.memory.get key now with
    | (memory, some e) => some (.done (some e), { h with memory })
    | (memory, none) => some (.task (.read key), { h with memory })
  | .read key =>
    match h.disk.get key now with
    | (disk, some e) => some (.task (.store e.promote), { h with disk })
    | (disk, none) => some (.done none, { h with disk })
  | .store p =>
    if cacheable v p.response then
      match h.memory.entries.find p.key with
      | some (_, cell) => some (p.after, { h with memory := h.memory.update cell p.response now p.ttl })
      | none => h.insertOrEvict p now
    else some (p.after, h)
  | .spill e p => do
    let disk ← h.disk.put v choice e.key e.toResponse now e.ttl
    Hybrid.insertOrEvict p now { h with disk }
  | .remove e => some (.done (some e), { h with disk := h.disk.remove e.key })

def Task.finish (v : Platform) (now : Time) : List DiskChoice → Task → Hybrid → Option (Option CacheEntry × Hybrid)
  | [], _, _ => none
  | choice :: choices, t, h =>
    match t.step v choice now h with
    | some (.done e, h) => some (e, h)
    | some (.task t, h) => t.finish v now choices h
    | none => none

def Hybrid.get (v : Platform) (choices : List DiskChoice) (key : Bytes) (now : Time) (h : Hybrid) :
    Option (Option CacheEntry × Hybrid) :=
  Task.finish v now choices (.lookup key) h

def Hybrid.put (v : Platform) (choices : List DiskChoice) (key : Bytes) (r : Response) (now : Time) (ttl : Int)
    (h : Hybrid) : Option Hybrid :=
  (Task.finish v now choices (.store { key, response := r, ttl, promoted := none }) h).map Prod.snd

/-! ## What the operations do -/

/-- Every entry in memory satisfies `P`. -/
def Cache.Holds (P : CacheEntry → Prop) (c : Cache) : Prop := ∃ items, c.Represents items ∧ ∀ e ∈ items, P e

structure Hybrid.Holds (leads : Bytes → Bytes → Prop) (P : CacheEntry → Prop) (h : Hybrid) : Prop where
  memory : h.memory.Holds P
  disk : h.disk.Holds leads P

/-- The memory has the new entry, and what it had under other keys. -/
def Cache.Stored (P : CacheEntry → Prop) (p : Pending) (now : Time) (c : Cache) : Prop :=
  c.Holds fun e => e = p.entry now ∨ P e ∧ e.key ≠ p.key

section
variable {v : Platform} {leads : Bytes → Bytes → Prop} {P : CacheEntry → Prop} {choice : DiskChoice} {now : Time}
    {h h' : Hybrid} {next : Next}
  {p : Pending} {key : Bytes} {e : CacheEntry}
variable {Q : CacheEntry → Prop} {c : Cache} {choices : List DiskChoice}

theorem Cache.Holds.mono (h : c.Holds P) (hPQ : ∀ e, P e → Q e) : c.Holds Q := by
  obtain ⟨items, hitems, hall⟩ := h
  exact ⟨items, hitems, fun e he => hPQ e (hall e he)⟩

theorem Hybrid.Holds.mono (hall : h.Holds leads P) (hPQ : ∀ e, P e → Q e) : h.Holds leads Q :=
  ⟨hall.memory.mono hPQ, hall.disk.mono fun _ _ _ _ _ _ => hPQ _⟩

theorem Cache.Stored.holds_of (h : c.Stored P p now) (hp : Q (p.entry now))
    (hPQ : ∀ e, P e → Q e) : c.Holds Q :=
  Cache.Holds.mono h fun e he => by
    rcases he with rfl | he
    · exact hp
    · exact hPQ e he.1

theorem Cache.Stored.holds (h : c.Stored P p now) (hp : P (p.entry now)) : c.Holds P :=
  h.holds_of hp fun _ he => he

theorem Cache.Holds.get (h : c.Holds P) (key : Bytes) (now : Time) :
    (c.get key now).1.Holds P ∧
      ∀ e, (c.get key now).2 = some e → P e ∧ e.key = key ∧ ¬ e.expired now = true := by
  obtain ⟨items, hitems, hP⟩ := h
  obtain ⟨hrest, hgot, -⟩ := hitems.get key now
  have hother : ∀ e ∈ Cache.others key items, P e := fun e he => hP e (Cache.mem_others.mp he).1
  rw [hgot]
  cases hfind : Cache.find key items with
  | none =>
    rw [Cache.lookup_of_none hfind] at hrest ⊢
    exact ⟨⟨items, hrest, hP⟩, fun e he => by cases he⟩
  | some e =>
    obtain ⟨hmem, hkey⟩ := Cache.find_some hfind
    by_cases hexp : e.expired now
    · rw [Cache.lookup_of_expired hfind hexp] at hrest ⊢
      exact ⟨⟨_, hrest, hother⟩, fun e he => by cases he⟩
    · rw [Cache.lookup_of_live hfind hexp] at hrest ⊢
      refine ⟨⟨_, hrest, fun a ha => ?_⟩, fun a ha => ?_⟩
      · rcases List.mem_cons.mp ha with rfl | ha
        · exact hP a hmem
        · exact hother a ha
      · cases ha
        exact ⟨hP e hmem, hkey, hexp⟩

theorem Cache.Holds.evictTail (h : c.Holds P) (hkey : c.entries.find key = none) :
    c.evictTail.1.Holds P ∧ c.evictTail.1.entries.find key = none ∧
      ∀ e, c.evictTail.2 = some e → P e ∧ e.key ≠ key := by
  obtain ⟨items, hitems, hP⟩ := h
  obtain ⟨-, hevicted, hrest⟩ := hitems.evictTail
  have hfree := hitems.update key default 0 0
  rw [hkey] at hfree
  refine ⟨⟨_, hrest, fun e he => hP e (List.mem_of_mem_dropLast he)⟩, ?_, fun e he => ?_⟩
  · unfold Cache.evictTail
    split
    · exact hkey
    · exact Table.find_eq_none.mpr fun a ha => Table.find_eq_none.mp hkey a (Table.mem_remove.mp ha).1
  · rw [hevicted] at he
    have hmem := List.mem_of_getLast? he
    exact ⟨hP e hmem, by simpa using List.find?_eq_none.mp hfree e hmem⟩

theorem Cache.Holds.insert (h : c.Holds P) (hkey : c.entries.find p.key = none) :
    (c.insert p.key p.response now p.ttl).Stored P p now := by
  obtain ⟨items, hitems, hP⟩ := h
  have hfree := hitems.update p.key p.response now p.ttl
  rw [hkey] at hfree
  refine ⟨_, hitems.insert hfree p.response now p.ttl, fun e he => ?_⟩
  rcases List.mem_cons.mp he with rfl | he
  · exact .inl rfl
  · exact .inr ⟨hP e he, by simpa using List.find?_eq_none.mp hfree e he⟩

theorem Cache.Holds.update {key' : Bytes} {cell : Nat} (h : c.Holds P)
    (hkey : c.entries.find p.key = some (key', cell)) : (c.update cell p.response now p.ttl).Stored P p now := by
  obtain ⟨items, hitems, hP⟩ := h
  have hupdate := hitems.update p.key p.response now p.ttl
  rw [hkey] at hupdate
  refine ⟨_, hupdate.2.2, fun e he => ?_⟩
  rcases List.mem_cons.mp he with rfl | he
  · exact .inl rfl
  · obtain ⟨hmem, hne⟩ := Cache.mem_others.mp he
    exact .inr ⟨hP e hmem, hne⟩

theorem Cache.Holds.evict {c' : Cache} {rounds : Nat} {evicted : List CacheEntry} (h : c.Holds P)
    (hkey : c.entries.find key = none) (hevict : c.evict rounds = some (c', evicted)) :
    c'.Holds P ∧ c'.entries.find key = none := by
  induction rounds generalizing c evicted with
  | zero =>
    unfold Cache.evict at hevict
    split at hevict
    · cases hevict
    · cases hevict
      exact ⟨h, hkey⟩
  | succ rounds ih =>
    unfold Cache.evict at hevict
    split at hevict
    · obtain ⟨hmemory, hfree, -⟩ := h.evictTail hkey
      obtain ⟨⟨c₁, rest⟩, hrest, hc'⟩ := Option.map_eq_some_iff.mp hevict
      cases hc'
      exact ih hmemory hfree hrest
    · cases hevict
      exact ⟨h, hkey⟩

theorem Cache.Holds.put {c' : Cache} {rounds : Nat} {r : Response} {ttl : Int} {evicted : List CacheEntry}
    (h : c.Holds P) (hnew : cacheable v r = true → P { r with key, storedAt := now, ttl })
    (hput : c.put v rounds key r now ttl = some (c', evicted)) : c'.Holds P := by
  let p : Pending := { key, response := r, ttl, promoted := none }
  unfold Cache.put at hput
  split at hput
  · next hcache =>
    split at hput
    · next key' cell hfind =>
      cases hput
      exact (h.update (p := p) hfind).holds (hnew hcache)
    · next hfind =>
      obtain ⟨⟨c₁, rest⟩, hevict, hc'⟩ := Option.map_eq_some_iff.mp hput
      cases hc'
      obtain ⟨hmemory, hfree⟩ := h.evict hfind hevict
      exact (hmemory.insert (p := p) hfree).holds (hnew hcache)
  · cases hput
    exact h

theorem Task.lookup_spec (hall : h.memory.Holds P) (hstep : Task.step v choice now (.lookup key) h = some (next, h')) :
    h'.memory.Holds P ∧ h'.disk = h.disk ∧
      (next = .task (.read key) ∨ ∃ e, next = .done (some e) ∧ P e ∧ e.key = key ∧ ¬ e.expired now = true) := by
  obtain ⟨hmemory, hfound⟩ := hall.get key now
  unfold Task.step at hstep
  dsimp only at hstep
  split at hstep
  · next memory e hget =>
    rw [hget] at hmemory hfound
    cases hstep
    exact ⟨hmemory, rfl, .inr ⟨e, rfl, hfound e rfl⟩⟩
  · next memory hget =>
    rw [hget] at hmemory
    cases hstep
    exact ⟨hmemory, rfl, .inl rfl⟩

theorem Task.read_spec (hall : h.disk.Holds leads P) (hstep : Task.step v choice now (.read key) h = some (next, h')) :
    h'.memory = h.memory ∧ h'.disk.Sub h.disk ∧
      (next = .done none ∨ ∃ e, next = .task (.store e.promote) ∧ P e ∧ e.key = key ∧ ¬ e.expired now = true) := by
  have hsub := Disk.get_sub (d := h.disk) key now
  have hfound : ∀ e, (h.disk.get key now).2 = some e → P e ∧ e.key = key ∧ ¬ e.expired now = true := fun e => hall.get
  unfold Task.step at hstep
  dsimp only at hstep
  split at hstep
  · next disk e hget =>
    rw [hget] at hsub hfound
    cases hstep
    exact ⟨rfl, hsub, .inr ⟨e, rfl, hfound e rfl⟩⟩
  · next disk hget =>
    rw [hget] at hsub
    cases hstep
    exact ⟨rfl, hsub, .inl rfl⟩

theorem Hybrid.insertOrEvict_spec (hall : h.memory.Holds P) (hkey : h.memory.entries.find p.key = none)
    (hstep : h.insertOrEvict p now = some (next, h')) :
    h'.disk = h.disk ∧
      (next = p.after ∧ h'.memory.Stored P p now ∨
        ∃ x, next = .task (.spill x p) ∧ (P x ∧ x.key ≠ p.key) ∧ h'.memory.Holds P ∧
          h'.memory.entries.find p.key = none) := by
  unfold Hybrid.insertOrEvict at hstep
  split at hstep
  · obtain ⟨hmemory, hfree, hevicted⟩ := hall.evictTail hkey
    split at hstep
    · next memory x hevict =>
      rw [hevict] at hmemory hfree hevicted
      cases hstep
      exact ⟨rfl, .inr ⟨x, rfl, hevicted x rfl, hmemory, hfree⟩⟩
    · cases hstep
  · cases hstep
    exact ⟨rfl, .inl ⟨rfl, hall.insert hkey⟩⟩

theorem Task.store_spec (hall : h.memory.Holds P) (hstep : Task.step v choice now (.store p) h = some (next, h')) :
    h'.disk = h.disk ∧
      (¬ cacheable v p.response = true ∧ next = p.after ∧ h' = h ∨
        cacheable v p.response = true ∧ next = p.after ∧ h'.memory.Stored P p now ∨
        cacheable v p.response = true ∧
          ∃ x, next = .task (.spill x p) ∧ (P x ∧ x.key ≠ p.key) ∧ h'.memory.Holds P ∧
            h'.memory.entries.find p.key = none) := by
  unfold Task.step at hstep
  dsimp only at hstep
  split at hstep
  · next hcache =>
    split at hstep
    · next key' cell hfind =>
      cases hstep
      exact ⟨rfl, .inr (.inl ⟨hcache, rfl, hall.update hfind⟩)⟩
    · next hfind =>
      obtain ⟨hdisk, hcases⟩ := Hybrid.insertOrEvict_spec hall hfind hstep
      exact ⟨hdisk, .inr (hcases.imp (fun hdone => ⟨hcache, hdone⟩) fun hspill => ⟨hcache, hspill⟩)⟩
  · next hcache =>
    cases hstep
    exact ⟨rfl, .inl ⟨hcache, rfl, rfl⟩⟩

theorem Task.spill_spec (hall : h.memory.Holds P) (hkey : h.memory.entries.find p.key = none)
    (hstep : Task.step v choice now (.spill e p) h = some (next, h')) :
    h.disk.put v choice e.key e.toResponse now e.ttl = some h'.disk ∧
      (next = p.after ∧ h'.memory.Stored P p now ∨
        ∃ x, next = .task (.spill x p) ∧ (P x ∧ x.key ≠ p.key) ∧ h'.memory.Holds P ∧
          h'.memory.entries.find p.key = none) := by
  obtain ⟨disk, hput, hrest⟩ := Option.bind_eq_some_iff.mp hstep
  obtain ⟨hdisk, hcases⟩ := Hybrid.insertOrEvict_spec (h := { h with disk }) hall hkey hrest
  exact ⟨hput.trans (congrArg some hdisk.symm), hcases⟩

theorem Task.remove_spec (hstep : Task.step v choice now (.remove e) h = some (next, h')) :
    next = .done (some e) ∧ h'.memory = h.memory ∧ h'.disk.Sub h.disk := by
  cases hstep
  exact ⟨rfl, rfl, Disk.remove_sub _⟩

/-! ## A call that is alone -/

/-- The entry is one that a `Get` of the key may return. -/
def CacheEntry.Found (P : CacheEntry → Prop) (key : Bytes) (now : Time) (e : CacheEntry) : Prop :=
  P e ∧ e.key = key ∧ ¬ e.expired now = true

/-- What is about to go into memory satisfies `P`, and what was promoted may be returned. -/
structure Pending.Sound (v : Platform) (P : CacheEntry → Prop) (key : Bytes) (now : Time) (p : Pending) : Prop where
  entry : cacheable v p.response = true → P (p.entry now)
  promoted : ∀ e ∈ p.promoted, e.Found P key now

/-- What a task has at hand. -/
def Task.Sound (v : Platform) (P : CacheEntry → Prop) (key : Bytes) (now : Time) (h : Hybrid) : Task → Prop
  | .lookup k | .read k => k = key
  | .store p => p.Sound v P key now
  | .spill x p => P x ∧ h.memory.entries.find p.key = none ∧ cacheable v p.response = true ∧ p.Sound v P key now
  | .remove e => e.Found P key now

def Next.Sound (v : Platform) (P : CacheEntry → Prop) (key : Bytes) (now : Time) (h : Hybrid) : Next → Prop
  | .task t => t.Sound v P key now h
  | .done entry => ∀ e ∈ entry, e.Found P key now

theorem Pending.Sound.after (hp : p.Sound v P key now) : p.after.Sound v P key now h := by
  have hpromoted := hp.promoted
  unfold Pending.after
  cases he : p.promoted with
  | some e => exact hpromoted e (by rw [he]; rfl)
  | none => exact fun e he => by cases he

theorem Task.Sound.step {t : Task} (hnames : ∀ key, leads (v.sha256 key) key)
    (hmovable : Movable v leads P) (hall : h.Holds leads P) (ht : t.Sound v P key now h)
    (hstep : t.step v choice now h = some (next, h')) : h'.Holds leads P ∧ next.Sound v P key now h' := by
  -- an entry that was stored may stay, and one that was evicted goes on to the disk
  have hstored : ∀ p : Pending, p.Sound v P key now → cacheable v p.response = true → h'.disk.Holds leads P →
      (next = p.after ∧ h'.memory.Stored P p now ∨ ∃ x, next = .task (.spill x p) ∧ (P x ∧ x.key ≠ p.key) ∧
        h'.memory.Holds P ∧ h'.memory.entries.find p.key = none) → h'.Holds leads P ∧ next.Sound v P key now h' := by
    intro p hp hcache hdisk hcases
    rcases hcases with ⟨rfl, hmemory⟩ | ⟨x, rfl, hx, hmemory, hfree⟩
    · exact ⟨⟨hmemory.holds (hp.entry hcache), hdisk⟩, hp.after⟩
    · exact ⟨⟨hmemory, hdisk⟩, hx.1, hfree, hcache, hp⟩
  cases t with
  | lookup k =>
    obtain ⟨hmemory, hdisk, hnext⟩ := Task.lookup_spec hall.memory hstep
    refine ⟨⟨hmemory, hdisk ▸ hall.disk⟩, ?_⟩
    obtain rfl : k = key := ht
    rcases hnext with rfl | ⟨e, rfl, he⟩
    · exact rfl
    · intro a ha
      cases ha
      exact he
  | read k =>
    obtain ⟨hmemory, hsub, hnext⟩ := Task.read_spec hall.disk hstep
    refine ⟨⟨hmemory ▸ hall.memory, hall.disk.sub hsub⟩, ?_⟩
    obtain rfl : k = key := ht
    rcases hnext with rfl | ⟨e, rfl, he⟩
    · intro a ha
      cases ha
    · refine ⟨fun _ => hmovable.promote now e he.1, fun a ha => ?_⟩
      cases ha
      exact he
  | store p =>
    obtain ⟨hdisk, hcases⟩ := Task.store_spec hall.memory hstep
    rcases hcases with ⟨-, rfl, rfl⟩ | ⟨hcache, hdone⟩ | ⟨hcache, hspilled⟩
    · exact ⟨hall, ht.after⟩
    · exact hstored p ht hcache (hdisk ▸ hall.disk) (.inl hdone)
    · exact hstored p ht hcache (hdisk ▸ hall.disk) (.inr hspilled)
  | spill x p =>
    obtain ⟨hx, hfree, hcache, hp⟩ := ht
    obtain ⟨hput, hcases⟩ := Task.spill_spec hall.memory hfree hstep
    exact hstored p hp hcache (hall.disk.put (hnames x.key) (hmovable.spill now x hx) hput) hcases
  | remove e =>
    obtain ⟨rfl, hmemory, hsub⟩ := Task.remove_spec hstep
    refine ⟨⟨hmemory ▸ hall.memory, hall.disk.sub hsub⟩, fun a ha => ?_⟩
    cases ha
    exact ht

theorem Task.Sound.finish {t : Task} {entry : Option CacheEntry}
    (hnames : ∀ key, leads (v.sha256 key) key) (hmovable : Movable v leads P)
    (hall : h.Holds leads P) (ht : t.Sound v P key now h) (hrun : t.finish v now choices h = some (entry, h')) :
    h'.Holds leads P ∧ ∀ e ∈ entry, e.Found P key now := by
  induction choices generalizing t h with
  | nil => cases hrun
  | cons choice choices ih =>
    unfold Task.finish at hrun
    split at hrun
    · next e h₁ hstep =>
      cases hrun
      exact ht.step hnames hmovable hall hstep
    · next t' h₁ hstep =>
      obtain ⟨hall', ht'⟩ := ht.step hnames hmovable hall hstep
      exact ih hall' ht' hrun
    · cases hrun

theorem Hybrid.Holds.get {entry : Option CacheEntry}
    (hnames : ∀ key, leads (v.sha256 key) key) (hmovable : Movable v leads P)
    (hall : h.Holds leads P) (hget : h.get v choices key now = some (entry, h')) :
    h'.Holds leads P ∧ ∀ e ∈ entry, e.Found P key now :=
  Task.Sound.finish (t := .lookup key) hnames hmovable hall rfl hget

theorem Hybrid.Holds.put {r : Response} {ttl : Int}
    (hnames : ∀ key, leads (v.sha256 key) key) (hmovable : Movable v leads P)
    (hall : h.Holds leads P) (hnew : cacheable v r = true → P { r with key, storedAt := now, ttl })
    (hput : h.put v choices key r now ttl = some h') : h'.Holds leads P := by
  obtain ⟨⟨entry, h₁⟩, hrun, rfl⟩ := Option.map_eq_some_iff.mp hput
  have ht : Task.Sound v P key now h (.store { key, response := r, ttl, promoted := none }) :=
    ⟨hnew, fun e he => by cases he⟩
  exact (ht.finish hnames hmovable hall hrun).1

end

end EdgeFabric.CdnServer
