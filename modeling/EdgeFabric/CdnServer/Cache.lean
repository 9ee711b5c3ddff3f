/-
The memory cache of a site: a map from keys to entries, and the entries in a
doubly linked list, the last used at its head. Entries are cells of a heap; the
pointer fields `prev` and `next` are kept in `list`, the others in `cell`.

`Represents c items` says that the list is intact and that it and the map hold
the same entries, `items` from head to tail. Each operation is shown to be the
one on `items` that is meant by it.
-/
import EdgeFabric.CdnServer.Http
import EdgeFabric.Lib.LinkedList

namespace EdgeFabric.CdnServer
open Text (bytes)

/-- A cached response, without the pointers of its cell. -/
structure CacheEntry extends Response where
  key : Bytes
  storedAt : Time
  /-- nanoseconds; none means that only eviction ends the entry -/
  ttl : Int
  deriving DecidableEq, Inhabited

def CacheEntry.expired (now : Time) (e : CacheEntry) : Bool := 0 < e.ttl ∧ e.ttl < (now : Int) - e.storedAt

structure Cache where
  entries : Table (Prod.fst : Bytes × Nat → Bytes)
  maxEntries : Nat
  cell : Nat → CacheEntry
  list : DList Nat
  /-- the next cell to be allocated -/
  fresh : Nat

def newCache (maxEntries : Int) : Cache :=
  { entries := ∅, maxEntries := if maxEntries ≤ 0 then 10000 else maxEntries.toNat, cell := fun _ => default
    list := .empty, fresh := 0 }

def cacheControl : Bytes := bytes "Cache-Control"

/-- Whether the first `Cache-Control` line prohibits caching. -/
def shouldSkipCache (v : Platform) (headers : Header) : Bool :=
  let cc := headers.get cacheControl
  if cc = [] then false
  else
    let ccLower := v.toLower cc
    contains ccLower (bytes "no-store") || contains ccLower (bytes "no-cache")

def cacheable (v : Platform) (r : Response) : Bool :=
  !shouldSkipCache v r.headers && !(r.statusCode < 200 || 300 ≤ r.statusCode)

namespace Cache

def removeEntry (p : Nat) (c : Cache) : Cache :=
  { c with entries := c.entries.remove (c.cell p).key, list := c.list.unlink p }

def get (key : Bytes) (now : Time) (c : Cache) : Cache × Option CacheEntry :=
  match c.entries.find key with
  | none => (c, none)
  | some (_, p) =>
    if (c.cell p).expired now then (c.removeEntry p, none)
    else ({ c with list := c.list.moveToHead p }, some (c.cell p))

/-- The entry at the tail is removed and handed to `OnEvict`. -/
def evictTail (c : Cache) : Cache × Option CacheEntry :=
  match c.list.tail with
  | none => (c, none)
  | some p => (c.removeEntry p, some (c.cell p))

def full (c : Cache) : Bool := c.maxEntries ≤ c.entries.rows.length

/-- The eviction loop with what it hands to `OnEvict`; nothing if it is not over after
`rounds` rounds. -/
def evict : (rounds : Nat) → Cache → Option (Cache × List CacheEntry)
  | 0, c => if c.full then none else some (c, [])
  | rounds + 1, c =>
    if c.full then
      let (c, evicted) := c.evictTail
      (evict rounds c).map fun (c, rest) => (c, evicted.toList ++ rest)
    else some (c, [])

def update (p : Nat) (r : Response) (now : Time) (ttl : Int) (c : Cache) : Cache :=
  { c with
    cell := Function.update c.cell p { r with key := (c.cell p).key, storedAt := now, ttl }
    list := c.list.moveToHead p }

def insert (key : Bytes) (r : Response) (now : Time) (ttl : Int) (c : Cache) : Cache :=
  { c with
    cell := Function.update c.cell c.fresh { r with key, storedAt := now, ttl }
    entries := c.entries.put (key, c.fresh)
    list := c.list.addToHead c.fresh
    fresh := c.fresh + 1 }

def put (v : Platform) (rounds : Nat) (key : Bytes) (r : Response) (now : Time) (ttl : Int) (c : Cache) :
    Option (Cache × List CacheEntry) :=
  if cacheable v r then
    match c.entries.find key with
    | some (_, p) => some (c.update p r now ttl, [])
    | none => (c.evict rounds).map fun (c, evicted) => (c.insert key r now ttl, evicted)
  else some (c, [])

def purge (c : Cache) : Cache := { c with entries := ∅, list := c.list.clear }

/-! ## The list of entries -/

def find (key : Bytes) (items : List CacheEntry) : Option CacheEntry := items.find? (·.key = key)

def others (key : Bytes) (items : List CacheEntry) : List CacheEntry := items.filter (·.key ≠ key)

/-- What `Get` makes of the list: a hit comes to the front, an expired entry goes. -/
def lookup (key : Bytes) (now : Time) (items : List CacheEntry) : List CacheEntry × Option CacheEntry :=
  match find key items with
  | none => (items, none)
  | some e => if e.expired now then (others key items, none) else (e :: others key items, some e)

/-- The entries that stay when one is to be added, and those that go. -/
def makeRoom (maxEntries : Nat) (items : List CacheEntry) : List CacheEntry × List CacheEntry :=
  if items.length < maxEntries then (items, []) else (items.dropLast, items.getLast?.toList)

/-- What `Put` makes of the list, and what it evicts. -/
def store (v : Platform) (maxEntries : Nat) (e : CacheEntry) (items : List CacheEntry) :
    List CacheEntry × List CacheEntry :=
  if cacheable v e.toResponse then
    match find e.key items with
    | some _ => (e :: others e.key items, [])
    | none => (e :: (makeRoom maxEntries items).1, (makeRoom maxEntries items).2)
  else (items, [])

/-- The cells `ptrs` are linked, and the map leads to each of them under its key. -/
structure Cells (c : Cache) (ptrs : List Nat) : Prop where
  linked : c.list.Linked ptrs
  entries : ∀ key p, (key, p) ∈ c.entries ↔ p ∈ ptrs ∧ (c.cell p).key = key
  fresh : ∀ p ∈ ptrs, p < c.fresh

/-- The entries from the last used to the first to be evicted. -/
def Represents (c : Cache) (items : List CacheEntry) : Prop := ∃ ptrs, c.Cells ptrs ∧ items = ptrs.map c.cell

variable {c : Cache} {items : List CacheEntry} {ptrs : List Nat}

theorem lookup_of_none {key : Bytes} {now : Time} (h : find key items = none) :
    lookup key now items = (items, none) := by
  rw [lookup, h]

theorem lookup_of_expired {key : Bytes} {now : Time} {e : CacheEntry} (h : find key items = some e)
    (hexp : e.expired now = true) : lookup key now items = (others key items, none) := by
  rw [lookup, h]
  exact if_pos hexp

theorem lookup_of_live {key : Bytes} {now : Time} {e : CacheEntry} (h : find key items = some e)
    (hexp : ¬ e.expired now = true) : lookup key now items = (e :: others key items, some e) := by
  rw [lookup, h]
  exact if_neg hexp

section
variable {v : Platform} {maxEntries : Nat} {e : CacheEntry}

theorem store_of_not_cacheable (hcache : ¬ cacheable v e.toResponse = true) :
    store v maxEntries e items = (items, []) :=
  if_neg hcache

theorem store_of_some {e' : CacheEntry} (hcache : cacheable v e.toResponse = true) (h : find e.key items = some e') :
    store v maxEntries e items = (e :: others e.key items, []) := by
  rw [store, if_pos hcache, h]

theorem store_of_none (hcache : cacheable v e.toResponse = true) (h : find e.key items = none) :
    store v maxEntries e items = (e :: (makeRoom maxEntries items).1, (makeRoom maxEntries items).2) := by
  rw [store, if_pos hcache, h]

end

variable {e : CacheEntry} {a b : List Nat} {p : Nat}

theorem mem_of_mem_makeRoom {maxEntries : Nat} (h : e ∈ (makeRoom maxEntries items).1) : e ∈ items := by
  unfold makeRoom at h
  split at h
  · exact h
  · exact List.mem_of_mem_dropLast h

theorem Cells.perm (h : c.Cells ptrs) : c.entries.rows.Perm (ptrs.map fun p => ((c.cell p).key, p)) := by
  refine (List.perm_ext_iff_of_nodup (List.Nodup.of_map _ c.entries.nodup) ?_).mpr fun row => ?_
  · exact h.linked.nodup.map fun p q hpq => (Prod.mk.inj hpq).2
  · obtain ⟨key, p⟩ := row
    rw [← Table.mem_def, h.entries, List.mem_map]
    constructor
    · intro hrow
      exact ⟨p, hrow.1, by rw [hrow.2]⟩
    · intro hrow
      obtain ⟨q, hq, heq⟩ := hrow
      cases heq
      exact ⟨hq, rfl⟩

theorem Cells.keys (h : c.Cells ptrs) : (ptrs.map fun p => (c.cell p).key).Nodup := by
  have := (h.perm.map Prod.fst).nodup_iff.mp c.entries.nodup
  simpa [Function.comp_def] using this

theorem Represents.length (h : c.Represents items) : c.entries.rows.length = items.length := by
  obtain ⟨ptrs, hcells, rfl⟩ := h
  rw [hcells.perm.length_eq, List.length_map, List.length_map]

theorem Represents.full (h : c.Represents items) : c.full = decide (c.maxEntries ≤ items.length) := by
  rw [Cache.full, h.length]

theorem Cells.erase (h : c.Cells (a ++ p :: b)) :
    ((a ++ p :: b).map c.cell).filter (fun e => e.key ≠ (c.cell p).key) = (a ++ b).map c.cell := by
  have hkeys := h.keys
  rw [List.map_append, List.map_cons, List.nodup_middle, List.nodup_cons] at hkeys
  have hother : ∀ q ∈ a ++ b, (c.cell q).key ≠ (c.cell p).key := fun q hq he =>
    hkeys.1 (by rw [← he, ← List.map_append]; exact List.mem_map_of_mem hq)
  have hkeep : ∀ l : List Nat, (∀ q ∈ l, q ∈ a ++ b) →
      (l.map c.cell).filter (fun e => e.key ≠ (c.cell p).key) = l.map c.cell := fun l hl =>
    List.filter_eq_self.mpr fun e he => by
      obtain ⟨q, hq, rfl⟩ := List.mem_map.mp he
      exact decide_eq_true (hother q (hl q hq))
  rw [List.map_append, List.map_cons, List.filter_append, List.filter_cons_of_neg (by simp),
    hkeep a fun q hq => List.mem_append_left _ hq, hkeep b fun q hq => List.mem_append_right _ hq, List.map_append]

theorem Cells.find (h : c.Cells ptrs) {key key' : Bytes} (hfind : c.entries.find key = some (key', p)) :
    (c.cell p).key = key ∧ ∃ a b, ptrs = a ++ p :: b := by
  obtain ⟨hmem, rfl⟩ := Table.find_eq_some.mp hfind
  obtain ⟨hp, hkey⟩ := (h.entries _ _).mp hmem
  exact ⟨hkey, List.append_of_mem hp⟩

theorem Cells.find_none (h : c.Cells ptrs) {key : Bytes} (hfind : c.entries.find key = none) :
    ∀ p ∈ ptrs, (c.cell p).key ≠ key := fun p hp hkey =>
  Table.find_eq_none.mp hfind (key, p) ((h.entries key p).mpr ⟨hp, hkey⟩) rfl

theorem Cells.removeEntry (h : c.Cells (a ++ p :: b)) :
    (c.removeEntry p).Cells (a ++ b) := by
  have hmem : ∀ q, q ∈ a ++ b → q ∈ a ++ p :: b := fun q hq => by
    simp only [List.mem_append, List.mem_cons] at hq ⊢
    tauto
  have hkeys := h.keys
  rw [List.map_append, List.map_cons, List.nodup_middle, List.nodup_cons] at hkeys
  refine ⟨h.linked.unlink, fun key q => ?_, fun q hq => h.fresh q (hmem q hq)⟩
  show (key, q) ∈ c.entries.remove (c.cell p).key ↔ q ∈ a ++ b ∧ (c.cell q).key = key
  rw [Table.mem_remove, h.entries]
  constructor
  · intro hrow
    obtain ⟨⟨hq, rfl⟩, hne⟩ := hrow
    have hqp : q ≠ p := fun he => hne (by rw [he])
    refine ⟨?_, rfl⟩
    simp only [List.mem_append, List.mem_cons] at hq ⊢
    tauto
  · intro hrow
    obtain ⟨hq, rfl⟩ := hrow
    exact ⟨⟨hmem q hq, rfl⟩, fun he => hkeys.1 (by
      rw [← List.map_append]
      exact List.mem_map.mpr ⟨q, hq, he⟩)⟩

theorem Cells.moveToHead (h : c.Cells (a ++ p :: b)) :
    ({ c with list := c.list.moveToHead p } : Cache).Cells (p :: (a ++ b)) := by
  have hmem : ∀ q, q ∈ p :: (a ++ b) ↔ q ∈ a ++ p :: b := fun q => by
    simp only [List.mem_append, List.mem_cons]
    tauto
  exact ⟨h.linked.moveToHead, fun key q => by rw [hmem]; exact h.entries key q,
    fun q hq => h.fresh q ((hmem q).mp hq)⟩

/-! ## What the operations do -/

theorem Represents.new (n : Int) : (newCache n).Represents [] :=
  ⟨[], ⟨.empty, fun key p => by simp [newCache], by simp⟩, rfl⟩

theorem Represents.purge : c.purge.Represents [] :=
  ⟨[], ⟨.clear, fun key p => by simp [Cache.purge], by simp⟩, rfl⟩

theorem Cells.find_eq (h : c.Cells ptrs) {key key' : Bytes} (hfind : c.entries.find key = some (key', p)) :
    Cache.find key (ptrs.map c.cell) = some (c.cell p) := by
  obtain ⟨hkey, a, b, rfl⟩ := h.find hfind
  have hkeys := h.keys
  rw [List.map_append, List.map_cons, List.nodup_middle, List.nodup_cons] at hkeys
  have hnone : ∀ e ∈ a.map c.cell, ¬ decide (e.key = key) = true := fun e he hek => by
    obtain ⟨q, hq, rfl⟩ := List.mem_map.mp he
    refine hkeys.1 (List.mem_append_left _ (List.mem_map.mpr ⟨q, hq, ?_⟩))
    rw [hkey]
    exact of_decide_eq_true hek
  rw [Cache.find, List.map_append, List.find?_append, List.find?_eq_none.mpr hnone, List.map_cons,
    List.find?_cons_of_pos (by simpa using hkey)]
  rfl

theorem Cells.find_eq_none (h : c.Cells ptrs) {key : Bytes} (hfind : c.entries.find key = none) :
    Cache.find key (ptrs.map c.cell) = none := by
  refine List.find?_eq_none.mpr fun e he => ?_
  obtain ⟨p, hp, rfl⟩ := List.mem_map.mp he
  simpa using h.find_none hfind p hp

theorem Represents.get (h : c.Represents items) (key : Bytes) (now : Time) :
    (c.get key now).1.Represents (lookup key now items).1 ∧ (c.get key now).2 = (lookup key now items).2 ∧
      (c.get key now).1.maxEntries = c.maxEntries := by
  obtain ⟨ptrs, hcells, rfl⟩ := h
  unfold Cache.get
  cases hfind : c.entries.find key with
  | none =>
    rw [lookup_of_none (hcells.find_eq_none hfind)]
    exact ⟨⟨ptrs, hcells, rfl⟩, rfl, rfl⟩
  | some row =>
    obtain ⟨key', p⟩ := row
    have hfound := hcells.find_eq hfind
    obtain ⟨rfl, a, b, rfl⟩ := hcells.find hfind
    dsimp only
    by_cases hexp : (c.cell p).expired now
    · rw [if_pos hexp, lookup_of_expired hfound hexp]
      exact ⟨⟨a ++ b, hcells.removeEntry, hcells.erase⟩, rfl, rfl⟩
    · rw [if_neg hexp, lookup_of_live hfound hexp]
      exact ⟨⟨p :: (a ++ b), hcells.moveToHead, congrArg (c.cell p :: ·) hcells.erase⟩, rfl, rfl⟩

theorem Represents.evictTail (h : c.Represents items) :
    c.evictTail.1.maxEntries = c.maxEntries ∧ c.evictTail.2 = items.getLast? ∧
      c.evictTail.1.Represents items.dropLast := by
  obtain ⟨ptrs, hcells, rfl⟩ := h
  have htail := hcells.linked.tail
  unfold Cache.evictTail
  rcases List.eq_nil_or_concat ptrs with rfl | ⟨a, p, rfl⟩
  · rw [htail]
    exact ⟨rfl, rfl, [], hcells, rfl⟩
  · rw [List.concat_eq_append] at htail hcells ⊢
    have htail : c.list.tail = some p := by simpa using htail
    rw [htail]
    refine ⟨rfl, by simp, a, ?_, by simp [Cache.removeEntry]⟩
    simpa using hcells.removeEntry

theorem Represents.insert (h : c.Represents items) {key : Bytes} (hnew : Cache.find key items = none) (r : Response)
    (now : Time) (ttl : Int) :
    (c.insert key r now ttl).Represents ({ r with key, storedAt := now, ttl } :: items) := by
  obtain ⟨ptrs, hcells, rfl⟩ := h
  have hfresh : c.fresh ∉ ptrs := fun hp => Nat.lt_irrefl _ (hcells.fresh _ hp)
  have hne : ∀ p ∈ ptrs, p ≠ c.fresh := fun p hp he => hfresh (he ▸ hp)
  have hkey : ∀ p ∈ ptrs, (c.cell p).key ≠ key := fun p hp => by
    simpa using List.find?_eq_none.mp hnew _ (List.mem_map_of_mem hp)
  refine ⟨c.fresh :: ptrs, ⟨hcells.linked.addToHead hfresh, fun key' p => ?_, fun p hp => ?_⟩, ?_⟩
  · show (key', p) ∈ c.entries.put (key, c.fresh) ↔ p ∈ c.fresh :: ptrs ∧
      (Function.update c.cell c.fresh { r with key, storedAt := now, ttl } p).key = key'
    rw [Table.mem_put, hcells.entries, List.mem_cons]
    by_cases hp : p = c.fresh
    · subst hp
      simp [hfresh, eq_comm]
    · simp only [hp, false_or, Function.update_of_ne hp, Prod.mk.injEq, and_false, or_false]
      constructor
      · exact fun hrow => hrow.1
      · intro hrow
        exact ⟨hrow, fun he => hkey p hrow.1 (hrow.2.trans he)⟩
  · rcases List.mem_cons.mp hp with rfl | hp
    · exact Nat.lt_succ_self _
    · exact Nat.lt_succ_of_lt (hcells.fresh p hp)
  · rw [List.map_cons]
    refine congrArg₂ List.cons (by simp [Cache.insert]) (List.map_congr_left fun p hp => ?_)
    exact (Function.update_of_ne (hne p hp) _ _).symm

theorem Cells.update (h : c.Cells (a ++ p :: b)) (r : Response) (now : Time) (ttl : Int) :
    (c.update p r now ttl).Represents
      ({ r with key := (c.cell p).key, storedAt := now, ttl } :: (a ++ b).map c.cell) := by
  have hmoved := h.moveToHead
  have hfree := (List.nodup_cons.mp hmoved.linked.nodup).1
  have hkey : ∀ q, ((c.update p r now ttl).cell q).key = (c.cell q).key := fun q => by
    by_cases hq : q = p
    · subst hq
      simp [Cache.update]
    · simp [Cache.update, Function.update_of_ne hq]
  refine ⟨p :: (a ++ b), ⟨hmoved.linked, fun key q => ?_, hmoved.fresh⟩, ?_⟩
  · rw [hkey]
    exact hmoved.entries key q
  · rw [List.map_cons]
    refine congrArg₂ List.cons (by simp [Cache.update]) (List.map_congr_left fun q hq => ?_)
    have hqp : q ≠ p := fun he => hfree (he ▸ hq)
    exact (Function.update_of_ne hqp _ _).symm

theorem Represents.update (h : c.Represents items) (key : Bytes) (r : Response) (now : Time) (ttl : Int) :
    match c.entries.find key with
    | none => Cache.find key items = none
    | some (_, p) => Cache.find key items ≠ none ∧ (c.update p r now ttl).maxEntries = c.maxEntries ∧
        (c.update p r now ttl).Represents ({ r with key, storedAt := now, ttl } :: others key items) := by
  obtain ⟨ptrs, hcells, rfl⟩ := h
  cases hfind : c.entries.find key with
  | none => exact hcells.find_eq_none hfind
  | some row =>
    obtain ⟨key', p⟩ := row
    have hfound := hcells.find_eq hfind
    obtain ⟨rfl, a, b, rfl⟩ := hcells.find hfind
    refine ⟨by rw [hfound]; simp, rfl, ?_⟩
    rw [others, hcells.erase]
    exact hcells.update r now ttl

theorem Represents.evict (h : c.Represents items) (hpos : 1 ≤ c.maxEntries) (hlen : items.length ≤ c.maxEntries)
    (rounds : Nat) :
    ∃ c', c.evict (rounds + 1) = some (c', (makeRoom c.maxEntries items).2) ∧
      c'.Represents (makeRoom c.maxEntries items).1 ∧ c'.maxEntries = c.maxEntries := by
  unfold makeRoom Cache.evict
  by_cases hroom : items.length < c.maxEntries
  · have hfull : ¬ c.full = true := by
      rw [h.full]
      simpa using hroom
    rw [if_pos hroom, if_neg hfull]
    exact ⟨c, rfl, h, rfl⟩
  · have hfull : c.full = true := by
      rw [h.full]
      simpa using hroom
    obtain ⟨hmax, hevicted, hrest⟩ := h.evictTail
    have hroom' : c.evictTail.1.full = false := by
      rw [hrest.full, hmax, List.length_dropLast]
      exact decide_eq_false (by omega)
    have hdone : c.evictTail.1.evict rounds = some (c.evictTail.1, []) := by
      cases rounds <;> simp [Cache.evict, hroom']
    rw [if_neg hroom, if_pos hfull]
    refine ⟨c.evictTail.1, ?_, hrest, hmax⟩
    simp only [hdone, hevicted, Option.map_some, List.append_nil]

theorem Represents.put (v : Platform) (h : c.Represents items) (hpos : 1 ≤ c.maxEntries)
    (hlen : items.length ≤ c.maxEntries) (rounds : Nat) (key : Bytes) (r : Response) (now : Time) (ttl : Int) :
    ∃ c', c.put v (rounds + 1) key r now ttl =
        some (c', (store v c.maxEntries { r with key, storedAt := now, ttl } items).2) ∧
      c'.Represents (store v c.maxEntries { r with key, storedAt := now, ttl } items).1 ∧
      c'.maxEntries = c.maxEntries := by
  generalize he : ({ r with key, storedAt := now, ttl } : CacheEntry) = e
  have hr : e.toResponse = r := by rw [← he]
  have hkey : e.key = key := by rw [← he]
  unfold Cache.put
  by_cases hcache : cacheable v r
  · have hupdate := h.update key r now ttl
    rw [if_pos hcache]
    cases hfind : c.entries.find key with
    | some row =>
      rw [hfind] at hupdate
      obtain ⟨e', he'⟩ := Option.ne_none_iff_exists'.mp hupdate.1
      rw [store_of_some (hr ▸ hcache) (hkey ▸ he'), hkey, ← he]
      exact ⟨_, rfl, hupdate.2.2, hupdate.2.1⟩
    | none =>
      rw [hfind] at hupdate
      obtain ⟨c', hevict, hrest, hmax⟩ := h.evict hpos hlen rounds
      rw [store_of_none (hr ▸ hcache) (hkey ▸ hupdate), ← he]
      simp only [hevict, Option.map_some]
      refine ⟨_, rfl, hrest.insert ?_ r now ttl, hmax⟩
      exact List.find?_eq_none.mpr fun e he => List.find?_eq_none.mp hupdate e (mem_of_mem_makeRoom he)
  · rw [if_neg hcache, store_of_not_cacheable (hr ▸ hcache)]
    exact ⟨c, rfl, h, rfl⟩

/-! ## The entries of the list after an operation -/

theorem find_some {key : Bytes} (h : Cache.find key items = some e) : e ∈ items ∧ e.key = key :=
  ⟨List.mem_of_find?_eq_some h, by simpa using List.find?_some h⟩

theorem mem_others {key : Bytes} : e ∈ others key items ↔ e ∈ items ∧ e.key ≠ key := by
  simp [others]

end Cache
end EdgeFabric.CdnServer
