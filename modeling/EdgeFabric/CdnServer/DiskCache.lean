/-
The disk cache of a site: a body and a meta file for every entry, named after the
hash of its key, and an index of them in memory, which is rebuilt from the meta
files when the cache is set up on a directory. Texts go through JSON on their way
into a meta file.

All that an operation can do to the directory is to remove files (`Sub`) or to
write the entry it was given (`put_cases`); `Holds leads P` says that every entry that
can be read from the disk satisfies `P`, where a file is read under the keys that its
hash leads to: the one that it is the hash of (`Platform.names`), or any at all.
-/
import EdgeFabric.CdnServer.Cache

namespace EdgeFabric.CdnServer
open Text (bytes)

def Header.coded (v : Platform) (h : Header) : Header :=
  .ofList (h.rows.map fun f => (v.jsonText f.1, f.2.map v.jsonText))

def Utf8 (text : Bytes) : Prop := ∃ s : String, text = bytes s

structure Header.Utf8 (h : Header) : Prop where
  names : ∀ f ∈ h, CdnServer.Utf8 f.1
  lines : ∀ f ∈ h, ∀ line ∈ f.2, CdnServer.Utf8 line

theorem Utf8.jsonText {v : Platform} {text : Bytes} (h : Utf8 text) : v.jsonText text = text := by
  obtain ⟨s, rfl⟩ := h
  exact v.jsonText_utf8 s

theorem Header.Utf8.coded {v : Platform} {h : Header} (hh : h.Utf8) : h.coded v = h := by
  have hrows : h.rows.map (fun f => (v.jsonText f.1, f.2.map v.jsonText)) = h.rows := by
    refine (List.map_congr_left fun f hf => ?_).trans (List.map_id _)
    have hlines : f.2.map v.jsonText = f.2 :=
      (List.map_congr_left fun line hline => (hh.lines f hf line hline).jsonText).trans (List.map_id _)
    rw [(hh.names f hf).jsonText, hlines]
    rfl
  rw [Header.coded, hrows]
  exact Table.ofList_rows h

def Portable (key : Bytes) (r : Response) : Prop := Utf8 key ∧ r.headers.Utf8

structure DiskMetadata where
  key : Bytes
  statusCode : Int
  headers : Header
  storedAt : Time
  ttl : Int
  bodySize : Int
  deriving DecidableEq

def DiskMetadata.coded (v : Platform) (m : DiskMetadata) : DiskMetadata :=
    { m with key := v.jsonText m.key, headers := m.headers.coded v }

def DiskMetadata.entry (key body : Bytes) (m : DiskMetadata) : CacheEntry :=
  { key, body, statusCode := m.statusCode, headers := m.headers, storedAt := m.storedAt, ttl := m.ttl }

/-- The entry as `Put` leaves it on the disk. -/
def CacheEntry.spilled (v : Platform) (now : Time) (e : CacheEntry) : CacheEntry :=
  { e with headers := e.headers.coded v, storedAt := now }

/-- A copy of a response: its headers have been through JSON some number of times. -/
structure Response.Copy (v : Platform) (r r' : Response) : Prop where
  body : r'.body = r.body
  statusCode : r'.statusCode = r.statusCode
  headers : ∃ n, r'.headers = (Header.coded v)^[n] r.headers

theorem Response.Copy.refl {v : Platform} (r : Response) : r.Copy v r := ⟨rfl, rfl, 0, rfl⟩

theorem Response.Copy.spilled {v : Platform} {r : Response} {e : CacheEntry} (h : r.Copy v e.toResponse) (now : Time) :
    r.Copy v (e.spilled v now).toResponse := by
  obtain ⟨n, hn⟩ := h.headers
  refine ⟨h.body, h.statusCode, n + 1, ?_⟩
  rw [Function.iterate_succ_apply', ← hn]
  rfl

def Platform.names (v : Platform) (hash key : Bytes) : Prop := hash = v.sha256 key

/-- What is true of an entry stays true when it is moved between memory and disk. -/
structure Movable (v : Platform) (leads : Bytes → Bytes → Prop) (P : CacheEntry → Prop) : Prop where
  spill : ∀ now e, P e → ∀ key, leads (v.sha256 e.key) key → P { e.spilled v now with key }
  promote : ∀ now e, P e → P { e with storedAt := now }

theorem Platform.names_spill {v : Platform} {P : CacheEntry → Prop} {now : Time} {e : CacheEntry}
    (he : P (e.spilled v now)) (key : Bytes) (hkey : v.names (v.sha256 e.key) key) :
      P { e.spilled v now with key } := by
  obtain rfl : e.key = key := v.sha256_injective hkey
  exact he

/-- The two files of a hash. A file that is missing or cannot be read or decoded is `none`. -/
structure DiskFiles where
  hash : Bytes
  body : Option Bytes
  metadata : Option DiskMetadata
  deriving DecidableEq

structure DiskIndexEntry where
  key : Bytes
  hash : Bytes
  storedAt : Time
  size : Int
  deriving DecidableEq

structure DiskCache where
  maxBytes : Int
  usedBytes : Int
  index : Table DiskIndexEntry.key

abbrev Dir := Table DiskFiles.hash

/-- `NewDiskCache` with its `rebuildIndex`, which comes upon the files in the order `order`. -/
def newDiskCache (maxBytes : Int) (order : List DiskFiles) : DiskCache :=
  order.foldl (fun d f => match f.metadata with
    | none => d
    | some m =>
      { d with
        index := d.index.put { key := m.key, hash := f.hash, storedAt := m.storedAt, size := m.bodySize }
        usedBytes := d.usedBytes + m.bodySize })
    { maxBytes, usedBytes := 0, index := ∅ }

structure Disk where
  cache : DiskCache
  dir : Dir

/-- What the code does not determine in a call of `Put`: the orders in which the index is gone
through, how often its loop turns, and whether the files can be written. A write that
fails leaves no file. -/
structure DiskChoice where
  order : RangeOrder
  rounds : Nat
  written : Bool

namespace Disk

/-- `removeEntryLocked`. -/
def removeEntry (ie : DiskIndexEntry) (d : Disk) : Disk where
  cache := { d.cache with usedBytes := d.cache.usedBytes - ie.size, index := d.cache.index.remove ie.key }
  dir := d.dir.remove ie.hash

def remove (key : Bytes) (d : Disk) : Disk :=
  match d.cache.index.find key with
  | some ie => d.removeEntry ie
  | none => d

def get (key : Bytes) (now : Time) (d : Disk) : Disk × Option CacheEntry :=
  match d.cache.index.find key with
  | none => (d, none)
  | some ie =>
    match (d.dir.find ie.hash).bind (·.metadata) with
    | none => (d.removeEntry ie, none)
    | some m =>
      if 0 < m.ttl ∧ m.ttl < (now : Int) - m.storedAt then (d.removeEntry ie, none)
      else
        match (d.dir.find ie.hash).bind (·.body) with
        | none => (d.removeEntry ie, none)
        | some body => (d, some (m.entry key body))

/-- `evictOldestLocked`; the empty key stands for none found yet. -/
def evictOldest (order : List DiskIndexEntry) (d : Disk) : Disk :=
  let oldest := order.foldl
    (fun (oldest : Bytes × Time) ie => if oldest.1 = [] ∨ ie.storedAt < oldest.2 then (ie.key, ie.storedAt) else oldest)
    ([], 0)
  if oldest.1 = [] then d else d.remove oldest.1

/-- The eviction loop; nothing if it is not over after `rounds` rounds. -/
def evict (order : RangeOrder) (size : Int) : (rounds : Nat) → Disk → Option Disk
  | rounds, d =>
    if d.cache.maxBytes < d.cache.usedBytes + size ∧ 0 < d.cache.index.rows.length then
      match rounds with
      | 0 => none
      | rounds + 1 => evict order size rounds (d.evictOldest (order.order rounds d.cache.index.rows))
    else some d

def write (v : Platform) (key : Bytes) (r : Response) (now : Time) (ttl : Int) (d : Disk) : Disk :=
  let size : Int := r.body.length
  let hash := v.sha256 key
  let m : DiskMetadata :=
    { key, statusCode := r.statusCode, headers := r.headers, storedAt := now, ttl, bodySize := size }
  { dir := d.dir.put { hash, body := some r.body, metadata := some (m.coded v) }
    cache := { d.cache with
      index := d.cache.index.put { key, hash, storedAt := now, size }
      usedBytes := d.cache.usedBytes + size } }

def put (v : Platform) (choice : DiskChoice) (key : Bytes) (r : Response) (now : Time) (ttl : Int) (d : Disk) :
    Option Disk :=
  if cacheable v r then
    ((d.remove key).evict choice.order r.body.length choice.rounds).map fun d =>
      if choice.written then d.write v key r now ttl else d
  else some d

def purge (d : Disk) : Disk where
  cache := { d.cache with usedBytes := 0, index := ∅ }
  dir := d.dir.filter fun f => ∀ ie ∈ d.cache.index, ie.hash ≠ f.hash

/-! ## What the operations do -/

/-- What is on the disk was there before. -/
structure Sub (d' d : Disk) : Prop where
  dir : ∀ f ∈ d'.dir, f ∈ d.dir
  index : ∀ ie ∈ d'.cache.index, ie ∈ d.cache.index

variable {d d' d'' : Disk} {v : Platform} {P : CacheEntry → Prop}

theorem Sub.refl : d.Sub d := ⟨fun _ h => h, fun _ h => h⟩

theorem Sub.trans (h : d''.Sub d') (h' : d'.Sub d) : d''.Sub d :=
  ⟨fun f hf => h'.dir f (h.dir f hf), fun ie hie => h'.index ie (h.index ie hie)⟩

theorem removeEntry_sub (ie : DiskIndexEntry) : (d.removeEntry ie).Sub d :=
  ⟨fun _ hf => (Table.mem_remove.mp hf).1, fun _ hie => (Table.mem_remove.mp hie).1⟩

theorem remove_sub (key : Bytes) : (d.remove key).Sub d := by
  unfold remove
  split
  · exact removeEntry_sub _
  · exact .refl

theorem evictOldest_sub (order : List DiskIndexEntry) : (d.evictOldest order).Sub d := by
  unfold evictOldest
  dsimp only
  split
  · exact .refl
  · exact remove_sub _

theorem evict_sub {order : RangeOrder} {size : Int} {rounds : Nat} (h : d.evict order size rounds = some d') :
    d'.Sub d := by
  induction rounds generalizing d with
  | zero =>
    unfold evict at h
    split at h
    · cases h
    · cases h
      exact .refl
  | succ rounds ih =>
    unfold evict at h
    split at h
    · exact (ih h).trans (evictOldest_sub _)
    · cases h
      exact .refl

theorem get_sub (key : Bytes) (now : Time) : (d.get key now).1.Sub d := by
  unfold get
  split
  · exact .refl
  · split
    · exact removeEntry_sub _
    · split
      · exact removeEntry_sub _
      · split
        · exact removeEntry_sub _
        · exact .refl

theorem put_cases {choice : DiskChoice} {key : Bytes} {r : Response} {now : Time} {ttl : Int}
    (h : d.put v choice key r now ttl = some d') : d'.Sub d ∨ ∃ d₁ : Disk, d₁.Sub d ∧
      d' = d₁.write v key r now ttl := by
  unfold put at h
  split at h
  · obtain ⟨d₁, hevict, rfl⟩ := Option.map_eq_some_iff.mp h
    have hsub := (evict_sub hevict).trans (remove_sub key)
    by_cases hwritten : choice.written
    · rw [if_pos hwritten]
      exact .inr ⟨d₁, hsub, rfl⟩
    · rw [if_neg hwritten]
      exact .inl hsub
  · cases h
    exact .inl .refl

theorem mem_newDiskCache {maxBytes : Int} {order : List DiskFiles} {ie : DiskIndexEntry}
    (h : ie ∈ (newDiskCache maxBytes order).index) :
    ∃ f ∈ order, ∃ m, f.metadata = some m ∧
      ie = { key := m.key, hash := f.hash, storedAt := m.storedAt, size := m.bodySize } := by
  unfold newDiskCache at h
  revert h
  refine List.foldl_visited (I := fun (seen : List DiskFiles) (d : DiskCache) => ie ∈ d.index →
    ∃ f ∈ seen, ∃ m, f.metadata = some m ∧
      ie = { key := m.key, hash := f.hash, storedAt := m.storedAt, size := m.bodySize })
    (fun h => absurd h Table.not_mem_empty) fun seen f rest d _ ih h => ?_
  have hseen : ie ∈ d.index → ∃ f' ∈ seen ++ [f], ∃ m, f'.metadata = some m ∧
      ie = { key := m.key, hash := f'.hash, storedAt := m.storedAt, size := m.bodySize } := fun h => by
    obtain ⟨f', hf', hm⟩ := ih h
    exact ⟨f', List.mem_append_left _ hf', hm⟩
  split at h
  · exact hseen h
  · next m hm =>
    rcases Table.mem_put.mp h with h | rfl
    · exact hseen h.1
    · exact ⟨f, by simp, m, hm, rfl⟩

/-- Every entry that can be read from the disk satisfies `P`, and the index leads to it. -/
structure Holds (leads : Bytes → Bytes → Prop) (P : CacheEntry → Prop) (d : Disk) : Prop where
  index : ∀ ie ∈ d.cache.index, leads ie.hash ie.key
  files : ∀ f ∈ d.dir, ∀ key body m, leads f.hash key → f.body = some body → f.metadata = some m → P (m.entry key body)

variable {leads : Bytes → Bytes → Prop}

theorem Holds.sub (h : d.Holds leads P) (hsub : d'.Sub d) : d'.Holds leads P :=
  ⟨fun ie hie => h.index ie (hsub.index ie hie), fun f hf => h.files f (hsub.dir f hf)⟩

theorem Holds.mono {Q : CacheEntry → Prop} (h : d.Holds leads P)
    (hPQ : ∀ f ∈ d.dir, ∀ key body (m : DiskMetadata), leads f.hash key → P (m.entry key body) → Q (m.entry key body)) :
    d.Holds leads Q :=
  ⟨h.index, fun f hf key body m hhash hbody hm => hPQ f hf key body m hhash (h.files f hf key body m hhash hbody hm)⟩

theorem Holds.get (h : d.Holds leads P) {key : Bytes} {now : Time} {e : CacheEntry}
    (hget : (d.get key now).2 = some e) : P e ∧ e.key = key ∧ ¬ e.expired now = true := by
  unfold Disk.get at hget
  split at hget
  · cases hget
  · next ie hie =>
    obtain ⟨hmem, rfl⟩ := Table.find_eq_some.mp hie
    split at hget
    · cases hget
    · next m hm =>
      split at hget
      · cases hget
      · next hlive =>
        split at hget
        · cases hget
        · next body hbody =>
          obtain ⟨f, hf, hfm⟩ := Option.bind_eq_some_iff.mp hm
          obtain ⟨f', hf', hfbody⟩ := Option.bind_eq_some_iff.mp hbody
          obtain rfl : f = f' := Option.some.inj (hf.symm.trans hf')
          obtain ⟨hfile, hhash⟩ := Table.find_eq_some.mp hf
          cases hget
          exact ⟨h.files f hfile _ _ _ (hhash ▸ h.index ie hmem) hfbody hfm, rfl,
            fun hexp => hlive (of_decide_eq_true hexp)⟩

theorem Holds.write (h : d.Holds leads P) {e : CacheEntry} {now : Time} (hleads : leads (v.sha256 e.key) e.key)
    (he : ∀ key, leads (v.sha256 e.key) key → P { e.spilled v now with key }) :
    (d.write v e.key e.toResponse now e.ttl).Holds leads P := by
  constructor
  · intro ie hie
    rcases Table.mem_put.mp hie with hie | rfl
    · exact h.index ie hie.1
    · exact hleads
  · intro f hf key body m hhash hbody hm
    rcases Table.mem_put.mp hf with hf | rfl
    · exact h.files f hf.1 key body m hhash hbody hm
    · cases hbody
      cases hm
      exact he key hhash

theorem Holds.put (h : d.Holds leads P) {choice : DiskChoice} {e : CacheEntry} {now : Time}
    (hleads : leads (v.sha256 e.key) e.key) (he : ∀ key, leads (v.sha256 e.key) key → P { e.spilled v now with key })
    (hput : d.put v choice e.key e.toResponse now e.ttl = some d') : d'.Holds leads P := by
  rcases put_cases hput with hsub | ⟨d₁, hsub, rfl⟩
  · exact h.sub hsub
  · exact (h.sub hsub).write hleads he

theorem Holds.rebuild (h : d.Holds leads P) {maxBytes : Int} {order : RangeOrder}
    (hnamed : ∀ f ∈ d.dir, ∀ m, f.metadata = some m → leads f.hash m.key) :
    Disk.Holds leads P { cache := newDiskCache maxBytes (order.order 0 d.dir.rows), dir := d.dir } := by
  refine ⟨fun ie hie => ?_, h.files⟩
  obtain ⟨f, hf, m, hm, rfl⟩ := mem_newDiskCache hie
  exact hnamed f (RangeOrder.mem_order.mp hf) m hm

end Disk

namespace Sample

def choice : DiskChoice := { order := .asStored, rounds := 0, written := true }

def page (b : UInt8) : Response := { body := [b], statusCode := 200, headers := ∅ }

theorem utf8_a : Utf8 [97] := ⟨"a", by decide⟩

theorem utf8_b : Utf8 [98] := ⟨"b", by decide⟩

theorem utf8_page (b : UInt8) : (page b).headers.Utf8 :=
  ⟨fun _ hf => absurd hf Table.not_mem_empty, fun _ hf => absurd hf Table.not_mem_empty⟩

end Sample
end EdgeFabric.CdnServer
