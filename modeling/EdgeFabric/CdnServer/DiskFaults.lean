/-
The disk cache on a file system whose operations fail. A file may stay although it was to
be removed, and a write may fail without touching the file, with the file lost, or with a
part of it written; a part of a meta file cannot be decoded. Nothing of this is reported to
the caller of the cache.

The index is faithful as long as JSON keeps the keys, no body is left in part and a body is
cleaned up behind a meta file that could not be replaced (`index_faithful`). Otherwise a
response is found under another key, the used bytes are counted twice, and a body is served
with the head of another response (`index_unfaithful`).
-/
import EdgeFabric.CdnServer.DiskCache
import EdgeFabric.Lib.Machine
import EdgeFabric.Lib.Tally

namespace EdgeFabric.CdnServer
open Text (bytes)

/-! ## Files -/

/-- Whether `os.Remove` works on the two files of an entry. -/
structure Removal where
  body : Bool
  metadata : Bool
  deriving DecidableEq

inductive Write where
  | done | untouched | lost | torn (left : Bytes)
  deriving DecidableEq

def Write.body (old : Option Bytes) (new : Bytes) : Write → Option Bytes
  | .done => some new
  | .untouched => old
  | .lost => none
  | .torn left => some left

def Write.metadata (old : Option DiskMetadata) (new : DiskMetadata) : Write → Option DiskMetadata
  | .done => some new
  | .untouched => old
  | .lost | .torn _ => none

/-- What the file system does in a call of `Put`. -/
structure FileFaults where
  /-- for the entry of the key -/
  replaced : Removal
  /-- for the entry that is evicted with that many rounds to go -/
  evicted : Nat → Removal
  mkdir : Bool
  body : Write
  metadata : Write
  /-- for the body, if the meta file could not be written -/
  cleanup : Bool

/-- `removeFilesLocked`. -/
def removeFiles (x : Removal) (hash : Bytes) (dir : Dir) : Dir :=
  if x.body ∧ x.metadata then dir.remove hash
  else
    match dir.find hash with
    | none => dir
    | some f =>
      dir.put { f with body := if x.body then none else f.body, metadata := if x.metadata then none else f.metadata }

namespace Disk

/-- `removeEntryLocked`. -/
def removeEntryWith (x : Removal) (ie : DiskIndexEntry) (d : Disk) : Disk where
  cache := { d.cache with usedBytes := d.cache.usedBytes - ie.size, index := d.cache.index.remove ie.key }
  dir := removeFiles x ie.hash d.dir

def removeWith (x : Removal) (key : Bytes) (d : Disk) : Disk :=
  match d.cache.index.find key with
  | some ie => d.removeEntryWith x ie
  | none => d

/-- `Get`, with what can be read. -/
def getWith (readMetadata readBody : Bool) (x : Removal) (key : Bytes) (now : Time) (d : Disk) :
    Disk × Option CacheEntry :=
  match d.cache.index.find key with
  | none => (d, none)
  | some ie =>
    match if readMetadata then (d.dir.find ie.hash).bind (·.metadata) else none with
    | none => (d.removeEntryWith x ie, none)
    | some m =>
      if 0 < m.ttl ∧ m.ttl < (now : Int) - m.storedAt then (d.removeEntryWith x ie, none)
      else
        match if readBody then (d.dir.find ie.hash).bind (·.body) else none with
        | none => (d.removeEntryWith x ie, none)
        | some body => (d, some (m.entry key body))

/-- The key that `evictOldestLocked` finds; the empty one stands for none. -/
def oldestKey (order : List DiskIndexEntry) : Bytes :=
  (order.foldl
    (fun (oldest : Bytes × Time) ie => if oldest.1 = [] ∨ ie.storedAt < oldest.2 then (ie.key, ie.storedAt) else oldest)
    ([], 0)).1

def evictOldestWith (x : Removal) (order : List DiskIndexEntry) (d : Disk) : Disk :=
  if oldestKey order = [] then d else d.removeWith x (oldestKey order)

/-- The eviction loop; nothing if it is not over after `rounds` rounds. -/
def evictWith (order : RangeOrder) (x : Nat → Removal) (size : Int) : (rounds : Nat) → Disk → Option Disk
  | rounds, d =>
    if d.cache.maxBytes < d.cache.usedBytes + size ∧ 0 < d.cache.index.rows.length then
      match rounds with
      | 0 => none
      | rounds + 1 =>
        evictWith order x size rounds (d.evictOldestWith (x rounds) (order.order rounds d.cache.index.rows))
    else some d

/-- The files are written, and the entry is indexed if both could be. -/
def writeWith (v : Platform) (x : FileFaults) (key : Bytes) (r : Response) (now : Time) (ttl : Int) (d : Disk) : Disk :=
  if x.mkdir then
    let hash := v.sha256 key
    let old := (d.dir.find hash).bind (·.metadata)
    let m : DiskMetadata :=
      { key, statusCode := r.statusCode, headers := r.headers, storedAt := now, ttl, bodySize := r.body.length }
    match x.body, x.metadata with
    | .done, .done => d.write v key r now ttl
    | .done, w =>
      { d with
        dir := d.dir.put
          { hash, body := if x.cleanup then none else some r.body, metadata := w.metadata old (m.coded v) } }
    | w, _ =>
      { d with
        dir := d.dir.put { hash, body := w.body ((d.dir.find hash).bind (·.body)) r.body, metadata := old } }
  else d

def putWith (v : Platform) (order : RangeOrder) (rounds : Nat) (x : FileFaults) (key : Bytes)
    (r : Response) (now : Time) (ttl : Int) (d : Disk) : Option Disk :=
  if cacheable v r then
    ((d.removeWith x.replaced key).evictWith order x.evicted r.body.length rounds).map (writeWith v x key r now ttl)
  else some d

def purgeWith (x : Bytes → Removal) (d : Disk) : Disk where
  cache := { d.cache with usedBytes := 0, index := ∅ }
  dir := d.cache.index.rows.foldl (fun dir ie => removeFiles (x ie.hash) ie.hash dir) d.dir

/-- `NewDiskCache` on the directory, with what can be read. -/
def restart (maxBytes : Int) (order : RangeOrder) (readable : Bytes → Bool) (d : Disk) : Disk :=
  { d with cache := newDiskCache maxBytes ((order.order 0 d.dir.rows).filter fun f => readable f.hash) }

end Disk

/-! ### Without failures -/

def FileFaults.none : FileFaults :=
  { replaced := ⟨true, true⟩, evicted := fun _ => ⟨true, true⟩, mkdir := true, body := .done, metadata := .done
    cleanup := true }

namespace Disk
variable {d : Disk}

theorem removeWith_none (key : Bytes) : d.removeWith ⟨true, true⟩ key = d.remove key := rfl

theorem evictOldestWith_none (order : List DiskIndexEntry) :
    d.evictOldestWith ⟨true, true⟩ order = d.evictOldest order := rfl

theorem evictWith_none {order : RangeOrder} {size : Int} {rounds : Nat} :
    d.evictWith order (fun _ => ⟨true, true⟩) size rounds = d.evict order size rounds := by
  induction rounds generalizing d with
  | zero => rw [evictWith.eq_def, evict.eq_def]
  | succ rounds ih =>
    rw [evictWith.eq_def, evict.eq_def]
    dsimp only
    rw [ih, evictOldestWith_none]

theorem getWith_none (key : Bytes) (now : Time) : d.getWith true true ⟨true, true⟩ key now = d.get key now := rfl

/-- The cache that never fails is this one where nothing does. -/
theorem putWith_none (v : Platform) (order : RangeOrder) (rounds : Nat) (key : Bytes) (r : Response) (now : Time)
    (ttl : Int) :
    d.putWith v order rounds .none key r now ttl = d.put v { order, rounds, written := true } key r now ttl := by
  unfold putWith put
  rw [show FileFaults.none.evicted = fun _ => ⟨true, true⟩ from rfl, evictWith_none,
    show FileFaults.none.replaced = ⟨true, true⟩ from rfl, removeWith_none]
  rfl

end Disk

/-! ## Runs -/

structure DiskRun where
  disk : Disk
  stored : List CacheEntry

inductive DiskMove where
  | put (key : Bytes) (r : Response) (now : Time) (ttl : Int) (order : RangeOrder) (rounds : Nat) (x : FileFaults)
  | get (key : Bytes) (now : Time) (readMetadata readBody : Bool) (x : Removal)
  | purge (x : Bytes → Removal)
  | restart (maxBytes : Int) (order : RangeOrder) (readable : Bytes → Bool)

def FileFaults.Written (x : FileFaults) : Prop := x.mkdir = true ∧ x.body = .done ∧ x.metadata = .done

instance (x : FileFaults) : Decidable x.Written := inferInstanceAs (Decidable (_ ∧ _ ∧ _))

/-- The entry that `Put` makes. -/
def Response.stored (key : Bytes) (now : Time) (ttl : Int) (r : Response) : CacheEntry :=
  { r with key, storedAt := now, ttl }

def DiskMove.step (v : Platform) (m : DiskMove) (s : DiskRun) : Option DiskRun :=
  match m with
  | .put key r now ttl order rounds x =>
    (s.disk.putWith v order rounds x key r now ttl).map fun disk =>
      { disk, stored := if cacheable v r ∧ x.Written then s.stored ++ [r.stored key now ttl] else s.stored }
  | .get key now readMetadata readBody x => some { s with disk := (s.disk.getWith readMetadata readBody x key now).1 }
  | .purge x => some { s with disk := s.disk.purgeWith x }
  | .restart maxBytes order readable => some { s with disk := s.disk.restart maxBytes order readable }

def DiskRun.start (maxBytes : Int) (order : RangeOrder) (readable : Bytes → Bool) (dir : Dir) : DiskRun where
  disk := Disk.restart maxBytes order readable { cache := { maxBytes, usedBytes := 0, index := ∅ }, dir }
  stored := []

/-! ## What is left of the files -/

/-- No file of `dir'` has more in it than in `dir`. -/
def Dir.Fades (dir' dir : Dir) : Prop :=
  ∀ f' ∈ dir', ∃ f ∈ dir, f'.hash = f.hash ∧ (∀ m, f'.metadata = some m → f.metadata = some m) ∧
    ∀ body, f'.body = some body → f.body = some body

section
variable {v : Platform} {dir dir' dir'' : Dir} {stored stored' : List CacheEntry}

theorem Dir.Fades.refl : dir.Fades dir := fun f hf => ⟨f, hf, rfl, fun _ h => h, fun _ h => h⟩

theorem Dir.Fades.trans (h : dir''.Fades dir') (h' : dir'.Fades dir) : dir''.Fades dir := by
  intro f'' hf''
  obtain ⟨f', hf', hhash, hm, hbody⟩ := h f'' hf''
  obtain ⟨f, hf, hhash', hm', hbody'⟩ := h' f' hf'
  exact ⟨f, hf, hhash.trans hhash', fun m h => hm' m (hm m h), fun b h => hbody' b (hbody b h)⟩

theorem removeFiles_fades (x : Removal) (hash : Bytes) : Dir.Fades (removeFiles x hash dir) dir := by
  unfold removeFiles
  split
  · exact fun f hf => ⟨f, (Table.mem_remove.mp hf).1, rfl, fun _ h => h, fun _ h => h⟩
  · split
    · exact .refl
    · next f hf =>
      intro f' hf'
      rcases Table.mem_put.mp hf' with hf' | rfl
      · exact ⟨f', hf'.1, rfl, fun _ h => h, fun _ h => h⟩
      · refine ⟨f, (Table.find_eq_some.mp hf).1, rfl, fun m hm => ?_, fun b hb => ?_⟩
        · exact (Option.ite_none_left_eq_some.mp hm).2
        · exact (Option.ite_none_left_eq_some.mp hb).2

theorem Dir.Fades.metadata_none (h : dir'.Fades dir) {hash : Bytes} (hdir : (dir.find hash).bind (·.metadata) = none) :
    (dir'.find hash).bind (·.metadata) = none := by
  refine Option.eq_none_iff_forall_ne_some.mpr fun m hm => ?_
  obtain ⟨f', hf', hfm⟩ := Option.bind_eq_some_iff.mp hm
  obtain ⟨hmem, rfl⟩ := Table.find_eq_some.mp hf'
  obtain ⟨f, hf, hhash, hmeta, -⟩ := h f' hmem
  have hfind : dir.find f'.hash = some f := Table.find_eq_some.mpr ⟨hf, hhash.symm⟩
  rw [hfind] at hdir
  cases hdir.symm.trans (hmeta m hfm)

/-- A body and a meta file that stand together are of one entry that was stored, and have the
name of its key. -/
structure Dir.Kept (v : Platform) (stored : List CacheEntry) (dir : Dir) : Prop where
  names : ∀ f ∈ dir, ∀ m, f.metadata = some m → f.hash = v.sha256 m.key
  files : ∀ f ∈ dir, ∀ m body, f.metadata = some m → f.body = some body → m.entry m.key body ∈ stored

theorem Dir.Kept.fades (h : dir.Kept v stored) (hdir : dir'.Fades dir) : dir'.Kept v stored := by
  refine ⟨fun f' hf' m hm => ?_, fun f' hf' m body hm hbody => ?_⟩
  · obtain ⟨f, hf, hhash, hmeta, -⟩ := hdir f' hf'
    exact hhash.trans (h.names f hf m (hmeta m hm))
  · obtain ⟨f, hf, -, hmeta, hbodies⟩ := hdir f' hf'
    exact h.files f hf m body (hmeta m hm) (hbodies body hbody)

theorem Dir.Kept.mono (h : dir.Kept v stored) (hsub : ∀ e ∈ stored, e ∈ stored') : dir.Kept v stored' :=
  ⟨h.names, fun f hf m body hm hbody => hsub _ (h.files f hf m body hm hbody)⟩

theorem Dir.Kept.put (h : dir.Kept v stored) {f : DiskFiles}
    (hname : ∀ m, f.metadata = some m → f.hash = v.sha256 m.key)
    (hf : ∀ m body, f.metadata = some m → f.body = some body → m.entry m.key body ∈ stored) :
    Dir.Kept v stored (dir.put f) := by
  refine ⟨fun f' hf' => ?_, fun f' hf' => ?_⟩
  · rcases Table.mem_put.mp hf' with hf' | rfl
    · exact h.names f' hf'.1
    · exact hname
  · rcases Table.mem_put.mp hf' with hf' | rfl
    · exact h.files f' hf'.1
    · exact hf

theorem Dir.Kept.find (h : dir.Kept v stored) {hash : Bytes} {m : DiskMetadata}
    (hm : (dir.find hash).bind (·.metadata) = some m) :
    hash = v.sha256 m.key ∧
      ∀ body, (dir.find hash).bind (·.body) = some body → m.entry m.key body ∈ stored := by
  obtain ⟨f, hf, hfm⟩ := Option.bind_eq_some_iff.mp hm
  obtain ⟨hmem, rfl⟩ := Table.find_eq_some.mp hf
  refine ⟨h.names f hmem m hfm, fun body hbody => ?_⟩
  rw [hf] at hbody
  exact h.files f hmem m body hfm hbody

end

/-! ## The index -/

/-- The index leads to the hashes of its keys, and its sizes are counted. -/
structure DiskCache.Tallied (v : Platform) (c : DiskCache) : Prop where
  index : ∀ ie ∈ c.index, ie.hash = v.sha256 ie.key
  used : c.usedBytes = c.index.tally (·.size)

theorem newDiskCache_tallied {v : Platform} {maxBytes : Int} {order : List DiskFiles}
    (hnodup : (order.map (·.hash)).Nodup) (hnames : ∀ f ∈ order, ∀ m, f.metadata = some m → f.hash = v.sha256 m.key) :
    (newDiskCache maxBytes order).Tallied v := by
  -- every entry made so far has the hash of a file that was visited
  suffices h : (newDiskCache maxBytes order).Tallied v ∧
      ∀ ie ∈ (newDiskCache maxBytes order).index, ∃ f ∈ order, f.hash = ie.hash from h.1
  unfold newDiskCache
  refine List.foldl_visited (I := fun (seen : List DiskFiles) (c : DiskCache) =>
    c.Tallied v ∧ ∀ ie ∈ c.index, ∃ f ∈ seen, f.hash = ie.hash)
    ⟨⟨fun _ h => absurd h Table.not_mem_empty, rfl⟩, fun _ h => absurd h Table.not_mem_empty⟩
    fun seen f rest c horder ih => ?_
  obtain ⟨hc, hseen⟩ := ih
  have hseen' : ∀ ie ∈ c.index, ∃ f' ∈ seen ++ [f], f'.hash = ie.hash := fun ie hie => by
    obtain ⟨f', hf', hhash⟩ := hseen ie hie
    exact ⟨f', List.mem_append_left _ hf', hhash⟩
  cases hm : f.metadata with
  | none => exact ⟨hc, hseen'⟩
  | some m =>
    have hname : f.hash = v.sha256 m.key := hnames f (by simp [horder]) m hm
    have hfresh : ∀ ie ∈ c.index, ie.key ≠ m.key := fun ie hie hkey => by
      obtain ⟨f', hf', hhash⟩ := hseen ie hie
      rw [horder, List.map_append, List.nodup_append] at hnodup
      refine hnodup.2.2 _ (List.mem_map_of_mem hf') f.hash (by simp) ?_
      rw [hhash, hc.index ie hie, hkey, hname]
    refine ⟨⟨fun ie hie => ?_, ?_⟩, fun ie hie => ?_⟩
    · rcases Table.mem_put.mp hie with hie | rfl
      · exact hc.index ie hie.1
      · exact hname
    · exact ((Table.tally_put _ hfresh).trans (by rw [hc.used])).symm
    · rcases Table.mem_put.mp hie with hie | rfl
      · exact hseen' ie hie.1
      · exact ⟨f, by simp, rfl⟩

namespace Disk
variable {v : Platform} {d d' : Disk} {x : Removal} {key : Bytes} {stored : List CacheEntry}

/-- What removing entries leaves: fewer files, fewer entries of the index, and they are counted. -/
structure Trims (v : Platform) (d' d : Disk) : Prop where
  dir : d'.dir.Fades d.dir
  index : ∀ ie ∈ d'.cache.index, ie ∈ d.cache.index
  tallied : d.cache.Tallied v → d'.cache.Tallied v

theorem Trims.refl : Trims v d d := ⟨.refl, fun _ h => h, fun h => h⟩

theorem Trims.trans {d'' : Disk} (h : Trims v d'' d') (h' : Trims v d' d) : Trims v d'' d :=
  ⟨h.dir.trans h'.dir, fun ie hie => h'.index ie (h.index ie hie), fun ht => h.tallied (h'.tallied ht)⟩

theorem removeEntryWith_trims {ie : DiskIndexEntry} (hie : ie ∈ d.cache.index) :
    Trims v (d.removeEntryWith x ie) d := by
  refine ⟨removeFiles_fades x ie.hash, fun _ h => (Table.mem_remove.mp h).1, fun ht => ⟨fun ie' h => ?_, ?_⟩⟩
  · exact ht.index ie' (Table.mem_remove.mp h).1
  · show d.cache.usedBytes - ie.size = _
    rw [ht.used]
    exact (Table.tally_remove (·.size) hie).symm

theorem removeWith_trims : Trims v (d.removeWith x key) d := by
  unfold removeWith
  split
  · next ie hie => exact removeEntryWith_trims (Table.find_eq_some.mp hie).1
  · exact .refl

theorem removeWith_fresh : ∀ ie ∈ (d.removeWith x key).cache.index, ie.key ≠ key := by
  unfold removeWith
  split
  · next ie hie =>
    intro ie' h
    rw [← (Table.find_eq_some.mp hie).2]
    exact (Table.mem_remove.mp h).2
  · next hnone => exact fun ie h hkey => Table.find_eq_none.mp hnone ie h hkey

theorem evictOldestWith_trims {order : List DiskIndexEntry} : Trims v (d.evictOldestWith x order) d := by
  unfold evictOldestWith
  split
  · exact .refl
  · exact removeWith_trims

theorem evictWith_trims {order : RangeOrder} {x : Nat → Removal} {size : Int} {rounds : Nat}
    (h : d.evictWith order x size rounds = some d') : Trims v d' d := by
  induction rounds generalizing d with
  | zero =>
    unfold evictWith at h
    split at h
    · cases h
    · cases h
      exact .refl
  | succ rounds ih =>
    unfold evictWith at h
    split at h
    · exact (ih h).trans evictOldestWith_trims
    · cases h
      exact .refl

theorem getWith_trims {readMetadata readBody : Bool} {now : Time} :
    Trims v (d.getWith readMetadata readBody x key now).1 d := by
  unfold getWith
  split
  · exact .refl
  · next ie hie =>
    have hremoved : Trims v (d.removeEntryWith x ie) d := removeEntryWith_trims (Table.find_eq_some.mp hie).1
    split
    · exact hremoved
    · split
      · exact hremoved
      · split
        · exact hremoved
        · exact .refl

theorem purgeWith_fades (x : Bytes → Removal) : (d.purgeWith x).dir.Fades d.dir := by
  unfold purgeWith
  dsimp only
  refine List.foldl_visited (I := fun (_ : List DiskIndexEntry) (dir : Dir) => dir.Fades d.dir) .refl
    fun _ ie _ dir _ ih => ?_
  exact (removeFiles_fades (x ie.hash) ie.hash).trans ih

/-- The directory holds entries that were stored, and the index is counted. -/
structure Faithful (v : Platform) (stored : List CacheEntry) (d : Disk) : Prop where
  kept : d.dir.Kept v stored
  tallied : d.cache.Tallied v

theorem Faithful.trims (h : d.Faithful v stored) (hd : Trims v d' d) : d'.Faithful v stored :=
  ⟨h.kept.fades hd.dir, hd.tallied h.tallied⟩

theorem Faithful.purgeWith (h : d.Faithful v stored) (x : Bytes → Removal) : (d.purgeWith x).Faithful v stored :=
  ⟨h.kept.fades (purgeWith_fades x), fun _ hie => absurd hie Table.not_mem_empty, rfl⟩

theorem Faithful.restart (h : d.Faithful v stored) (maxBytes : Int) (order : RangeOrder) (readable : Bytes → Bool) :
    (d.restart maxBytes order readable).Faithful v stored := by
  refine ⟨h.kept, newDiskCache_tallied ?_ fun f hf => ?_⟩
  · have hnodup : ((order.order 0 d.dir.rows).map (·.hash)).Nodup :=
      ((order.perm 0 d.dir.rows).map _).nodup_iff.mpr d.dir.nodup
    exact hnodup.sublist (List.filter_sublist.map _)
  · exact h.kept.names f (RangeOrder.mem_order.mp (List.mem_of_mem_filter hf))

theorem Faithful.getWith (h : d.Faithful v stored) {readMetadata readBody : Bool} {now : Time} {e : CacheEntry}
    (he : (d.getWith readMetadata readBody x key now).2 = some e) : e.key = key ∧ e ∈ stored := by
  unfold Disk.getWith at he
  split at he
  · cases he
  · next ie hie =>
    obtain ⟨hmem, hkey⟩ := Table.find_eq_some.mp hie
    split at he
    · cases he
    · next m hm =>
      split at he
      · cases he
      · split at he
        · cases he
        · next body hbody =>
          cases he
          obtain ⟨hname, hfiles⟩ := h.kept.find (Option.ite_none_right_eq_some.mp hm).2
          have hmkey : m.key = key :=
            v.sha256_injective (hname.symm.trans ((h.tallied.index ie hmem).trans (congrArg v.sha256 hkey)))
          refine ⟨rfl, ?_⟩
          rw [← hmkey]
          exact hfiles body (Option.ite_none_right_eq_some.mp hbody).2

end Disk

/-! ### Put -/

/-- The write can leave a body that does not belong to the meta file beside it. -/
def FileFaults.Splits (x : FileFaults) : Prop :=
  (∃ left, x.body = .torn left) ∨ x.body = .done ∧ x.metadata = .untouched ∧ x.cleanup = false

theorem DiskMetadata.coded_eq {v : Platform} {m : DiskMetadata} (hkey : Utf8 m.key) (hheaders : m.headers.Utf8) :
    m.coded v = m := by
  rw [DiskMetadata.coded, hkey.jsonText, hheaders.coded]

namespace Disk
variable {v : Platform} {d d' : Disk} {x : FileFaults} {key : Bytes} {r : Response} {now : Time} {ttl : Int}
  {stored : List CacheEntry}

theorem tallied_write (h : d.cache.Tallied v) (hfresh : ∀ ie ∈ d.cache.index, ie.key ≠ key) :
    (d.write v key r now ttl).cache.Tallied v := by
  refine ⟨fun ie hie => ?_, ?_⟩
  · rcases Table.mem_put.mp hie with hie | rfl
    · exact h.index ie hie.1
    · rfl
  · refine Eq.symm ((Table.tally_put _ hfresh).trans ?_)
    rw [← h.used]
    rfl

theorem Faithful.write (h : d.Faithful v stored) (hp : Portable key r) (hfresh : ∀ ie ∈ d.cache.index, ie.key ≠ key) :
    (d.write v key r now ttl).Faithful v (stored ++ [r.stored key now ttl]) := by
  constructor
  · refine (h.kept.mono fun e he => List.mem_append_left _ he).put (fun m hm => ?_) fun m body hm hbody => ?_
    all_goals
      cases hm
      rw [DiskMetadata.coded_eq hp.1 hp.2]
    cases hbody
    exact List.mem_append_right _ (List.mem_singleton.mpr rfl)
  · exact tallied_write h.tallied hfresh

/-- The files have the meta file that was there before or none, and with `whole` also the body that
was there or none. -/
def Leftover (d : Disk) (whole : Prop) (f : DiskFiles) : Prop :=
  ∀ m, f.metadata = some m → (d.dir.find f.hash).bind (·.metadata) = some m ∧
    (whole → ∀ body, f.body = some body → (d.dir.find f.hash).bind (·.body) = some body)

theorem writeWith_written (hw : x.Written) : d.writeWith v x key r now ttl = d.write v key r now ttl := by
  obtain ⟨hmkdir, hbody, hmeta⟩ := hw
  simp only [writeWith, hmkdir, hbody, hmeta, if_true]

theorem writeWith_unwritten (v : Platform) (key : Bytes) (r : Response) (now : Time) (ttl : Int) (hw : ¬ x.Written) :
    d.writeWith v x key r now ttl = d ∨
      ∃ f, d.Leftover (x.Splits → (d.dir.find (v.sha256 key)).bind (·.metadata) = none) f ∧
        d.writeWith v x key r now ttl = { d with dir := d.dir.put f } := by
  by_cases hmkdir : x.mkdir = true
  swap
  · exact .inl (by rw [writeWith, if_neg hmkdir])
  rw [writeWith, if_pos hmkdir]
  refine .inr ?_
  cases hbody : x.body with
  | untouched =>
    refine ⟨_, ?_, rfl⟩
    exact fun m hm => ⟨hm, fun _ _ hb => hb⟩
  | lost =>
    refine ⟨_, ?_, rfl⟩
    exact fun m hm => ⟨hm, fun _ => nofun⟩
  | torn left =>
    refine ⟨_, fun m hm => ⟨hm, fun hsplits => ?_⟩, rfl⟩
    cases (hsplits (.inl ⟨left, hbody⟩)).symm.trans hm
  | done =>
    cases hmeta : x.metadata with
    | done => exact absurd ⟨hmkdir, hbody, hmeta⟩ hw
    | lost =>
      refine ⟨_, ?_, rfl⟩
      exact nofun
    | torn left =>
      refine ⟨_, ?_, rfl⟩
      exact nofun
    | untouched =>
      refine ⟨_, fun m hm => ⟨hm, fun hsplits body hb => ?_⟩, rfl⟩
      -- the new body stands beside the old meta file, so there must be none
      obtain ⟨hcleanup, -⟩ := Option.ite_none_left_eq_some.mp hb
      have hnone := hsplits (.inr ⟨hbody, hmeta, Bool.eq_false_iff.mpr hcleanup⟩)
      cases hnone.symm.trans hm

theorem Faithful.leftover (h : d.Faithful v stored) {whole : Prop} {f : DiskFiles} (hf : d.Leftover whole f)
    (hwhole : whole) : Faithful v stored { d with dir := d.dir.put f } := by
  refine ⟨h.kept.put (fun m hm => ?_) fun m body hm hbody => ?_, h.tallied⟩
  · exact (h.kept.find (hf m hm).1).1
  · exact (h.kept.find (hf m hm).1).2 body ((hf m hm).2 hwhole body hbody)

theorem Faithful.writeWith (h : d.Faithful v stored) (hp : Portable key r) (hfresh : ∀ ie ∈ d.cache.index, ie.key ≠ key)
    (hsplits : x.Splits → (d.dir.find (v.sha256 key)).bind (·.metadata) = none) :
    (d.writeWith v x key r now ttl).Faithful v (if x.Written then stored ++ [r.stored key now ttl] else stored) := by
  by_cases hw : x.Written
  · rw [if_pos hw, writeWith_written hw]
    exact h.write hp hfresh
  · rw [if_neg hw]
    rcases writeWith_unwritten v key r now ttl hw with hd | ⟨f, hf, hd⟩
    · rwa [hd]
    · rw [hd]
      exact h.leftover hf hsplits

theorem Faithful.putWith {order : RangeOrder} {rounds : Nat} (h : d.Faithful v stored) (hp : Portable key r)
    (hsplits : x.Splits → ((d.removeWith x.replaced key).dir.find (v.sha256 key)).bind (·.metadata) = none)
    (hput : d.putWith v order rounds x key r now ttl = some d') :
    d'.Faithful v (if cacheable v r ∧ x.Written then stored ++ [r.stored key now ttl] else stored) := by
  unfold Disk.putWith at hput
  split at hput
  · next hcache =>
    obtain ⟨d₁, hevict, rfl⟩ := Option.map_eq_some_iff.mp hput
    have htrims : Trims v d₁ (d.removeWith x.replaced key) := evictWith_trims hevict
    have hfresh : ∀ ie ∈ d₁.cache.index, ie.key ≠ key := fun ie hie => removeWith_fresh ie (htrims.index ie hie)
    simpa only [hcache, true_and] using
      (h.trims (htrims.trans removeWith_trims)).writeWith hp hfresh fun hx => htrims.dir.metadata_none (hsplits hx)
  · next hskip =>
    cases hput
    rw [if_neg fun hw => hskip hw.1]
    exact h

end Disk

/-! ## Every run -/

/-- The key and the headers of a `Put` survive JSON, and a write that can part a body from its meta
file finds no meta file of the key. -/
def DiskMove.Sound (v : Platform) (m : DiskMove) (s : DiskRun) : Prop :=
  match m with
  | .put key r _ _ _ _ x => Portable key r ∧
      (x.Splits → ((s.disk.removeWith x.replaced key).dir.find (v.sha256 key)).bind (·.metadata) = none)
  | _ => True

theorem DiskMove.step_faithful {v : Platform} {m : DiskMove} {s s' : DiskRun} (hs : s.disk.Faithful v s.stored)
    (hm : m.Sound v s) (hstep : m.step v s = some s') : s'.disk.Faithful v s'.stored := by
  cases m with
  | put key r now ttl order rounds x =>
    obtain ⟨d', hput, rfl⟩ := Option.map_eq_some_iff.mp hstep
    exact hs.putWith hm.1 hm.2 hput
  | get key now readMetadata readBody x =>
    cases hstep
    exact hs.trims Disk.getWith_trims
  | purge x =>
    cases hstep
    exact hs.purgeWith x
  | restart maxBytes order readable =>
    cases hstep
    exact hs.restart maxBytes order readable

theorem DiskRun.start_faithful (v : Platform) (maxBytes : Int) (order : RangeOrder) (readable : Bytes → Bool) :
    (DiskRun.start maxBytes order readable ∅).disk.Faithful v [] := by
  refine Disk.Faithful.restart ⟨⟨fun _ hf => absurd hf Table.not_mem_empty, fun _ hf => absurd hf Table.not_mem_empty⟩,
    ?_, rfl⟩ maxBytes order readable
  exact fun _ hie => absurd hie Table.not_mem_empty

/-- In every run the used bytes are those of the index, and a hit was stored under its key. -/
theorem index_faithful (v : Platform) (maxBytes : Int) (order : RangeOrder) (readable : Bytes → Bool)
    (moves : List DiskMove) (s : DiskRun)
    (hsound : Machine.Along (DiskMove.step v) (DiskMove.Sound v) moves (.start maxBytes order readable ∅))
    (hrun : Machine.run (DiskMove.step v) moves (.start maxBytes order readable ∅) = some s) :
    s.disk.cache.usedBytes = s.disk.cache.index.tally (·.size) ∧
      ∀ key now readMetadata readBody x e, (s.disk.getWith readMetadata readBody x key now).2 = some e →
        e.key = key ∧ e ∈ s.stored := by
  have hs : s.disk.Faithful v s.stored :=
    Machine.run_invariant (I := fun s : DiskRun => s.disk.Faithful v s.stored)
      (fun _ _ _ hs hm hstep => DiskMove.step_faithful hs hm hstep)
        (DiskRun.start_faithful v maxBytes order readable) hsound hrun
  exact ⟨hs.tallied.used, fun key now readMetadata readBody x e he => hs.getWith he⟩

namespace Sample

def replacing : Platform :=
  { Platform.plain with
    jsonText := fun text => text.flatMap fun b => if b = 255 then [239, 191, 189] else [b]
    jsonText_utf8 := fun text => by
      have hbytes : ∀ b ∈ bytes text, (if b = 255 then [239, 191, 189] else [b]) = [b] := fun b hb =>
        if_neg fun h => absurd (Text.lt_of_mem_bytes hb) (by rw [h]; decide)
      rw [List.flatMap_congr hbytes]
      simp }

def filled (moves : List DiskMove) : Option DiskRun :=
  Machine.run (DiskMove.step replacing) moves (.start 100 .asStored (fun _ => true) ∅)

def stores (key : Bytes) (b : UInt8) (x : FileFaults) : DiskMove := .put key (page b) 0 0 .asStored 0 x

def tearing : FileFaults := { FileFaults.none with replaced := ⟨false, false⟩, body := .torn [] }

def restarts : DiskMove := .restart 100 .asStored fun _ => true

/-- The second `Put` of the key fails. -/
def replaced : List DiskMove :=
  [stores [97] 1 .none, stores [97] 2 { FileFaults.none with body := .lost }, restarts, stores [97] 3 .none, restarts]

theorem stores_sound {b : UInt8} {x : FileFaults} (hx : ¬ x.Splits) (s : DiskRun) :
    (stores [97] b x).Sound replacing s :=
  ⟨⟨utf8_a, utf8_page b⟩, fun h => absurd h hx⟩

theorem replaced_sound (m : DiskMove) (hm : m ∈ replaced) (s : DiskRun) : m.Sound replacing s := by
  have hnone : ¬ FileFaults.none.Splits := by simp [FileFaults.Splits, FileFaults.none]
  simp only [replaced, List.mem_cons, List.not_mem_nil, or_false] at hm
  rcases hm with rfl | rfl | rfl | rfl | rfl
  · exact stores_sound hnone s
  · exact stores_sound (by simp [FileFaults.Splits]) s
  · trivial
  · exact stores_sound hnone s
  · trivial

end Sample

/-- The third response is found after the restart. -/
theorem index_faithful_restart :
    ∃ s, Sample.filled Sample.replaced = some s ∧
      (s.disk.getWith true true ⟨true, true⟩ [97] 0).2.map (·.body) = some [3] ∧
      s.disk.cache.usedBytes = s.disk.cache.index.tally (·.size) ∧
      ∀ key now readMetadata readBody x e, (s.disk.getWith readMetadata readBody x key now).2 = some e →
        e.key = key ∧ e ∈ s.stored := by
  have hany : (Sample.filled Sample.replaced).any
      (fun s => (s.disk.getWith true true ⟨true, true⟩ [97] 0).2.map (·.body) = some [3]) = true := by decide
  obtain ⟨s, hrun, hhit⟩ := (Option.any_eq_true _ _).mp hany
  exact ⟨s, hrun, of_decide_eq_true hhit,
    index_faithful Sample.replacing 100 .asStored (fun _ => true) Sample.replaced s
      (.of_forall Sample.replaced_sound) hrun⟩

/-- JSON makes one key of two, and a failed write leaves a body beside the head of another. -/
theorem index_unfaithful :
    (∃ s, Sample.filled [Sample.stores [255] 1 .none, Sample.stores [239, 191, 189] 2 .none, Sample.restarts] = some s ∧
      s.disk.cache.usedBytes ≠ s.disk.cache.index.tally (·.size)) ∧
    (∃ s, Sample.filled [Sample.stores [255] 1 .none, Sample.restarts] = some s ∧
      (s.disk.getWith true true ⟨true, true⟩ [239, 191, 189] 0).2.isSome ∧ ∀ e ∈ s.stored, e.key ≠ [239, 191, 189]) ∧
    ∃ s, Sample.filled [Sample.stores [97] 1 .none, Sample.stores [97] 2 Sample.tearing, Sample.restarts] = some s ∧
      (s.disk.getWith true true ⟨true, true⟩ [97] 0).2.map (·.body) = some [] ∧ ∀ e ∈ s.stored, e.body ≠ [] := by
  have htwo : (Sample.filled [Sample.stores [255] 1 .none, Sample.stores [239, 191, 189] 2 .none, Sample.restarts]).any
      (fun s => s.disk.cache.usedBytes ≠ s.disk.cache.index.tally (·.size)) = true := by decide
  have hother : (Sample.filled [Sample.stores [255] 1 .none, Sample.restarts]).any (fun s =>
      (s.disk.getWith true true ⟨true, true⟩ [239, 191, 189] 0).2.isSome ∧ ∀ e ∈ s.stored,
        e.key ≠ [239, 191, 189]) = true := by
    decide
  have htorn : (Sample.filled
      [Sample.stores [97] 1 .none, Sample.stores [97] 2 Sample.tearing, Sample.restarts]).any (fun s =>
      (s.disk.getWith true true ⟨true, true⟩ [97] 0).2.map (·.body) = some [] ∧
        ∀ e ∈ s.stored, e.body ≠ []) = true := by
    decide
  simp only [Option.any_eq_true, decide_eq_true_eq] at htwo hother htorn
  exact ⟨htwo, hother, htorn⟩

end EdgeFabric.CdnServer
