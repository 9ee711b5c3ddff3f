/-
The limit of the disk cache. `Put` evicts until the new body fits or nothing is left, so the
bodies on the disk stay within the limit where the body does on its own (`put_within_limit`).
A larger body is written all the same, a response that is not cached evicts nothing after a
restart with a smaller limit, and keys that JSON makes one of leave a file behind that no
index entry is left for (`put_over_limit`).
-/
import EdgeFabric.CdnServer.DiskFaults

namespace EdgeFabric.CdnServer

def DiskFiles.bodyLength (f : DiskFiles) : Int := f.body.elim 0 (·.length)

def Dir.storedBytes (dir : Dir) : Int := dir.tally DiskFiles.bodyLength

theorem DiskFiles.bodyLength_nonneg (f : DiskFiles) : 0 ≤ f.bodyLength := by
  unfold bodyLength
  cases f.body with
  | none => exact le_refl 0
  | some body => exact Int.natCast_nonneg _

/-! ## What is counted -/

/-- Both files are there, and the meta file names the key and the size. -/
def DiskFiles.Complete (v : Platform) (f : DiskFiles) : Prop :=
  ∃ m, f.metadata = some m ∧ f.hash = v.sha256 m.key ∧ f.bodyLength = m.bodySize

namespace Disk

/-- Every entry of the index has its files, and what is on the disk is counted. -/
structure Counted (v : Platform) (d : Disk) : Prop where
  tallied : d.cache.Tallied v
  files : ∀ f ∈ d.dir, f.Complete v
  index : ∀ ie ∈ d.cache.index, ∃ f ∈ d.dir, f.hash = ie.hash ∧ f.bodyLength = ie.size
  stored : d.dir.storedBytes ≤ d.cache.usedBytes

variable {v : Platform} {d d' : Disk} {key : Bytes} {r : Response} {now : Time} {ttl : Int}

theorem Counted.removeEntry (h : d.Counted v) {ie : DiskIndexEntry} (hie : ie ∈ d.cache.index) :
    (d.removeEntry ie).Counted v := by
  obtain ⟨f, hf, hhash, hsize⟩ := h.index ie hie
  refine ⟨(removeEntryWith_trims (x := ⟨true, true⟩) hie).tallied h.tallied, fun f' hf' => ?_, fun ie' hie' => ?_, ?_⟩
  · exact h.files f' (Table.mem_remove.mp hf').1
  · -- the files of other entries have other names
    obtain ⟨hmem, hkey⟩ := Table.mem_remove.mp hie'
    obtain ⟨f', hf', hhash', hsize'⟩ := h.index ie' hmem
    refine ⟨f', Table.mem_remove.mpr ⟨hf', fun he => hkey ?_⟩, hhash', hsize'⟩
    exact v.sha256_injective (by rw [← h.tallied.index ie' hmem, ← h.tallied.index ie hie, ← hhash', he])
  · have htally := Table.tally_remove DiskFiles.bodyLength hf
    have hstored := h.stored
    rw [hhash] at htally
    show (d.dir.remove ie.hash).tally _ ≤ d.cache.usedBytes - ie.size
    rw [htally, hsize]
    unfold Dir.storedBytes at hstored
    omega

theorem Counted.remove (h : d.Counted v) (key : Bytes) : (d.remove key).Counted v := by
  unfold Disk.remove
  split
  · next ie hie => exact h.removeEntry (Table.find_eq_some.mp hie).1
  · exact h

theorem Counted.evictOldest (h : d.Counted v) (order : List DiskIndexEntry) : (d.evictOldest order).Counted v := by
  unfold Disk.evictOldest
  dsimp only
  split
  · exact h
  · exact h.remove _

theorem maxBytes_remove (key : Bytes) : (d.remove key).cache.maxBytes = d.cache.maxBytes := by
  unfold remove
  split <;> rfl

theorem maxBytes_evictOldest (order : List DiskIndexEntry) :
    (d.evictOldest order).cache.maxBytes = d.cache.maxBytes := by
  unfold evictOldest
  dsimp only
  split
  · rfl
  · exact maxBytes_remove _

/-- Room for so many bytes, or nothing left to evict. -/
def Room (size : Int) (d : Disk) : Prop := d.cache.usedBytes + size ≤ d.cache.maxBytes ∨ d.cache.usedBytes = 0

theorem Counted.room (h : d.Counted v) {size : Int}
    (hover : ¬ (d.cache.maxBytes < d.cache.usedBytes + size ∧ 0 < d.cache.index.rows.length)) : d.Room size := by
  by_cases hlen : 0 < d.cache.index.rows.length
  · exact .inl (Int.not_lt.mp fun hlt => hover ⟨hlt, hlen⟩)
  · refine .inr ?_
    rw [h.tallied.used, Table.tally, List.length_eq_zero_iff.mp (Nat.eq_zero_of_not_pos hlen)]
    rfl

theorem Counted.evict {order : RangeOrder} {size : Int} {rounds : Nat} (h : d.Counted v)
    (hevict : d.evict order size rounds = some d') :
    d'.Counted v ∧ d'.cache.maxBytes = d.cache.maxBytes ∧ d'.Room size := by
  induction rounds generalizing d with
  | zero =>
    unfold Disk.evict at hevict
    split at hevict
    · cases hevict
    · next hover =>
      cases hevict
      exact ⟨h, rfl, h.room hover⟩
  | succ rounds ih =>
    unfold Disk.evict at hevict
    split at hevict
    · have hevicted := ih (h.evictOldest _) hevict
      rwa [maxBytes_evictOldest] at hevicted
    · next hover =>
      cases hevict
      exact ⟨h, rfl, h.room hover⟩

theorem Counted.write (h : d.Counted v) (hkey : Utf8 key) (hfresh : ∀ ie ∈ d.cache.index, ie.key ≠ key) :
    (d.write v key r now ttl).Counted v := by
  refine ⟨tallied_write h.tallied hfresh, fun f hf => ?_, fun ie hie => ?_, ?_⟩
  · rcases Table.mem_put.mp hf with hf | rfl
    · exact h.files f hf.1
    · exact ⟨_, rfl, congrArg v.sha256 hkey.jsonText.symm, rfl⟩
  · rcases Table.mem_put.mp hie with hie | rfl
    · obtain ⟨f, hf, hhash, hsize⟩ := h.index ie hie.1
      refine ⟨f, Table.mem_put.mpr (.inl ⟨hf, fun he => hie.2 ?_⟩), hhash, hsize⟩
      exact v.sha256_injective (by rw [← h.tallied.index ie hie.1, ← hhash]; exact he)
    · exact ⟨_, Table.mem_put.mpr (.inr rfl), rfl, rfl⟩
  · have hput := Table.tally_put_le (t := d.dir) DiskFiles.bodyLength_nonneg
      { hash := v.sha256 key, body := some r.body,
        metadata := some (DiskMetadata.coded v
          { key, statusCode := r.statusCode, headers := r.headers, storedAt := now, ttl, bodySize := r.body.length }) }
    have hstored := h.stored
    exact hput.trans (Int.add_le_add_right hstored _)

theorem used_newDiskCache (maxBytes : Int) (order : List DiskFiles) :
    (newDiskCache maxBytes order).usedBytes = (order.map fun f => f.metadata.elim 0 (·.bodySize)).sum := by
  unfold newDiskCache
  refine List.foldl_visited (I := fun (seen : List DiskFiles) (c : DiskCache) =>
    c.usedBytes = (seen.map fun f => f.metadata.elim 0 (·.bodySize)).sum) rfl fun seen f rest c _ ih => ?_
  rw [List.map_append, List.sum_append, ← ih]
  cases hm : f.metadata with
  | none => simp [hm]
  | some m => simp [hm]

theorem Counted.restart (h : d.Counted v) (maxBytes : Int) (order : RangeOrder) :
    (d.restart maxBytes order fun _ => true).Counted v := by
  have hperm := order.perm 0 d.dir.rows
  have hcache : (d.restart maxBytes order fun _ => true).cache = newDiskCache maxBytes (order.order 0 d.dir.rows) := by
    rw [Disk.restart, List.filter_true]
  have hnames : ∀ f ∈ order.order 0 d.dir.rows, ∀ m, f.metadata = some m → f.hash = v.sha256 m.key :=
    fun f hf m hm => by
    obtain ⟨m', hm', hhash, -⟩ := h.files f (RangeOrder.mem_order.mp hf)
    cases hm.symm.trans hm'
    exact hhash
  refine ⟨?_, h.files, fun ie hie => ?_, ?_⟩
  · rw [hcache]
    exact newDiskCache_tallied ((hperm.map _).nodup_iff.mpr d.dir.nodup) hnames
  · rw [hcache] at hie
    obtain ⟨f, hf, m, hm, rfl⟩ := mem_newDiskCache hie
    obtain ⟨m', hm', -, hsize⟩ := h.files f (RangeOrder.mem_order.mp hf)
    cases hm.symm.trans hm'
    exact ⟨f, RangeOrder.mem_order.mp hf, rfl, hsize⟩
  · rw [hcache, used_newDiskCache, (hperm.map _).sum_eq]
    refine le_of_eq (congrArg List.sum (List.map_congr_left fun f hf => ?_))
    obtain ⟨m, hm, -, hsize⟩ := h.files f hf
    rw [hm, hsize]
    rfl

end Disk

/-! ## Every run -/

inductive LimitMove where
  | put (key : Bytes) (r : Response) (now : Time) (ttl : Int) (choice : DiskChoice)
  | restart (maxBytes : Int) (order : RangeOrder)

def LimitMove.step (v : Platform) (m : LimitMove) (d : Disk) : Option Disk :=
  match m with
  | .put key r now ttl choice => d.put v choice key r now ttl
  | .restart maxBytes order => some (d.restart maxBytes order fun _ => true)

def Disk.empty (maxBytes : Int) : Disk := { cache := newDiskCache maxBytes [], dir := ∅ }

/-- The key of a `Put` survives JSON, and a body that is stored is within the limit, as is the disk
if nothing is stored. -/
def LimitMove.Fits (v : Platform) (m : LimitMove) (d : Disk) : Prop :=
  match m with
  | .put key r _ _ _ => Utf8 key ∧
      if cacheable v r then r.body.length ≤ d.cache.maxBytes else d.dir.storedBytes ≤ d.cache.maxBytes
  | .restart _ _ => True

theorem Disk.Room.le {size : Int} {d : Disk} (h : d.Room size) (hsize : size ≤ d.cache.maxBytes) :
    d.cache.usedBytes + size ≤ d.cache.maxBytes := by
  rcases h with hroom | hzero
  · exact hroom
  · rw [hzero]
    omega

theorem Disk.Counted.put {v : Platform} {d d' : Disk} {choice : DiskChoice} {key : Bytes} {r : Response}
    {now : Time} {ttl : Int} (h : d.Counted v) (hfits : LimitMove.Fits v (.put key r now ttl choice) d)
    (hput : d.put v choice key r now ttl = some d') : d'.Counted v ∧ d'.dir.storedBytes ≤ d'.cache.maxBytes := by
  obtain ⟨hkey, hfits⟩ := hfits
  unfold Disk.put at hput
  split at hput
  · next hcache =>
    obtain ⟨d₁, hevict, rfl⟩ := Option.map_eq_some_iff.mp hput
    obtain ⟨hd₁, hmax, hroom⟩ := (h.remove key).evict hevict
    rw [if_pos hcache, ← maxBytes_remove key, ← hmax] at hfits
    have hle := hroom.le hfits
    by_cases hwritten : choice.written
    · rw [if_pos hwritten]
      have hfresh : ∀ ie ∈ d₁.cache.index, ie.key ≠ key := fun ie hie =>
        removeWith_fresh (x := ⟨true, true⟩) ie ((evict_sub hevict).index ie hie)
      have hcounted : (d₁.write v key r now ttl).Counted v := hd₁.write hkey hfresh
      exact ⟨hcounted, hcounted.stored.trans hle⟩
    · rw [if_neg hwritten]
      have hstored := hd₁.stored
      exact ⟨hd₁, by omega⟩
  · next hskip =>
    cases hput
    rw [if_neg hskip] at hfits
    exact ⟨h, hfits⟩

theorem LimitMove.step_counted {v : Platform} {m : LimitMove} {d d' : Disk} (h : d.Counted v) (hm : m.Fits v d)
    (hstep : m.step v d = some d') : d'.Counted v := by
  cases m with
  | put key r now ttl choice => exact (h.put hm hstep).1
  | restart maxBytes order =>
    cases hstep
    exact h.restart maxBytes order

theorem Disk.empty_counted (v : Platform) (maxBytes : Int) : (Disk.empty maxBytes).Counted v :=
  ⟨⟨fun _ hie => absurd hie Table.not_mem_empty, rfl⟩, fun _ hf => absurd hf Table.not_mem_empty,
    fun _ hie => absurd hie Table.not_mem_empty, le_refl 0⟩

/-- After every `Put` of a run the stored bodies are within the limit. -/
theorem put_within_limit (v : Platform) (maxBytes : Int) (moves : List LimitMove) (d d' : Disk) (key : Bytes)
    (r : Response) (now : Time) (ttl : Int) (choice : DiskChoice)
    (hmoves : Machine.Along (LimitMove.step v) (LimitMove.Fits v) moves (.empty maxBytes))
    (hrun : Machine.run (LimitMove.step v) moves (.empty maxBytes) = some d)
    (hfits : LimitMove.Fits v (.put key r now ttl choice) d) (hput : d.put v choice key r now ttl = some d') :
    d'.dir.storedBytes ≤ d'.cache.maxBytes := by
  have hd : d.Counted v :=
    Machine.run_invariant (fun _ _ _ h hm hstep => LimitMove.step_counted h hm hstep)
      (Disk.empty_counted v maxBytes) hmoves hrun
  exact (hd.put hfits hput).2

namespace Sample

def putWithin (key : Bytes) (r : Response) : LimitMove := .put key r 0 0 { choice with rounds := 3 }

def twoBytes : Response := { page 1 with body := [1, 2] }

def failure : Response := { page 1 with statusCode := 500 }

end Sample

/-- The second body takes the place of the first. -/
theorem put_within_limit_one :
    ∃ d d', Machine.run (LimitMove.step .plain) [Sample.putWithin [97] (Sample.page 1)] (.empty 1) = some d ∧
      (Sample.putWithin [98] (Sample.page 2)).step .plain d = some d' ∧ d'.dir.storedBytes = 1 ∧
      d'.dir.storedBytes ≤ d'.cache.maxBytes := by
  have hany : (Machine.run (LimitMove.step .plain) [Sample.putWithin [97] (Sample.page 1)] (.empty 1)).any (fun d =>
      d.cache.maxBytes = 1 ∧ ((Sample.putWithin [98] (Sample.page 2)).step .plain d).any fun d' =>
        d'.dir.storedBytes = 1) = true := by
    decide
  obtain ⟨d, hrun, hd⟩ := (Option.any_eq_true _ _).mp hany
  obtain ⟨hmax, hany'⟩ := of_decide_eq_true hd
  obtain ⟨d', hput, hstored⟩ := (Option.any_eq_true _ _).mp hany'
  refine ⟨d, d', hrun, hput, of_decide_eq_true hstored,
    put_within_limit .plain 1 [Sample.putWithin [97] (Sample.page 1)] d d' [98]
      (Sample.page 2) 0 0 _ ⟨?_, ?_⟩ hrun ?_ hput⟩
  · exact ⟨Sample.utf8_a, by decide⟩
  · split <;> trivial
  · refine ⟨Sample.utf8_b, ?_⟩
    rw [if_pos (by decide), hmax]
    decide

/-- A body over the limit is stored, a response that is not cached leaves too much on the disk, and so do
two keys that JSON makes one of. -/
theorem put_over_limit :
    (∃ d, Machine.run (LimitMove.step .plain) [Sample.putWithin [97] Sample.twoBytes] (.empty 1) = some d ∧
      d.cache.maxBytes < d.dir.storedBytes) ∧
    (∃ d, Machine.run (LimitMove.step .plain)
        [Sample.putWithin [97] Sample.twoBytes, .restart 1 .asStored, Sample.putWithin [98] Sample.failure]
          (.empty 2) = some d ∧
      d.cache.maxBytes < d.dir.storedBytes) ∧
    ∃ d, Machine.run (LimitMove.step Sample.replacing)
        [Sample.putWithin [255] (Sample.page 1), Sample.putWithin [239, 191, 189] (Sample.page 2), .restart 2 .asStored,
          Sample.putWithin [97] Sample.twoBytes] (.empty 2) = some d ∧
      d.cache.maxBytes < d.dir.storedBytes := by
  have hlarge : (Machine.run (LimitMove.step .plain) [Sample.putWithin [97] Sample.twoBytes] (.empty 1)).any
      (fun d => d.cache.maxBytes < d.dir.storedBytes) = true := by decide
  have hskipped : (Machine.run (LimitMove.step .plain)
      [Sample.putWithin [97] Sample.twoBytes, .restart 1 .asStored, Sample.putWithin [98] Sample.failure]
        (.empty 2)).any
      (fun d => d.cache.maxBytes < d.dir.storedBytes) = true := by decide
  have hkeys : (Machine.run (LimitMove.step Sample.replacing)
      [Sample.putWithin [255] (Sample.page 1), Sample.putWithin [239, 191, 189] (Sample.page 2), .restart 2 .asStored,
        Sample.putWithin [97] Sample.twoBytes] (.empty 2)).any
          (fun d => d.cache.maxBytes < d.dir.storedBytes) = true := by
    decide
  simp only [Option.any_eq_true, decide_eq_true_eq] at hlarge hskipped hkeys
  exact ⟨hlarge, hskipped, hkeys⟩

end EdgeFabric.CdnServer
