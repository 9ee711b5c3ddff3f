/-
The memory cache is an LRU map (`cache_is_lru`): under any sequence of calls it
does what a plain list of entries does that has its last used entry in front and
loses its last one to a new key when it is full. That list is in turn described by
the calls alone: its entries are the latest that were stored under their keys, and
they stand in the order of their last use.
-/
import EdgeFabric.CdnServer.Cache
import EdgeFabric.Lib.Machine

namespace EdgeFabric.CdnServer

inductive CacheCall where
  | put (key : Bytes) (r : Response) (ttl : Int)
  | get (key : Bytes)
  | purge
  | advance (d : Nat)

/-- What a call reports: what `Put` handed to `OnEvict`, and what `Get` returned. -/
inductive CacheReport where
  | stored (evicted : List CacheEntry)
  | got (entry : Option CacheEntry)
  | done

abbrev Past := List (CacheCall × CacheReport)

/-! ## The cache and its reference -/

structure CacheRun where
  cache : Cache
  now : Time
  past : Past

def CacheRun.start (maxEntries : Int) (now : Time) : CacheRun := { cache := newCache maxEntries, now, past := [] }

/-- A call; nothing if the eviction loop is not over after `rounds` rounds. -/
def CacheRun.step (v : Platform) (rounds : Nat) (call : CacheCall) (s : CacheRun) : Option CacheRun :=
  match call with
  | .put key r ttl => (s.cache.put v rounds key r s.now ttl).map fun (cache, evicted) =>
      { s with cache, past := (call, .stored evicted) :: s.past }
  | .get key =>
    let (cache, entry) := s.cache.get key s.now
    some { s with cache, past := (call, .got entry) :: s.past }
  | .purge => some { s with cache := s.cache.purge, past := (call, .done) :: s.past }
  | .advance d => some { s with now := s.now + d, past := (call, .done) :: s.past }

/-- The reference: a list of entries in place of the cache. -/
structure LruRun where
  items : List CacheEntry
  now : Time
  past : Past

def LruRun.start (now : Time) : LruRun := { items := [], now, past := [] }

def LruRun.step (v : Platform) (maxEntries : Nat) (s : LruRun) (call : CacheCall) : LruRun :=
  match call with
  | .put key r ttl =>
    let (items, evicted) := Cache.store v maxEntries { r with key, storedAt := s.now, ttl } s.items
    { s with items, past := (call, .stored evicted) :: s.past }
  | .get key =>
    let (items, entry) := Cache.lookup key s.now s.items
    { s with items, past := (call, .got entry) :: s.past }
  | .purge => { s with items := [], past := (call, .done) :: s.past }
  | .advance d => { s with now := s.now + d, past := (call, .done) :: s.past }

/-! ## The list in terms of the calls -/

def clock (start : Time) : Past → Time
  | [] => start
  | (.advance d, _) :: past => clock start past + d
  | _ :: past => clock start past

def latest (v : Platform) (start : Time) (key : Bytes) : Past → Option CacheEntry
  | [] => none
  | (.put k r ttl, _) :: past =>
    if k = key ∧ cacheable v r then some { r with key, storedAt := clock start past, ttl } else latest v start key past
  | _ :: past => latest v start key past

/-- The call is a successful `Get` or an accepted `Put` of the key. -/
def uses (v : Platform) (key : Bytes) : CacheCall → CacheReport → Bool
  | .put k r _, _ => k = key ∧ cacheable v r
  | .get k, .got (some _) => k = key
  | _, _ => false

def lastUse (v : Platform) (key : Bytes) : Past → Nat
  | [] => 0
  | (call, report) :: past => if uses v key call report then past.length + 1 else lastUse v key past

theorem lastUse_le (v : Platform) (key : Bytes) (past : Past) : lastUse v key past ≤ past.length := by
  induction past with
  | nil => simp [lastUse]
  | cons e past ih =>
    obtain ⟨call, report⟩ := e
    rw [lastUse, List.length_cons]
    split <;> omega

/-- What the reference keeps to in any sequence of calls. -/
structure LruRun.Ordered (v : Platform) (maxEntries : Nat) (start : Time) (s : LruRun) : Prop where
  now : s.now = clock start s.past
  length : s.items.length ≤ maxEntries
  keys : (s.items.map CacheEntry.key).Nodup
  latest : ∀ e ∈ s.items, latest v start e.key s.past = some e
  order : s.items.Pairwise fun a b => lastUse v b.key s.past < lastUse v a.key s.past

section
variable {v : Platform} {n : Nat} {start now : Time} {s : LruRun} {call : CacheCall} {report : CacheReport}
  {past : Past} {items : List CacheEntry} {e : CacheEntry} {key : Bytes}

theorem lastUse_cons_of_uses (h : uses v key call report = true) :
    lastUse v key ((call, report) :: past) = past.length + 1 := by
  rw [lastUse, if_pos h]

theorem lastUse_cons_of_not_uses (h : uses v key call report = false) :
    lastUse v key ((call, report) :: past) = lastUse v key past := by
  rw [lastUse, h]
  rfl

theorem latest_cons_of_not_uses (h : uses v key call report = false) :
    latest v start key ((call, report) :: past) = latest v start key past := by
  cases call with
  | put k r ttl =>
    have hput : ¬ (k = key ∧ cacheable v r = true) := of_decide_eq_false h
    rw [latest, if_neg hput]
  | get k => rfl
  | purge => rfl
  | advance d => rfl

theorem LruRun.Ordered.keep (h : s.Ordered v n start) (hitems : items.Sublist s.items)
    (huses : ∀ e ∈ items, uses v e.key call report = false) (hnow : now = clock start ((call, report) :: s.past)) :
    ({ items, now, past := (call, report) :: s.past } : LruRun).Ordered v n start := by
  refine ⟨hnow, hitems.length_le.trans h.length, h.keys.sublist (hitems.map _), fun e he => ?_, ?_⟩
  · rw [latest_cons_of_not_uses (huses e he)]
    exact h.latest e (hitems.subset he)
  · refine List.Pairwise.imp_of_mem (fun {a b} ha hb hab => ?_) (h.order.sublist hitems)
    rw [lastUse_cons_of_not_uses (huses a ha), lastUse_cons_of_not_uses (huses b hb)]
    exact hab

theorem LruRun.Ordered.front (h : s.Ordered v n start) (hitems : items.Sublist s.items) (hlen : items.length < n)
    (hfree : ∀ a ∈ items, a.key ≠ e.key) (he : uses v e.key call report = true)
    (huses : ∀ a ∈ items, uses v a.key call report = false) (hnow : now = clock start ((call, report) :: s.past))
    (hlatest : CdnServer.latest v start e.key ((call, report) :: s.past) = some e) :
    ({ items := e :: items, now, past := (call, report) :: s.past } : LruRun).Ordered v n start := by
  have hkeep := h.keep hitems huses hnow
  refine ⟨hnow, hlen, ?_, fun a ha => ?_, ?_⟩
  · rw [List.map_cons, List.nodup_cons]
    refine ⟨fun hmem => ?_, hkeep.keys⟩
    obtain ⟨a, ha, hkey⟩ := List.mem_map.mp hmem
    exact hfree a ha hkey
  · rcases List.mem_cons.mp ha with rfl | ha
    · exact hlatest
    · exact hkeep.latest a ha
  · refine List.pairwise_cons.mpr ⟨fun a ha => ?_, hkeep.order⟩
    rw [lastUse_cons_of_uses he, lastUse_cons_of_not_uses (huses a ha)]
    exact Nat.lt_succ_of_le (lastUse_le v a.key s.past)

theorem length_others_lt (h : Cache.find key items ≠ none) : (Cache.others key items).length < items.length := by
  obtain ⟨e, he⟩ := Option.ne_none_iff_exists'.mp h
  obtain ⟨hmem, hkey⟩ := Cache.find_some he
  exact List.length_filter_lt_length_iff_exists.mpr ⟨e, hmem, by simp [hkey]⟩

theorem length_makeRoom_lt (hn : 1 ≤ n) (hlen : items.length ≤ n) : (Cache.makeRoom n items).1.length < n := by
  unfold Cache.makeRoom
  split
  · assumption
  · rw [List.length_dropLast]
    omega

theorem makeRoom_sublist : (Cache.makeRoom n items).1.Sublist items := by
  unfold Cache.makeRoom
  split
  · exact .refl _
  · exact List.dropLast_sublist _

theorem others_sublist : (Cache.others key items).Sublist items := List.filter_sublist

theorem LruRun.Ordered.get (h : s.Ordered v n start) (key : Bytes) :
    (s.step v n (.get key)).Ordered v n start := by
  show LruRun.Ordered v n start ⟨(Cache.lookup key s.now s.items).1, s.now,
    (.get key, .got (Cache.lookup key s.now s.items).2) :: s.past⟩
  cases hfind : Cache.find key s.items with
  | none =>
    rw [Cache.lookup_of_none hfind]
    exact h.keep (.refl _) (fun _ _ => rfl) h.now
  | some e =>
    obtain ⟨hmem, rfl⟩ := Cache.find_some hfind
    by_cases hexp : e.expired s.now
    · rw [Cache.lookup_of_expired hfind hexp]
      exact h.keep others_sublist (fun _ _ => rfl) h.now
    · have hlt : (Cache.others e.key s.items).length < s.items.length := length_others_lt (by rw [hfind]; simp)
      rw [Cache.lookup_of_live hfind hexp]
      refine h.front others_sublist (Nat.lt_of_lt_of_le hlt h.length) (fun a ha => (Cache.mem_others.mp ha).2)
        (decide_eq_true rfl) (fun a ha => decide_eq_false fun he => (Cache.mem_others.mp ha).2 he.symm) h.now ?_
      exact h.latest e hmem

theorem LruRun.Ordered.put (h : s.Ordered v n start) (hn : 1 ≤ n) (key : Bytes) (r : Response) (ttl : Int) :
    (s.step v n (.put key r ttl)).Ordered v n start := by
  let e : CacheEntry := { r with key, storedAt := s.now, ttl }
  show LruRun.Ordered v n start ⟨(Cache.store v n e s.items).1, s.now,
    (.put key r ttl, .stored (Cache.store v n e s.items).2) :: s.past⟩
  by_cases hcache : cacheable v r
  · have huses : ∀ report, uses v key (.put key r ttl) report = true := fun _ => decide_eq_true ⟨rfl, hcache⟩
    have hother : ∀ report, ∀ a : CacheEntry, a.key ≠ key → uses v a.key (.put key r ttl) report = false :=
      fun _ a ha => decide_eq_false fun hput => ha hput.1.symm
    have hlatest : ∀ report, CdnServer.latest v start key ((.put key r ttl, report) :: s.past) = some e :=
      fun report => by
      rw [CdnServer.latest, if_pos ⟨rfl, hcache⟩, ← h.now]
    cases hfind : Cache.find key s.items with
    | some e' =>
      have hlt : (Cache.others key s.items).length < s.items.length := length_others_lt (by rw [hfind]; simp)
      have hne : ∀ a ∈ Cache.others key s.items, a.key ≠ key := fun a ha => (Cache.mem_others.mp ha).2
      rw [Cache.store_of_some (e := e) hcache hfind]
      exact h.front others_sublist (Nat.lt_of_lt_of_le hlt h.length) hne (huses _) (fun a ha => hother _ a (hne a ha))
        h.now (hlatest _)
    | none =>
      have hne : ∀ a ∈ (Cache.makeRoom n s.items).1, a.key ≠ key := fun a ha => by
        simpa using List.find?_eq_none.mp hfind a (makeRoom_sublist.subset ha)
      rw [Cache.store_of_none (e := e) hcache hfind]
      exact h.front makeRoom_sublist (length_makeRoom_lt hn h.length) hne (huses _) (fun a ha => hother _ a (hne a ha))
        h.now (hlatest _)
  · rw [Cache.store_of_not_cacheable (e := e) hcache]
    exact h.keep (.refl _) (fun _ _ => decide_eq_false fun hput => hcache hput.2) h.now

theorem LruRun.Ordered.step (h : s.Ordered v n start) (hn : 1 ≤ n) (call : CacheCall) :
    (s.step v n call).Ordered v n start := by
  cases call with
  | put key r ttl => exact h.put hn key r ttl
  | get key => exact h.get key
  | purge => exact h.keep (List.nil_sublist _) (by simp) h.now
  | advance d => exact h.keep (.refl _) (fun _ _ => rfl) (congrArg (· + d) h.now)

end

theorem LruRun.Ordered.start {v : Platform} {n : Nat} {now : Time} : (LruRun.start now).Ordered v n now :=
  ⟨rfl, Nat.zero_le _, List.nodup_nil, fun _ he => absurd he List.not_mem_nil, .nil⟩

/-! ## The refinement -/

/-- The cache holds the entries of the list, and the same was called and reported. -/
structure Refines (n : Nat) (s : CacheRun) (l : LruRun) : Prop where
  items : s.cache.Represents l.items
  capacity : s.cache.maxEntries = n
  now : s.now = l.now
  past : s.past = l.past

theorem Refines.start (n : Nat) (now : Time) : Refines (n + 1) (CacheRun.start (n + 1) now) (LruRun.start now) := by
  refine ⟨Cache.Represents.new _, ?_, rfl, rfl⟩
  show (if (n + 1 : Int) ≤ 0 then 10000 else (n + 1 : Int).toNat) = n + 1
  rw [if_neg (by omega)]
  omega

theorem Refines.step {v : Platform} {n : Nat} {s : CacheRun} {l : LruRun} (h : Refines n s l) (hn : 1 ≤ n)
    (hlen : l.items.length ≤ n) (rounds : Nat) (call : CacheCall) :
    ∃ s', s.step v (rounds + 1) call = some s' ∧ Refines n s' (l.step v n call) := by
  obtain ⟨c, now, past⟩ := s
  obtain ⟨items, _, _⟩ := l
  obtain ⟨hitems, rfl, rfl, rfl⟩ := h
  cases call with
  | put key r ttl =>
    obtain ⟨c', hput, hitems', hmax⟩ := hitems.put v hn hlen rounds key r now ttl
    refine ⟨⟨c', now, _⟩, ?_, hitems', hmax, rfl, rfl⟩
    show (c.put v (rounds + 1) key r now ttl).map _ = _
    exact congrArg (Option.map _) hput
  | get key =>
    obtain ⟨hitems', hgot, hmax⟩ := hitems.get key now
    exact ⟨_, rfl, hitems', hmax, rfl, congrArg (fun e => (CacheCall.get key, CacheReport.got e) :: past) hgot⟩
  | purge => exact ⟨_, rfl, .purge, rfl, rfl, rfl⟩
  | advance d => exact ⟨_, rfl, hitems, rfl, rfl, rfl⟩

/-- A cache of any capacity does, call after call, what the list does: every call returns,
reports the same, and leaves the entries of the list in the linked list and in the map. -/
theorem cache_is_lru (v : Platform) (n rounds : Nat) (start : Time) (calls : List CacheCall) :
    ∃ s, Machine.run (CacheRun.step v (rounds + 1)) calls (CacheRun.start (n + 1) start) = some s ∧
      Refines (n + 1) s (calls.foldl (LruRun.step v (n + 1)) (LruRun.start start)) ∧
      (calls.foldl (LruRun.step v (n + 1)) (LruRun.start start)).Ordered v (n + 1) start := by
  suffices h : ∀ (s : CacheRun) (l : LruRun), Refines (n + 1) s l → l.Ordered v (n + 1) start →
      ∃ s', Machine.run (CacheRun.step v (rounds + 1)) calls s = some s' ∧
        Refines (n + 1) s' (calls.foldl (LruRun.step v (n + 1)) l) ∧
        (calls.foldl (LruRun.step v (n + 1)) l).Ordered v (n + 1) start from
    h _ _ (.start n start) .start
  induction calls with
  | nil => exact fun s l hs hl => ⟨s, rfl, hs, hl⟩
  | cons call calls ih =>
    intro s l hs hl
    obtain ⟨s₁, hstep, hs₁⟩ := hs.step (by omega) hl.length rounds call
    obtain ⟨s', hrun, hrest⟩ := ih s₁ _ hs₁ (hl.step (by omega) call)
    exact ⟨s', Machine.run_cons.mpr ⟨s₁, hstep, hrun⟩, hrest⟩

end EdgeFabric.CdnServer
