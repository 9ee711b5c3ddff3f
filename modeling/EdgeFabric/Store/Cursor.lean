/-
Cursors (`internal/storage/cursor.go`) and the pages of nodes that they mark. A cursor is the
creation time and the ID of a node, as JSON in base64; `ListNodes` gives the nodes below it,
newest first and by ID among those of one time, as many as the page holds.

A client that goes on from the last node of each page gets all nodes below its first cursor
(`cursor_pages_exact`): what is inserted meanwhile and is newer than the cursor is not below it.
-/
import EdgeFabric.Store.Fleet
import EdgeFabric.Lib.Base64
import EdgeFabric.Lib.Keyset
import Mathlib.Data.Prod.Lex
import Mathlib.Data.String.Basic

namespace EdgeFabric

/-! ## Cursors -/

structure CursorData where
  createdAt : Time
  id : String
  deriving DecidableEq, Repr

/-- `json.Marshal` and `json.Unmarshal` of cursors. A time after the year 9999 cannot be written. -/
structure CursorJson where
  marshal : CursorData → Option (List UInt8)
  unmarshal : List UInt8 → Option CursorData
  latest : Time
  marshal_ok : ∀ d, d.createdAt ≤ latest → ∃ b, marshal d = some b ∧ b ≠ [] ∧ unmarshal b = some d

def encodeCursor (j : CursorJson) (createdAt : Time) (id : String) : String :=
  match j.marshal { createdAt, id } with
  | none => ""
  | some b => String.ofList (Base64.encode b)

def decodeCursor (j : CursorJson) (cursor : String) : Option CursorData :=
  if cursor = "" then none
  else do
    let b ← Base64.decode cursor.toList
    let data ← j.unmarshal b
    if data.id = "" then none else some data

/-- The cursor parameter as `ListNodes` reads it. -/
def cursorParam (j : CursorJson) (cursor : String) : Cursor :=
  match decodeCursor j cursor with
  | some data => .at data.createdAt data.id
  | none => if cursor = "" then .absent else .malformed

theorem decodeCursor_encodeCursor {j : CursorJson} {createdAt : Time} {id : String} (ht : createdAt ≤ j.latest)
    (hid : id ≠ "") : decodeCursor j (encodeCursor j createdAt id) = some { createdAt, id } := by
  obtain ⟨b, hmarshal, hne, hunmarshal⟩ := j.marshal_ok { createdAt, id } ht
  have htext : String.ofList (Base64.encode b) ≠ "" := by
    obtain ⟨x, b, rfl⟩ := List.exists_cons_of_ne_nil hne
    obtain ⟨cs, hcs⟩ := Base64.encode_head x b
    rw [hcs]
    exact Text.ofList_ne_empty List.mem_cons_self
  rw [encodeCursor, hmarshal, decodeCursor, if_neg htext, String.toList_ofList, Base64.decode_encode]
  simp [hunmarshal, hid]

theorem cursorParam_encodeCursor {j : CursorJson} {createdAt : Time} {id : String} (ht : createdAt ≤ j.latest)
    (hid : id ≠ "") : cursorParam j (encodeCursor j createdAt id) = .at createdAt id := by
  rw [cursorParam, decodeCursor_encodeCursor ht hid]

/-! ## Pages -/

def Node.position (n : Node) : Time ×ₗ String := toLex (n.createdAt, n.id.text)

theorem Store.nodup_nodesOf (s : Store) (tenantID : Option ID) : ((s.nodesOf tenantID).map Node.id).Nodup := by
  refine s.nodes.nodup.sublist (List.Sublist.map _ ?_)
  unfold Store.nodesOf
  split
  · exact List.filter_sublist
  · exact List.Sublist.refl _

theorem Store.listNodes_below {s : Store} {tenantID : Option ID} {p : ListParams} (hlimit : p.limit ≠ 0)
    {createdAt : Time} {id : String} {nodes : List Node} {total : Nat}
    (h : Store.listNodes tenantID { p with cursor := .at createdAt id } s = .ok (nodes, total)) :
    ∃ l, Keyset.Below Node.position (s.nodesOf tenantID) (toLex (createdAt, id)) l ∧ nodes = l.take p.limit := by
  have hkeys : ((s.nodesOf tenantID).map Node.position).Nodup := by
    refine List.Nodup.map_on (fun a ha b hb hab => ?_) (List.Nodup.of_map _ (s.nodup_nodesOf _))
    have hid : String.ofList (Uuid.text a.id) = String.ofList (Uuid.text b.id) := (Prod.mk.inj (toLex.injective hab)).2
    have hid : a.id = b.id := Uuid.text_injective (String.ofList_injective hid)
    exact List.inj_on_of_nodup_map (s.nodup_nodesOf _) ha hb hid
  have hbelow : Keyset.Below Node.position (s.nodesOf tenantID) (toLex (createdAt, id))
      (((s.nodesOf tenantID).filter fun n =>
          n.createdAt < createdAt || (n.createdAt = createdAt && n.id.text < id)).insertionSort fun a b =>
        b.createdAt < a.createdAt ∨ (b.createdAt = a.createdAt ∧ b.id.text ≤ a.id.text)) := by
    refine .of_insertionSort hkeys (fun n => ?_) fun a b => ?_
    · simp [Node.position, Prod.Lex.toLex_lt_toLex]
    · simp [Node.position, Prod.Lex.toLex_le_toLex]
  cases h
  refine ⟨_, hbelow, ?_⟩
  rw [ListParams.effectiveLimit, if_neg hlimit]

/-- The nodes of `s'` are those of `s` and some that were created after `t`. -/
def InsertedSince (t : Time) (s s' : Store) : Prop :=
  ∃ new : List Node, s'.nodes.rows.Perm (s.nodes.rows ++ new) ∧ ∀ n ∈ new, t < n.createdAt

/-- A client that asks for pages of `size` nodes, the next one below the last node of each, until one
is short. Its `k`-th request finds the database `db k`. -/
def readPages (j : CursorJson) (tenantID : Option ID) (size : Nat) (db : Nat → Store) :
    (fuel k : Nat) → (cursor : String) → Option (List Node)
  | 0, _, _ => none
  | fuel + 1, k, cursor =>
    match Store.listNodes tenantID { limit := size, cursor := cursorParam j cursor } (db k) with
    | .error _ => none
    | .ok (page, _) =>
      if page.length < size then some page
      else
        match page.getLast? with
        | none => none
        | some last =>
          (readPages j tenantID size db fuel (k + 1) (encodeCursor j last.createdAt last.id.text)).map (page ++ ·)

section
variable {j : CursorJson} {tenantID : Option ID} {size : Nat} {db : Nat → Store} {t : Time} {i : ID}

theorem Store.mem_nodesOf_perm {s s' : Store} {new : List Node} (h : s'.nodes.rows.Perm (s.nodes.rows ++ new)) :
    ∃ new', (s'.nodesOf tenantID).Perm (s.nodesOf tenantID ++ new') ∧ ∀ n ∈ new', n ∈ new := by
  cases tenantID with
  | none => exact ⟨new, h, fun _ hn => hn⟩
  | some tenant =>
    refine ⟨new.filter fun n => n.tenantID = some tenant, ?_, fun n hn => (List.mem_filter.mp hn).1⟩
    have := h.filter fun n => n.tenantID = some tenant
    rwa [List.filter_append] at this

theorem InsertedSince.below {s s' : Store} (h : InsertedSince t s s') {c : Time ×ₗ String}
    (hc : c ≤ toLex (t, i.text)) :
    ((s.nodesOf tenantID).filter fun n => n.position < c).Perm
      ((s'.nodesOf tenantID).filter fun n => n.position < c) := by
  obtain ⟨new, hperm, hnew⟩ := h
  obtain ⟨new', hperm, hmem⟩ : ∃ new', (s'.nodesOf tenantID).Perm (s.nodesOf tenantID ++ new') ∧ ∀ n ∈ new', n ∈ new :=
    Store.mem_nodesOf_perm hperm
  have hnone : new'.filter (fun n => n.position < c) = [] := by
    refine List.filter_eq_nil_iff.mpr fun n hn hlt => ?_
    have hlt : n.position < toLex (t, i.text) := lt_of_lt_of_le (by simpa using hlt) hc
    rw [Node.position, Prod.Lex.toLex_lt_toLex] at hlt
    have := hnew n (hmem n hn)
    rcases hlt with hlt | hlt
    · exact absurd hlt this.asymm
    · exact absurd hlt.1 this.ne'
  have := (hperm.filter fun n => n.position < c).symm
  rwa [List.filter_append, hnone, List.append_nil] at this

theorem below_db (hdb : ∀ k, InsertedSince t (db k) (db (k + 1))) {c : Time ×ₗ String}
    (hc : c ≤ toLex (t, i.text)) (k : Nat) : (((db 0).nodesOf tenantID).filter fun n => n.position < c).Perm
      (((db k).nodesOf tenantID).filter fun n => n.position < c) := by
  induction k with
  | zero => exact .refl _
  | succ k ih => exact ih.trans ((hdb k).below hc)

theorem readPages_below (hsize : 1 ≤ size) (ht : t ≤ j.latest) (hdb : ∀ k, InsertedSince t (db k) (db (k + 1)))
    (fuel : Nat) :
    ∀ (k : Nat) (createdAt : Time) (id : String) (l : List Node), toLex (createdAt, id) ≤ toLex (t, i.text) → id ≠ "" →
      Keyset.Below Node.position ((db 0).nodesOf tenantID) (toLex (createdAt, id)) l → l.length < fuel →
      readPages j tenantID size db fuel k (encodeCursor j createdAt id) = some l := by
  induction fuel with
  | zero => exact fun _ _ _ _ _ _ _ h => absurd h (Nat.not_lt_zero _)
  | succ fuel ih =>
    intro k createdAt id l hc hid hl hfuel
    have hcreated : createdAt ≤ t := by
      rcases Prod.Lex.toLex_le_toLex.mp hc with h | h
      · exact h.le
      · exact h.1.le
    rw [readPages, cursorParam_encodeCursor (hcreated.trans ht) hid]
    rcases hlist : Store.listNodes tenantID { limit := size, cursor := .at createdAt id } (db k) with _ | ⟨page, total⟩
    · cases hlist
    · obtain ⟨l', hl', rfl⟩ := Store.listNodes_below (p := { limit := size }) (Nat.one_le_iff_ne_zero.mp hsize) hlist
      obtain rfl : l = l' := hl.unique hl' (below_db hdb hc k)
      dsimp only
      split
      · next hshort =>
        -- the page is not full: it is the rest
        rw [List.length_take] at hshort
        rw [List.take_of_length_le (by omega)]
      · next hfull =>
        rw [List.length_take] at hfull
        obtain ⟨last, hlast⟩ : ∃ last, (l.take size).getLast? = some last := by
          refine Option.ne_none_iff_exists'.mp fun h => ?_
          have := congrArg List.length (List.getLast?_eq_none_iff.mp h)
          rw [List.length_take, List.length_nil] at this
          omega
        have hrest := hl.drop hlast
        have hbelow : last.position ≤ toLex (t, i.text) := by
          have hmem := List.mem_of_mem_take (List.mem_of_getLast? hlast)
          have hlt := (List.mem_filter.mp (hl.perm.mem_iff.mp hmem)).2
          exact (lt_of_lt_of_le (by simpa using hlt) hc).le
        have hnext := ih (k + 1) last.createdAt last.id.text (l.drop size) hbelow last.id.text_ne_empty hrest
          (by rw [List.length_drop]; omega)
        simp only [hlast, hnext, Option.map_some, List.take_append_drop]

end

/-- Whatever was stored, and whatever newer nodes come in between the requests: the pages from a cursor
on have the tenant's nodes below it, each once and greatest first. -/
theorem cursor_pages_exact (j : CursorJson) (tenantID : Option ID) (size : Nat) (hsize : 1 ≤ size) (t : Time)
    (ht : t ≤ j.latest) (i : ID) (db : Nat → Store) (hdb : ∀ k, InsertedSince t (db k) (db (k + 1))) :
    ∃ l : List Node, l.Perm (((db 0).nodesOf tenantID).filter fun n => n.position < toLex (t, i.text)) ∧
      l.Pairwise (fun a b => b.position < a.position) ∧
      ∀ fuel, l.length < fuel → readPages j tenantID size db fuel 0 (encodeCursor j t i.text) = some l := by
  have hfirst : Store.listNodes tenantID { limit := size, cursor := .at t i.text } (db 0) = .ok _ := rfl
  obtain ⟨l, hl, -⟩ := Store.listNodes_below (p := { limit := size }) (Nat.one_le_iff_ne_zero.mp hsize) hfirst
  exact ⟨l, hl.perm, hl.sorted, fun fuel hfuel => readPages_below hsize ht hdb fuel 0 t i.text l le_rfl
    i.text_ne_empty hl hfuel⟩

namespace Sample

/-- A time as that many zero bytes, and then the ID. -/
def cursorJson : CursorJson where
  marshal d := some (List.replicate d.createdAt 0 ++ 1 :: Text.bytes d.id)
  unmarshal b := (Text.ofBytes ((b.dropWhile (· = 0)).drop 1)).map fun id =>
    { createdAt := (b.takeWhile (· = 0)).length, id }
  latest := 100
  marshal_ok d _ := by
    refine ⟨_, rfl, by simp, ?_⟩
    have hzero : ∀ x ∈ List.replicate d.createdAt (0 : UInt8), decide (x = 0) = true := fun x hx => by
      simp [(List.mem_replicate.mp hx).2]
    rw [List.dropWhile_append_of_pos hzero, List.takeWhile_append_of_pos hzero]
    simp [Text.ofBytes_bytes]

def nodeAt (id : ID) (createdAt : Time) : Node := { onlineNode id with createdAt, updatedAt := createdAt }

def growing : Nat → Store
  | 0 => { rented with nodes := ⟨[nodeAt 10 3, nodeAt 11 3], by decide⟩ }
  | _ + 1 => { rented with nodes := ⟨[nodeAt 10 3, nodeAt 11 3, nodeAt 12 6], by decide⟩ }

theorem growing_since (k : Nat) : InsertedSince 5 (growing k) (growing (k + 1)) := by
  cases k with
  | zero => exact ⟨[nodeAt 12 6], .refl _, by decide⟩
  | succ k => exact ⟨[], by simp [growing], by simp⟩

end Sample

theorem cursor_pages_exact_growing :
    ∃ l : List Node, l.Perm [Sample.nodeAt 10 3, Sample.nodeAt 11 3] ∧
      readPages Sample.cursorJson (some 100) 1 Sample.growing 3 0 (encodeCursor Sample.cursorJson 5 (ID.text 7)) =
        some l := by
  obtain ⟨l, hperm, -, hread⟩ := cursor_pages_exact Sample.cursorJson (some 100) 1 le_rfl 5 (by decide) 7 Sample.growing
    Sample.growing_since
  have hfilter : (((Sample.growing 0).nodesOf (some 100)).filter fun n => n.position < toLex (5, ID.text 7)) =
      [Sample.nodeAt 10 3, Sample.nodeAt 11 3] := by
    refine List.filter_eq_self.mpr fun n hn => ?_
    have hcreated : n.createdAt = 3 := by
      rcases List.mem_cons.mp hn with rfl | hn
      · rfl
      · rw [List.mem_singleton.mp hn]
        rfl
    simp [Node.position, Prod.Lex.toLex_lt_toLex, hcreated]
  rw [hfilter] at hperm
  exact ⟨l, hperm, hread 3 (by rw [hperm.length_eq]; decide)⟩

end EdgeFabric
