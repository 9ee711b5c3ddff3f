/-
Tables used as dictionaries: a row is put in the place of the one with its key,
removed by key, and a list is collected under its keys, the last row of a key
winning. A loop over a dictionary visits its rows in an order of its own each
time; `RangeOrder` is such a choice of orders, and `foldl_visited` the rule for a
loop, whose invariant may speak of the rows visited so far.
-/
import EdgeFabric.Lib.Table
import Mathlib.Data.List.Induction

namespace Table
variable {κ α : Type} {key : α → κ} [DecidableEq κ]
variable {k : κ} {t : Table key} {a : α} {l : List α}

/-- The table without the row of key `k`. -/
def remove (k : κ) (t : Table key) : Table key := t.filter fun a => key a ≠ k

@[simp] theorem mem_remove : a ∈ t.remove k ↔ a ∈ t ∧ key a ≠ k := by
  simp [remove]

theorem remove_of_fresh (h : ∀ b ∈ t, key b ≠ k) : t.remove k = t :=
  Table.ext (List.filter_eq_self.mpr fun b hb => decide_eq_true (h b hb))

theorem perm_remove (ha : a ∈ t) : t.rows.Perm (a :: (t.remove (key a)).rows) := by
  obtain ⟨before, after, hrows⟩ := List.append_of_mem (mem_def.mp ha)
  have hnodup := t.nodup
  rw [hrows, List.map_append, List.map_cons, List.nodup_append, List.nodup_cons] at hnodup
  have hbefore : before.filter (fun b => key b ≠ key a) = before :=
    List.filter_eq_self.mpr fun b hb => decide_eq_true fun he =>
      hnodup.2.2 _ (List.mem_map_of_mem hb) _ List.mem_cons_self he
  have hafter : after.filter (fun b => key b ≠ key a) = after :=
    List.filter_eq_self.mpr fun b hb => decide_eq_true fun he => hnodup.2.1.1 (he ▸ List.mem_map_of_mem hb)
  have hremove : (t.remove (key a)).rows = before ++ after := by
    rw [remove, rows_filter, hrows, List.filter_append, List.filter_cons_of_neg (by simp), hbefore, hafter]
  rw [hremove, hrows]
  exact List.perm_middle

/-- The table with row `a`, in place of the row with its key if there is one. -/
def put (a : α) (t : Table key) : Table key where
  rows := (t.remove (key a)).rows ++ [a]
  nodup := by
    rw [List.map_append]
    refine (t.remove (key a)).nodup.append (List.nodup_singleton _) ?_
    intro k hk hk'
    obtain ⟨b, hb, rfl⟩ := List.mem_map.mp hk
    exact (mem_remove.mp hb).2 (List.mem_singleton.mp hk')

@[simp] theorem mem_put {b : α} : b ∈ t.put a ↔ (b ∈ t ∧ key b ≠ key a) ∨ b = a := by
  rw [mem_def, put, List.mem_append, List.mem_singleton, ← mem_def, mem_remove]

theorem find_put_self : (t.put a).find (key a) = some a :=
  find_eq_some.mpr ⟨mem_put.mpr (.inr rfl), rfl⟩

theorem find_put_of_ne (hk : k ≠ key a) : (t.put a).find k = t.find k := by
  ext b
  simp only [find_eq_some, mem_put]
  constructor
  · rintro ⟨⟨hb, -⟩ | rfl, hkey⟩
    · exact ⟨hb, hkey⟩
    · exact absurd hkey.symm hk
  · rintro ⟨hb, rfl⟩
    exact ⟨.inl ⟨hb, hk⟩, rfl⟩

theorem find_remove_of_ne {k' : κ} (hk : k ≠ k') : (t.remove k').find k = t.find k := by
  ext b
  simp only [find_eq_some, mem_remove]
  constructor
  · rintro ⟨⟨hb, -⟩, hkey⟩
    exact ⟨hb, hkey⟩
  · rintro ⟨hb, rfl⟩
    exact ⟨⟨hb, hk⟩, rfl⟩

theorem exists_mem_put :
    (∃ b ∈ t.put a, key b = k) ↔ (∃ b ∈ t, key b = k) ∨ k = key a := by
  constructor
  · rintro ⟨b, hb, rfl⟩
    rcases mem_put.mp hb with ⟨hb, _⟩ | rfl
    · exact .inl ⟨b, hb, rfl⟩
    · exact .inr rfl
  · intro h
    by_cases hk : k = key a
    · exact ⟨a, mem_put.mpr (.inr rfl), hk.symm⟩
    · obtain ⟨b, hb, rfl⟩ := h.resolve_right hk
      exact ⟨b, mem_put.mpr (.inl ⟨hb, hk⟩), rfl⟩

theorem exists_mem_remove {k' : κ} :
    (∃ b ∈ t.remove k', key b = k) ↔ (∃ b ∈ t, key b = k) ∧ k ≠ k' := by
  constructor
  · rintro ⟨b, hb, rfl⟩
    obtain ⟨hb, hne⟩ := mem_remove.mp hb
    exact ⟨⟨b, hb, rfl⟩, hne⟩
  · rintro ⟨⟨b, hb, rfl⟩, hne⟩
    exact ⟨b, mem_remove.mpr ⟨hb, hne⟩, rfl⟩

/-- The rows of a list under their keys; of two rows with one key the later stays. -/
def ofList (l : List α) : Table key := l.foldl (fun t a => t.put a) ∅

theorem ofList_concat (l : List α) (a : α) : (ofList (l ++ [a]) : Table key) = (ofList l).put a := by
  simp [ofList]

theorem mem_of_mem_ofList (h : a ∈ (ofList l : Table key)) : a ∈ l := by
  induction l using List.reverseRecOn with
  | nil => exact absurd h not_mem_empty
  | append_singleton l b ih =>
    rw [ofList_concat, mem_put] at h
    rcases h with ⟨h, _⟩ | rfl
    · exact List.mem_append_left _ (ih h)
    · simp

theorem exists_mem_ofList (h : a ∈ l) : ∃ b ∈ (ofList l : Table key), key b = key a := by
  induction l using List.reverseRecOn with
  | nil => cases h
  | append_singleton l b ih =>
    rw [ofList_concat]
    by_cases hk : key a = key b
    · exact ⟨b, mem_put.mpr (.inr rfl), hk.symm⟩
    · rcases List.mem_append.mp h with h | h
      · obtain ⟨c, hc, hca⟩ := ih h
        exact ⟨c, mem_put.mpr (.inl ⟨hc, hca ▸ hk⟩), hca⟩
      · exact absurd (congrArg key (List.mem_singleton.mp h)) hk

theorem mem_ofList (h : (l.map key).Nodup) : a ∈ (ofList l : Table key) ↔ a ∈ l := by
  refine ⟨mem_of_mem_ofList, fun ha => ?_⟩
  have hkey : ∃ b ∈ (ofList l : Table key), key b = key a := exists_mem_ofList ha
  obtain ⟨b, hb, hba⟩ := hkey
  rwa [← List.inj_on_of_nodup_map h (mem_of_mem_ofList hb) ha hba]

theorem ofList_rows (t : Table key) : (ofList t.rows : Table key) = t := by
  have h : ∀ l : List α, (l.map key).Nodup → (ofList l : Table key).rows = l := by
    intro l
    induction l using List.reverseRecOn with
    | nil => intro _; rfl
    | append_singleton l a ih =>
      intro hl
      rw [List.map_append, List.map_cons, List.map_nil] at hl
      have hfree : ∀ b ∈ l, key b ≠ key a := fun b hb he =>
        List.disjoint_of_nodup_append hl (List.mem_map_of_mem hb) (by simp [he])
      rw [ofList_concat]
      show ((ofList l : Table key).rows.filter fun b => key b ≠ key a) ++ [a] = l ++ [a]
      rw [ih hl.of_append_left, List.filter_eq_self.mpr fun b hb => decide_eq_true (hfree b hb)]
  exact Table.ext (h t.rows t.nodup)

theorem filterMap_find (t : Table key) : (t.rows.map key).filterMap (fun k => t.find k) = t.rows := by
  have h : ∀ l : List α, (∀ a ∈ l, a ∈ t) → (l.map key).filterMap (fun k => t.find k) = l := by
    intro l
    induction l with
    | nil => intro _; rfl
    | cons a l ih =>
      intro hl
      have hfind : t.find (key a) = some a := find_eq_some.mpr ⟨hl a List.mem_cons_self, rfl⟩
      simp only [List.map_cons, List.filterMap_cons, hfind]
      rw [ih fun b hb => hl b (List.mem_cons_of_mem _ hb)]
  exact h t.rows fun _ ha => ha

end Table

/-- For the `n`-th loop, the order in which it visits rows. -/
structure RangeOrder where
  order : Nat → {α : Type} → List α → List α
  perm : ∀ n {α : Type} (l : List α), (order n l).Perm l

namespace RangeOrder

/-- Rows are visited as they are stored. -/
def asStored : RangeOrder := ⟨fun _ _ l => l, fun _ _ l => .refl l⟩

def reversed : RangeOrder := ⟨fun _ _ l => l.reverse, fun _ _ l => l.reverse_perm⟩

@[simp] theorem mem_order {o : RangeOrder} {n : Nat} {α : Type} {l : List α} {a : α} : a ∈ o.order n l ↔ a ∈ l :=
  (o.perm n l).mem_iff

end RangeOrder

/-- The rule for a loop: what holds before it, of no visited rows, and is kept by one
more, holds after it of all of them. -/
theorem List.foldl_visited {α β : Type} {f : β → α → β} {I : List α → β → Prop} {l : List α} {b : β} (h0 : I [] b)
    (hstep : ∀ seen a rest b, l = seen ++ a :: rest → I seen b → I (seen ++ [a]) (f b a)) : I l (l.foldl f b) := by
  suffices h : ∀ rest seen b, l = seen ++ rest → I seen b → I l (rest.foldl f b) from h l [] b rfl h0
  intro rest
  induction rest with
  | nil => intro seen b hl hI; simpa [hl] using hI
  | cons a rest ih =>
    intro seen b hl hI
    exact ih (seen ++ [a]) (f b a) (by simpa using hl) (hstep seen a rest b hl hI)
