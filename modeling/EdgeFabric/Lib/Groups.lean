/-
Lists under keys: a dictionary from keys to lists, into which items are pushed under their
keys one after the other. The list of a key is the items with that key in the order in which
they came (`get_collect`), and all lists together are the items (`perm_collect`).
-/
import EdgeFabric.Lib.Dict

/-- The items of a key. -/
structure KeyedItems (κ α : Type) where
  key : κ
  items : List α
  deriving DecidableEq, Repr

abbrev Groups (κ α : Type) := Table (KeyedItems.key : KeyedItems κ α → κ)

namespace Groups
variable {κ α : Type} [DecidableEq κ] {g : Groups κ α}

/-- The items of key `k`; none if there is no such key. -/
def get (k : κ) (g : Groups κ α) : List α := (g.find k).elim [] KeyedItems.items

def push (k : κ) (a : α) (g : Groups κ α) : Groups κ α := g.put { key := k, items := g.get k ++ [a] }

def collect (key : α → κ) (l : List α) : Groups κ α := l.foldl (fun g a => g.push (key a) a) ∅

theorem get_push_self (k : κ) (a : α) : (g.push k a).get k = g.get k ++ [a] := by
  have hfind : (g.push k a).find k = some { key := k, items := g.get k ++ [a] } :=
    Table.find_put_self (a := (⟨k, g.get k ++ [a]⟩ : KeyedItems κ α))
  rw [get, hfind]
  rfl

theorem get_push_of_ne {k k' : κ} (hk : k' ≠ k) (a : α) : (g.push k a).get k' = g.get k' := by
  have hfind : (g.push k a).find k' = g.find k' := Table.find_put_of_ne (a := (⟨k, g.get k ++ [a]⟩ : KeyedItems κ α)) hk
  rw [get, hfind, get]

theorem collect_concat (key : α → κ) (l : List α) (a : α) :
    collect key (l ++ [a]) = (collect key l).push (key a) a := by
  simp [collect]

theorem get_collect (key : α → κ) (l : List α) (k : κ) : (collect key l).get k = l.filter (key · = k) := by
  induction l using List.reverseRecOn with
  | nil => rfl
  | append_singleton l a ih =>
    rw [collect_concat, List.filter_append]
    by_cases hk : key a = k
    · subst hk
      rw [get_push_self, ih]
      simp
    · rw [get_push_of_ne (Ne.symm hk), ih]
      simp [hk]

theorem exists_mem_collect {key : α → κ} {l : List α} {k : κ} :
    (∃ row ∈ collect key l, row.key = k) ↔ ∃ a ∈ l, key a = k := by
  induction l using List.reverseRecOn with
  | nil =>
    constructor
    · rintro ⟨row, hrow, -⟩
      exact absurd hrow Table.not_mem_empty
    · rintro ⟨a, ha, -⟩
      exact absurd ha List.not_mem_nil
  | append_singleton l a ih =>
    rw [collect_concat, push, Table.exists_mem_put, ih]
    simp only [List.mem_append, List.mem_singleton, or_and_right, exists_or, exists_eq_left]
    exact or_congr_right eq_comm

def items (rows : List (KeyedItems κ α)) : List α := rows.flatMap KeyedItems.items

omit [DecidableEq κ] in
theorem items_perm {rows rows' : List (KeyedItems κ α)} (h : rows.Perm rows') : (items rows).Perm (items rows') :=
  h.flatMap_right _

theorem items_remove (k : κ) : (items g.rows).Perm (items (g.remove k).rows ++ g.get k) := by
  unfold get
  cases hfind : g.find k with
  | none =>
    rw [Table.remove_of_fresh (Table.find_eq_none.mp hfind)]
    simp
  | some row =>
    obtain ⟨hrow, rfl⟩ := Table.find_eq_some.mp hfind
    exact (items_perm (Table.perm_remove hrow)).trans List.perm_append_comm

theorem perm_collect (key : α → κ) (l : List α) : (items (collect key l).rows).Perm l := by
  induction l using List.reverseRecOn with
  | nil => exact .refl _
  | append_singleton l a ih =>
    rw [collect_concat]
    have hrows : items ((collect key l).push (key a) a).rows =
        items ((collect key l).remove (key a)).rows ++ (collect key l).get (key a) ++ [a] := by
      simp [items, push, Table.put]
    rw [hrows]
    exact ((items_remove (key a)).symm.trans ih).append_right [a]

end Groups
