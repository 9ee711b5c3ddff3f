/-
Sums over the rows of a table: what removing a row and putting one in change.
-/
import EdgeFabric.Lib.Dict
import Mathlib.Algebra.BigOperators.Group.List.Basic
import Mathlib.Algebra.Order.BigOperators.Group.List
import Mathlib.Algebra.Order.Ring.Int

namespace Table
variable {κ α : Type} {key : α → κ} {t : Table key} {a : α}

/-- The sum of `g` over the rows. -/
def tally (g : α → Int) (t : Table key) : Int := (t.rows.map g).sum

variable [DecidableEq κ]

theorem tally_remove (g : α → Int) (ha : a ∈ t) : (t.remove (key a)).tally g = t.tally g - g a := by
  have hsum : t.tally g = g a + (t.remove (key a)).tally g := by
    rw [tally, ((perm_remove ha).map g).sum_eq, List.map_cons, List.sum_cons]
    rfl
  omega

theorem tally_remove_le {g : α → Int} (hg : ∀ b, 0 ≤ g b) (k : κ) : (t.remove k).tally g ≤ t.tally g :=
  (List.filter_sublist.map g).sum_le_sum fun _ hb => by
    obtain ⟨b, -, rfl⟩ := List.mem_map.mp hb
    exact hg b

theorem tally_put_le {g : α → Int} (hg : ∀ b, 0 ≤ g b) (a : α) : (t.put a).tally g ≤ t.tally g + g a := by
  have hrows : (t.put a).tally g = (t.remove (key a)).tally g + g a := by simp [tally, put]
  have hle := tally_remove_le hg (key a) (t := t)
  omega

theorem tally_put (g : α → Int) (ha : ∀ b ∈ t, key b ≠ key a) : (t.put a).tally g = t.tally g + g a := by
  have hrows : (t.put a).rows = t.rows ++ [a] := by
    show (t.remove (key a)).rows ++ [a] = t.rows ++ [a]
    rw [remove_of_fresh ha]
  simp [tally, hrows]

end Table
