/-
Pages of a table that are found by a key: the rows below a key, greatest first, cut
into pages, each of which starts below the last row of the page before. No row is left
out between two pages and none comes twice, however many rows there are.
-/
import Mathlib.Data.List.Sort

namespace Keyset
variable {α κ : Type} [LinearOrder κ]

/-- The rows with keys below `c`, greatest first. -/
structure Below (key : α → κ) (rows : List α) (c : κ) (l : List α) : Prop where
  perm : l.Perm (rows.filter fun a => key a < c)
  sorted : l.Pairwise fun a b => key b < key a

namespace Below
variable {key : α → κ} {rows l : List α} {c : κ}

theorem of_insertionSort {p : α → Bool} {r : α → α → Prop} [DecidableRel r] (hrows : (rows.map key).Nodup)
    (hp : ∀ a, p a = true ↔ key a < c) (hr : ∀ a b, r a b ↔ key b ≤ key a) :
    Below key rows c ((rows.filter p).insertionSort r) := by
  have hperm := List.perm_insertionSort r (rows.filter p)
  have hfilter : rows.filter p = rows.filter fun a => key a < c :=
    List.filter_congr fun a _ => by rw [Bool.eq_iff_iff, hp, decide_eq_true_eq]
  refine ⟨hfilter ▸ hperm, ?_⟩
  have htotal : Std.Total r := ⟨fun a b => by rw [hr, hr]; exact le_total _ _⟩
  have htrans : IsTrans α r := ⟨fun a b c hab hbc => by rw [hr] at *; exact le_trans hbc hab⟩
  have hle : ((rows.filter p).insertionSort r).Pairwise r := List.pairwise_insertionSort r _
  have hne : ((rows.filter p).insertionSort r).Pairwise fun a b => key a ≠ key b :=
    List.pairwise_map.mp ((hperm.map key).nodup_iff.mpr (hrows.sublist (List.filter_sublist.map key)))
  exact (hle.and hne).imp fun h => lt_of_le_of_ne ((hr _ _).mp h.1) h.2.symm

theorem drop (h : Below key rows c l) {n : Nat} {a : α} (ha : (l.take n).getLast? = some a) :
    Below key rows (key a) (l.drop n) := by
  obtain ⟨front, hfront⟩ := List.getLast?_eq_some_iff.mp ha
  have hsplit : front ++ [a] ++ l.drop n = l := by rw [← hfront, List.take_append_drop]
  have hsorted := h.sorted
  rw [← hsplit, List.pairwise_append] at hsorted
  obtain ⟨hpage, hrest, hcross⟩ := hsorted
  have hac : key a < c := by
    have hmem : a ∈ rows.filter fun a => key a < c := h.perm.mem_iff.mp (by rw [← hsplit]; simp)
    simpa using (List.mem_filter.mp hmem).2
  -- of the rows below `c` those of the page are not below its last one, and all others are
  have hkept : l.filter (fun b => key b < key a) = l.drop n := by
    conv_lhs => rw [← hsplit]
    rw [List.filter_append, List.filter_eq_nil_iff.mpr, List.filter_eq_self.mpr, List.nil_append]
    · intro b hb
      simpa using hcross a (by simp) b hb
    · intro b hb
      rcases List.mem_append.mp hb with hb | hb
      · simpa using ((List.pairwise_append.mp hpage).2.2 b hb a (by simp)).le
      · simp [List.mem_singleton.mp hb]
  refine ⟨?_, hrest⟩
  rw [← hkept]
  refine (h.perm.filter _).trans (List.Perm.of_eq ?_)
  rw [List.filter_filter]
  refine List.filter_congr fun b _ => ?_
  rw [Bool.eq_iff_iff, Bool.and_eq_true, decide_eq_true_eq, decide_eq_true_eq]
  exact ⟨fun hb => hb.1, fun hb => ⟨hb, hb.trans hac⟩⟩

theorem unique {rows' l' : List α} (h : Below key rows c l) (h' : Below key rows' c l')
    (hrows : (rows.filter fun a => key a < c).Perm (rows'.filter fun a => key a < c)) : l = l' := by
  refine (h.perm.trans (hrows.trans h'.perm.symm)).eq_of_pairwise (fun a b _ _ hab hba => ?_) h.sorted h'.sorted
  exact absurd hba hab.asymm

end Below

end Keyset
