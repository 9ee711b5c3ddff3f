/-
Sorting by insertion, the largest keys first. `sort` is the loop of a program over a vector:
each item in turn changes places with the one before it as long as that one has a smaller
key. `insertAll` takes the items of a list one after another and puts each before the first
one with a smaller key. They do the same (`toList_sort`), and what comes out is a permutation
in the order of the keys (`insertAll_spec`).
-/
import Mathlib.Data.List.Induction
import Mathlib.Data.List.Sort

namespace InsertionSort
variable {α κ : Type} [LinearOrder κ] (key : α → κ) {n : Nat}

/-- The inner loop, for the item at `j`. -/
def sink (xs : Vector α n) : (j : Nat) → j < n → Vector α n
  | 0, _ => xs
  | j + 1, h => if key xs[j] < key xs[j + 1] then sink (xs.swap (j + 1) j) j (Nat.lt_of_succ_lt h) else xs

/-- The outer loop, from the second item on. -/
def sort (xs : Vector α n) : Vector α n := (n - 1).fold (fun i h xs => sink key xs (i + 1) (Nat.add_lt_of_lt_sub h)) xs

/-- One item more, before the first one with a smaller key. -/
def insert (xs : List α) (x : α) : List α := xs.orderedInsert (fun a b => key b < key a) x

def insertAll (xs : List α) : List α := xs.foldl (insert key) []

/-- No key is followed by a larger one. -/
def Desc (xs : List α) : Prop := xs.Pairwise fun a b => key b ≤ key a

variable {key} {x y : α} {xs ys zs : List α}

theorem perm_insert : (insert key xs x).Perm (x :: xs) := List.perm_orderedInsert _ x xs

theorem Desc.insert (h : Desc key xs) : Desc key (insert key xs x) := by
  induction xs with
  | nil => exact List.pairwise_singleton _ _
  | cons y ys ih =>
    obtain ⟨hy, hys⟩ := List.pairwise_cons.mp h
    rw [InsertionSort.insert, List.orderedInsert_cons]
    split
    · next hlt =>
      refine List.pairwise_cons.mpr ⟨fun z hz => ?_, h⟩
      rcases List.mem_cons.mp hz with rfl | hz
      · exact hlt.le
      · exact (hy z hz).trans hlt.le
    · next hge =>
      refine List.pairwise_cons.mpr ⟨fun z hz => ?_, ih hys⟩
      rcases List.mem_cons.mp (perm_insert.mem_iff.mp hz) with rfl | hz
      · exact not_lt.mp hge
      · exact hy z hz

theorem insertAll_append : insertAll key (xs ++ [x]) = insert key (insertAll key xs) x := by
  rw [insertAll, List.foldl_append]
  rfl

variable (key) in
theorem insertAll_spec (xs : List α) : Desc key (insertAll key xs) ∧ (insertAll key xs).Perm xs := by
  induction xs using List.reverseRecOn with
  | nil => exact ⟨.nil, .refl _⟩
  | append_singleton xs x ih =>
    rw [insertAll_append]
    exact ⟨ih.1.insert, perm_insert.trans ((ih.2.cons x).trans (List.perm_append_singleton x xs).symm)⟩

theorem Desc.le_of_find? {p : α → Bool} (h : Desc key xs) (hfind : xs.find? p = some x) (hy : y ∈ xs)
    (hp : p y = true) : key y ≤ key x := by
  obtain ⟨-, before, after, rfl, hbefore⟩ := List.find?_eq_some_iff_append.mp hfind
  rcases List.mem_append.mp hy with hy | hy
  · exact absurd hp (by simpa using hbefore y hy)
  · rcases List.mem_cons.mp hy with rfl | hy
    · exact le_rfl
    · exact (List.pairwise_cons.mp (List.pairwise_append.mp h).2.1).1 y hy

/-! ## The loops -/

theorem insert_append (h : key y < key x) : insert key (ys ++ [y]) x = insert key ys x ++ [y] := by
  induction ys with
  | nil => simp [insert, h]
  | cons z ys ih =>
    simp only [insert, List.cons_append, List.orderedInsert_cons] at ih ⊢
    split
    · rfl
    · rw [ih, List.cons_append]

theorem insert_of_le (h : ∀ y ∈ ys, key x ≤ key y) : insert key ys x = ys ++ [x] := by
  induction ys with
  | nil => rfl
  | cons y ys ih =>
    obtain ⟨hy, hys⟩ := List.forall_mem_cons.mp h
    rw [insert, List.orderedInsert_cons, if_neg (not_lt.mpr hy)]
    exact congrArg (y :: ·) (ih hys)

theorem toList_sink (hys : Desc key ys) {xs : Vector α n} (hxs : xs.toList = ys ++ x :: zs) {j : Nat}
    (hj : ys.length = j) (h : j < n) : (sink key xs j h).toList = insert key ys x ++ zs := by
  -- by the items before it, from the last one to the first
  induction ys using List.reverseRecOn generalizing xs zs j with
  | nil =>
    subst hj
    exact hxs
  | append_singleton ys y ih =>
    obtain rfl : ys.length + 1 = j := by simpa using hj
    obtain ⟨hys, -, hlast⟩ := List.pairwise_append.mp hys
    have hy : xs[ys.length] = y := by
      rw [← Vector.getElem_toList (by simpa using Nat.lt_of_succ_lt h)]
      simp [hxs]
    have hx : xs[ys.length + 1] = x := by
      rw [← Vector.getElem_toList (by simpa using h)]
      simp [hxs]
    rw [sink, hx, hy]
    split
    · next hlt =>
      have hswap : (xs.swap (ys.length + 1) ys.length).toList = ys ++ x :: (y :: zs) := by
        rw [Vector.toList_swap, hxs, hx, hy]
        simp
      rw [ih hys hswap rfl, insert_append hlt]
      simp
    · next hge =>
      have hle : ∀ z ∈ ys ++ [y], key x ≤ key z := by
        intro z hz
        rcases List.mem_append.mp hz with hz | hz
        · exact (not_lt.mp hge).trans (hlast z hz y List.mem_cons_self)
        · rw [List.mem_singleton.mp hz]
          exact not_lt.mp hge
      rw [insert_of_le hle, hxs]
      simp

theorem toList_fold (xs : Vector α n) (i : Nat) (hi : i < n) :
    (i.fold (fun i h xs => sink key xs (i + 1) (Nat.lt_of_le_of_lt h hi)) xs).toList =
      insertAll key (xs.toList.take (i + 1)) ++ xs.toList.drop (i + 1) := by
  induction i with
  | zero =>
    obtain ⟨a, l, hxs⟩ := List.exists_cons_of_length_pos (by simpa using hi : 0 < xs.toList.length)
    rw [Nat.fold_zero, hxs]
    rfl
  | succ i ih =>
    have hlen : i + 1 < xs.toList.length := by simpa using hi
    obtain ⟨hdesc, hperm⟩ := insertAll_spec key (xs.toList.take (i + 1))
    have hcount : (insertAll key (xs.toList.take (i + 1))).length = i + 1 := by
      rw [hperm.length_eq, List.length_take_of_le hlen.le]
    have hdone := ih (Nat.lt_of_succ_lt hi)
    rw [List.drop_eq_getElem_cons hlen] at hdone
    rw [Nat.fold_succ, toList_sink hdesc hdone hcount, ← insertAll_append, List.take_append_getElem hlen]

theorem toList_sort (xs : Vector α n) : (sort key xs).toList = insertAll key xs.toList := by
  cases n with
  | zero =>
    have hxs : xs.toList = [] := List.eq_nil_of_length_eq_zero xs.length_toList
    exact hxs.trans (by rw [hxs]; rfl)
  | succ n =>
    refine (toList_fold xs n (Nat.lt_succ_self n)).trans ?_
    rw [List.take_of_length_le (by simp), List.drop_of_length_le (by simp), List.append_nil]

end InsertionSort
