/-
Batches: a loop that collects items and sends them off when there are `n` of them, and what
is left at the end. Every batch that was sent on the way is full, the last one may be
smaller, none is empty, and together they are the items in order (`batches_shape`).
-/
import EdgeFabric.Lib.Dict

/-- The batches sent so far, and the items collected for the next one. -/
structure Batches (α : Type) where
  sent : List (List α)
  batch : List α

namespace Batches
variable {α : Type} {n : Nat}

def push (n : Nat) (b : Batches α) (a : α) : Batches α :=
  if n ≤ (b.batch ++ [a]).length then { sent := b.sent ++ [b.batch ++ [a]], batch := [] }
  else { b with batch := b.batch ++ [a] }

/-- All batches, with what is left over at the end. -/
def flush (b : Batches α) : List (List α) := if 0 < b.batch.length then b.sent ++ [b.batch] else b.sent

def ofList (n : Nat) (l : List α) : Batches α := l.foldl (push n) { sent := [], batch := [] }

/-- The batches that were sent are full, the next one is not yet. -/
structure Filled (n : Nat) (l : List α) (b : Batches α) : Prop where
  full : ∀ x ∈ b.sent, x.length = n
  room : b.batch.length < n
  items : b.sent.flatten ++ b.batch = l

theorem Filled.push {l : List α} {b : Batches α} (h : b.Filled n l) (a : α) : (b.push n a).Filled n (l ++ [a]) := by
  have hroom := h.room
  unfold Batches.push
  rw [List.length_append, List.length_singleton]
  split
  · refine ⟨fun x hx => ?_, by simp only [List.length_nil]; omega, ?_⟩
    · rcases List.mem_append.mp hx with hx | hx
      · exact h.full x hx
      · obtain rfl := List.mem_singleton.mp hx
        rw [List.length_append, List.length_singleton]
        omega
    · simp [← h.items]
  · refine ⟨h.full, ?_, ?_⟩
    · rw [List.length_append, List.length_singleton]
      omega
    · simp [← h.items]

theorem filled_ofList (hn : 0 < n) (l : List α) : (ofList n l).Filled n l :=
  List.foldl_visited (I := fun (seen : List α) (b : Batches α) => b.Filled n seen) ⟨by simp, hn, rfl⟩
    fun _ a _ _ _ h => h.push a

/-- Batches of one to `n` items, all but the last of them full, that are the items in order. -/
structure Shape (n : Nat) (l : List α) (batches : List (List α)) : Prop where
  sizes : ∀ x ∈ batches, 1 ≤ x.length ∧ x.length ≤ n
  full : ∀ x ∈ batches.dropLast, x.length = n
  items : batches.flatten = l

theorem batches_shape (hn : 0 < n) (l : List α) : Shape n l (ofList n l).flush := by
  obtain ⟨hfull, hroom, hitems⟩ := filled_ofList hn l
  unfold flush
  split
  · refine ⟨fun x hx => ?_, fun x hx => ?_, by simpa using hitems⟩
    · rcases List.mem_append.mp hx with hx | hx
      · rw [hfull x hx]
        omega
      · obtain rfl := List.mem_singleton.mp hx
        omega
    · rw [List.dropLast_concat] at hx
      exact hfull x hx
  · next hempty =>
    refine ⟨fun x hx => ?_, fun x hx => hfull x ((List.dropLast_sublist _).subset hx), ?_⟩
    · rw [hfull x hx]
      omega
    · rwa [List.length_eq_zero_iff.mp (by omega : (ofList n l).batch.length = 0), List.append_nil] at hitems

end Batches
