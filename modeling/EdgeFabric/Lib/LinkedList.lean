/-
Doubly linked lists in a heap. The cells are addresses; `prev` and `next` are the
pointer fields of every cell, those of other lists and of none included. `Linked d l`
says that following the pointers from either end gives the addresses `l`, and each
operation on the pointers is shown to be one on that list.
-/
import Mathlib.Data.List.Nodup
import Mathlib.Logic.Function.Basic

/-- The two ends of a list, and the pointers of all cells. -/
structure DList (P : Type) where
  prev : P → Option P
  next : P → Option P
  head : Option P
  tail : Option P

namespace DList
variable {P : Type}

def empty : DList P := ⟨fun _ => none, fun _ => none, none, none⟩

/-- The list is dropped; its cells keep their pointers. -/
def clear (d : DList P) : DList P := { d with head := none, tail := none }

section
variable [DecidableEq P]

def addToHead (p : P) (d : DList P) : DList P :=
  let prev := Function.update d.prev p none
  { prev := match d.head with
      | some h => Function.update prev h (some p)
      | none => prev
    next := Function.update d.next p d.head
    head := some p
    tail := match d.tail with
      | some t => some t
      | none => some p }

def unlink (p : P) (d : DList P) : DList P :=
  let d := match d.prev p with
    | some q => { d with next := Function.update d.next q (d.next p) }
    | none => { d with head := d.next p }
  let d := match d.next p with
    | some q => { d with prev := Function.update d.prev q (d.prev p) }
    | none => { d with tail := d.prev p }
  { d with prev := Function.update d.prev p none, next := Function.update d.next p none }

def moveToHead (p : P) (d : DList P) : DList P := if d.head = some p then d else (d.unlink p).addToHead p

end

/-- The pointers are those of the list `l`. -/
structure Linked (d : DList P) (l : List P) : Prop where
  nodup : l.Nodup
  head : d.head = l.head?
  tail : d.tail = l.getLast?
  links : ∀ l₁ p l₂, l = l₁ ++ p :: l₂ → d.prev p = l₁.getLast? ∧ d.next p = l₂.head?

variable {d : DList P} {l : List P} {p : P}

theorem Linked.nil (hhead : d.head = none) (htail : d.tail = none) : d.Linked [] :=
  ⟨List.nodup_nil, hhead, htail, fun l₁ p l₂ h => by simp at h⟩

theorem Linked.empty : (DList.empty : DList P).Linked [] := .nil rfl rfl

theorem Linked.clear : d.clear.Linked [] := .nil rfl rfl

section
variable [DecidableEq P]

theorem Linked.addToHead (h : d.Linked l) (hp : p ∉ l) : (d.addToHead p).Linked (p :: l) := by
  have hhead := h.head
  refine ⟨List.nodup_cons.mpr ⟨hp, h.nodup⟩, rfl, ?_, fun l₁ q l₂ hl => ?_⟩
  · have htail := h.tail
    unfold DList.addToHead
    cases l with
    | nil => simp [htail]
    | cons a l =>
      obtain ⟨t, ht⟩ : ∃ t, (a :: l).getLast? = some t := ⟨_, List.getLast?_eq_some_getLast (by simp)⟩
      simp [htail, ht, List.getLast?_cons]
  · unfold DList.addToHead
    cases l₁ with
    | nil =>
      obtain ⟨rfl, rfl⟩ : p = q ∧ l = l₂ := by simpa using hl
      refine ⟨?_, by simp [hhead]⟩
      cases l with
      | nil => simp [hhead]
      | cons a l =>
        have hne : p ≠ a := fun he => hp (he ▸ List.mem_cons_self)
        simp [hhead, hne]
    | cons b l₁ =>
      obtain ⟨rfl, rfl⟩ : p = b ∧ l = l₁ ++ q :: l₂ := by simpa using hl
      obtain ⟨hprev, hnext⟩ := h.links l₁ q l₂ rfl
      have hq : q ≠ p := fun he => hp (by simp [he])
      refine ⟨?_, by simp [hq, hnext]⟩
      cases l₁ with
      | nil => simp [hhead]
      | cons a l₁ =>
        -- the second cell is the only one whose `prev` is written
        have hqa : q ≠ a := fun he => by
          have := h.nodup
          simp [he] at this
        simp only [hhead, List.cons_append, List.head?_cons, Function.update_of_ne hqa, Function.update_of_ne hq, hprev]
        rw [List.getLast?_cons_cons]

/-- Where the pointers to a cell that is no neighbour of its own lead after it is unlinked. -/
theorem next_unlink {q : P} (hprev : d.prev p ≠ some p) (hq : q ≠ p) :
    (d.unlink p).next q = if d.prev p = some q then d.next p else d.next q := by
  unfold DList.unlink
  cases hx : d.prev p with
  | none => cases hy : d.next p <;> simp [Function.update_of_ne hq, hy]
  | some r =>
    have hr : p ≠ r := fun he => hprev (hx.trans (congrArg some he.symm))
    by_cases hqr : q = r
    · subst hqr
      cases hy : d.next p <;> simp [Function.update_of_ne hq, Function.update_of_ne hr, hy]
    · have hrq : r ≠ q := fun he => hqr he.symm
      cases hy : d.next p <;> simp [Function.update_of_ne hq, Function.update_of_ne hr, hy, hrq, hqr]

theorem prev_unlink {q : P} (hprev : d.prev p ≠ some p) (hq : q ≠ p) :
    (d.unlink p).prev q = if d.next p = some q then d.prev p else d.prev q := by
  unfold DList.unlink
  cases hx : d.prev p with
  | none =>
    cases hy : d.next p with
    | none => simp [Function.update_of_ne hq, hx, hy]
    | some r =>
      by_cases hqr : q = r
      · subst hqr; simp [Function.update_of_ne hq, hx, hy]
      · have hrq : r ≠ q := fun he => hqr he.symm
        simp [Function.update_of_ne hq, hy, hrq, hqr]
  | some u =>
    have hu : p ≠ u := fun he => hprev (hx.trans (congrArg some he.symm))
    cases hy : d.next p with
    | none => simp [Function.update_of_ne hq, Function.update_of_ne hu, hx, hy]
    | some r =>
      by_cases hqr : q = r
      · subst hqr; simp [Function.update_of_ne hq, Function.update_of_ne hu, hx, hy]
      · have hrq : r ≠ q := fun he => hqr he.symm
        simp [Function.update_of_ne hq, Function.update_of_ne hu, hy, hrq, hqr]

theorem head_unlink : (d.unlink p).head = if d.prev p = none then d.next p else d.head := by
  unfold DList.unlink
  cases hx : d.prev p <;> dsimp only <;> split <;> simp

theorem tail_unlink (hprev : d.prev p ≠ some p) : (d.unlink p).tail = if d.next p = none then d.prev p else d.tail := by
  unfold DList.unlink
  cases hx : d.prev p with
  | none => cases hy : d.next p <;> simp [hx, hy]
  | some r =>
    have hr : p ≠ r := fun he => hprev (hx.trans (congrArg some he.symm))
    cases hy : d.next p <;> simp [Function.update_of_ne hr, hx, hy]

theorem Linked.unlink {a b : List P} (h : d.Linked (a ++ p :: b)) : (d.unlink p).Linked (a ++ b) := by
  obtain ⟨hprev, hnext⟩ := h.links a p b rfl
  obtain ⟨hfree, hnodup⟩ := List.nodup_cons.mp (List.nodup_middle.mp h.nodup)
  have hprevp : d.prev p ≠ some p := fun he =>
    hfree (List.mem_append_left _ (List.mem_of_getLast? (hprev ▸ he)))
  refine ⟨hnodup, ?_, ?_, fun l₁ q l₂ hl => ?_⟩
  · rw [head_unlink, hprev, hnext, h.head]
    cases a <;> simp
  · rw [tail_unlink hprevp, hprev, hnext, h.tail]
    cases b <;> simp
  · have hqp : q ≠ p := fun he => hfree (by rw [hl, he]; simp)
    rw [next_unlink hprevp hqp, prev_unlink hprevp hqp, hprev, hnext]
    obtain ⟨c, rfl, rfl⟩ | ⟨c, rfl, rfl⟩ : (∃ c, l₁ = a ++ c ∧ b = c ++ q :: l₂) ∨ ∃ c, a = l₁ ++ q :: c ∧
      l₂ = c ++ b := by
      rcases List.append_eq_append_iff.mp hl with ⟨c, hc, hb⟩ | ⟨c, hc, hb⟩
      · exact .inl ⟨c, hc, hb⟩
      · cases c with
        | nil => exact .inl ⟨[], by simpa using hc.symm, by simpa using hb.symm⟩
        | cons x c =>
          obtain ⟨rfl, rfl⟩ : q = x ∧ l₂ = c ++ b := by simpa using hb
          exact .inr ⟨c, hc, rfl⟩
    · -- the cell is behind the one unlinked
      obtain ⟨hprevq, hnextq⟩ := h.links (a ++ p :: c) q l₂ (by simp)
      have hqa : a.getLast? ≠ some q := fun he => by
        have := List.disjoint_of_nodup_append hnodup (List.mem_of_getLast? he)
        simp at this
      rw [if_neg hqa, hnextq]
      refine ⟨?_, rfl⟩
      cases c with
      | nil => simp
      | cons x c =>
        have hqx : x ≠ q := fun he => by
          have := hnodup.of_append_right
          simp [he] at this
        simp [hqx, hprevq, List.getLast?_append]
    · -- the cell is before it
      obtain ⟨hprevq, hnextq⟩ := h.links l₁ q (c ++ p :: b) (by simp)
      have hqb : b.head? ≠ some q := fun he => by
        have := List.disjoint_of_nodup_append hnodup (a := q) (by simp) (List.mem_of_head? he)
        exact this
      rw [if_neg hqb, hprevq]
      refine ⟨rfl, ?_⟩
      cases c with
      | nil => simp
      | cons x c =>
        have hqx : (l₁ ++ q :: x :: c).getLast? ≠ some q := fun he => by
          have hlast : (x :: c).getLast? = some q := by simpa [List.getLast?_append] using he
          have := hnodup.of_append_left.of_append_right
          have hmem := List.mem_of_getLast? hlast
          exact (List.nodup_cons.mp this).1 hmem
        rw [if_neg hqx, hnextq]
        rfl

theorem Linked.moveToHead {a b : List P} (h : d.Linked (a ++ p :: b)) : (d.moveToHead p).Linked (p :: (a ++ b)) := by
  obtain ⟨hfree, -⟩ := List.nodup_cons.mp (List.nodup_middle.mp h.nodup)
  unfold DList.moveToHead
  by_cases hhead : d.head = some p
  · rw [if_pos hhead]
    -- a cell at the head has nothing before it
    have ha : a = [] := by
      rw [h.head] at hhead
      cases a with
      | nil => rfl
      | cons x a =>
        obtain rfl : x = p := by simpa using hhead
        exact absurd hfree (by simp)
    subst ha
    exact h
  · rw [if_neg hhead]
    exact h.unlink.addToHead hfree

end
end DList
