/-
Numbers as text in a base up to sixteen: what `Nat.toDigits` writes,
`Digits.parse` reads back, in upper or lower case.
-/
import Mathlib.Data.Nat.Digits.Defs
import Mathlib.Tactic.IntervalCases

namespace Digits
variable {d b n : Nat} {c : Char}

def value (c : Char) : Option Nat :=
  if '0' ≤ c ∧ c ≤ '9' then some (c.toNat - '0'.toNat)
  else if 'a' ≤ c ∧ c ≤ 'f' then some (c.toNat - 'a'.toNat + 10)
  else if 'A' ≤ c ∧ c ≤ 'F' then some (c.toNat - 'A'.toNat + 10)
  else none

/-- One more digit at the end of the number `n`, if it is a digit of base `b`. -/
def push (b n : Nat) (c : Char) : Option Nat :=
  match value c with
  | some d => if d < b then some (n * b + d) else none
  | none => none

/-- The number that the digits write, read from the left; `none` if there are
none or one of them is not a digit of base `b`. -/
def parse (b : Nat) : List Char → Option Nat
  | [] => none
  | cs => cs.foldlM (push b) 0

theorem value_digitChar (h : d < 16) : value d.digitChar = some d := by
  interval_cases d <;> rfl

theorem toNat_lt_of_value (h : (value c).isSome) : c.toNat < 128 := by
  have hle : ∀ d : Char, c ≤ d → c.toNat ≤ d.toNat := fun _ h => h
  unfold value at h
  split at h
  · next h' => exact lt_of_le_of_lt (hle _ h'.2) (by decide)
  · split at h
    · next h' => exact lt_of_le_of_lt (hle _ h'.2) (by decide)
    · split at h
      · next h' => exact lt_of_le_of_lt (hle _ h'.2) (by decide)
      · cases h

theorem push_digitChar (n : Nat) (hd : d < b) (hb : b ≤ 16) :
    push b n d.digitChar = some (n * b + d) := by
  simp [push, value_digitChar (by omega : d < 16), hd]

theorem foldlM_toDigits (hb : 1 < b) (hb' : b ≤ 16) (n : Nat) :
    (Nat.toDigits b n).foldlM (push b) 0 = some n := by
  induction n using Nat.strongRecOn with
  | ind n ih =>
    rw [Nat.toDigits_eq_if hb]
    split
    · next hn => simp [push_digitChar 0 hn hb']
    · next hn =>
      have hlt : n / b < n := Nat.div_lt_self (by omega) hb
      have hmod : n % b < b := Nat.mod_lt _ (by omega)
      rw [List.foldlM_append, ih _ hlt]
      simp [push_digitChar (n / b) hmod hb', Nat.div_add_mod']

theorem parse_toDigits (hb : 1 < b) (hb' : b ≤ 16) (n : Nat) : parse b (Nat.toDigits b n) = some n := by
  unfold parse
  split
  · next h => exact absurd h Nat.toDigits_ne_nil
  · exact foldlM_toDigits hb hb' n

theorem value_of_mem_toDigits (hb : 1 < b) (hb' : b ≤ 16) (h : c ∈ Nat.toDigits b n) :
    (value c).isSome := by
  induction n using Nat.strongRecOn with
  | ind n ih =>
    rw [Nat.toDigits_eq_if hb] at h
    split at h
    · next hn =>
      rw [List.mem_singleton] at h
      simp [h, value_digitChar (by omega : n < 16)]
    · next hn =>
      have hmod : n % b < b := Nat.mod_lt _ (by omega)
      rcases List.mem_append.mp h with h | h
      · exact ih _ (Nat.div_lt_self (by omega) hb) h
      · rw [List.mem_singleton] at h
        simp [h, value_digitChar (by omega : n % b < 16)]

theorem not_mem_toDigits (hb : 1 < b) (hb' : b ≤ 16) (hc : value c = none) :
    c ∉ Nat.toDigits b n := by
  intro h
  have := value_of_mem_toDigits hb hb' h
  simp [hc] at this

theorem head_toDigits_ne_zero (hb : 1 < b) (hb' : b ≤ 16) (hn : 0 < n) :
    (Nat.toDigits b n).head? ≠ some '0' := by
  induction n using Nat.strongRecOn with
  | ind n ih =>
    rw [Nat.toDigits_eq_if hb]
    split
    · next hlt =>
      intro h
      have hv := value_digitChar (by omega : n < 16)
      rw [Option.some.inj h] at hv
      exact absurd (Option.some.inj hv) (by simp; omega)
    · next hge =>
      have hq : 0 < n / b := Nat.div_pos (by omega) (by omega)
      have := ih _ (Nat.div_lt_self hn hb) hq
      obtain ⟨c, cs, hcs⟩ := List.exists_cons_of_ne_nil (Nat.toDigits_ne_nil (n := n / b) (b := b))
      rw [hcs] at this ⊢
      simpa using this

/-! ## A fixed number of digits -/

/-- The last `k` digits of `n` in base `b`, the most significant first. -/
def fixed (b : Nat) : Nat → Nat → List Nat
  | 0, _ => []
  | k + 1, n => fixed b k (n / b) ++ [n % b]

@[simp] theorem length_fixed (b k n : Nat) : (fixed b k n).length = k := by
  induction k generalizing n with
  | zero => rfl
  | succ k ih => simp [fixed, ih]

theorem lt_of_mem_fixed {k : Nat} (hb : 0 < b) (h : d ∈ fixed b k n) : d < b := by
  induction k generalizing n with
  | zero => simp [fixed] at h
  | succ k ih =>
    rcases List.mem_append.mp h with h | h
    · exact ih h
    · rw [List.mem_singleton.mp h]
      exact Nat.mod_lt _ hb

theorem foldl_fixed (b k n : Nat) : (fixed b k n).foldl (fun a d => a * b + d) 0 = n % b ^ k := by
  induction k generalizing n with
  | zero => simp [fixed, Nat.mod_one]
  | succ k ih =>
    rw [fixed, List.foldl_append, ih, List.foldl_cons, List.foldl_nil, Nat.pow_succ, Nat.mul_comm (b ^ k) b,
      Nat.mod_mul, Nat.mul_comm, Nat.add_comm]

theorem foldlM_digitChar (hb : b ≤ 16) {ds : List Nat} (h : ∀ d ∈ ds, d < b) (a : Nat) :
    (ds.map Nat.digitChar).foldlM (push b) a = some (ds.foldl (fun a d => a * b + d) a) := by
  induction ds generalizing a with
  | nil => rfl
  | cons d ds ih =>
    simp only [List.map_cons, List.foldlM_cons, List.foldl_cons]
    rw [push_digitChar a (h d (by simp)) hb]
    exact ih (fun x hx => h x (List.mem_cons_of_mem _ hx)) _

theorem parse_fixed (hb : 0 < b) (hb' : b ≤ 16) (k n : Nat) :
    parse b ((fixed b (k + 1) n).map Nat.digitChar) = some (n % b ^ (k + 1)) := by
  unfold parse
  split
  · next h =>
    have := congrArg List.length h
    simp at this
  · rw [foldlM_digitChar hb' (fun d hd => lt_of_mem_fixed hb hd), foldl_fixed]

end Digits
