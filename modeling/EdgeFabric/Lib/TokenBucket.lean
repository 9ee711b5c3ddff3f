/-
A token bucket over an ordered ring: it fills at a rate up to its capacity, and
what passes takes a token.

`Within` relates a bucket to the times at which something passed, the last first:
what has passed since a time `a`, together with the tokens that are left, is bounded
by the capacity and what flowed in since `a`; so in any window of length `t` no more
than capacity and `t * rate` passes. `Drained` says that the bound is reached for some
`a`, so that there is a token exactly if the bound allows for it (`token_iff`).
-/
import Mathlib.Algebra.Order.Ring.Defs
import Mathlib.Tactic.Linarith
import Mathlib.Tactic.LinearCombination
import Mathlib.Tactic.Ring

namespace EdgeFabric

structure TokenBucket (K : Type*) where
  tokens : K
  capacity : K
  rate : K
  last : K

namespace TokenBucket
variable {K : Type*} [LinearOrder K]

/-- How many of the times are in the window. -/
def passed (since upto : K) (times : List K) : Nat := times.countP fun t => since ≤ t ∧ t ≤ upto

section
variable {times : List K}

theorem passed_of_past {a upto last : K} (hpast : ∀ t ∈ times, t ≤ last) (hle : last ≤ upto) :
    passed a upto times = passed a last times := by
  refine List.countP_congr fun t ht => ?_
  have hlast : t ≤ last := hpast t ht
  simp [hlast, hlast.trans hle]

theorem passed_eq_zero {a upto last : K} (hpast : ∀ t ∈ times, t ≤ last) (hlt : last < a) :
    passed a upto times = 0 := by
  refine List.countP_eq_zero.mpr fun t ht => ?_
  have hlast : t < a := (hpast t ht).trans_lt hlt
  simp [hlast.not_ge]

theorem passed_cons {a upto t : K} :
    passed a upto (t :: times) = passed a upto times + if a ≤ t ∧ t ≤ upto then 1 else 0 := by
  simp [passed, List.countP_cons]

end

variable [CommRing K]

def full (capacity rate now : K) : TokenBucket K := { tokens := capacity, capacity, rate, last := now }

/-- The bucket at a later time. -/
def fill (now : K) (b : TokenBucket K) : TokenBucket K :=
  { b with tokens := min b.capacity (b.tokens + (now - b.last) * b.rate), last := now }

/-- A token is taken, if there is one. -/
def take (now : K) (b : TokenBucket K) : Bool × TokenBucket K :=
  let b := b.fill now
  if b.tokens < 1 then (false, b) else (true, { b with tokens := b.tokens - 1 })

structure Within (b : TokenBucket K) (times : List K) : Prop where
  rate : 0 ≤ b.rate
  tokens : 0 ≤ b.tokens
  capacity : b.tokens ≤ b.capacity
  past : ∀ t ∈ times, t ≤ b.last
  since : ∀ a ≤ b.last, (passed a b.last times : K) + b.tokens ≤ b.capacity + (b.last - a) * b.rate
  window : ∀ a t, 0 ≤ t → (passed a (a + t) times : K) ≤ b.capacity + t * b.rate

variable [IsStrictOrderedRing K] {b : TokenBucket K} {times : List K} {now : K}

theorem Within.full {capacity rate : K} (hcapacity : 0 ≤ capacity) (hrate : 0 ≤ rate) (now : K) :
    (TokenBucket.full capacity rate now).Within [] where
  rate := hrate
  tokens := hcapacity
  capacity := le_rfl
  past := fun t ht => absurd ht List.not_mem_nil
  since := fun a ha => by
    have hflow : 0 ≤ (now - a) * rate := mul_nonneg (sub_nonneg.mpr ha) hrate
    simp only [passed, List.countP_nil, Nat.cast_zero, TokenBucket.full]
    linarith
  window := fun a t ht => by
    have hflow : 0 ≤ t * rate := mul_nonneg ht hrate
    simp only [passed, List.countP_nil, Nat.cast_zero, TokenBucket.full]
    linarith

theorem Within.fill (h : b.Within times) (hnow : b.last ≤ now) : (b.fill now).Within times := by
  have hflow : 0 ≤ (now - b.last) * b.rate := mul_nonneg (sub_nonneg.mpr hnow) h.rate
  have hcapacity : 0 ≤ b.capacity := h.tokens.trans h.capacity
  refine ⟨h.rate, le_min hcapacity (add_nonneg h.tokens hflow), min_le_left _ _, fun t ht => (h.past t ht).trans hnow,
    fun a ha => ?_, h.window⟩
  have ha : a ≤ now := ha
  show (passed a now times : K) + min b.capacity (b.tokens + (now - b.last) * b.rate) ≤ b.capacity + (now - a) * b.rate
  rcases le_or_gt a b.last with hold | hnew
  · have hsince := h.since a hold
    have hmin := min_le_right b.capacity (b.tokens + (now - b.last) * b.rate)
    rw [passed_of_past h.past hnow]
    have hsum : (now - a) * b.rate = (b.last - a) * b.rate + (now - b.last) * b.rate := by ring
    linarith
  · -- nothing has passed since then, and the bucket holds no more than it can
    have hmin := min_le_left b.capacity (b.tokens + (now - b.last) * b.rate)
    have hafter : 0 ≤ (now - a) * b.rate := mul_nonneg (sub_nonneg.mpr ha) h.rate
    rw [passed_eq_zero h.past hnew, Nat.cast_zero]
    linarith

theorem Within.spend (h : b.Within times) (hone : 1 ≤ b.tokens) :
    { b with tokens := b.tokens - 1 }.Within (b.last :: times) := by
  have hnew : ∀ a, a ≤ b.last → (passed a b.last (b.last :: times) : K) = passed a b.last times + 1 := fun a ha => by
    rw [passed_cons, if_pos ⟨ha, le_rfl⟩, Nat.cast_add, Nat.cast_one]
  have hpast : ∀ t ∈ b.last :: times, t ≤ b.last := fun t ht => by
    rcases List.mem_cons.mp ht with rfl | ht
    · exact le_rfl
    · exact h.past t ht
  refine ⟨h.rate, sub_nonneg.mpr hone, (sub_le_self _ zero_le_one).trans h.capacity, hpast, fun a ha => ?_,
    fun a t ht => ?_⟩
  · have hsince := h.since a ha
    have hcount := hnew a ha
    show (passed a b.last (b.last :: times) : K) + (b.tokens - 1) ≤ b.capacity + (b.last - a) * b.rate
    linarith
  · show (passed a (a + t) (b.last :: times) : K) ≤ b.capacity + t * b.rate
    by_cases hin : a ≤ b.last ∧ b.last ≤ a + t
    · have hsince := h.since a hin.1
      have hcount := hnew a hin.1
      have hflow : (b.last - a) * b.rate ≤ t * b.rate := mul_le_mul_of_nonneg_right (by linarith [hin.2]) h.rate
      rw [passed_of_past hpast hin.2]
      linarith
    · rw [passed_cons, if_neg hin]
      exact h.window a t ht

theorem Within.take (h : b.Within times) (hnow : b.last ≤ now) :
    (b.take now).2.Within (if (b.take now).1 then now :: times else times) := by
  have hfill := h.fill hnow
  unfold TokenBucket.take
  by_cases hempty : (b.fill now).tokens < 1
  · simp only [if_pos hempty]
    exact hfill
  · simp only [if_neg hempty, if_true]
    exact hfill.spend (not_lt.mp hempty)

/-- The bound is reached: since some time from `start` on, what has passed and the tokens that
are left are all that there was. -/
def Drained (start : K) (b : TokenBucket K) (times : List K) : Prop :=
  ∃ a, start ≤ a ∧ a ≤ b.last ∧ (passed a b.last times : K) + b.tokens = b.capacity + (b.last - a) * b.rate

omit [IsStrictOrderedRing K] in
theorem Drained.full {capacity rate : K} (now : K) : (TokenBucket.full capacity rate now).Drained now [] :=
  ⟨now, le_rfl, le_rfl, by simp [passed, TokenBucket.full]⟩

theorem Drained.fill {start : K} (h : b.Drained start times) (hwithin : b.Within times) (hnow : b.last ≤ now) :
    (b.fill now).Drained start times := by
  obtain ⟨a, hstart, ha, hsum⟩ := h
  rcases le_or_gt (b.tokens + (now - b.last) * b.rate) b.capacity with hfits | hover
  · -- all that flowed in is there
    refine ⟨a, hstart, ha.trans hnow, ?_⟩
    simp only [TokenBucket.fill, min_eq_right hfits, passed_of_past hwithin.past hnow]
    linear_combination hsum
  · -- the bucket is full, and some time has gone by
    have hlt : b.last < now := lt_of_le_of_ne hnow fun heq => by
      rw [← heq, sub_self, zero_mul, add_zero] at hover
      exact absurd hwithin.capacity (not_le.mpr hover)
    refine ⟨now, (hstart.trans ha).trans hnow, le_rfl, ?_⟩
    simp [TokenBucket.fill, min_eq_left hover.le, passed_eq_zero hwithin.past hlt]

omit [IsStrictOrderedRing K] in
theorem Drained.spend {start : K} (h : b.Drained start times) :
    { b with tokens := b.tokens - 1 }.Drained start (b.last :: times) := by
  obtain ⟨a, hstart, ha, hsum⟩ := h
  refine ⟨a, hstart, ha, ?_⟩
  simp only [passed_cons, if_pos (And.intro ha le_rfl), Nat.cast_add, Nat.cast_one]
  linear_combination hsum

theorem Drained.take {start : K} (h : b.Drained start times) (hwithin : b.Within times) (hnow : b.last ≤ now) :
    (b.take now).2.Drained start (if (b.take now).1 then now :: times else times) := by
  have hfill := h.fill hwithin hnow
  unfold TokenBucket.take
  by_cases hempty : (b.fill now).tokens < 1
  · simp only [if_pos hempty]
    exact hfill
  · simp only [if_neg hempty, if_true]
    exact hfill.spend

/-- There is a token exactly if one more may pass in every window that ends now. -/
theorem token_iff {start : K} (hwithin : b.Within times) (hdrained : b.Drained start times) (hnow : b.last ≤ now) :
    (b.take now).1 = true ↔
      ∀ a, start ≤ a → a ≤ now → (passed a now times : K) + 1 ≤ b.capacity + (now - a) * b.rate := by
  have htoken : (b.take now).1 = true ↔ 1 ≤ (b.fill now).tokens := by
    unfold TokenBucket.take
    by_cases hempty : (b.fill now).tokens < 1
    · simp [if_pos hempty, not_le.mpr hempty]
    · simp [if_neg hempty, not_lt.mp hempty]
  rw [htoken]
  constructor
  · intro hone a _ ha
    have hsince : (passed a now times : K) + (b.fill now).tokens ≤ b.capacity + (now - a) * b.rate :=
      (hwithin.fill hnow).since a ha
    linarith
  · intro hall
    obtain ⟨a, hstart, ha, hsum⟩ := hdrained.fill hwithin hnow
    have hsum : (passed a now times : K) + (b.fill now).tokens = b.capacity + (now - a) * b.rate := hsum
    linarith [hall a hstart ha]

end TokenBucket
end EdgeFabric
