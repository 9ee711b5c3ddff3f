/-
What a program returns whatever others do to the state between its steps, as long as the state
goes on to satisfy `I`: `Yields I P`. Run alone, and in every interleaving with programs that
keep `I`, the result is then as `P` says.
-/
import EdgeFabric.Lib.Interleave

namespace Prog
variable {L ρ σ ε α β : Type}

/-- The result satisfies `P`, if `I` holds whenever the program takes a step. -/
def Yields (I : σ → Prop) (P : Except ε α → Prop) : Prog L ρ σ ε α → Prop
  | .ret r => P r
  | .step _ _ next => ∀ v s, I s → (next v s).Yields I P

namespace Yields
variable {I : σ → Prop} {P : Except ε α → Prop} {p : Prog L ρ σ ε α}

theorem pure {a : α} (h : P (.ok a)) : (Pure.pure a : Prog L ρ σ ε α).Yields I P := h

theorem call_bind {P : Except ε β → Prop} {l : L} {f : ρ → σ → Except ε α × σ} {g : α → Prog L ρ σ ε β}
    (h : ∀ v s, I s → ∃ a, (f v s).1 = .ok a ∧ (g a).Yields I P) : (Prog.call l f >>= g).Yields I P := by
  intro v s hs
  obtain ⟨a, ha, hg⟩ := h v s hs
  show ((Prog.ret (f v s).1).bind g).Yields I P
  rw [ha]
  exact hg

theorem mono {J : σ → Prop} (hp : p.Yields I P) (h : ∀ s, J s → I s) : p.Yields J P := by
  induction p with
  | ret r => exact hp
  | step l act next ih => exact fun v s hs => ih v s (hp v s (h s hs))

theorem map {a : α} (hp : p.Yields I (· = .ok a)) (f : α → β) :
    (p >>= fun a => Pure.pure (f a)).Yields I (· = .ok (f a)) := by
  induction p with
  | ret r =>
    obtain rfl : r = .ok a := hp
    rfl
  | step l act next ih => exact fun v s hs => ih v s (hp v s hs)

theorem exec {R : L → σ → σ → Prop} (hp : p.Yields I P) (hR : ∀ l s s', R l s s' → I s → I s') (hw : p.Within R)
    (v : ρ) {s : σ} (hs : I s) : P (p.exec v s).1 := by
  induction p generalizing s with
  | ret r => exact hp
  | step l act next ih =>
    obtain ⟨hact, hnext⟩ := Within.step.mp hw v s
    exact ih v s (hp v s hs) hnext (hR l s _ hact hs)

end Yields
end Prog

namespace Sys
variable {ι L ρ σ ε α : Type} [DecidableEq ι]
variable {c : Sys ι L ρ σ ε α} {I : σ → Prop}

/-- All processes take steps as `R` allows only. -/
def AllWithin (R : L → σ → σ → Prop) (c : Sys ι L ρ σ ε α) : Prop := ∀ i, (c.procs i).Within R

theorem AllWithin.step {R : L → σ → σ → Prop} (h : c.AllWithin R) (v : ρ) (i : ι) :
    (c.step v i).AllWithin R := by
  cases hp : c.procs i with
  | ret r => rwa [step_of_ret hp]
  | step l act next =>
    have hi := h i
    rw [hp] at hi
    intro j
    rw [step_of_step hp]
    by_cases hji : j = i
    · subst hji
      simpa using (Prog.Within.step.mp hi v c.state).2
    · simpa [hji] using h j

theorem AllWithin.state {R : L → σ → σ → Prop} (h : c.AllWithin R)
    (hR : ∀ l s s', R l s s' → I s → I s') (v : ρ) (i : ι) (hs : I c.state) : I (c.step v i).state := by
  cases hp : c.procs i with
  | ret r => rwa [step_of_ret hp]
  | step l act next =>
    have hi := h i
    rw [hp] at hi
    rw [step_of_step hp]
    exact hR l _ _ (Prog.Within.step.mp hi v c.state).1 hs

/-- A step of any process leaves this one with a result as `P` says. -/
theorem yields_step {P : Except ε α → Prop} {i : ι} (h : (c.procs i).Yields I P)
    (hs : I c.state) (v : ρ) (j : ι) : ((c.step v j).procs i).Yields I P := by
  cases hp : c.procs j with
  | ret r => rwa [step_of_ret hp]
  | step l act next =>
    rw [step_of_step hp]
    by_cases hij : i = j
    · subst hij
      rw [hp] at h
      simpa using h v c.state hs
    · simpa [hij] using h

omit [DecidableEq ι] in
theorem yields_result {P : Except ε α → Prop} {i : ι} (h : (c.procs i).Yields I P) {r}
    (hr : c.result i = some r) : P r := by
  unfold result at hr
  split at hr
  · next r' hp =>
    cases hr
    rw [hp] at h
    exact h
  · cases hr

end Sys
