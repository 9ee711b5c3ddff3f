/-
The labels of the steps that a program takes when it runs alone, and a rule for them:
`Guarded I K` says that every step taken where `I` holds has a label in `K` and keeps `I`,
so that a run from such a state has no other labels (`Guarded.trace`).
-/
import EdgeFabric.Lib.Prog

namespace Prog
variable {L ρ σ ε ε' α β : Type}

/-- The labels of the steps, in order. -/
def trace (v : ρ) : Prog L ρ σ ε α → σ → List L
  | .ret _, _ => []
  | .step l act next, s => l :: (next v s).trace v (act v s)

@[simp] theorem trace_pure (v : ρ) (a : α) (s : σ) : (Pure.pure a : Prog L ρ σ ε α).trace v s = [] := rfl

@[simp] theorem trace_call (v : ρ) (l : L) (f : ρ → σ → Except ε α × σ) (s : σ) : (call l f).trace v s = [l] := rfl

@[simp] theorem trace_attempt (v : ρ) (p : Prog L ρ σ ε α) (s : σ) : p.attempt.trace v s = p.trace v s := by
  induction p generalizing s with
  | ret r => rfl
  | step l act next ih => exact congrArg (l :: ·) (ih v s (act v s))

theorem trace_bind (v : ρ) (p : Prog L ρ σ ε α) (f : α → Prog L ρ σ ε β) (s : σ) :
    (p >>= f).trace v s = p.trace v s ++ match p.exec v s with
      | (.ok a, s') => (f a).trace v s'
      | (.error _, _) => [] := by
  induction p generalizing s with
  | ret r => cases r <;> rfl
  | step l act next ih => exact congrArg (l :: ·) (ih v s (act v s))

/-- From where `I` holds, the program only takes steps with labels in `K`, and `I` goes on to hold. -/
def Guarded (I : σ → Prop) (K : L → Prop) : Prog L ρ σ ε α → Prop
  | .ret _ => True
  | .step l act next => ∀ v s, I s → K l ∧ I (act v s) ∧ (next v s).Guarded I K

namespace Guarded
variable {I : σ → Prop} {K : L → Prop} {p : Prog L ρ σ ε α}

theorem pure (a : α) : (Pure.pure a : Prog L ρ σ ε α).Guarded I K := trivial

theorem fail (e : ε) : (Prog.fail e : Prog L ρ σ ε α).Guarded I K := trivial

theorem call {l : L} {f : ρ → σ → Except ε α × σ} (hl : K l) (hf : ∀ v s, I s → I (f v s).2) :
    (Prog.call l f).Guarded I K := fun v s hs => ⟨hl, hf v s hs, trivial⟩

theorem call_bind {l : L} {f : ρ → σ → Except ε α × σ} {g : α → Prog L ρ σ ε β} (hl : K l)
    (h : ∀ v s, I s → I (f v s).2 ∧ ∀ a, (f v s).1 = .ok a → (g a).Guarded I K) :
      (Prog.call l f >>= g).Guarded I K := by
  intro v s hs
  refine ⟨hl, (h v s hs).1, ?_⟩
  show ((Prog.ret (f v s).1).bind g).Guarded I K
  cases hr : (f v s).1 with
  | ok a => exact (h v s hs).2 a hr
  | error e => trivial

theorem bind {f : α → Prog L ρ σ ε β} (hp : p.Guarded I K) (hf : ∀ a, (f a).Guarded I K) : (p >>= f).Guarded I K := by
  induction p with
  | ret r =>
    cases r with
    | ok a => exact hf a
    | error e => trivial
  | step l act next ih => exact fun v s hs => ⟨(hp v s hs).1, (hp v s hs).2.1, ih v s (hp v s hs).2.2⟩

theorem mapError {f : ε → ε'} (hp : p.Guarded I K) : (p.mapError f).Guarded I K := by
  induction p with
  | ret r => trivial
  | step l act next ih => exact fun v s hs => ⟨(hp v s hs).1, (hp v s hs).2.1, ih v s (hp v s hs).2.2⟩

theorem each {f : α → Prog L ρ σ ε Unit} {as : List α} (hf : ∀ a ∈ as, (f a).Guarded I K) :
    (Prog.each f as).Guarded I K := by
  induction as with
  | nil => exact .pure ()
  | cons a as ih => exact .bind (hf a List.mem_cons_self) fun _ => ih fun b hb => hf b (List.mem_cons_of_mem _ hb)

theorem trace (hp : p.Guarded I K) {v : ρ} {s : σ} (hs : I s) : ∀ l ∈ p.trace v s, K l := by
  induction p generalizing s with
  | ret r => simp [Prog.trace]
  | step l act next ih =>
    intro l' hl'
    rcases List.mem_cons.mp hl' with rfl | hl'
    · exact (hp v s hs).1
    · exact ih v s (hp v s hs).2.2 (hp v s hs).2.1 l' hl'

end Guarded
end Prog
