/-
Machines with named moves: what a move makes of a state, or nothing where it is
not possible. A run is a list of moves, so a machine whose moves are the steps of
several parties runs through all their interleavings. From what one move keeps
follows what every run keeps (`run_invariant`).
-/
import Mathlib.Logic.Basic

namespace Machine
variable {σ : Type} {A : Type*} (step : A → σ → Option σ)
variable {as : List A} {s s' : σ}

def run : List A → σ → Option σ
  | [], s => some s
  | a :: as, s => (step a s).bind (run as)

/-- Every move of the run meets `Ok` in the state it is made in. -/
def Along (Ok : A → σ → Prop) : List A → σ → Prop
  | [], _ => True
  | a :: as, s => Ok a s ∧ match step a s with
    | some s' => Along Ok as s'
    | none => True

instance Along.decidable {Ok : A → σ → Prop} [∀ a s, Decidable (Ok a s)] :
    (as : List A) → (s : σ) → Decidable (Along step Ok as s)
  | [], _ => inferInstanceAs (Decidable True)
  | a :: as, s =>
    have : Decidable (match step a s with
        | some s' => Along step Ok as s'
        | none => True) :=
      match step a s with
      | some s' => Along.decidable as s'
      | none => inferInstanceAs (Decidable True)
    inferInstanceAs (Decidable (_ ∧ _))

variable {step} {Ok : A → σ → Prop}

theorem run_cons {a : A} :
    run step (a :: as) s = some s' ↔ ∃ s₁, step a s = some s₁ ∧ run step as s₁ = some s' :=
  Option.bind_eq_some_iff

theorem Along.tail {a : A} {s₁ : σ} (h : Along step Ok (a :: as) s) (ha : step a s = some s₁) :
    Along step Ok as s₁ := by
  have h := h.2
  rwa [ha] at h

theorem Along.of_forall (h : ∀ a ∈ as, ∀ s, Ok a s) : Along step Ok as s := by
  induction as generalizing s with
  | nil => trivial
  | cons a as ih =>
    refine ⟨h a List.mem_cons_self s, ?_⟩
    cases step a s with
    | none => trivial
    | some s' => exact ih fun b hb => h b (List.mem_cons_of_mem _ hb)

theorem Along.of_mem {Own : A → Prop} (h : ∀ a ∈ as, Own a) :
    Along step (fun a _ => Own a) as s :=
  Along.of_forall fun a ha _ => h a ha

theorem Along.and {Own : A → σ → Prop} (h : Along step Ok as s) (h' : Along step Own as s) :
    Along step (fun a s => Ok a s ∧ Own a s) as s := by
  induction as generalizing s with
  | nil => trivial
  | cons a as ih =>
    refine ⟨⟨h.1, h'.1⟩, ?_⟩
    have ht := h.2
    have ht' := h'.2
    cases hs : step a s with
    | none => trivial
    | some s' =>
      rw [hs] at ht ht'
      exact ih ht ht'

/-- A condition that every move meets wherever an invariant holds. -/
theorem Along.of_invariant {I : σ → Prop} (hok : ∀ a s, I s → Ok a s)
    (hstep : ∀ a s s', I s → step a s = some s' → I s') (hI : I s) : Along step Ok as s := by
  induction as generalizing s with
  | nil => trivial
  | cons a as ih =>
    refine ⟨hok a s hI, ?_⟩
    cases hs : step a s with
    | none => trivial
    | some s' => exact ih (hstep a s s' hI hs)

/-- What every move keeps holds at the end of a run. -/
theorem run_invariant {I : σ → Prop} (hstep : ∀ a s s', I s → Ok a s → step a s = some s' → I s')
    (hI : I s) (h : Along step Ok as s) (hrun : run step as s = some s') : I s' := by
  induction as generalizing s with
  | nil => cases hrun; exact hI
  | cons a as ih =>
    obtain ⟨s₁, ha, hrest⟩ := run_cons.mp hrun
    exact ih (hstep a s s₁ hI h.1 ha) (h.tail ha) hrest

end Machine
