/-
Programs that run at the same time. A system is a shared state and one program
per process; one step of the system is one atomic step of one process. The system
remembers which process took which step, so that conditions can speak of the past.

What a process does between its steps is described by phases: `Follows T I P`
says that a program in phase `q` moves through the labelled phase transitions
`T`, as long as the shared state satisfies `I`, and ends in a phase and with a
result that `P` allows. `Sys.Reach.phases` turns an invariant of the shared
state and the phases into a fact about every state an interleaving reaches.
-/
import EdgeFabric.Lib.Prog
import Mathlib.Logic.Function.Basic

/-- A shared state, the processes that work on it, and the steps taken so far,
the latest first. -/
structure Sys (ι L ρ σ ε α : Type) where
  state : σ
  procs : ι → Prog L ρ σ ε α
  trace : List (ι × L) := []

namespace Sys
variable {ι L ρ σ ε α : Type} [DecidableEq ι]

/-- One step of process `i`; nothing happens if it has returned. -/
def step (v : ρ) (i : ι) (c : Sys ι L ρ σ ε α) : Sys ι L ρ σ ε α :=
  match c.procs i with
  | .ret _ => c
  | .step l act next => ⟨act v c.state, Function.update c.procs i (next v c.state), (i, l) :: c.trace⟩

/-- The interleaving that `sched` names, process by process. -/
def run (v : ρ) (sched : List ι) (c : Sys ι L ρ σ ε α) : Sys ι L ρ σ ε α :=
  sched.foldl (fun c i => c.step v i) c

/-- The step that process `i` takes next. -/
def label (c : Sys ι L ρ σ ε α) (i : ι) : Option L :=
  match c.procs i with
  | .ret _ => none
  | .step l _ _ => some l

/-- What process `i` has returned. -/
def result (c : Sys ι L ρ σ ε α) (i : ι) : Option (Except ε α) :=
  match c.procs i with
  | .ret r => some r
  | .step _ _ _ => none

/-- The systems that interleavings of steps which all meet `Ok` reach from `c₀`. -/
inductive Reach (v : ρ) (Ok : Sys ι L ρ σ ε α → ι → Prop) (c₀ : Sys ι L ρ σ ε α) : Sys ι L ρ σ ε α → Prop where
  | init : Reach v Ok c₀ c₀
  | step {c i} : Reach v Ok c₀ c → Ok c i → Reach v Ok c₀ (c.step v i)

variable {v : ρ} {i : ι} {c : Sys ι L ρ σ ε α} {Ok : Sys ι L ρ σ ε α → ι → Prop}

theorem step_of_ret {r} (h : c.procs i = .ret r) : c.step v i = c := by
  simp [step, h]

theorem step_of_step {l act next} (h : c.procs i = .step l act next) :
    c.step v i = ⟨act v c.state, Function.update c.procs i (next v c.state), (i, l) :: c.trace⟩ := by
  simp [step, h]

omit [DecidableEq ι] in
theorem label_of_step {l act next} (h : c.procs i = .step l act next) :
    c.label i = some l := by
  simp [label, h]

omit [DecidableEq ι] in
theorem result_of_step {l act next} (h : c.procs i = .step l act next) :
    c.result i = none := by
  simp [result, h]

theorem result_step_of_ne {j : ι} (h : j ≠ i) :
    (c.step v i).result j = c.result j := by
  cases hp : c.procs i with
  | ret r => rw [step_of_ret hp]
  | step l act next => simp [step_of_step hp, result, h]

theorem Reach.trans {c₀ c₁ c₂ : Sys ι L ρ σ ε α}
    (h₁ : Reach v Ok c₀ c₁) (h₂ : Reach v Ok c₁ c₂) : Reach v Ok c₀ c₂ := by
  induction h₂ with
  | init => exact h₁
  | step _ hok ih => exact .step ih hok

/-- Every step that `sched` takes from `c` meets `Ok`. -/
def Along (v : ρ) (Ok : Sys ι L ρ σ ε α → ι → Prop) : List ι → Sys ι L ρ σ ε α → Prop
  | [], _ => True
  | i :: sched, c => Ok c i ∧ Along v Ok sched (c.step v i)

instance Along.decidable (v : ρ) (Ok : Sys ι L ρ σ ε α → ι → Prop) [∀ c i, Decidable (Ok c i)] :
    (sched : List ι) → (c : Sys ι L ρ σ ε α) → Decidable (Along v Ok sched c)
  | [], _ => inferInstanceAs (Decidable True)
  | i :: sched, c =>
    have := Along.decidable v Ok sched (c.step v i)
    inferInstanceAs (Decidable (Ok c i ∧ Along v Ok sched (c.step v i)))

theorem Along.mono {Ok' : Sys ι L ρ σ ε α → ι → Prop} (h : ∀ c i, Ok c i → Ok' c i) {sched : List ι}
    (hc : Along v Ok sched c) : Along v Ok' sched c := by
  induction sched generalizing c with
  | nil => trivial
  | cons i sched ih => exact ⟨h c i hc.1, ih hc.2⟩

theorem reach_of_along {sched : List ι}
    (h : Along v Ok sched c) : Reach v Ok c (c.run v sched) := by
  induction sched generalizing c with
  | nil => exact .init
  | cons i sched ih => exact Reach.trans (.step .init h.1) (ih h.2)

theorem reach_run (v : ρ) (sched : List ι) (c : Sys ι L ρ σ ε α) : Reach v (fun _ _ => True) c (c.run v sched) := by
  refine reach_of_along ?_
  induction sched generalizing c with
  | nil => trivial
  | cons i sched ih => exact ⟨trivial, ih (c.step v i)⟩

end Sys

/-! ## Phases -/

namespace Prog
variable {L ρ σ ε α β Q : Type}

/-- The program, in phase `q`, moves along `T` and ends as `P` allows, if the
state satisfies `I` whenever it takes a step. -/
def Follows (T : Q → L → ρ → σ → σ → Q → Prop) (I : ρ → σ → Prop) (P : Q → Except ε α → Prop) :
    Q → Prog L ρ σ ε α → Prop
  | q, .ret r => P q r
  | q, .step l act next =>
    ∀ v s, I v s → ∃ q', T q l v s (act v s) q' ∧ (next v s).Follows T I P q'

namespace Follows
variable {T : Q → L → ρ → σ → σ → Q → Prop} {I : ρ → σ → Prop} {P : Q → Except ε α → Prop} {q : Q}
  {p : Prog L ρ σ ε α}

theorem pure {a : α} (h : P q (.ok a)) : (Pure.pure a : Prog L ρ σ ε α).Follows T I P q := h

theorem fail {e : ε} (h : P q (.error e)) : (Prog.fail e : Prog L ρ σ ε α).Follows T I P q := h

theorem ofExcept {r : Except ε α} (h : P q r) : (Prog.ofExcept r : Prog L ρ σ ε α).Follows T I P q := h

theorem call {l : L} {f : ρ → σ → Except ε α × σ}
    (h : ∀ v s, I v s → ∃ q', T q l v s (f v s).2 q' ∧ P q' (f v s).1) :
    (Prog.call l f).Follows T I P q := h

theorem bind {N : Q → Except ε β → Prop} {f : α → Prog L ρ σ ε β} (hp : p.Follows T I P q)
    (hok : ∀ q a, P q (.ok a) → (f a).Follows T I N q)
    (herr : ∀ q e, P q (.error e) → N q (.error e)) : (p >>= f).Follows T I N q := by
  induction p generalizing q with
  | ret r =>
    cases r with
    | ok a => exact hok q a hp
    | error e => exact herr q e hp
  | step l act next ih =>
    intro v s hI
    obtain ⟨q', hT, hq'⟩ := hp v s hI
    exact ⟨q', hT, ih v s hq'⟩

theorem mono {N : Q → Except ε α → Prop} (h : ∀ q r, P q r → N q r) (hp : p.Follows T I P q) :
    p.Follows T I N q := by
  induction p generalizing q with
  | ret r => exact h q r hp
  | step l act next ih =>
    intro v s hI
    obtain ⟨q', hT, hq'⟩ := hp v s hI
    exact ⟨q', hT, ih v s hq'⟩

theorem attempt {N : Q → Except ε (Except ε α) → Prop} (hp : p.Follows T I P q)
    (h : ∀ q r, P q r → N q (.ok r)) : p.attempt.Follows T I N q := by
  induction p generalizing q with
  | ret r => exact h q r hp
  | step l act next ih =>
    intro v s hI
    obtain ⟨q', hT, hq'⟩ := hp v s hI
    exact ⟨q', hT, ih v s hq'⟩

theorem mapError {f : ε → ε} {N : Q → Except ε α → Prop} (hp : p.Follows T I P q)
    (h : ∀ q r, P q r → N q (r.mapError f)) : (p.mapError f).Follows T I N q := by
  induction p generalizing q with
  | ret r => exact h q r hp
  | step l act next ih =>
    intro v s hI
    obtain ⟨q', hT, hq'⟩ := hp v s hI
    exact ⟨q', hT, ih v s hq'⟩

/-- Changing errors does not matter to what is known of the values returned. -/
theorem mapError_ok {f : ε → ε} {A : Q → Prop} {B : Q → α → Prop}
    (hp : p.Follows T I (fun q r => A q ∧ ∀ a, r = .ok a → B q a) q) :
    (p.mapError f).Follows T I (fun q r => A q ∧ ∀ a, r = .ok a → B q a) q := by
  refine hp.mapError fun q r ⟨hq, hr⟩ => ⟨hq, fun a ha => ?_⟩
  cases r with
  | ok b => exact hr a ha
  | error e => cases ha

/-- A program whose result, value or error, the rest is given. -/
theorem handle {N : Q → Except ε β → Prop} {f : Except ε α → Prog L ρ σ ε β}
    (hp : p.Follows T I P q) (hf : ∀ q r, P q r → (f r).Follows T I N q) :
    (p.attempt >>= f).Follows T I N q := by
  induction p generalizing q with
  | ret r => exact hf q r hp
  | step l act next ih =>
    intro v s hI
    obtain ⟨q', hT, hq'⟩ := hp v s hI
    exact ⟨q', hT, ih v s hq'⟩

/-- A program all of whose steps the transitions allow, within a set of phases. -/
theorem ofWithin {R : L → σ → σ → Prop} {S : Q → Prop} (hp : p.Within R)
    (hT : ∀ q l v s s', S q → I v s → R l s s' → ∃ q', S q' ∧ T q l v s s' q') (h : ∀ q r, S q → P q r) (hq : S q) :
    p.Follows T I P q := by
  induction p generalizing q with
  | ret r => exact h q r hq
  | step l act next ih =>
    intro v s hI
    obtain ⟨hR, hnext⟩ := Within.step.mp hp v s
    obtain ⟨q', hq', ht⟩ := hT q l v s _ hq hI hR
    exact ⟨q', ht, ih v s hnext hq'⟩

/-- Without phases and assumptions, following `R` is staying within it. -/
theorem within {R : L → σ → σ → Prop} (hp : p.Follows (fun _ l _ s s' _ => R l s s') (fun _ _ => True) P q) :
    p.Within R := by
  induction p generalizing q with
  | ret r => exact .ofExcept r
  | step l act next ih =>
    refine Within.step.mpr fun v s => ?_
    obtain ⟨q', hR, hnext⟩ := hp v s trivial
    exact ⟨hR, ih v s hnext⟩

/-- A program in a phase that nothing leads out of has returned. -/
theorem ret_of_stuck (hp : p.Follows T I P q) {v : ρ} {s : σ} (hI : I v s) (hq : ∀ l s' q', ¬ T q l v s s' q') :
    ∃ r, p = .ret r ∧ P q r := by
  cases p with
  | ret r => exact ⟨r, rfl, hp⟩
  | step l act next =>
    obtain ⟨q', hT, _⟩ := hp v s hI
    exact absurd hT (hq l _ q')

end Follows

end Prog

namespace Sys
variable {ι L ρ σ ε α Q : Type} [DecidableEq ι]
  {T : ι → Q → L → ρ → σ → σ → Q → Prop} {I : ρ → σ → Prop} {P : ι → Q → Except ε α → Prop}

/-- Every process follows its phase. -/
def Phased (T : ι → Q → L → ρ → σ → σ → Q → Prop) (I : ρ → σ → Prop) (P : ι → Q → Except ε α → Prop)
    (c : Sys ι L ρ σ ε α) (q : ι → Q) : Prop :=
  ∀ i, (c.procs i).Follows (T i) I (P i) (q i)

/-- A step of the system is a step of process `i` along its phases, or `i` has returned. -/
theorem Phased.step {v : ρ} {c : Sys ι L ρ σ ε α} {q : ι → Q} (h : Phased T I P c q) (hI : I v c.state) (i : ι) :
    c.step v i = c ∨ ∃ l act next q', c.procs i = .step l act next ∧ T i (q i) l v c.state (act v c.state) q' ∧
      (next v c.state).Follows (T i) I (P i) q' ∧ Phased T I P (c.step v i) (Function.update q i q') := by
  cases hp : c.procs i with
  | ret r => exact .inl (step_of_ret hp)
  | step l act next =>
    have hi := h i
    rw [hp] at hi
    obtain ⟨q', hT, hnext⟩ := hi v c.state hI
    refine .inr ⟨l, act, next, q', rfl, hT, hnext, fun j => ?_⟩
    rw [step_of_step hp]
    by_cases hji : j = i
    · subst hji; simpa using hnext
    · simpa [hji] using h j

/-- The phase rule: if the processes of `c₀` follow phases `q₀`, an invariant `J` of
the system and the phases that every allowed step keeps holds, with phases the
processes follow, in every system reached. -/
theorem Reach.phases {v : ρ} {Ok : Sys ι L ρ σ ε α → ι → Prop} {J : Sys ι L ρ σ ε α → (ι → Q) → Prop}
    (hJ : ∀ c q, J c q → I v c.state)
    (hstep : ∀ c q i l act next q', Phased T I P c q → J c q → Ok c i → c.procs i = .step l act next →
      T i (q i) l v c.state (act v c.state) q' → J (c.step v i) (Function.update q i q'))
    {c₀ c : Sys ι L ρ σ ε α} {q₀ : ι → Q} (h₀ : Phased T I P c₀ q₀) (hJ₀ : J c₀ q₀)
    (h : Reach v Ok c₀ c) : ∃ q, Phased T I P c q ∧ J c q := by
  induction h with
  | init => exact ⟨q₀, h₀, hJ₀⟩
  | @step c i _ hok ih =>
    obtain ⟨q, hq, hJq⟩ := ih
    obtain heq | ⟨l, act, next, q', hp, hT, _, hq'⟩ := hq.step (hJ c q hJq) i
    · rw [heq]; exact ⟨q, hq, hJq⟩
    · exact ⟨_, hq', hstep c q i l act next q' hq hJq hok hp hT⟩

omit [DecidableEq ι] in
theorem Phased.result {c : Sys ι L ρ σ ε α} {q : ι → Q} (h : Phased T I P c q) {i : ι} {r}
    (hr : c.result i = some r) : P i (q i) r := by
  have hi := h i
  cases hp : c.procs i with
  | ret r' =>
    simp only [Sys.result, hp, Option.some.injEq] at hr
    rw [hp] at hi
    exact hr ▸ hi
  | step l act next => simp [Sys.result, hp] at hr

end Sys

/-! ## Commits -/

namespace Sys
variable {ι L ρ σ ε α τ : Type} [DecidableEq ι]

/-- Process `i` ends, successfully, with its next step. -/
def commits (v : ρ) (c : Sys ι L ρ σ ε α) (i : ι) : Bool :=
  match c.result i, (c.step v i).result i with
  | none, some (.ok _) => true
  | _, _ => false

/-- What `view` showed when a process of `W` last committed along the schedule; `x` if
none did. -/
def lastCommitted (v : ρ) (W : ι → Prop) [DecidablePred W] (view : σ → τ) :
    List ι → Sys ι L ρ σ ε α → τ → τ
  | [], _, x => x
  | i :: sched, c, x =>
    lastCommitted v W view sched (c.step v i) (if W i ∧ c.commits v i then view (c.step v i).state else x)

theorem commits_of_ret {v : ρ} {c : Sys ι L ρ σ ε α} {i : ι} {l act next a} (hp : c.procs i = .step l act next)
    (hr : next v c.state = .ret (.ok a)) : c.commits v i = true := by
  have hend : (c.step v i).result i = some (.ok a) := by
    simp [step_of_step hp, result, hr]
  simp only [commits, result_of_step hp, hend]

variable {Q : Type} {T : ι → Q → L → ρ → σ → σ → Q → Prop} {I : ρ → σ → Prop} {P : ι → Q → Except ε α → Prop}

/-- Where no step but a commit of `W` changes what `view` shows, it shows what was last
committed. -/
theorem Phased.run_eq_lastCommitted {v : ρ} {W : ι → Prop} [DecidablePred W] (view : σ → τ)
    {Ok : Sys ι L ρ σ ε α → ι → Prop} {J : Sys ι L ρ σ ε α → (ι → Q) → Prop} (hJ : ∀ c q, J c q → I v c.state)
    (hstep : ∀ c q i l act next q', Phased T I P c q → J c q → Ok c i → c.procs i = .step l act next →
      T i (q i) l v c.state (act v c.state) q' → J (c.step v i) (Function.update q i q'))
    (hview : ∀ c q i l act next q', J c q → Ok c i → c.procs i = .step l act next →
      T i (q i) l v c.state (act v c.state) q' → (next v c.state).Follows (T i) I (P i) q' →
      view (act v c.state) = view c.state ∨ W i ∧ c.commits v i = true)
    {sched : List ι} {c : Sys ι L ρ σ ε α} {q : ι → Q} (hq : Phased T I P c q) (hJq : J c q)
    (h : Along v Ok sched c) : view (c.run v sched).state = lastCommitted v W view sched c (view c.state) := by
  induction sched generalizing c q with
  | nil => rfl
  | cons i sched ih =>
    simp only [lastCommitted]
    obtain heq | ⟨l, act, next, q', hp, hT, hnext, hq'⟩ := hq.step (hJ c q hJq) i
    · have hrun := ih (c := c.step v i) (by rwa [heq]) (by rwa [heq]) h.2
      rw [heq] at hrun ⊢
      rw [ite_self]
      exact (congrArg (fun c => view (run v sched c).state) heq).trans hrun
    · have hrun := ih hq' (hstep c q i l act next q' hq hJq h.1 hp hT) h.2
      refine Eq.trans hrun ?_
      split
      · rfl
      · next hno =>
        obtain hsame | hcommit := hview c q i l act next q' hJq h.1 hp hT hnext
        · rw [step_of_step hp, hsame]
        · exact absurd hcommit hno

end Sys
