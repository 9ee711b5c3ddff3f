/-
Programs over a shared state, as resumptions. A program has returned, or its
next atomic step changes the state and decides, from the state it found, what
remains to be done. What no program decides (clocks, identifiers, failures of
the outside world) is an environment `ρ` that the steps read. Between two steps
of one program other programs may run; run alone, a program is a state
transformer (`Prog.exec`).

`Prog.Within R` says that every step a program can take, whatever the others
have done to the state, changes the state as `R` allows. A `Query` is a
program that by construction keeps a part of the state and takes steps of one
kind only.
-/
import Mathlib.Logic.Basic

/-- A program that returns an `α` or an error `ε`, in atomic steps on `σ`
labelled by `L`, in an environment `ρ`. -/
inductive Prog (L ρ σ ε α : Type) where
  | ret (r : Except ε α)
  | step (l : L) (act : ρ → σ → σ) (next : ρ → σ → Prog L ρ σ ε α)

namespace Prog
variable {L ρ σ ε ε' α β : Type}

/-- The program that does `p` and goes on with its result; an error ends it. -/
def bind : Prog L ρ σ ε α → (α → Prog L ρ σ ε β) → Prog L ρ σ ε β
  | .ret (.ok a), f => f a
  | .ret (.error e), _ => .ret (.error e)
  | .step l act next, f => .step l act fun v s => (next v s).bind f

instance : Monad (Prog L ρ σ ε) where
  pure a := .ret (.ok a)
  bind := bind

/-- The program that returns the error `e`. -/
def fail (e : ε) : Prog L ρ σ ε α := .ret (.error e)

def ofExcept (r : Except ε α) : Prog L ρ σ ε α := .ret r

/-- The program `p`, its error given to the caller as a value. -/
def attempt : Prog L ρ σ ε α → Prog L ρ σ ε (Except ε α)
  | .ret r => .ret (.ok r)
  | .step l act next => .step l act fun v s => (next v s).attempt

/-- The program `p`, its error changed by `f`. -/
def mapError (f : ε → ε') : Prog L ρ σ ε α → Prog L ρ σ ε' α
  | .ret r => .ret (r.mapError f)
  | .step l act next => .step l act fun v s => (next v s).mapError f

/-- One atomic step: the result and the new state are what `f` makes of the
environment and the state. -/
def call (l : L) (f : ρ → σ → Except ε α × σ) : Prog L ρ σ ε α :=
  .step l (fun v s => (f v s).2) fun v s => .ret (f v s).1

/-- A loop over a list; an error ends it. -/
def each (f : α → Prog L ρ σ ε Unit) : List α → Prog L ρ σ ε Unit
  | [] => pure ()
  | a :: as => do
    f a
    each f as

/-- The program on the first part of a larger state. -/
def onFst {τ : Type} : Prog L ρ σ ε α → Prog L ρ (σ × τ) ε α
  | .ret r => .ret r
  | .step l act next => .step l (fun v s => (act v s.1, s.2)) fun v s => (next v s.1).onFst

theorem map_id (p : Prog L ρ σ ε α) : id <$> p = p := by
  induction p with
  | ret r => cases r <;> rfl
  | step l act next ih => exact congrArg (step l act) (funext fun v => funext fun s => ih v s)

theorem bind_bind {γ : Type} (p : Prog L ρ σ ε α) (f : α → Prog L ρ σ ε β) (g : β → Prog L ρ σ ε γ) :
    p >>= f >>= g = p >>= fun a => f a >>= g := by
  induction p with
  | ret r => cases r <;> rfl
  | step l act next ih => exact congrArg (step l act) (funext fun v => funext fun s => ih v s)

instance : LawfulMonad (Prog L ρ σ ε) := LawfulMonad.mk' _ map_id (fun _ _ => rfl) bind_bind

/-! ## Run alone -/

/-- What the program returns and the state it leaves, when nothing else runs. -/
def exec (v : ρ) : Prog L ρ σ ε α → σ → Except ε α × σ
  | .ret r, s => (r, s)
  | .step _ act next, s => (next v s).exec v (act v s)

section Exec
variable (v : ρ) (s : σ)

@[simp] theorem exec_pure (a : α) : (pure a : Prog L ρ σ ε α).exec v s = (.ok a, s) := rfl
@[simp] theorem exec_fail (e : ε) : (fail e : Prog L ρ σ ε α).exec v s = (.error e, s) := rfl
@[simp] theorem exec_ofExcept (r : Except ε α) : (ofExcept r : Prog L ρ σ ε α).exec v s = (r, s) := rfl
@[simp] theorem exec_call (l : L) (f : ρ → σ → Except ε α × σ) : (call l f).exec v s = f v s := rfl

theorem exec_bind (p : Prog L ρ σ ε α) (f : α → Prog L ρ σ ε β) :
    (p >>= f).exec v s = match p.exec v s with
      | (.ok a, s') => (f a).exec v s'
      | (.error e, s') => (.error e, s') := by
  induction p generalizing s with
  | ret r => cases r <;> rfl
  | step l act next ih => exact ih v s (act v s)

@[simp] theorem exec_attempt (p : Prog L ρ σ ε α) :
    p.attempt.exec v s = (.ok (p.exec v s).1, (p.exec v s).2) := by
  induction p generalizing s with
  | ret r => rfl
  | step l act next ih => exact ih v s (act v s)

@[simp] theorem exec_mapError (f : ε → ε') (p : Prog L ρ σ ε α) :
    (p.mapError f).exec v s = ((p.exec v s).1.mapError f, (p.exec v s).2) := by
  induction p generalizing s with
  | ret r => rfl
  | step l act next ih => exact ih v s (act v s)

@[simp] theorem exec_onFst {τ : Type} (x : τ) (p : Prog L ρ σ ε α) :
    p.onFst.exec v (s, x) = ((p.exec v s).1, (p.exec v s).2, x) := by
  induction p generalizing s with
  | ret r => rfl
  | step l act next ih => exact ih v s (act v s)

variable {v s}

theorem exec_bind_cases {p : Prog L ρ σ ε α} {f : α → Prog L ρ σ ε β} {r s'}
    (h : (p >>= f).exec v s = (r, s')) :
    (∃ a s₁, p.exec v s = (.ok a, s₁) ∧ (f a).exec v s₁ = (r, s')) ∨
      ∃ e, p.exec v s = (.error e, s') ∧ r = .error e := by
  rw [exec_bind] at h
  split at h
  · next a s₁ hp => exact .inl ⟨a, s₁, hp, h⟩
  · next e s₁ hp => cases h; exact .inr ⟨e, hp, rfl⟩

theorem exec_bind_ok {p : Prog L ρ σ ε α} {f : α → Prog L ρ σ ε β} {b s'} :
    (p >>= f).exec v s = (.ok b, s') ↔ ∃ a s₁, p.exec v s = (.ok a, s₁) ∧ (f a).exec v s₁ = (.ok b, s') := by
  constructor
  · intro h
    rcases exec_bind_cases h with h | ⟨_, _, he⟩
    · exact h
    · cases he
  · rintro ⟨a, s₁, hp, hf⟩
    rw [exec_bind, hp]
    exact hf

end Exec

/-! ## What the steps of a program may do -/

/-- Every step the program can take changes the state as `R` allows a step with its
label. -/
def Within (R : L → σ → σ → Prop) : Prog L ρ σ ε α → Prop
  | .ret _ => True
  | .step l act next => ∀ v s, R l s (act v s) ∧ (next v s).Within R

namespace Within
variable {R S : L → σ → σ → Prop} {p : Prog L ρ σ ε α}

theorem pure (a : α) : (Pure.pure a : Prog L ρ σ ε α).Within R := trivial

theorem fail (e : ε) : (Prog.fail e : Prog L ρ σ ε α).Within R := trivial

theorem ofExcept (r : Except ε α) : (Prog.ofExcept r : Prog L ρ σ ε α).Within R := trivial

theorem step {l : L} {act : ρ → σ → σ} {next : ρ → σ → Prog L ρ σ ε α} :
    (Prog.step l act next).Within R ↔ ∀ v s, R l s (act v s) ∧ (next v s).Within R := Iff.rfl

theorem call {l : L} {f : ρ → σ → Except ε α × σ} (h : ∀ v s, R l s (f v s).2) : (Prog.call l f).Within R :=
  fun v s => ⟨h v s, trivial⟩

theorem bind {f : α → Prog L ρ σ ε β} (hp : p.Within R) (hf : ∀ a, (f a).Within R) : (p >>= f).Within R := by
  induction p with
  | ret r =>
    cases r with
    | ok a => exact hf a
    | error e => trivial
  | step l act next ih => exact fun v s => ⟨(hp v s).1, ih v s (hp v s).2⟩

theorem attempt (hp : p.Within R) : p.attempt.Within R := by
  induction p with
  | ret r => trivial
  | step l act next ih => exact fun v s => ⟨(hp v s).1, ih v s (hp v s).2⟩

theorem mapError {f : ε → ε'} (hp : p.Within R) : (p.mapError f).Within R := by
  induction p with
  | ret r => trivial
  | step l act next ih => exact fun v s => ⟨(hp v s).1, ih v s (hp v s).2⟩

theorem mono (h : ∀ l s s', R l s s' → S l s s') (hp : p.Within R) : p.Within S := by
  induction p with
  | ret r => trivial
  | step l act next ih => exact fun v s => ⟨h _ _ _ (hp v s).1, ih v s (hp v s).2⟩

theorem all (p : Prog L ρ σ ε α) : p.Within fun _ _ _ => True := by
  induction p with
  | ret r => trivial
  | step l act next ih => exact fun v s => ⟨trivial, ih v s⟩

theorem exec {C : σ → σ → Prop} (hrefl : ∀ s, C s s) (hstep : ∀ l s s' s'', R l s s' → C s' s'' → C s s'')
    (hp : p.Within R) (v : ρ) (s : σ) : C s (p.exec v s).2 := by
  induction p generalizing s with
  | ret r => exact hrefl s
  | step l act next ih => exact hstep _ _ _ _ (hp v s).1 (ih v s (hp v s).2 (act v s))

end Within

/-- The steps that the program can take are all of one kind, and its values in `R`. -/
def Each (K : L → (ρ → σ → σ) → Prop) (R : α → Prop) : Prog L ρ σ ε α → Prop
  | .ret r => ∀ a, r = .ok a → R a
  | .step l act next => K l act ∧ ∀ v s, (next v s).Each K R

namespace Each
variable {K : L → (ρ → σ → σ) → Prop} {R : α → Prop} {p : Prog L ρ σ ε α}

theorem pure {a : α} (h : R a) : (Pure.pure a : Prog L ρ σ ε α).Each K R := fun b hb => by cases hb; exact h

theorem fail (e : ε) : (Prog.fail e : Prog L ρ σ ε α).Each K R := fun _ h => by cases h

theorem ofExcept {r : Except ε α} (h : ∀ a, r = .ok a → R a) : (Prog.ofExcept r : Prog L ρ σ ε α).Each K R := h

theorem step {l : L} {act : ρ → σ → σ} {next : ρ → σ → Prog L ρ σ ε α} :
    (Prog.step l act next).Each K R ↔ K l act ∧ ∀ v s, (next v s).Each K R := Iff.rfl

theorem call {l : L} {f : ρ → σ → Except ε α × σ} (hl : K l fun v s => (f v s).2)
    (h : ∀ v s a, (f v s).1 = .ok a → R a) : (Prog.call l f).Each K R := ⟨hl, h⟩

theorem bind {S : β → Prop} {f : α → Prog L ρ σ ε β} (hp : p.Each K R) (hf : ∀ a, R a → (f a).Each K S) :
    (p >>= f).Each K S := by
  induction p with
  | ret r =>
    cases r with
    | ok a => exact hf a (hp a rfl)
    | error e => exact fail e
  | step l act next ih => exact ⟨hp.1, fun v s => ih v s (hp.2 v s)⟩

theorem attempt (hp : p.Each K R) : p.attempt.Each K fun r => ∀ a, r = .ok a → R a := by
  induction p with
  | ret r => exact fun b hb => by cases hb; exact hp
  | step l act next ih => exact ⟨hp.1, fun v s => ih v s (hp.2 v s)⟩

theorem mapError {f : ε → ε'} (hp : p.Each K R) : (p.mapError f).Each K R := by
  induction p with
  | ret r =>
    cases r with
    | ok a => exact pure (hp a rfl)
    | error e => exact fail (f e)
  | step l act next ih => exact ⟨hp.1, fun v s => ih v s (hp.2 v s)⟩

theorem mono {S : α → Prop} (hp : p.Each K R) (h : ∀ a, R a → S a) : p.Each K S := by
  induction p with
  | ret r => exact fun a ha => h a (hp a ha)
  | step l act next ih => exact ⟨hp.1, fun v s => ih v s (hp.2 v s)⟩

theorem ofWithin {W : L → σ → σ → Prop} (hp : p.Within W) (h : ∀ l act, (∀ v s, W l s (act v s)) → K l act) :
    p.Each K fun _ => True := by
  induction p with
  | ret r => exact fun _ _ => trivial
  | step l act next ih => exact ⟨h l act fun v s => (hp v s).1, fun v s => ih v s (hp v s).2⟩

end Each

-- from here on by the rules above: to unfold these is to run the program
attribute [irreducible] Within Each

end Prog

/-! ## Queries -/

/-- Programs that keep `view` of the state, in steps whose labels satisfy `K`. -/
def Query (L ρ : Type) {σ τ : Type} (ε : Type) (K : L → Prop) (view : σ → τ) (α : Type) : Type :=
  { p : Prog L ρ σ ε α // p.Within fun l s s' => K l ∧ view s' = view s }

namespace Query
variable {L ρ σ τ ε ε' α β : Type} {K : L → Prop} {view : σ → τ}

instance : Monad (Query L ρ ε K view) where
  pure a := ⟨pure a, .pure a⟩
  bind q f := ⟨q.1 >>= fun a => (f a).1, q.2.bind fun a => (f a).2⟩

@[simp] theorem pure_val (a : α) : (pure a : Query L ρ ε K view α).1 = pure a := rfl

@[simp] theorem bind_val (q : Query L ρ ε K view α) (f : α → Query L ρ ε K view β) :
    (q >>= f).1 = q.1 >>= fun a => (f a).1 := rfl

def fail (e : ε) : Query L ρ ε K view α := ⟨.fail e, .fail e⟩

def ofExcept (r : Except ε α) : Query L ρ ε K view α := ⟨.ofExcept r, .ofExcept r⟩

def attempt (q : Query L ρ ε K view α) : Query L ρ ε K view (Except ε α) := ⟨q.1.attempt, q.2.attempt⟩

def mapError (f : ε → ε') (q : Query L ρ ε K view α) : Query L ρ ε' K view α := ⟨q.1.mapError f, q.2.mapError⟩

/-- A query seen through a coarser view, among more kinds of steps. -/
def weaken {K' : L → Prop} {τ' : Type} {view' : σ → τ'} (hK : ∀ l, K l → K' l)
    (hview : ∀ s s', view s' = view s → view' s' = view' s) (q : Query L ρ ε K view α) : Query L ρ ε K' view' α :=
  ⟨q.1, q.2.mono fun l s s' h => ⟨hK l h.1, hview s s' h.2⟩⟩

/-- A loop over a list; `f` takes what earlier rounds made of the first value. -/
def fold (f : β → α → Query L ρ ε K view β) : β → List α → Query L ρ ε K view β
  | b, [] => pure b
  | b, a :: as => do fold f (← f b a) as

/-- A query run alone. -/
def exec (v : ρ) (q : Query L ρ ε K view α) (s : σ) : Except ε α × σ := q.1.exec v s

theorem exec_view (v : ρ) (q : Query L ρ ε K view α) (s : σ) : view (q.exec v s).2 = view s :=
  Prog.Within.exec (C := fun s s' => view s' = view s) (fun _ => rfl) (fun _ _ _ _ h h' => h'.trans h.2) q.2 v s

end Query
