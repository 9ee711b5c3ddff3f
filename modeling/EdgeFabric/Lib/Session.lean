/-
Programs that run alone, one after another: what a program ensures of its
result and of the part of the state it is about, rules for the ways programs
are put together, and sequences of calls.

`p.Ensures view v x Q E`: started in any state whose view is `x`, the program
returns a value and leaves a view that satisfy `Q`, or an error and a view that
satisfy `E`. The rules quantify over what a state holds besides its view.

A session is a list of calls, each executed to its end before the next one
starts. `Session.Along` says that each call meets a condition on the state it
finds, `Session.Meets` on what happened before as well.
-/
import EdgeFabric.Lib.Prog

namespace Prog
variable {L ρ σ τ ε ε' α β : Type} {view : σ → τ} {v : ρ} {x : τ}

/-- Started with the view `x`, the program returns a value in `Q` or an error in `E`,
and leaves a view that goes with it. -/
structure Ensures (view : σ → τ) (v : ρ) (x : τ) (p : Prog L ρ σ ε α) (Q : α → τ → Prop) (E : ε → τ → Prop) :
    Prop where
  ends : ∀ s, view s = x →
    match p.exec v s with
    | (.ok a, s') => Q a (view s')
    | (.error e, s') => E e (view s')

namespace Ensures
variable {p : Prog L ρ σ ε α} {Q Q' : α → τ → Prop} {E E' : ε → τ → Prop}
variable {s : σ} {a : α} {f : α → Prog L ρ σ ε β} {K : L → Prop} {τ' : Type} {as : List α}

theorem of_exec (h : ∀ s, view s = x → ∀ r s', p.exec v s = (r, s') →
    match r with
    | .ok a => Q a (view s')
    | .error e => E e (view s')) : p.Ensures view v x Q E := by
  refine ⟨fun s hs => ?_⟩
  have h := h s hs
  rcases hx : p.exec v s with ⟨e | a, s'⟩
  · exact h _ _ hx
  · exact h _ _ hx

theorem ok (hp : p.Ensures view v x Q E) {s' : σ} (hs : view s = x) (h : p.exec v s = (.ok a, s')) :
    Q a (view s') := by
  have hp := hp.ends s hs
  rw [h] at hp
  exact hp

theorem error (hp : p.Ensures view v x Q E) {s' : σ} {e : ε} (hs : view s = x) (h : p.exec v s = (.error e, s')) :
    E e (view s') := by
  have hp := hp.ends s hs
  rw [h] at hp
  exact hp

theorem of_toOption (hp : p.Ensures view v x Q E) (hs : view s = x)
    (h : (p.exec v s).1.toOption = some a) : ∃ y, Q a y := by
  rcases hx : p.exec v s with ⟨e | b, s'⟩
  · rw [hx] at h
    cases h
  · rw [hx] at h
    obtain rfl : b = a := Option.some.inj h
    exact ⟨_, hp.ok hs hx⟩

/-- What holds of the view at either end holds of the state that is left. -/
theorem exec_view {I : τ → Prop} (hp : p.Ensures view v x (fun _ => I) fun _ => I) (hs : view s = x) :
    I (view (p.exec v s).2) := by
  rcases hx : p.exec v s with ⟨e | a, s'⟩
  · exact hp.error hs hx
  · exact hp.ok hs hx

theorem mono (hp : p.Ensures view v x Q E) (hQ : ∀ a y, Q a y → Q' a y) (hE : ∀ e y, E e y → E' e y) :
    p.Ensures view v x Q' E' := by
  refine of_exec fun s hs r s' h => ?_
  cases r with
  | ok a => exact hQ _ _ (hp.ok hs h)
  | error e => exact hE _ _ (hp.error hs h)

theorem and (hp : p.Ensures view v x Q E) (hp' : p.Ensures view v x Q' E') :
    p.Ensures view v x (fun a y => Q a y ∧ Q' a y) fun e y => E e y ∧ E' e y := by
  refine of_exec fun s hs r s' h => ?_
  cases r with
  | ok a => exact ⟨hp.ok hs h, hp'.ok hs h⟩
  | error e => exact ⟨hp.error hs h, hp'.error hs h⟩

theorem whole (hp : p.Ensures view v (view s) Q E) :
    p.Ensures id v s (fun a s' => Q a (view s')) fun e s' => E e (view s') := by
  refine of_exec fun s₁ hs r s' h => ?_
  cases hs
  cases r with
  | ok a => exact hp.ok rfl h
  | error e => exact hp.error rfl h

theorem of_whole (hp : ∀ s, view s = x → p.Ensures id v s (fun a s' => Q a (view s')) fun e s' => E e (view s')) :
    p.Ensures view v x Q E := by
  refine of_exec fun s hs r s' h => ?_
  cases r with
  | ok a => exact (hp s hs).ok rfl h
  | error e => exact (hp s hs).error rfl h

theorem of_forall (hQ : ∀ a y, Q a y) (hE : ∀ e y, E e y) : p.Ensures view v x Q E := by
  refine of_exec fun s _ r s' _ => ?_
  cases r with
  | ok a => exact hQ a _
  | error e => exact hE e _

theorem pure (h : Q a x) : (Pure.pure a : Prog L ρ σ ε α).Ensures view v x Q E := by
  refine ⟨fun s hs => ?_⟩
  subst hs
  exact h

theorem fail {e : ε} (h : E e x) : (Prog.fail e : Prog L ρ σ ε α).Ensures view v x Q E := by
  refine ⟨fun s hs => ?_⟩
  subst hs
  exact h

theorem ofExcept {r : Except ε α} (hok : ∀ a, r = .ok a → Q a x) (herr : ∀ e, r = .error e → E e x) :
    (Prog.ofExcept r : Prog L ρ σ ε α).Ensures view v x Q E := by
  cases r with
  | ok a => exact .pure (hok a rfl)
  | error e => exact .fail (herr e rfl)

theorem call {l : L} {f : ρ → σ → Except ε α × σ} (h : ∀ s, view s = x →
    match f v s with
    | (.ok a, s') => Q a (view s')
    | (.error e, s') => E e (view s')) : (Prog.call l f).Ensures view v x Q E :=
  ⟨h⟩

/-- The second part starts where the first one ended; an error of the first part is
the result. -/
theorem bind {Q : β → τ → Prop}
    (hp : p.Ensures view v x (fun a y => (f a).Ensures view v y Q E) E) : (p >>= f).Ensures view v x Q E := by
  refine of_exec fun s hs r s' h => ?_
  rcases exec_bind_cases h with ⟨a, s₁, h₁, h₂⟩ | ⟨e, h₁, rfl⟩
  · have hf := (hp.ok hs h₁).ends s₁ rfl
    rw [h₂] at hf
    cases r <;> exact hf
  · exact hp.error hs h₁

/-- The rest of a program, after a part of it whose ends are known. -/
theorem andThen {Q' : β → τ → Prop} (hp : p.Ensures view v x Q E)
    (hf : ∀ a y, Q a y → (f a).Ensures view v y Q' E) : (p >>= f).Ensures view v x Q' E :=
  .bind (hp.mono hf fun _ _ h => h)

theorem bind_any {Q : β → τ → Prop} (hf : ∀ a y, (f a).Ensures view v y Q fun _ _ => True) :
    (p >>= f).Ensures view v x Q fun _ _ => True :=
  .bind (.of_forall hf fun _ _ => trivial)

theorem attempt {Q : Except ε α → τ → Prop} (hp : p.Ensures view v x (fun a => Q (.ok a)) fun e => Q (.error e)) :
    p.attempt.Ensures view v x Q E := by
  refine of_exec fun s hs r s' h => ?_
  rw [exec_attempt] at h
  cases h
  rcases hx : p.exec v s with ⟨e | a, s'⟩
  · exact hp.error hs hx
  · exact hp.ok hs hx

theorem mapError {f : ε → ε'} {E : ε' → τ → Prop} (hp : p.Ensures view v x Q fun e => E (f e)) :
    (p.mapError f).Ensures view v x Q E := by
  refine of_exec fun s hs r s' h => ?_
  rw [exec_mapError] at h
  cases h
  rcases hx : p.exec v s with ⟨e | a, s'⟩
  · exact hp.error hs hx
  · exact hp.ok hs hx

theorem query (q : Query L ρ ε K view α) (hok : ∀ a, Q a x) (herr : ∀ e, E e x) :
    q.1.Ensures view v x Q E := by
  refine of_exec fun s hs r s' h => ?_
  have hview := Query.exec_view v q s
  rw [Query.exec, h, hs] at hview
  cases r with
  | ok a => exact hview.symm ▸ hok a
  | error e => exact hview.symm ▸ herr e

theorem onFst {y : τ'} {Q : α → τ × τ' → Prop} {E : ε → τ × τ' → Prop}
    (hp : p.Ensures view v x (fun a x' => Q a (x', y)) fun e x' => E e (x', y)) :
    p.onFst.Ensures (fun s : σ × τ' => (view s.1, s.2)) v (x, y) Q E := by
  refine of_exec fun s hs r s' h => ?_
  obtain ⟨s, t⟩ := s
  obtain ⟨hview, rfl⟩ := Prod.mk.inj hs
  rw [exec_onFst] at h
  cases h
  rcases hx : p.exec v s with ⟨e | a, s'⟩
  · exact hp.error hview hx
  · exact hp.ok hview hx

/-- The loop invariant `I`: a round that starts with it, at an element of the list,
ends with it and leaves the view as it was. -/
theorem fold {view' : σ → τ'} {f : β → α → Query L ρ ε K view' β} {I : β → Prop}
    (hround : ∀ b, I b → ∀ a ∈ as, (f b a).1.Ensures view v x (fun b' y => y = x ∧ I b') E) :
    ∀ {b : β}, I b → (Query.fold f b as).1.Ensures view v x (fun b' y => y = x ∧ I b') E := by
  induction as with
  | nil => exact fun hb => .pure ⟨rfl, hb⟩
  | cons a as ih =>
    intro b hb
    refine .andThen (hround b hb a List.mem_cons_self) ?_
    rintro b' y ⟨rfl, hb'⟩
    exact ih (fun b hb a ha => hround b hb a (List.mem_cons_of_mem _ ha)) hb'

/-- The loop invariant `I` speaks of the elements visited so far. -/
theorem fold_visited {view' : σ → τ'} {f : β → α → Query L ρ ε K view' β}
    {I : List α → β → Prop} {b : β} (h0 : I [] b)
    (hround : ∀ seen a rest b, as = seen ++ a :: rest → I seen b →
      (f b a).1.Ensures view v x (fun b' y => y = x ∧ I (seen ++ [a]) b') E) :
    (Query.fold f b as).1.Ensures view v x (fun b' y => y = x ∧ I as b') E := by
  suffices h : ∀ rest seen b, as = seen ++ rest → I seen b →
      (Query.fold f b rest).1.Ensures view v x (fun b' y => y = x ∧ I as b') E from h as [] b rfl h0
  intro rest
  induction rest with
  | nil =>
    intro seen b has hI
    rw [List.append_nil] at has
    exact .pure ⟨rfl, has ▸ hI⟩
  | cons a rest ih =>
    intro seen b has hI
    refine .andThen (hround seen a rest b has hI) fun b' y h => ?_
    obtain ⟨rfl, hb'⟩ := h
    exact ih (seen ++ [a]) b' (by simpa using has) hb'

/-- The invariant of a loop without a value of its own. -/
theorem each {f : α → Prog L ρ σ ε Unit} {I : List α → τ → Prop} (h0 : I [] x)
    (hround : ∀ seen a rest y, as = seen ++ a :: rest → I seen y →
      (f a).Ensures view v y (fun _ => I (seen ++ [a])) E) : (Prog.each f as).Ensures view v x (fun _ => I as) E := by
  suffices h : ∀ rest seen y, as = seen ++ rest → I seen y → (Prog.each f rest).Ensures view v y (fun _ => I as) E from
    h as [] x rfl h0
  intro rest
  induction rest with
  | nil =>
    intro seen y has hI
    rw [List.append_nil] at has
    exact .pure (has ▸ hI)
  | cons a rest ih =>
    intro seen y has hI
    refine .andThen (hround seen a rest y has hI) fun _ z hz => ?_
    exact ih (seen ++ [a]) z (by simpa using has) hz

/-- What every step of the program keeps holds at its end. -/
theorem ofWithin {C : τ → τ → Prop} (hrefl : ∀ y, C y y) (htrans : ∀ y y' y'', C y y' → C y' y'' → C y y'')
    (hp : p.Within fun _ s s' => C (view s) (view s')) : p.Ensures view v x (fun _ => C x) fun _ => C x := by
  refine of_exec fun s hs r s' h => ?_
  have hC := hp.exec (C := fun s s' => C (view s) (view s')) (fun s => hrefl _)
    (fun _ _ _ _ h h' => htrans _ _ _ h h') v s
  rw [h, hs] at hC
  cases r <;> exact hC

end Ensures

end Prog

/-! ## Sessions -/

namespace Session
variable {κ L ρ σ τ ε α : Type} (call : κ → Prog L ρ σ ε α) (v : ρ)

/-- One call of a session: what was called, the state it found, what it answered and
the state it left. -/
structure Exchange (κ σ ε α : Type) where
  call : κ
  before : σ
  answer : Except ε α
  after : σ

def run : List κ → σ → List (Exchange κ σ ε α)
  | [], _ => []
  | c :: cs, s =>
    let r := (call c).exec v s
    ⟨c, s, r.1, r.2⟩ :: run cs r.2

def final : List κ → σ → σ
  | [], s => s
  | c :: cs, s => final cs ((call c).exec v s).2

/-- Every call of the session meets `Ok` in the state it finds. -/
def Along (Ok : κ → σ → Prop) : List κ → σ → Prop
  | [], _ => True
  | c :: cs, s => Ok c s ∧ Along Ok cs ((call c).exec v s).2

instance Along.decidable {Ok : κ → σ → Prop} [∀ c s, Decidable (Ok c s)] :
    (cs : List κ) → (s : σ) → Decidable (Along call v Ok cs s)
  | [], _ => inferInstanceAs (Decidable True)
  | c :: cs, s =>
    have : Decidable (Along call v Ok cs ((call c).exec v s).2) := Along.decidable cs _
    inferInstanceAs (Decidable (_ ∧ _))

variable {call v} {Ok : κ → σ → Prop}

theorem Along.of_mem : ∀ {cs : List κ} (_ : ∀ c ∈ cs, ∀ s, Ok c s) (s : σ), Along call v Ok cs s
  | [], _, _ => trivial
  | _ :: _, h, s =>
    ⟨h _ List.mem_cons_self s, of_mem (fun c hc => h c (List.mem_cons_of_mem _ hc)) _⟩

theorem Along.and {Ok' : κ → σ → Prop} : ∀ {cs : List κ} {s : σ}, Along call v Ok cs s → Along call v Ok' cs s →
    Along call v (fun c s => Ok c s ∧ Ok' c s) cs s
  | [], _, _, _ => trivial
  | _ :: _, _, h, h' => ⟨⟨h.1, h'.1⟩, Along.and h.2 h'.2⟩

/-- An invariant of the calls holds at the end of every session. -/
theorem final_invariant {I : σ → Prop} (hstep : ∀ c s, I s → Ok c s → I ((call c).exec v s).2) :
    ∀ {cs : List κ} {s : σ}, I s → Along call v Ok cs s → I (final call v cs s)
  | [], _, hI, _ => hI
  | c :: _, s, hI, h => final_invariant (s := ((call c).exec v s).2) hstep (hstep c s hI h.1) h.2

/-- With the invariant at hand, what one exchange satisfies every exchange of the
session satisfies. -/
theorem run_forall {I : σ → Prop} {P : Exchange κ σ ε α → Prop}
    (hstep : ∀ c s, I s → Ok c s → I ((call c).exec v s).2)
    (hP : ∀ c s, I s → Ok c s → P ⟨c, s, ((call c).exec v s).1, ((call c).exec v s).2⟩) :
    ∀ {cs : List κ} {s : σ}, I s → Along call v Ok cs s → ∀ x ∈ run call v cs s, P x
  | [], _, _, _, _, hx => by cases hx
  | c :: cs, s, hI, h, x, hx => by
    rcases List.mem_cons.mp hx with rfl | hx
    · exact hP c s hI h.1
    · exact run_forall hstep hP (hstep c s hI h.1) h.2 x hx

variable (call v) in
/-- The exchange that call `c` makes in the state `s`. -/
def exchange (c : κ) (s : σ) : Exchange κ σ ε α := ⟨c, s, ((call c).exec v s).1, ((call c).exec v s).2⟩

theorem run_concat (cs : List κ) (c : κ) (s : σ) :
    run call v (cs ++ [c]) s = run call v cs s ++ [exchange call v c (final call v cs s)] := by
  induction cs generalizing s with
  | nil => rfl
  | cons d cs ih => exact congrArg (_ :: ·) (ih _)

/-! ### With the past -/

variable (call v) in
/-- Every call of the session meets `Ok`, given the exchanges before it and the state it
finds. -/
def Meets (Ok : List (Exchange κ σ ε α) → κ → σ → Prop) : List (Exchange κ σ ε α) → List κ → σ → Prop
  | _, [], _ => True
  | past, c :: cs, s => Ok past c s ∧ Meets Ok (past ++ [exchange call v c s]) cs ((call c).exec v s).2

variable {past : List (Exchange κ σ ε α)} {cs : List κ} {s : σ}

theorem meets_of_along (h : Along call v Ok cs s) : Meets call v (fun _ => Ok) past cs s := by
  induction cs generalizing past s with
  | nil => trivial
  | cons c cs ih => exact ⟨h.1, ih h.2⟩

/-- The history rule: an invariant of the past and the state, and what it says of the next
exchange. -/
theorem run_history {Ok : List (Exchange κ σ ε α) → κ → σ → Prop} {I : List (Exchange κ σ ε α) → σ → Prop}
    {P : List (Exchange κ σ ε α) → Exchange κ σ ε α → Prop}
    (hstep : ∀ past c s, I past s → Ok past c s → I (past ++ [exchange call v c s]) ((call c).exec v s).2)
    (hP : ∀ past c s, I past s → Ok past c s → P past (exchange call v c s))
    (hI : I past s) (h : Meets call v Ok past cs s) {pre post : List (Exchange κ σ ε α)}
    {x : Exchange κ σ ε α} (hrun : run call v cs s = pre ++ x :: post) : P (past ++ pre) x := by
  induction cs generalizing past s pre with
  | nil =>
    have hlen := congrArg List.length hrun
    simp [run] at hlen
  | cons c cs ih =>
    cases pre with
    | nil =>
      obtain ⟨rfl, -⟩ := List.cons.inj hrun
      rw [List.append_nil]
      exact hP past c s hI h.1
    | cons y pre =>
      obtain ⟨rfl, hrest⟩ := List.cons.inj hrun
      have := ih (hstep past c s hI h.1) h.2 hrest
      rwa [List.append_assoc] at this

/-- The invariant at the end, with all exchanges past. -/
theorem final_history {Ok : List (Exchange κ σ ε α) → κ → σ → Prop} {I : List (Exchange κ σ ε α) → σ → Prop}
    (hstep : ∀ past c s, I past s → Ok past c s → I (past ++ [exchange call v c s]) ((call c).exec v s).2)
    (hI : I past s) (h : Meets call v Ok past cs s) :
    I (past ++ run call v cs s) (final call v cs s) := by
  induction cs generalizing past s with
  | nil => simpa only [run, final, List.append_nil] using hI
  | cons c cs ih =>
    have := ih (hstep past c s hI h.1) h.2
    rwa [List.append_assoc] at this

end Session
