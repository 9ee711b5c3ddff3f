/-
A code of the second factor should count only if its secret was confirmed before.
`EnrollTOTP` replaces the secret of a user also when the second factor is switched
on already, and it stays switched on: codes of the new secret are accepted without
a confirmation (`unconfirmed_secret_accepted`).

In a session in which no new secret is made while the second factor is on, the
secret in use was confirmed: the invariant says which exchange of the past did it
(`accepted_code_confirmed`).
-/
import EdgeFabric.User

namespace EdgeFabric

inductive TOTPCall where
  | enroll
  | confirm (code : String)
  | authenticate (code : String)
  deriving DecidableEq, Repr

def TOTPCall.run (issuer : String) (userID : ID) : TOTPCall → M Unit
  | .enroll => do let _ ← AuthService.enrollTOTP issuer userID
  | .confirm code => AuthService.confirmTOTP userID code
  | .authenticate code => AuthService.authenticateTOTP userID code

/-- No new secret while the second factor of the user is switched on. -/
def TOTPCall.WhileOff (userID : ID) : TOTPCall → World → Prop
  | .enroll, w => ∀ u ∈ w.store.users.find userID, u.totpEnabled = false
  | .confirm _, _ | .authenticate _, _ => True

instance (userID : ID) : (c : TOTPCall) → (w : World) → Decidable (c.WhileOff userID w)
  | .enroll, _ => inferInstanceAs (Decidable (∀ _ ∈ _, _))
  | .confirm _, _ | .authenticate _, _ => isTrue trivial

/-- The code is one of the secret at some time. -/
def IsCode (v : Env) (code secret : String) : Prop := ∃ t, v.totpValidate t code secret = true

section
variable {v : Env} {issuer : String} {userID : ID}

abbrev TOTPExchange := Session.Exchange TOTPCall World Err Unit

/-- A `ConfirmTOTP` call that succeeded while the user's row held this (encrypted) secret. -/
def TOTPExchange.Confirms (userID : ID) (y : TOTPExchange) (totpSecret : String) : Prop :=
  (∃ code, y.call = .confirm code) ∧ y.answer = .ok () ∧
    ∃ u, y.before.store.users.find userID = some u ∧ u.totpSecret = totpSecret

/-- The secret of a second factor that is on was confirmed in the past. -/
def SecretConfirmed (userID : ID) (past : List TOTPExchange) (s : Store) : Prop :=
  ∀ u, s.users.find userID = some u → u.totpEnabled = true → ∃ y ∈ past, y.Confirms userID u.totpSecret

theorem SecretConfirmed.past_append {past : List TOTPExchange} {s : Store} (h : SecretConfirmed userID past s)
    (x : TOTPExchange) : SecretConfirmed userID (past ++ [x]) s := by
  intro u hu hon
  obtain ⟨y, hy, hconf⟩ := h u hu hon
  exact ⟨y, List.mem_append_left _ hy, hconf⟩

theorem enroll_secretConfirmed {past : List TOTPExchange} {s : Store}
    (hoff : ∀ u ∈ s.users.find userID, u.totpEnabled = false) (h : SecretConfirmed userID past s) :
    Ends v s (TOTPCall.enroll.run issuer userID) (fun _ => SecretConfirmed userID past)
      fun _ => SecretConfirmed userID past := by
  refine .bind ((AuthService.enrollTOTP_ends issuer userID).mono ?_ ?_)
  · rintro _ s' ⟨u, encrypted, t, hu, hset, _⟩
    refine .pure fun u' hu' hon => ?_
    have hid : u.id = userID := (Table.find_eq_some.mp hu).2
    have hnew : s'.users.find userID = some { u with totpSecret := encrypted, updatedAt := t } :=
      hid ▸ Table.find_set_self hset
    cases hnew.symm.trans hu'
    cases (hoff u hu).symm.trans hon
  · rintro _ s' rfl
    exact h

theorem confirm_secret {s s' : Store} {u : User} {t : Time} (hu : s.users.find userID = some u)
    (hset : s.users.set { u with totpEnabled := true, updatedAt := t } = some s'.users) {u' : User}
    (hu' : s'.users.find userID = some u') : u'.totpSecret = u.totpSecret := by
  have hid : u.id = userID := (Table.find_eq_some.mp hu).2
  have hnew : s'.users.find userID = some { u with totpEnabled := true, updatedAt := t } :=
    hid ▸ Table.find_set_self hset
  cases hnew.symm.trans hu'
  rfl

/-- What one call makes of the invariant: a confirmation is itself the exchange that later
codes rest on. -/
theorem TOTPCall.run_secretConfirmed (past : List TOTPExchange) (c : TOTPCall) (w : World)
    (h : SecretConfirmed userID past w.store) (hc : c.WhileOff userID w) :
    SecretConfirmed userID (past ++ [Session.exchange (TOTPCall.run issuer userID) v c w])
      ((c.run issuer userID).exec v w).2.store := by
  cases c with
  | enroll => exact ((enroll_secretConfirmed hc h).exec_view rfl).past_append _
  | confirm code =>
    have hends := AuthService.confirmTOTP_ends (v := v) (s := w.store) userID code
    rcases hx : (AuthService.confirmTOTP userID code).exec v w with ⟨e | _, w'⟩
    · have hs := hends.error rfl hx
      simp only [TOTPCall.run, hx, hs]
      exact h.past_append _
    · obtain ⟨u, t, hu, _, hset, _⟩ := hends.ok rfl hx
      simp only [TOTPCall.run, hx]
      intro u' hu' _
      refine ⟨_, List.mem_append_right _ List.mem_cons_self, ⟨code, rfl⟩, congrArg Prod.fst hx, u, hu, ?_⟩
      exact (confirm_secret hu hset hu').symm
  | authenticate code =>
    have hs : ((AuthService.authenticateTOTP userID code).1.exec v w).2.store = w.store := Query.exec_view v _ w
    simp only [TOTPCall.run, liftM_reads, hs]
    exact h.past_append _

theorem authenticate_code {w : World} {code : String}
    (hok : ((TOTPCall.authenticate code).run issuer userID |>.exec v w).1 = .ok ()) :
    ∃ u, w.store.users.find userID = some u ∧ u.totpEnabled = true ∧ AuthService.CodeAccepted v u code := by
  have hends := AuthService.authenticateTOTP_ends (v := v) (s := w.store) userID code
  rcases hx : (AuthService.authenticateTOTP userID code).1.exec v w with ⟨e | _, w'⟩
  · simp [TOTPCall.run, hx] at hok
  · exact (hends.ok rfl hx).2

end

/-- For a user whose second factor is off at the beginning, along every session in which no
secret is made while it is on: a code that `AuthenticateTOTP` accepts belongs to one
secret, and a `ConfirmTOTP` call for that secret succeeded before. Codes of different
secrets are assumed not to coincide. -/
theorem accepted_code_confirmed {v : Env} {w : World} (issuer : String) (userID : ID) (cs : List TOTPCall)
    (hcodes : ∀ code secret secret', IsCode v code secret → IsCode v code secret' → secret = secret')
    (hoff : ∀ u ∈ w.store.users.find userID, u.totpEnabled = false)
    (hcs : Session.Along (TOTPCall.run issuer userID) v (TOTPCall.WhileOff userID) cs w) :
    ∀ pre x post code, Session.run (TOTPCall.run issuer userID) v cs w = pre ++ x :: post →
      x.call = .authenticate code → x.answer = .ok () →
      ∃ secret, (∀ s, IsCode v code s ↔ s = secret) ∧
        ∃ y ∈ pre, ∃ totpSecret, TOTPExchange.Confirms userID y totpSecret ∧ v.decrypt totpSecret = .ok secret := by
  have hinit : SecretConfirmed userID [] w.store := fun u hu hon => by cases (hoff u hu).symm.trans hon
  intro pre x post code hrun hcall hok
  have hP := Session.run_history (I := fun past w => SecretConfirmed userID past w.store)
    (P := fun past x => ∀ code, x.call = .authenticate code → x.answer = .ok () →
      ∃ u, AuthService.CodeAccepted v u code ∧ ∃ y ∈ past, TOTPExchange.Confirms userID y u.totpSecret)
    (fun past c w h hc => c.run_secretConfirmed past w h hc)
    (fun past c w h _ code hcall hok => by
      cases hcall
      obtain ⟨u, hu, hon, hcode⟩ := authenticate_code hok
      exact ⟨u, hcode, h u hu hon⟩)
    hinit (Session.meets_of_along hcs) hrun
  obtain ⟨u, ⟨secret, t, hdec, hvalid⟩, y, hy, hconf⟩ := hP code hcall hok
  refine ⟨secret, fun s => ⟨fun hs => hcodes code s secret hs ⟨t, hvalid⟩, ?_⟩, y, hy, u.totpSecret, hconf, hdec⟩
  rintro rfl
  exact ⟨t, hvalid⟩

namespace Sample

/-- The calm environment with a fresh secret for each enrollment: the first is made in step
1, the second in step 9. A code of a secret is the secret itself. -/
def freshSecrets : Env :=
  { Env.calm with totpGenerate := fun t _ _ => .ok (if t < 5 then "first" else "second", "otpauth") }

theorem freshSecrets_isCode {code secret : String} : IsCode freshSecrets code secret ↔ code = secret := by
  simp [IsCode, freshSecrets, Env.calm]

def confirmedSession : List TOTPCall := [.enroll, .confirm "first", .authenticate "first"]

def reenrolledSession : List TOTPCall := [.enroll, .confirm "first", .enroll, .authenticate "second"]

end Sample

theorem accepted_code_confirmed_enrolled :
    let call := TOTPCall.run "EdgeFabric" 7
    let w : World := ⟨0, Sample.account Sample.user⟩
    let run := Session.run call Sample.freshSecrets Sample.confirmedSession w
    run.map (·.answer.toBool) = [true, true, true] ∧
      ∃ secret, (∀ s, IsCode Sample.freshSecrets "first" s ↔ s = secret) ∧
        ∃ y ∈ run.take 2, ∃ totpSecret, TOTPExchange.Confirms 7 y totpSecret ∧
          Sample.freshSecrets.decrypt totpSecret = .ok secret := by
  intro call w run
  refine ⟨by decide, ?_⟩
  have hcodes : ∀ code secret secret', IsCode Sample.freshSecrets code secret →
      IsCode Sample.freshSecrets code secret' → secret = secret' := by
    intro code secret secret' h h'
    rw [← Sample.freshSecrets_isCode.mp h, ← Sample.freshSecrets_isCode.mp h']
  exact accepted_code_confirmed "EdgeFabric" 7 Sample.confirmedSession hcodes (by decide) (by decide)
    (run.take 2) (Session.exchange call Sample.freshSecrets (.authenticate "first")
      (Session.final call _ [.enroll, .confirm "first"] w))
    [] "first" rfl rfl (by decide)

/-- The second secret was never confirmed, and its code is accepted. -/
theorem unconfirmed_secret_accepted :
    let run := Session.run (TOTPCall.run "EdgeFabric" 7) Sample.freshSecrets Sample.reenrolledSession
      ⟨0, Sample.account Sample.user⟩
    (∀ code secret, IsCode Sample.freshSecrets code secret ↔ code = secret) ∧ Sample.user.totpEnabled = false ∧
    run.map (fun x => (x.call, x.answer.toBool)) =
      [(.enroll, true), (.confirm "first", true), (.enroll, true), (.authenticate "second", true)] ∧
    ∀ y ∈ run, ∀ totpSecret, TOTPExchange.Confirms 7 y totpSecret →
      Sample.freshSecrets.decrypt totpSecret = .ok "first" := by
  intro run
  refine ⟨fun _ _ => Sample.freshSecrets_isCode, rfl, by rfl, ?_⟩
  have hfirst : ∀ y ∈ run, y.call = .confirm "first" →
      ∀ u ∈ y.before.store.users.find 7, u.totpSecret = "first" := by decide
  have hcalls : ∀ y ∈ run, y.call ∈ Sample.reenrolledSession := by decide
  rintro y hy totpSecret ⟨⟨code, hcode⟩, _, u, hu, rfl⟩
  have hcall := hcalls y hy
  simp only [Sample.reenrolledSession, hcode, List.mem_cons, TOTPCall.confirm.injEq, reduceCtorEq, List.not_mem_nil,
    false_or, or_false] at hcall
  rw [hfirst y hy (hcall ▸ hcode) u hu]
  rfl

end EdgeFabric
