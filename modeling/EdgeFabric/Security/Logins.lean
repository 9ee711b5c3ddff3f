/-
Logging in while the account changes. `AuthenticatePassword` reads the user's row,
compares hashes and then writes the whole row back to record the time of the login.
An update or a confirmation of the second factor that commits between the read and
the write is undone (`login_undoes_disable`).

If none does, every login that has read the row holds the credentials that are stored,
so its write changes none of them, and what is stored is what was last committed
(`logins_undo_nothing`).
-/
import EdgeFabric.User

namespace EdgeFabric

/-- What a login should leave alone. -/
structure Credentials where
  status : UserStatus
  role : Role
  passwordHash : String
  totpSecret : String
  totpEnabled : Bool
  deriving DecidableEq, Repr

def User.credentials (u : User) : Credentials :=
  { status := u.status, role := u.role, passwordHash := u.passwordHash, totpSecret := u.totpSecret
    totpEnabled := u.totpEnabled }

def Store.credentials (s : Store) (id : ID) : Option Credentials := (s.users.find id).map User.credentials

inductive AccountOp where
  | login (password : String)
  | update (req : UserService.UpdateRequest)
  | confirm (code : String)
  deriving DecidableEq, Repr

namespace AccountOp

def isLogin : AccountOp → Bool
  | .login _ => true
  | .update _ | .confirm _ => false

def run (userID : ID) (email : String) : AccountOp → M Unit
  | .login password => do let _ ← AuthService.authenticatePassword email password
  | .update req => do let _ ← UserService.update userID req
  | .confirm code => AuthService.confirmTOTP userID code

end AccountOp

/-- Any number of operations on the account of `userID`, who logs in as `email`. -/
def accountOps {ι : Type} (userID : ID) (email : String) (ops : ι → AccountOp) (w : World) :
    Sys ι Call Env World Err Unit :=
  { state := w, procs := fun i => (ops i).run userID email }

/-- An update or a confirmation makes its second database call, which writes, only while
no login has made its first and is still running. -/
def LoginsApart {ι : Type} (ops : ι → AccountOp) (c : Sys ι Call Env World Err Unit) (i : ι) : Prop :=
  (ops i).isLogin = false → c.label i = some .db → (i, .db) ∈ c.trace →
    ∀ j, (ops j).isLogin = true → (j, .db) ∈ c.trace → c.result j ≠ none

/-! ## What the operations do -/

/-- How far an operation has got: the row it has read, and whether it has changed the
account. -/
inductive AccountPhase where
  | start
  | holds (u : User)
  | recorded
  | committed

inductive AccountStep (login : Bool) : AccountPhase → Call → Env → World → World → AccountPhase → Prop where
  | found {u v w} : u ∈ w.store.users → AccountStep login .start .db v w w.next (.holds u)
  | refused {v w} : AccountStep login .start .db v w w.next .start
  | works {u c v w w'} : w'.store = w.store → AccountStep login (.holds u) c v w w' (.holds u)
  | records {u u' v w w'} : login = true → u'.id = u.id → u'.credentials = u.credentials →
      w.store.users.set u' = some w'.store.users → AccountStep login (.holds u) .db v w w' .recorded
  | changes {u v w w'} : login = false → AccountStep login (.holds u) .db v w w' .committed

section
variable {α : Type} {login : Bool} {I : Env → World → Prop} {u : User}

/-- A call that returns a row has read it, and changed nothing. -/
structure Holding (q : AccountPhase) (r : Except Err User) : Prop where
  row : ∀ u, r = .ok u → q = .holds u
  unchanged : q ≠ .committed

theorem Holding.mapError {f : Err → Err} {q : AccountPhase} {r : Except Err User} (h : Holding q r) :
    Holding q (r.mapError f) := by
  refine ⟨fun u hu => ?_, h.unchanged⟩
  cases r with
  | ok u' => exact h.row u hu
  | error e => cases hu

theorem Holding.error {q : AccountPhase} {e : Err} (h : q ≠ .committed) : Holding q (.error e) := ⟨nofun, h⟩

theorem Holding.ok : Holding (.holds u) (.ok u) := ⟨fun u' h => by cases h; rfl, nofun⟩

theorem getUser_follows {f : Store → Except Err User} (hf : ∀ s u, f s = .ok u → u ∈ s.users) :
    (read f).1.Follows (AccountStep login) I Holding .start :=
  follows_read (fun _ _ u _ hu => ⟨.holds u, .found (hf _ _ hu), .ok⟩) fun _ _ _ _ => ⟨.start, .refused, .error nofun⟩

theorem Reads.follows_holds (r : Reads α) :
    r.1.Follows (AccountStep login) I (fun q _ => q = .holds u) (.holds u) := by
  refine .ofWithin (S := (· = .holds u)) r.2 ?_ (fun _ _ hq => hq) rfl
  rintro _ c v w w' rfl _ ⟨_, hs⟩
  exact ⟨_, rfl, .works hs⟩

def Succeeds (q : AccountPhase) (r : Except Err α) : Prop := q = .committed → ∃ a, r = .ok a

theorem Succeeds.holds {r : Except Err α} : Succeeds (.holds u) r := nofun

theorem Succeeds.error {β : Type} {q : AccountPhase} {e : Err} (h : Succeeds q (.error e : Except Err α)) :
    Succeeds q (.error e : Except Err β) := by
  intro hq
  obtain ⟨a, ha⟩ := h hq
  cases ha

theorem checkPassword_follows (email password : String) :
    (AuthService.checkPassword email password).1.Follows (AccountStep login) I Holding .start := by
  refine .bind (.mapError (getUser_follows fun s u hu => (Store.getUserByEmail_ok hu).1) fun _ _ h => h.mapError) ?_
    fun q e hq => .error hq.unchanged
  intro q u hq
  obtain rfl := hq.row u rfl
  dsimp only
  split
  · exact .fail (.error nofun)
  · refine .bind (Reads.follows_holds _) ?_ fun q e hq => .error (by rw [hq]; exact nofun)
    rintro _ (_ | _) rfl
    · exact .fail (.error nofun)
    · exact .pure .ok

theorem recordLogin_follows (t : Time) :
    (write (Store.updateUser { u with lastLoginAt := some t })).Follows (AccountStep true) I
      (fun q _ => q ≠ .committed) (.holds u) := by
  refine follows_writeAs (fun v w u' s' _ h => ?_) fun v w e _ _ => ⟨.holds u, .works rfl, nofun⟩
  obtain ⟨rfl, ⟨old, _, hset⟩, _⟩ := Store.updateUser_ok h
  refine ⟨.recorded, .records rfl ?_ ?_ hset, nofun⟩ <;> rfl

theorem updateUser_follows (u' : User) :
    (write (Store.updateUser u')).Follows (AccountStep false) I Succeeds (.holds u) :=
  follows_writeAs (fun _ _ _ _ _ _ => ⟨.committed, .changes rfl, fun _ => ⟨_, rfl⟩⟩)
    fun _ _ _ _ _ => ⟨.holds u, .works rfl, .holds⟩

theorem authenticatePassword_follows (email password : String) :
    (AuthService.authenticatePassword email password).Follows (AccountStep true) I
      (fun q _ => q ≠ .committed) .start := by
  refine .bind (checkPassword_follows email password) ?_ fun q e hq => hq.unchanged
  intro q u hq
  obtain rfl := hq.row u rfl
  refine .bind (Reads.follows_holds _) ?_ fun q e hq => by rw [hq]; exact nofun
  rintro _ t rfl
  exact .bind (P := fun q _ => q ≠ .committed) (.attempt (recordLogin_follows t) fun _ _ hq => hq)
    (fun q r hq => .pure hq) fun q e hq => hq

theorem update_follows (userID : ID) (req : UserService.UpdateRequest) :
    (UserService.update userID req).Follows (AccountStep false) I Succeeds .start := by
  refine .bind (getUser_follows fun s u hu => (Store.getUser_ok hu).1) ?_ fun q e hq h => absurd h hq.unchanged
  intro q u hq
  obtain rfl := hq.row u rfl
  refine .bind (P := fun q _ => q = .holds u) (.ofExcept rfl) ?_ fun q e hq => hq ▸ .holds
  rintro _ u₁ rfl
  refine .bind (Reads.follows_holds _) ?_ fun q e hq => hq ▸ .holds
  rintro _ u₂ rfl
  refine .bind (Reads.follows_holds _) ?_ fun q e hq => hq ▸ .holds
  rintro _ t rfl
  exact updateUser_follows _

theorem checkEnrolledTOTP_follows (userID : ID) (code : String) :
    (AuthService.checkEnrolledTOTP userID code).1.Follows (AccountStep login) I Holding .start := by
  refine .bind (.mapError (getUser_follows fun s u hu => (Store.getUser_ok hu).1) fun _ _ h => h.mapError) ?_
    fun q e hq => .error hq.unchanged
  intro q u hq
  obtain rfl := hq.row u rfl
  dsimp only
  split
  · exact .fail (.error nofun)
  · refine .bind (Reads.follows_holds _) ?_ fun q e hq => .error (by rw [hq]; exact nofun)
    rintro _ secret rfl
    refine .bind (Reads.follows_holds _) ?_ fun q e hq => .error (by rw [hq]; exact nofun)
    rintro _ (_ | _) rfl
    · exact .fail (.error nofun)
    · exact .pure .ok

theorem confirmTOTP_follows (userID : ID) (code : String) :
    (AuthService.confirmTOTP userID code).Follows (AccountStep false) I Succeeds .start := by
  refine .bind (checkEnrolledTOTP_follows userID code) ?_ fun q e hq h => absurd h hq.unchanged
  intro q u hq
  obtain rfl := hq.row u rfl
  refine .bind (P := Succeeds) (.mapError (updateUser_follows _) fun q r hq h => ?_)
    (fun q u _ => .pure fun _ => ⟨(), rfl⟩) fun q e hq => hq.error
  obtain ⟨a, rfl⟩ := hq h
  exact ⟨a, rfl⟩

/-- Every operation follows its phases; only an update or a confirmation that succeeds
changes the account. -/
theorem AccountOp.run_follows (userID : ID) (email : String) (op : AccountOp) :
    (op.run userID email).Follows (AccountStep op.isLogin) I Succeeds .start := by
  cases op with
  | login password =>
    exact .bind (authenticatePassword_follows email password) (fun q u hq => .pure fun h => absurd h hq)
      fun q e hq h => absurd h hq
  | update req => exact .bind (update_follows userID req) (fun q u _ => .pure fun _ => ⟨(), rfl⟩) fun q e hq => hq.error
  | confirm code => exact confirmTOTP_follows userID code

end

/-! ## Every interleaving -/

theorem Store.credentials_set {s s' : Store} {u : User} (h : s.users.set u = some s'.users)
    (hu : s.credentials u.id = some u.credentials) (id : ID) : s'.credentials id = s.credentials id := by
  by_cases hid : id = u.id
  · rw [hid, hu, Store.credentials, Table.find_set_self h, Option.map_some]
  · rw [Store.credentials, Table.find_set_of_ne h hid, Store.credentials]

theorem Store.credentials_of_mem {s : Store} {u : User} (h : u ∈ s.users) :
    s.credentials u.id = some u.credentials := by
  rw [Store.credentials, Table.find_eq_some.mpr ⟨h, rfl⟩, Option.map_some]

section
variable {ι : Type} {ops : ι → AccountOp}

/-- A login that holds a row holds the credentials that are stored, until it ends. -/
structure LoginInv (ops : ι → AccountOp) (c : Sys ι Call Env World Err Unit) (q : ι → AccountPhase) : Prop where
  read : ∀ i u, q i = .holds u → (i, .db) ∈ c.trace
  fresh : ∀ i u, (ops i).isLogin = true → q i = .holds u → c.result i = none →
    c.state.store.credentials u.id = some u.credentials

variable {c : Sys ι Call Env World Err Unit} {q : ι → AccountPhase} {v : Env} {i : ι} {l : Call}
  {act : Env → World → World} {next : Env → World → M Unit} {q' : AccountPhase}

theorem LoginInv.credentials_step (h : LoginInv ops c q) (hp : c.procs i = .step l act next)
    (hT : AccountStep (ops i).isLogin (q i) l v c.state (act v c.state) q') :
    (∀ id, (act v c.state).store.credentials id = c.state.store.credentials id) ∨
      (ops i).isLogin = false ∧ q' = .committed ∧ l = .db ∧ (i, .db) ∈ c.trace := by
  generalize hqi : q i = qi at hT
  generalize act v c.state = w' at hT ⊢
  cases hT with
  | found => exact .inl fun _ => rfl
  | refused => exact .inl fun _ => rfl
  | works hs => exact .inl fun id => by rw [hs]
  | @records u u' _ _ _ hlogin hid hcred hset =>
    refine .inl (Store.credentials_set hset ?_)
    rw [hid, hcred]
    exact h.fresh i u hlogin hqi (Sys.result_of_step hp)
  | @changes u _ _ _ hlogin => exact .inr ⟨hlogin, rfl, rfl, h.read i u hqi⟩

theorem AccountStep.holds_cases {login : Bool} {q : AccountPhase} {w w' : World} {u : User}
    (hT : AccountStep login q l v w w' (.holds u)) :
    q = .holds u ∨ l = .db ∧ w.store.credentials u.id = some u.credentials := by
  cases hT with
  | found hu => exact .inr ⟨rfl, Store.credentials_of_mem hu⟩
  | works _ => exact .inl rfl

theorem LoginInv.step [DecidableEq ι] (h : LoginInv ops c q) (hok : LoginsApart ops c i)
    (hp : c.procs i = .step l act next) (hT : AccountStep (ops i).isLogin (q i) l v c.state (act v c.state) q') :
    LoginInv ops (c.step v i) (Function.update q i q') := by
  have hcred := h.credentials_step hp hT
  constructor
  · intro j u hj
    rw [Sys.step_of_step hp]
    by_cases hji : j = i
    · subst hji
      rw [Function.update_self] at hj
      subst hj
      obtain hq | ⟨rfl, _⟩ := hT.holds_cases
      · exact List.mem_cons_of_mem _ (h.read j u hq)
      · exact List.mem_cons_self
    · rw [Function.update_of_ne hji] at hj
      exact List.mem_cons_of_mem _ (h.read j u hj)
  · intro j u hlogin hj hrun
    by_cases hji : j = i
    · subst hji
      rw [Function.update_self] at hj
      subst hj
      obtain hsame | ⟨_, hq', _⟩ := hcred
      · rw [Sys.step_of_step hp, hsame]
        obtain hq | ⟨_, hu⟩ := hT.holds_cases
        · exact h.fresh j u hlogin hq (Sys.result_of_step hp)
        · exact hu
      · cases hq'
    · rw [Function.update_of_ne hji] at hj
      rw [Sys.result_step_of_ne hji] at hrun
      obtain hsame | ⟨hwriter, _, rfl, hread⟩ := hcred
      · rw [Sys.step_of_step hp, hsame]
        exact h.fresh j u hlogin hj hrun
      · -- a commit finds no login that is still running
        exact absurd hrun (hok hwriter (Sys.label_of_step hp) hread j hlogin (h.read j u hj))

end

/-- Along every interleaving of logins with updates and confirmations in which none of these
commits while a login is between its read and its end, the credentials stored for the
user are those that the last update or confirmation committed. -/
theorem logins_undo_nothing {ι : Type} [DecidableEq ι] (userID : ID) (email : String) (ops : ι → AccountOp) (v : Env)
    (w : World) (sched : List ι) (h : Sys.Along v (LoginsApart ops) sched (accountOps userID email ops w)) :
    ((accountOps userID email ops w).run v sched).state.store.credentials userID =
      Sys.lastCommitted v (fun i => (ops i).isLogin = false) (fun w => w.store.credentials userID) sched
        (accountOps userID email ops w) (w.store.credentials userID) := by
  have hphased : (accountOps userID email ops w).Phased (fun i => AccountStep (ops i).isLogin) (fun _ _ => True)
      (fun _ => Succeeds) fun _ => .start := fun i => (ops i).run_follows userID email
  refine hphased.run_eq_lastCommitted (fun w : World => w.store.credentials userID)
    (W := fun i => (ops i).isLogin = false) (J := LoginInv ops) (fun _ _ _ => trivial) ?_ ?_ ⟨nofun, nofun⟩ h
  · intro c q i l act next q' _ hinv hok hp hT
    exact hinv.step hok hp hT
  · intro c q i l act next q' hinv _ hp hT hnext
    obtain hsame | ⟨hwriter, rfl, _⟩ := hinv.credentials_step hp hT
    · exact .inl (hsame userID)
    · -- a program that has committed has returned, with success
      obtain ⟨r, hr, hsucc⟩ := hnext.ret_of_stuck (v := v) (s := c.state) trivial fun l w' q' hT => by cases hT
      obtain ⟨a, rfl⟩ := hsucc rfl
      exact .inr ⟨hwriter, Sys.commits_of_ret hp hr⟩

namespace Sample

def loginAndDisable : Fin 2 → AccountOp
  | 0 => .login "password"
  | 1 => .update { status := some .disabled }

instance (ops : Fin 2 → AccountOp) (c : Sys (Fin 2) Call Env World Err Unit) (i : Fin 2) :
    Decidable (LoginsApart ops c i) :=
  inferInstanceAs (Decidable (_ → _ → _ → _))

end Sample

theorem logins_undo_nothing_serial :
    let c := accountOps 7 "a@b.c" Sample.loginAndDisable ⟨0, Sample.account Sample.user⟩
    let sched : List (Fin 2) := [1, 0, 0, 0, 0, 1, 1]
    Sys.Along Env.calm (LoginsApart Sample.loginAndDisable) sched c ∧
      (c.run Env.calm sched).state.store.credentials 7 = some { Sample.user.credentials with status := .disabled } := by
  intro c sched
  have halong : Sys.Along Env.calm (LoginsApart Sample.loginAndDisable) sched c := by decide
  refine ⟨halong, ?_⟩
  rw [logins_undo_nothing 7 "a@b.c" Sample.loginAndDisable Env.calm _ sched halong]
  decide

/-- The account is disabled while a login compares hashes; then the login writes the
active row back. -/
theorem login_undoes_disable :
    let c := accountOps 7 "a@b.c" Sample.loginAndDisable ⟨0, Sample.account Sample.user⟩
    let sched : List (Fin 2) := [0, 1, 1, 1, 0, 0, 0]
    (c.run Env.calm sched).state.store.credentials 7 = some Sample.user.credentials ∧
      Sys.lastCommitted Env.calm (fun i => (Sample.loginAndDisable i).isLogin = false)
        (fun w => w.store.credentials 7) sched c (some Sample.user.credentials) =
        some { Sample.user.credentials with status := .disabled } := by
  decide

end EdgeFabric
