/-
What a controller does to the database when it starts: it creates the first account if there is none
(`internal/app/seed.go`), and its own WireGuard peer (`internal/networking/bootstrap.go`).

Controllers that share a database may start at the same time, and all of them may find it without accounts.
The unique email lets one of them create the account, and the others take that for success: however they
interleave, there is one account, and whoever has started has it (`seeded_once`). A peer has no such constraint, and is
created once by controllers that start one after another (`bootstrapped_once`).
-/
import EdgeFabric.Networking.WireGuard
import EdgeFabric.User

namespace EdgeFabric

def seedRequest (password : String) : UserService.CreateRequest :=
  { tenantID := none, email := "admin@edgefabric.local", name := "Admin", password, role := .superUser }

def seedSuperUser : M Unit := do
  let (_, total) ← read (Store.listUsers none { limit := 1 })
  if total > 0 then return
  let password ← (ask .random fun v t => orErr (v.random t) : Reads String)
  match ← (UserService.create (seedRequest password)).attempt with
  | .ok _ => return
  | .error e => if e.is .alreadyExists then return else Prog.fail e

/-- The account that is seeded. -/
structure Seeded (v : Env) (u : User) : Prop where
  email : u.email = Text.trimSpace (v.lower "admin@edgefabric.local")
  role : u.role = .superUser
  tenantID : u.tenantID = none

/-- The steps of a controller, which is told whether it has seen to it that there is an account. -/
structure SeedStep (q : Bool) (c : Call) (v : Env) (w w' : World) (q' : Bool) : Prop where
  users : w'.store.users = w.store.users ∨ ∃ u, Seeded v u ∧ w.store.users.insert u = some w'.store.users
  seen : q' = true → q = true ∨ ∃ u, u ∈ w'.store.users

/-- The result is no error that says that an account exists. -/
def NotTaken {α : Type} (r : Except Err α) : Prop := ∀ e, r = .error e → e.is .alreadyExists = false

section
variable {v : Env} {q : Bool} {α : Type}

theorem ask_follows_seed {c : Call} {f : Env → Nat → Except Err α} {hc : ¬ c.ChangesPeers}
    {P : Bool → Except Err α → Prop}
    (h : ∀ t, P q (f v t)) : (ask c f hc).1.Follows SeedStep (fun v' _ => v' = v) P q := by
  rintro _ w rfl
  exact ⟨q, ⟨.inl rfl, .inl⟩, h w.tick⟩

theorem NotTaken.under {r : Except Err α} (h : NotTaken r) (context : String) :
    NotTaken (r.mapError (.under context)) := by
  cases r with
  | ok a => nofun
  | error e =>
    rintro _ ⟨⟩
    exact h e rfl

theorem orErr_notTaken (x : Except String α) : NotTaken (orErr x) := by
  cases x with
  | ok a => nofun
  | error msg =>
    rintro _ ⟨⟩
    rfl

theorem checkCreate_notTaken (req : UserService.CreateRequest) (accepted : Bool) :
    NotTaken (UserService.checkCreate req accepted) := by
  intro e h
  unfold UserService.checkCreate at h
  repeat (split at h; · cases h; rfl)
  cases h

theorem Store.exists_user_of_taken {u : User} {t : Time} {s : Store} {e : Err} (ht : u.tenantID = none)
    (h : s.createUser u t = .error e) : ∃ u, u ∈ s.users := by
  by_contra hnone
  have hempty : s.users.rows = [] := List.eq_nil_iff_forall_not_mem.mpr fun u hu => hnone ⟨u, hu⟩
  cases u
  cases ht
  unfold createUser at h
  dsimp only at h
  rw [dif_pos (by simp [hempty])] at h
  split at h
  · cases h
  · next hinsert => simp [Table.insert, hempty] at hinsert

theorem create_follows_seed (password : String) :
    (UserService.create (seedRequest password)).Follows SeedStep (fun v' _ => v' = v)
      (fun q r => (∀ e, r = .error e → e.is .alreadyExists = true) → q = true) q := by
  have hfail : ∀ {β : Type} (q : Bool) (e : Err), NotTaken (.error e : Except Err β) →
      (∀ e', (.error e : Except Err User) = .error e' → e'.is .alreadyExists = true) → q = true := by
    intro β q e he htaken
    cases (he e rfl).symm.trans (htaken e rfl)
  refine .bind (P := fun q' r => r = .ok (v.lower "admin@edgefabric.local")) (ask_follows_seed fun t => rfl) ?_ nofun
  rintro q _ ⟨⟩
  refine .bind (P := fun q' r => ∃ b, r = .ok b) (ask_follows_seed fun t => ⟨_, rfl⟩) (fun q accepted _ => ?_) nofun
  refine .bind (P := fun _ => NotTaken) (.ofExcept (checkCreate_notTaken _ _)) (fun q _ _ => ?_) hfail
  refine .bind (P := fun _ => NotTaken) (.mapError (.mapError (ask_follows_seed fun t => orErr_notTaken _)
    fun _ _ h => NotTaken.under h _) fun _ _ h => NotTaken.under h _) (fun q hash _ => ?_) hfail
  refine .bind (P := fun q' r => ∃ b, r = .ok b) (ask_follows_seed fun t => ⟨_, rfl⟩) (fun q id _ => ?_) nofun
  refine follows_writeAs (fun v' w a s' hv h => ?_) fun v' w e hv h => ?_
  · obtain ⟨rfl, hinsert, -⟩ := Store.createUser_ok h
    exact ⟨true, ⟨.inr ⟨_, ⟨by rw [hv], rfl, rfl⟩, hinsert⟩,
      fun _ => .inr ⟨_, (Table.mem_insert hinsert).mpr (.inr rfl)⟩⟩, fun _ => rfl⟩
  · refine ⟨e.is .alreadyExists, ⟨.inl rfl, fun he => .inr ?_⟩, fun htaken => htaken e rfl⟩
    have htaken := dbAnswer_sentinel (by rintro msg rfl; cases he) h
    exact Store.exists_user_of_taken rfl htaken

theorem seedSuperUser_follows : seedSuperUser.Follows SeedStep (fun v' _ => v' = v)
    (fun q r => r = .ok () → q = true) false := by
  refine .bind (P := fun q r => ∀ a, r = .ok a → 0 < a.2 → q = true)
    (follows_read (fun v w a _ ha => ?_) fun v w e _ => ?_) ?_ ?_
  · cases ha
    refine ⟨decide (0 < w.store.users.rows.length), ⟨.inl rfl, fun hq => .inr ?_⟩, ?_⟩
    · exact List.exists_mem_of_length_pos (of_decide_eq_true hq)
    · rintro _ ⟨⟩
      exact decide_eq_true
  · exact ⟨false, ⟨.inl rfl, nofun⟩, nofun⟩
  · rintro q ⟨us, total⟩ h
    dsimp only
    split
    · next hpos => exact .pure fun _ => h _ rfl hpos
    · refine .bind (P := fun _ _ => True) (ask_follows_seed fun t => trivial) (fun q password _ => ?_) nofun
      refine .handle (create_follows_seed password) fun q r hr => ?_
      cases r with
      | ok u => exact .pure fun _ => hr nofun
      | error e =>
        dsimp only
        split
        · next he => exact .pure fun _ => hr (by rintro _ ⟨⟩; exact he)
        · exact .fail nofun
  · nofun

end

/-- Controllers that start on a new database. -/
def seeding (ι : Type) : Sys ι Call Env World Err Unit where
  state := ⟨0, .empty⟩
  procs _ := seedSuperUser

/-- However controllers that share a new database interleave in seeding it, there is at most one account, that of
a superuser, and there is one for every controller that is done. -/
theorem seeded_once {ι : Type} [DecidableEq ι] (v : Env) (sched : List ι) :
    let c := (seeding ι).run v sched
    (∀ a ∈ c.state.store.users, ∀ b ∈ c.state.store.users, a = b) ∧
      (∀ u ∈ c.state.store.users, u.role = .superUser ∧ u.tenantID = none) ∧
      ∀ i, c.result i = some (.ok ()) → ∃ u, u ∈ c.state.store.users := by
  intro c
  have hphases : ∃ q : ι → Bool, Sys.Phased (fun _ => SeedStep) (fun v' _ => v' = v)
    (fun _ q r => r = .ok () → q = true) c q ∧
      (∀ u ∈ c.state.store.users, Seeded v u) ∧ ∀ i, q i = true → ∃ u, u ∈ c.state.store.users := by
    refine Sys.Reach.phases (J := fun c q => (∀ u ∈ c.state.store.users, Seeded v u) ∧
      ∀ i, q i = true → ∃ u, u ∈ c.state.store.users) (fun _ _ _ => rfl)
      (fun c q i l act next q' _ hJ _ hp hT => ?_) (fun _ => seedSuperUser_follows)
      ⟨fun u hu => absurd hu Table.not_mem_empty, nofun⟩ (Sys.reach_run v sched (seeding ι))
    rw [Sys.step_of_step hp]
    have hkept : ∀ u ∈ c.state.store.users, u ∈ (act v c.state).store.users := by
      rcases hT.users with heq | ⟨u, -, hinsert⟩
      · exact fun u hu => heq ▸ hu
      · exact fun u hu => (Table.mem_insert hinsert).mpr (.inl hu)
    refine ⟨fun u hu => ?_, fun j hj => ?_⟩
    · rcases hT.users with heq | ⟨u', hu', hinsert⟩
      · exact hJ.1 u (heq ▸ hu)
      · rcases (Table.mem_insert hinsert).mp hu with hu | rfl
        · exact hJ.1 u hu
        · exact hu'
    · by_cases hji : j = i
      · subst hji
        rw [Function.update_self] at hj
        exact (hT.seen hj).elim (fun hq => (hJ.2 j hq).imp hkept) id
      · rw [Function.update_of_ne hji] at hj
        exact (hJ.2 j hj).imp hkept
  obtain ⟨q, hphased, hseeded, hseen⟩ := hphases
  refine ⟨fun a ha b hb => ?_, fun u hu => ⟨(hseeded u hu).role, (hseeded u hu).tenantID⟩,
    fun i hi => hseen i (hphased.result hi rfl)⟩
  exact c.state.store.userEmails.inj ha hb ((hseeded a ha).email.trans (hseeded b hb).email.symm)

/-! ## The controller's peer -/

def bootstrapControllerPeer (hub : WireGuardHub) (controllerID : ID) : M WireGuardPeer := do
  match ← (readFirst (Store.getWireGuardPeerByOwner .controller controllerID)).attempt with
  | .ok existing => return existing
  | .error .notFound =>
    let (privateKey, publicKey) ← generateWireGuardKeyPair.under "generate wireguard keys"
    let psk ← generatePresharedKey.under "generate preshared key"
    let privateKey ← (encryptSecret privateKey).under "encrypt private key"
    let presharedKey ← (encryptSecret psk).under "encrypt preshared key"
    let id ← newID
    (write (Store.createWireGuardPeer
      { id, ownerType := .controller, ownerID := controllerID, publicKey, privateKey, presharedKey
        allowedIPs := [hub.subnet], endpoint := if 0 < hub.listenPort then ":" ++ toString hub.listenPort else ""
        lastRotatedAt := 0, createdAt := 0, updatedAt := 0 })).under "create controller peer"
  | .error e => Prog.fail (.under "check controller peer" e)

theorem bootstrapControllerPeer_ends (v : Env) (s : Store) (hub : WireGuardHub) (id : ID) :
    Ends v s (bootstrapControllerPeer hub id)
      (fun p s' => p ∈ s.peersOf .controller id ∧ s' = s ∨
        s.peersOf .controller id = [] ∧ s'.peersOf .controller id = [p])
      fun _ s' => s' = s := by
  refine .bind (.attempt (Ends.readAs_cases (fun n p hp => ?_) (fun t msg _ => .fail rfl) fun n e he => ?_))
  · exact .pure (.inl ⟨Store.getWireGuardPeerByOwner_ok hp, rfl⟩)
  · have hnone := Store.getWireGuardPeerByOwner_error he
    cases e with
    | notFound =>
      refine .bind (.mapError (Ends.reads (fun keys => ?_) fun e => rfl))
      refine .bind (.mapError (Ends.reads (fun psk => ?_) fun e => rfl))
      refine .bind (.mapError (Ends.reads (fun privateKey => ?_) fun e => rfl))
      refine .bind (.mapError (Ends.reads (fun presharedKey => ?_) fun e => rfl))
      refine .bind (Ends.newID fun n => .mapError (Ends.write (fun t p s' h => ?_) fun e => rfl))
      obtain ⟨rfl, peers, hinsert, rfl⟩ := Store.createWireGuardPeer_ok h
      exact .inr ⟨hnone, by rw [Store.peersOf_insert hinsert, hnone]; simp⟩
    | _ => exact .fail rfl

/-- What happens to the database between two starts; nobody else touches the controller's peer. -/
abbrev Meanwhile (id : ID) :=
  { f : World → World // ∀ w, (f w).store.peersOf .controller id = w.store.peersOf .controller id }

/-- The peers that starts one after another return, and what they leave. -/
def starts (hub : WireGuardHub) (id : ID) : List (Env × Meanwhile id) → World → List WireGuardPeer × World
  | [], w => ([], w)
  | (v, f) :: rest, w =>
    let (r, w) := (bootstrapControllerPeer hub id).exec v (f.1 w)
    let (peers, w) := starts hub id rest w
    (r.toOption.toList ++ peers, w)

/-- A new controller that is started again and again, whatever fails, has at most one peer, and every start that
succeeds returns it. -/
theorem bootstrapped_once (hub : WireGuardHub) (id : ID) (events : List (Env × Meanwhile id)) :
    let out := starts hub id events ⟨0, .empty⟩
    let peers := out.2.store.peersOf .controller id
    (∀ p ∈ peers, peers = [p]) ∧ ∀ p ∈ out.1, peers = [p] := by
  suffices hall : ∀ w : World, (∀ p ∈ w.store.peersOf .controller id, w.store.peersOf .controller id = [p]) →
      (∀ p ∈ (starts hub id events w).2.store.peersOf .controller id,
        (starts hub id events w).2.store.peersOf .controller id = [p]) ∧
      ∀ p, p ∈ w.store.peersOf .controller id ∨ p ∈ (starts hub id events w).1 →
        (starts hub id events w).2.store.peersOf .controller id = [p] from
    (hall ⟨0, .empty⟩ nofun).imp_right fun h p hp => h p (.inr hp)
  induction events with
  | nil => exact fun w h => ⟨h, fun p hp => h p (hp.resolve_right nofun)⟩
  | cons event rest ih =>
    intro w h
    obtain ⟨v, f⟩ := event
    have hends := bootstrapControllerPeer_ends v (f.1 w).store hub id
    rw [← f.2 w] at h ⊢
    unfold starts
    rcases hx : (bootstrapControllerPeer hub id).exec v (f.1 w) with ⟨e | p, w'⟩
    · have hs := hends.error rfl hx
      exact hs ▸ ih w' (hs ▸ h)
    · have hw' : w'.store.peersOf .controller id = [p] ∧ ∀ p' ∈ (f.1 w).store.peersOf .controller id, p' = p := by
        rcases hends.ok rfl hx with ⟨hp, hs⟩ | ⟨hnone, hp⟩
        · exact ⟨hs ▸ h p hp, by simp [h p hp]⟩
        · exact ⟨hp, by simp [hnone]⟩
      obtain ⟨hmost, hlast⟩ := ih w' (by simp [hw'.1])
      refine ⟨hmost, ?_⟩
      rintro p' (hp' | hp')
      · exact hw'.2 p' hp' ▸ hlast p (.inl (by simp [hw'.1]))
      · rcases List.mem_cons.mp hp' with rfl | hp'
        · exact hlast p' (.inl (by simp [hw'.1]))
        · exact hlast p' (.inr hp')

end EdgeFabric
