/-
What the controller's code runs in: errors, the outside world that answers each
call (clock, identifiers, randomness, failing database calls, remote commands,
cryptography), and the programs over the store.

Everything the source does not decide is a field of `Env`, asked with the number
of the step that asks, so that a statement about all environments is one about
all clocks, failures and answers.
-/
import EdgeFabric.Store.Schema
import EdgeFabric.Lib.Interleave
import EdgeFabric.Lib.Session

namespace EdgeFabric

/-! ## Errors -/

/-- Go errors: the sentinels of `storage/errors.go`, plain texts, and wrapped errors. -/
inductive Err where
  | notFound
  | alreadyExists
  | conflict
  | text (msg : String)
  /-- `fmt.Errorf("context: %w", e)` -/
  | under (context : String) (e : Err)
  /-- `fmt.Errorf("%w: detail", e)` -/
  | detail (e : Err) (detail : String)
  deriving DecidableEq, Repr

namespace Err

/-- `errors.Is` for the three sentinels. -/
def is : Err → Err → Bool
  | .under _ e, target => is e target
  | .detail e _, target => is e target
  | e, target => e == target

/-- `err.Error()`. -/
def message : Err → String
  | .notFound => "not found"
  | .alreadyExists => "already exists"
  | .conflict => "conflict"
  | .text msg => msg
  | .under context e => context ++ ": " ++ e.message
  | .detail e d => e.message ++ ": " ++ d

end Err

/-- A character as `%q` writes it, if it is ASCII or can be printed. -/
def quoteChar (c : Char) : List Char :=
  if c = '"' ∨ c = '\\' then ['\\', c]
  else if c = '\n' then ['\\', 'n']
  else if c = '\r' then ['\\', 'r']
  else if c = '\t' then ['\\', 't']
  else if c.toNat < 0x20 ∨ c.toNat = 0x7f then
    match c.toNat with
    | 0x07 => ['\\', 'a']
    | 0x08 => ['\\', 'b']
    | 0x0b => ['\\', 'v']
    | 0x0c => ['\\', 'f']
    | n => ['\\', 'x', Nat.digitChar (n / 16), Nat.digitChar (n % 16)]
  else [c]

/-- `%q`, for text without characters beyond ASCII that cannot be printed. -/
def quote (s : String) : String := String.ofList ('"' :: s.toList.flatMap quoteChar ++ ['"'])

/-! ## The environment -/

/-- The answer of a remote command: its output, and the error text if it failed. -/
structure RemoteResult where
  output : String
  error : Option String
  deriving DecidableEq, Repr

structure SSHTarget where
  host : String
  port : Int
  user : String
  privateKey : String
  deriving DecidableEq, Repr

/-- The world outside the controller. Each answer may depend on the number of the
step that asks for it. -/
structure Env where
  now : Nat → Time
  newID : Nat → ID
  /-- random text (`crypto.GenerateRandomString`); failing is possible -/
  random : Nat → Except String String
  /-- a database call that fails for a reason of its own -/
  fault : Nat → Option String
  /-- which row a query without `ORDER BY` finds first -/
  pick : Nat → Nat
  /-- `GenerateWireGuardKeyPair`: private and public key -/
  keyPair : Nat → Except String (String × String)
  presharedKey : Nat → Except String String
  /-- `secrets.Store.Encrypt` -/
  encrypt : Nat → String → Except String String
  decrypt : String → Except String String
  /-- `ssh.Client.Connect` -/
  connect : Nat → SSHTarget → Option String
  /-- `ssh.Session.Run` -/
  remote : Nat → String → RemoteResult
  /-- opening the local binary, and its size -/
  openBinary : Nat → Except String Unit
  statBinary : Nat → Except String Nat
  /-- `ssh.Session.Upload` -/
  upload : Nat → Option String
  /-- `strings.ToLower` -/
  lower : String → String
  /-- whether `mail.ParseAddress` accepts the text -/
  parseAddress : String → Bool
  /-- `bcrypt.GenerateFromPassword`, which salts, and `bcrypt.CompareHashAndPassword` -/
  bcrypt : Nat → String → Except String String
  bcryptMatches : (hash password : String) → Bool
  /-- the 32 bytes of `rand.Read` that make an API key -/
  keyBytes : Nat → Except String (List UInt8)
  /-- HMAC-SHA256 of a message under a key -/
  hmac : (key message : List UInt8) → List UInt8
  /-- `totp.Generate` for an issuer and an account: the secret and the URL -/
  totpGenerate : Nat → (issuer account : String) → Except String (String × String)
  /-- `totp.Validate`, which reads the clock -/
  totpValidate : Nat → (code secret : String) → Bool
  /-- `net.LookupHost` -/
  lookupHost : Nat → String → Except String (List String)
  /-- `json.Unmarshal` of header rules -/
  headerRules : String → Except String (List HeaderRule)
  /-- `ed25519.GenerateKey`, its public key as a line of `authorized_keys`, its private key
  in PEM, and the fingerprint of the line -/
  ed25519 : Nat → Except String String
  authorizedKey : (key : String) → Except String String
  privateKeyPEM : Nat → (key : String) → Except String String
  fingerprintSHA256 : (line : String) → String

/-- An environment in which nothing fails. Times are the numbers of the steps, and
so are, from 1000 on, the identifiers. -/
def Env.calm : Env where
  now t := t
  newID t := BitVec.ofNat 128 (1000 + t)
  random t := .ok (toString t)
  fault _ := none
  pick _ := 0
  keyPair _ := .ok ("private", "public")
  presharedKey _ := .ok "psk"
  encrypt _ text := .ok text
  decrypt text := .ok text
  connect _ _ := none
  remote _ _ := { output := "edgefabric-ssh-ok active", error := none }
  openBinary _ := .ok ()
  statBinary _ := .ok 1
  upload _ := none
  lower text := String.ofList (text.toList.map Char.toLower)
  parseAddress _ := true
  bcrypt _ password := .ok password
  bcryptMatches hash password := hash = password
  keyBytes t := .ok (List.replicate 31 0 ++ [t.toUInt8])
  hmac key _ := key
  totpGenerate _ _ account := .ok (account, "otpauth")
  totpValidate _ code secret := code = secret
  lookupHost _ host := .ok [host]
  headerRules _ := .ok []
  ed25519 t := .ok (toString t)
  authorizedKey key := .ok ("public " ++ key)
  privateKeyPEM _ key := .ok ("private " ++ key)
  fingerprintSHA256 line := "SHA256:" ++ line

/-! ## Programs -/

/-- The store, and the number of steps taken so far. -/
structure World where
  tick : Nat
  store : Store

/-- What an atomic step is. The store calls by which a WireGuard peer is allocated
for a node, or removed, carry the node they are made for. -/
inductive Call where
  | clock | newID | random | secrets | files | ssh | library
  | db
  | listWireGuardPeers (node : ID)
  | createWireGuardPeer (node : ID)
  | getWireGuardPeerByOwner (node : ID)
  | deleteWireGuardPeer (node : ID)
  deriving DecidableEq, Repr

def Call.ChangesPeers : Call → Prop
  | .createWireGuardPeer _ | .deleteWireGuardPeer _ => True
  | _ => False

/-- The steps by which no program changes peer records. -/
class Call.Harmless (c : Call) : Prop where
  harmless : ¬ c.ChangesPeers

instance : Call.Harmless .clock := ⟨id⟩
instance : Call.Harmless .newID := ⟨id⟩
instance : Call.Harmless .random := ⟨id⟩
instance : Call.Harmless .secrets := ⟨id⟩
instance : Call.Harmless .files := ⟨id⟩
instance : Call.Harmless .ssh := ⟨id⟩
instance : Call.Harmless .library := ⟨id⟩
instance : Call.Harmless .db := ⟨id⟩
instance {node : ID} : Call.Harmless (.listWireGuardPeers node) := ⟨id⟩
instance {node : ID} : Call.Harmless (.getWireGuardPeerByOwner node) := ⟨id⟩

/-- A program of the controller: every database call is one atomic step. -/
abbrev M := Prog Call Env World Err

/-- A program that reads the store and does not change it. -/
abbrev Reads := Query Call Env Err (fun c => ¬ c.ChangesPeers) World.store

instance : MonadLift Reads M := ⟨Subtype.val⟩

@[simp] theorem liftM_reads {α : Type} (q : Reads α) : (liftM q : M α) = q.1 := rfl

def World.next (w : World) : World := { w with tick := w.tick + 1 }

@[simp] theorem World.next_store (w : World) : w.next.store = w.store := rfl

/-- `fmt.Errorf("context: %w", err)` around a call. -/
def M.under {α : Type} (context : String) (p : M α) : M α := p.mapError (.under context)

def Reads.under {α : Type} (context : String) (q : Reads α) : Reads α := q.mapError (.under context)

def ask {α : Type} (c : Call) (f : Env → Nat → Except Err α)
    (h : ¬ c.ChangesPeers := by exact Call.Harmless.harmless) : Reads α :=
  ⟨.call c fun v w => (f v w.tick, w.next), .call fun _ _ => ⟨h, rfl⟩⟩

/-- `time.Now()`. -/
def now : Reads Time := ask .clock fun v t => .ok (v.now t)

/-- `domain.NewID()`. -/
def newID : Reads ID := ask .newID fun v t => .ok (v.newID t)

def orErr {α : Type} : Except String α → Except Err α
  | .ok a => .ok a
  | .error msg => .error (.text msg)

theorem orErr_ok {α : Type} {x : Except String α} {a : α} : orErr x = .ok a ↔ x = .ok a := by
  cases x <;> simp [orErr]

def toLower (text : String) : Reads String := ask .library fun v _ => .ok (v.lower text)

/-- Whether `mail.ParseAddress` accepts the text. -/
def parseAddress (text : String) : Reads Bool := ask .library fun v _ => .ok (v.parseAddress text)

/-- `secrets.Encrypt`. -/
def encryptSecret (text : String) : Reads String := ask .secrets fun v t => orErr (v.encrypt t text)

/-- `secrets.Decrypt`. -/
def decryptSecret (text : String) : Reads String := ask .secrets fun v _ => orErr (v.decrypt text)

def dbAnswer {α : Type} (v : Env) (w : World) (f : Store → Except Err α) : Except Err α :=
  match v.fault w.tick with
  | some msg => .error (.text msg)
  | none => f w.store

/-- A database call that reads; `c` says which. `f` is told which of several rows
an unordered query finds first. -/
def readAs {α : Type} (c : Call) (f : Nat → Store → Except Err α)
    (h : ¬ c.ChangesPeers := by exact Call.Harmless.harmless) : Reads α :=
  ⟨.call c fun v w => (dbAnswer v w (f (v.pick w.tick)), w.next), .call fun _ _ => ⟨h, rfl⟩⟩

/-- A query that may find several rows and takes the first. -/
def readFirst {α : Type} (f : Nat → Store → Except Err α) : Reads α := readAs .db f

def read {α : Type} (f : Store → Except Err α) : Reads α := readFirst fun _ => f

/-- The result and the store after a database call that may write: a call that
fails leaves the store as it was. -/
def dbResult {α : Type} (v : Env) (w : World) (f : Time → Store → Except Err (α × Store)) : Except Err α × World :=
  match dbAnswer v w (f (v.now w.tick)) with
  | .ok (a, s) => (.ok a, { tick := w.tick + 1, store := s })
  | .error e => (.error e, w.next)

/-- A database call that may write; `c` says which. `f` is told the time. -/
def writeAs {α : Type} (c : Call) (f : Time → Store → Except Err (α × Store)) : M α := .call c fun v w => dbResult v w f

def write {α : Type} (f : Time → Store → Except Err (α × Store)) : M α := writeAs .db f

/-! ## Programs that leave the accounts alone -/

/-- What authentication reads: the users and the API keys. -/
def Store.accounts (s : Store) : Table User.id × Table APIKey.id := (s.users, s.apiKeys)

/-- A program that changes no user and no API key. -/
abbrev Service := Query Call Env Err (fun _ => True) fun w : World => w.store.accounts

theorem Call.any (c : Call) : ¬ c.ChangesPeers → True := fun _ => trivial

theorem World.accounts_of_store (w w' : World) (h : w'.store = w.store) : w'.store.accounts = w.store.accounts :=
  congrArg Store.accounts h

instance : MonadLift Reads Service := ⟨Query.weaken Call.any World.accounts_of_store⟩

instance (priority := low) : MonadLift Service M := ⟨Subtype.val⟩

def Service.under {α : Type} (context : String) (q : Service α) : Service α := q.mapError (.under context)

/-- A database call that changes no user and no API key. -/
class KeepsAccounts {α : Type} (f : Time → Store → Except Err (α × Store)) : Prop where
  keeps : ∀ {t s a s'}, f t s = .ok (a, s') → s'.accounts = s.accounts

/-! ## What the primitive steps do -/

section
variable {α : Type} {v : Env} {w w' : World} {r : Except Err α}
variable {a : α} {f : Store → Except Err α} {c : Call}

theorem Reads.exec_store {q : Reads α} (h : q.1.exec v w = (r, w')) : w'.store = w.store := by
  have := Query.exec_view v q w
  rw [Query.exec, h] at this
  exact this

theorem M.under_ok {context : String} {p : M α} :
    (p.under context).exec v w = (.ok a, w') ↔ p.exec v w = (.ok a, w') := by
  rw [M.under, Prog.exec_mapError]
  rcases p.exec v w with ⟨e | b, w₁⟩ <;> simp [Except.mapError]

theorem Reads.under_ok {context : String} {q : Reads α} :
    (q.under context).1.exec v w = (.ok a, w') ↔ q.1.exec v w = (.ok a, w') :=
  M.under_ok

theorem dbAnswer_ok (h : dbAnswer v w f = .ok a) : f w.store = .ok a := by
  unfold dbAnswer at h
  split at h
  · cases h
  · exact h

theorem dbAnswer_sentinel {e : Err} (he : ∀ msg, e ≠ .text msg)
    (h : dbAnswer v w f = .error e) : f w.store = .error e := by
  unfold dbAnswer at h
  split at h
  · next msg _ =>
    cases h
    exact absurd rfl (he msg)
  · exact h

theorem dbResult_cases {f : Time → Store → Except Err (α × Store)} (h : dbResult v w f = (r, w')) :
    (∃ a, r = .ok a ∧ f (v.now w.tick) w.store = .ok (a, w'.store)) ∨ (∃ e, r = .error e) ∧ w'.store = w.store := by
  unfold dbResult at h
  split at h
  · next a s ha =>
    cases h
    exact .inl ⟨a, rfl, dbAnswer_ok ha⟩
  · next e he =>
    cases h
    exact .inr ⟨⟨e, rfl⟩, rfl⟩

theorem within_writeAs {R : Store → Store → Prop} {f : Time → Store → Except Err (α × Store)}
    (hrefl : ∀ s, R s s) (h : ∀ t s a s', f t s = .ok (a, s') → R s s') :
    (writeAs c f).Within fun _ w w' => R w.store w'.store := by
  refine .call fun v w => ?_
  rcases hd : dbResult v w f with ⟨r, w'⟩
  obtain ⟨a, _, ha⟩ | ⟨_, hs⟩ := dbResult_cases hd
  · exact h _ _ _ _ ha
  · simp only [hs, hrefl]

def save (f : Time → Store → Except Err (α × Store)) [hf : KeepsAccounts f] : Service α :=
  ⟨write f, (within_writeAs (R := fun s s' => s'.accounts = s.accounts) (fun _ => rfl)
    fun _ _ _ _ h => hf.keeps h).mono fun _ _ _ h => ⟨trivial, h⟩⟩

theorem follows_writeAs {Q : Type} {T : Q → Call → Env → World → World → Q → Prop} {I : Env → World → Prop}
    {P : Q → Except Err α → Prop} {q : Q} {f : Time → Store → Except Err (α × Store)}
    (hok : ∀ v w a s', I v w → f (v.now w.tick) w.store = .ok (a, s') →
      ∃ q', T q c v w ⟨w.tick + 1, s'⟩ q' ∧ P q' (.ok a))
    (herr : ∀ v w e, I v w → dbAnswer v w (f (v.now w.tick)) = .error e →
      ∃ q', T q c v w w.next q' ∧ P q' (.error e)) :
    (writeAs c f).Follows T I P q := by
  refine .call fun v w hI => ?_
  rcases hd : dbAnswer v w (f (v.now w.tick)) with e | ⟨a, s'⟩
  · simpa only [dbResult, hd] using herr v w e hI hd
  · simpa only [dbResult, hd] using hok v w a s' hI (dbAnswer_ok hd)

theorem follows_read {Q : Type} {T : Q → Call → Env → World → World → Q → Prop} {I : Env → World → Prop}
    {P : Q → Except Err α → Prop} {q : Q}
    (hok : ∀ v w a, I v w → f w.store = .ok a → ∃ q', T q .db v w w.next q' ∧ P q' (.ok a))
    (herr : ∀ v w e, I v w → ∃ q', T q .db v w w.next q' ∧ P q' (.error e)) : (read f).1.Follows T I P q := by
  refine .call fun v w hI => ?_
  dsimp only
  cases hd : dbAnswer v w f with
  | ok a => exact hok v w a hI (dbAnswer_ok hd)
  | error e => exact herr v w e hI

/-! ### Run alone -/

/-- Started on the store `s`, the program returns a value in `Q` or an error in `E`,
and leaves a store that goes with it. -/
abbrev Ends {ε : Type} (v : Env) (s : Store) (p : Prog Call Env World ε α) (Q : α → Store → Prop)
    (E : ε → Store → Prop) : Prop :=
  p.Ensures World.store v s Q E

section Ends
variable {s : Store} {Q : α → Store → Prop} {E : Err → Store → Prop}
variable {ε : Type} {c : Call} {hc : ¬ c.ChangesPeers} {f : Nat → Store → Except Err α}

theorem Ends.reads {E : ε → Store → Prop} {K : Call → Prop} {q : Query Call Env ε K World.store α}
    (hok : ∀ a, Q a s) (herr : ∀ e, E e s) : Ends v s q.1 Q E :=
  .query q hok herr

theorem Ends.accounts {K : Call → Prop}
    (q : Query Call Env ε K (fun w : World => w.store.accounts) α) :
    Ends v s q.1 (fun _ s' => s'.accounts = s.accounts) fun _ s' => s'.accounts = s.accounts :=
  .ofWithin (C := fun s s' : Store => s'.accounts = s.accounts) (fun _ => rfl) (fun _ _ _ h h' => Eq.trans h' h)
    (q.2.mono fun _ _ _ h => h.2)

theorem Ends.ask {f : Env → Nat → Except Err α}
    (hok : ∀ t a, f v t = .ok a → Q a s) (herr : ∀ e, E e s) : Ends v s (ask c f hc).1 Q E := by
  refine .of_exec fun w hw r w' h => ?_
  cases h
  rw [World.next_store, hw]
  split
  · next a ha => exact hok _ a ha
  · next e he => exact herr e

theorem Ends.ask_ok {f : Env → Nat → Except Err α} {a : α}
    (hf : ∀ t, f v t = .ok a) (h : Q a s) : Ends v s (EdgeFabric.ask c f hc).1 Q E := by
  refine .of_exec fun w hw r w' hx => ?_
  cases hx
  dsimp only
  rw [hf, World.next_store, hw]
  exact h

theorem Ends.now {Q : Time → Store → Prop} (h : ∀ t, Q t s) : Ends v s now.1 Q E := by
  refine .of_exec fun w hw r w' hx => ?_
  cases hx
  rw [World.next_store, hw]
  exact h _

theorem Ends.newID {Q : ID → Store → Prop} (h : ∀ t, Q (v.newID t) s) : Ends v s newID.1 Q E := by
  refine .of_exec fun w hw r w' hx => ?_
  cases hx
  rw [World.next_store, hw]
  exact h _

theorem Ends.readAs
    (hok : ∀ n a, f n s = .ok a → Q a s) (herr : ∀ e, E e s) : Ends v s (readAs c f hc).1 Q E := by
  refine .of_exec fun w hw r w' h => ?_
  cases h
  rw [World.next_store, hw]
  split
  · next a ha => exact hok _ a (hw ▸ dbAnswer_ok ha)
  · next e he => exact herr e

theorem Ends.readFirst (hok : ∀ n a, f n s = .ok a → Q a s)
    (herr : ∀ e, E e s) : Ends v s (readFirst f).1 Q E :=
  .readAs hok herr

theorem Ends.read {f : Store → Except Err α} (hok : ∀ a, f s = .ok a → Q a s) (herr : ∀ e, E e s) :
    Ends v s (read f).1 Q E :=
  .readFirst (fun _ => hok) herr

theorem Ends.readAs_cases
    (hok : ∀ n a, f n s = .ok a → Q a s) (hfault : ∀ t msg, v.fault t = some msg → E (.text msg) s)
    (herr : ∀ n e, f n s = .error e → E e s) : Ends v s (EdgeFabric.readAs c f hc).1 Q E := by
  refine .of_exec fun w hw r w' hx => ?_
  cases hx
  dsimp only
  rw [World.next_store, hw]
  unfold dbAnswer
  cases hf : v.fault w.tick with
  | some msg => exact hfault w.tick msg hf
  | none =>
    dsimp only
    rw [hw]
    cases ha : f (v.pick w.tick) s with
    | ok a => exact hok _ a ha
    | error e => exact herr _ e ha

theorem Ends.readFirst_cases (hok : ∀ n a, f n s = .ok a → Q a s)
    (hfault : ∀ t msg, v.fault t = some msg → E (.text msg) s) (herr : ∀ n e, f n s = .error e → E e s) :
    Ends v s (EdgeFabric.readFirst f).1 Q E :=
  .readAs_cases hok hfault herr

theorem Ends.read_cases {f : Store → Except Err α} (hok : ∀ a, f s = .ok a → Q a s)
    (hfault : ∀ t msg, v.fault t = some msg → E (.text msg) s) (herr : ∀ e, f s = .error e → E e s) :
    Ends v s (EdgeFabric.read f).1 Q E :=
  .readFirst_cases (fun _ => hok) hfault fun _ => herr

theorem Ends.read_ok {f : Store → Except Err α} {a : α} (hv : ∀ t, v.fault t = none) (hf : f s = .ok a) (h : Q a s) :
    Ends v s (EdgeFabric.read f).1 Q E := by
  refine .of_exec fun w hw r w' hx => ?_
  have hanswer : dbAnswer v w f = .ok a := by simp only [dbAnswer, hv, hw, hf]
  cases hx
  dsimp only
  rw [hanswer, World.next_store, hw]
  exact h

theorem Ends.writeAs {f : Time → Store → Except Err (α × Store)}
    (hok : ∀ t a s', f t s = .ok (a, s') → Q a s') (herr : ∀ e, E e s) : Ends v s (writeAs c f) Q E := by
  refine .of_exec fun w hw r w' h => ?_
  obtain ⟨a, rfl, ha⟩ | ⟨⟨e, rfl⟩, hs⟩ := dbResult_cases h
  · exact hok _ a _ (hw ▸ ha)
  · rw [hs, hw]
    exact herr e

theorem Ends.write {f : Time → Store → Except Err (α × Store)} (hok : ∀ t a s', f t s = .ok (a, s') → Q a s')
    (herr : ∀ e, E e s) : Ends v s (write f) Q E :=
  .writeAs hok herr

theorem Ends.save {f : Time → Store → Except Err (α × Store)} [KeepsAccounts f]
    (hok : ∀ t a s', f t s = .ok (a, s') → Q a s') (herr : ∀ e, E e s) : Ends v s (save f).1 Q E :=
  .write hok herr

theorem Ends.whole {p : Prog Call Env World ε α} {E : ε → Store → Prop} (h : Ends v w.store p Q E) :
    p.Ensures id v w (fun a w' => Q a w'.store) fun e w' => E e w'.store :=
  Prog.Ensures.whole h

end Ends

/-! ### Run alone, step by step -/

/-- The same for a program that is started in the world `w`: the steps are numbered. -/
abbrev EndsAt {ε : Type} (v : Env) (w : World) (p : Prog Call Env World ε α) (Q : α → World → Prop)
    (E : ε → World → Prop) : Prop :=
  p.Ensures id v w Q E

/-- The store call at step `n` from `w` on fails only if one of those at the steps `before` does. -/
def Env.Answers (v : Env) (w : World) (before : List Nat) (n : Nat) : Prop :=
  (∀ i ∈ before, v.fault (w.tick + i) = none) → v.fault (w.tick + n) = none

section EndsAt
variable {Q : α → World → Prop} {E : Err → World → Prop} {hc : ¬ c.ChangesPeers}

theorem EndsAt.ask {f : Env → Nat → Except Err α} (hok : ∀ a, f v w.tick = .ok a → Q a w.next)
    (herr : ∀ e, f v w.tick = .error e → E e w.next) : EndsAt v w (ask c f hc).1 Q E := by
  refine .call fun w₁ hw => ?_
  obtain rfl : w₁ = w := hw
  dsimp only [id]
  cases ha : f v w₁.tick with
  | ok a => exact hok a ha
  | error e => exact herr e ha

theorem EndsAt.ask_ok {f : Env → Nat → Except Err α} {a : α} (ha : f v w.tick = .ok a) (h : Q a w.next) :
    EndsAt v w (EdgeFabric.ask c f hc).1 Q E :=
  .ask (fun _ ha' => Except.ok.inj (ha.symm.trans ha') ▸ h) fun _ he => nomatch ha.symm.trans he

theorem EndsAt.readAs {f : Nat → Store → Except Err α}
    (hok : ∀ a, v.fault w.tick = none → f (v.pick w.tick) w.store = .ok a → Q a w.next)
    (hfault : ∀ msg, v.fault w.tick = some msg → E (.text msg) w.next)
    (herr : ∀ e, v.fault w.tick = none → f (v.pick w.tick) w.store = .error e → E e w.next) :
    EndsAt v w (readAs c f hc).1 Q E := by
  refine .call fun w₁ hw => ?_
  obtain rfl : w₁ = w := hw
  dsimp only [id, dbAnswer]
  cases hf : v.fault w₁.tick with
  | some msg => exact hfault msg hf
  | none =>
    cases ha : f (v.pick w₁.tick) w₁.store with
    | ok a => exact hok a hf ha
    | error e => exact herr e hf ha

theorem EndsAt.read {f : Store → Except Err α} (hok : ∀ a, v.fault w.tick = none → f w.store = .ok a → Q a w.next)
    (hfault : ∀ msg, v.fault w.tick = some msg → E (.text msg) w.next) (herr : ∀ e, f w.store = .error e → E e w.next) :
    EndsAt v w (read f).1 Q E :=
  .readAs hok hfault fun e _ => herr e

theorem EndsAt.lift {q : Reads α} (h : EndsAt v w q.1 Q E) : EndsAt v w (liftM q : Service α).1 Q E := h

theorem EndsAt.newID {Q : ID → World → Prop} (h : Q (v.newID w.tick) w.next) : EndsAt v w newID.1 Q E := by
  refine .call fun w₁ hw => ?_
  obtain rfl : w₁ = w := hw
  exact h

theorem EndsAt.writeAs {f : Time → Store → Except Err (α × Store)}
    (hok : ∀ a s', v.fault w.tick = none → f (v.now w.tick) w.store = .ok (a, s') → Q a ⟨w.tick + 1, s'⟩)
    (hfault : ∀ msg, v.fault w.tick = some msg → E (.text msg) w.next)
    (herr : ∀ e, f (v.now w.tick) w.store = .error e → E e w.next) : EndsAt v w (writeAs c f) Q E := by
  refine .call fun w₁ hw => ?_
  obtain rfl : w₁ = w := hw
  dsimp only [id, dbResult, dbAnswer]
  cases hf : v.fault w₁.tick with
  | some msg => exact hfault msg hf
  | none =>
    rcases ha : f (v.now w₁.tick) w₁.store with e | ⟨a, s'⟩
    · exact herr e ha
    · exact hok a s' hf ha

theorem EndsAt.save {f : Time → Store → Except Err (α × Store)} [KeepsAccounts f]
    (hok : ∀ a s', v.fault w.tick = none → f (v.now w.tick) w.store = .ok (a, s') → Q a ⟨w.tick + 1, s'⟩)
    (hfault : ∀ msg, v.fault w.tick = some msg → E (.text msg) w.next)
    (herr : ∀ e, f (v.now w.tick) w.store = .error e → E e w.next) : EndsAt v w (save f).1 Q E :=
  .writeAs hok hfault herr

end EndsAt

/-! ### Time passes -/

def World.Later (w w' : World) : Prop := w.tick ≤ w'.tick

theorem later_ask {c : Call} {f : Env → Nat → Except Err α} {hc : ¬ c.ChangesPeers} :
    (ask c f hc).1.Within fun _ => World.Later :=
  .call fun _ _ => Nat.le_succ _

theorem later_readAs {c : Call} {f : Nat → Store → Except Err α} {hc : ¬ c.ChangesPeers} :
    (readAs c f hc).1.Within fun _ => World.Later :=
  .call fun _ _ => Nat.le_succ _

theorem later_writeAs {c : Call} {f : Time → Store → Except Err (α × Store)} :
    (writeAs c f).Within fun _ => World.Later := by
  refine .call fun v w => ?_
  unfold dbResult
  split <;> exact Nat.le_succ _

theorem Ends.later {ε : Type} {p : Prog Call Env World ε α} (h : p.Within fun _ => World.Later) :
    p.Ensures id v w (fun _ => World.Later w) fun _ => World.Later w :=
  .ofWithin (C := World.Later) (fun _ => Nat.le_refl _) (fun _ _ _ h h' => Nat.le_trans h h') h

theorem Reads.within {R : Store → Store → Prop} (hrefl : ∀ s, R s s) (q : Reads α) :
    q.1.Within fun _ w w' => R w.store w'.store :=
  q.2.mono fun _ w w' h => by rw [h.2]; exact hrefl _

end

end EdgeFabric
