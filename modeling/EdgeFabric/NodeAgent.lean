/-
The identity of a node agent (`internal/app/node.go`, `internal/nodestate`,
`internal/nodeclient`). A start of the agent takes the identity that an earlier
one saved, or enrolls and saves what the controller answers. Either way the token
it sends from then on is the one the enrollment was answered with.
-/
import EdgeFabric.Api.Router

namespace EdgeFabric

structure NodeState where
  nodeID : String
  apiToken : String
  wireGuardIP : String
  deriving DecidableEq, Repr

structure NodeClient where
  nodeID : String
  apiToken : String
  deriving DecidableEq, Repr

/-- `FetchBGPConfig`, `FetchDNSConfig` and so on: the request that is sent. -/
def NodeClient.fetch (c : NodeClient) (part : NodeConfig) : Request :=
  { presented := { authorization := "Bearer " ++ c.apiToken }, endpoint := .service (.nodeConfig c.nodeID part) }

/-- A start of the agent: its configuration, and what fails on its way. -/
structure AgentStart where
  enrollmentToken : String := ""
  remoteAddr : String := ""
  /-- why the state file, if there is one, cannot be read -/
  loadError : Option String := none
  /-- why the controller cannot be reached -/
  sendError : Option String := none
  /-- why its answer gets lost -/
  receiveError : Option String := none
  /-- why the state file cannot be written -/
  saveError : Option String := none

abbrev Agent := Prog Call Env (World × Option NodeState) Err

def outside (context : String) : Option String → Except Err Unit
  | some msg => .error (.under context (.text msg))
  | none => .ok ()

namespace AgentStart
variable (start : AgentStart)

def load : Agent (Option NodeState) :=
  .call .files fun _ s => ((outside "read state file" start.loadError).map fun _ => s.2, s)

def save (state : NodeState) : Agent Unit :=
  .call .files fun _ s =>
    match outside "write state file" start.saveError with
    | .error e => (.error e, s)
    | .ok _ => (.ok (), (s.1, some state))

def enrollResult (resp : Response) : Except Err NodeState :=
  if resp.reply.status ≠ 200 then .error (.text ("enrollment failed (HTTP " ++ toString resp.reply.status ++ ")"))
  else
    match resp.reply.body, resp.token with
    | .object (.enrolled nodeID wireGuardIP), some apiToken =>
      .ok { nodeID := nodeID.text, apiToken, wireGuardIP }
    | _, _ => .error (.text "empty data in enrollment response")

/-- `nodeclient.Enroll`. An answer can get lost when the controller has given it. -/
def enroll (srv : Server) : M NodeState := do
  Prog.ofExcept (outside "enroll request" start.sendError)
  let answer ← (srv.serve
    { remoteAddr := start.remoteAddr, endpoint := .enroll (.ok { token := start.enrollmentToken }) }).attempt.mapError
      fun _ => .text "no answer"
  Prog.ofExcept (outside "enroll request" start.receiveError)
  Prog.ofExcept (enrollResult (.of answer))

/-- `resolveNodeIdentity`. A state that cannot be saved is only logged. -/
def resolveNodeIdentity (srv : Server) : Agent NodeClient := do
  match ← start.load.mapError (.under "load node state") with
  | some state => return { nodeID := state.nodeID, apiToken := state.apiToken }
  | none =>
    if start.enrollmentToken = "" then
      Prog.fail (.text "no node state and no enrollment_token configured")
    else
      let result ← (start.enroll srv).onFst.mapError (.under "enrollment failed")
      let _ ← (start.save result).attempt
      return { nodeID := result.nodeID, apiToken := result.apiToken }

section
variable {start} {srv : Server} {v : Env} {w : World} {client : NodeClient} {s : World × Option NodeState}

theorem load_ok {found : Option NodeState} {context : String} {s' : World × Option NodeState}
    (h : (start.load.mapError (Err.under context)).exec v s = (.ok found, s')) : found = s.2 ∧ s' = s := by
  rw [Prog.exec_mapError, load, Prog.exec_call] at h
  cases hout : outside "read state file" start.loadError with
  | error e =>
    rw [hout] at h
    cases (Prod.mk.inj h).1
  | ok _ =>
    rw [hout] at h
    cases h
    exact ⟨rfl, rfl⟩

theorem save_cases (state : NodeState) :
    ((start.save state).exec v s).2 = s ∨ ((start.save state).exec v s).2 = (s.1, some state) := by
  rw [save, Prog.exec_call]
  cases outside "write state file" start.saveError with
  | error e => exact .inl rfl
  | ok _ => exact .inr rfl

theorem resolveNodeIdentity_fresh (h : (start.resolveNodeIdentity srv).exec v (w, none) = (.ok client, s)) :
    ∃ state, (start.enroll srv).exec v w = (.ok state, s.1) ∧
      client = { nodeID := state.nodeID, apiToken := state.apiToken } ∧ (s.2 = none ∨ s.2 = some state) := by
  obtain ⟨found, s₁, hload, h⟩ := Prog.exec_bind_ok.mp h
  obtain ⟨rfl, rfl⟩ := load_ok hload
  dsimp only at h
  split at h
  · cases (Prod.mk.inj h).1
  · obtain ⟨state, s₂, henroll, h⟩ := Prog.exec_bind_ok.mp h
    obtain ⟨saved, s₃, hsave, h⟩ := Prog.exec_bind_ok.mp h
    cases h
    rw [Prog.exec_mapError, Prog.exec_onFst] at henroll
    rw [Prog.exec_attempt] at hsave
    obtain ⟨hresult, rfl⟩ := Prod.mk.inj henroll
    have hok : ((start.enroll srv).exec v w).1 = .ok state := mapError_eq_ok.mp hresult
    have hsaved : ((start.save state).exec v (((start.enroll srv).exec v w).2, none)).2 =
          (((start.enroll srv).exec v w).2, none) ∨
        ((start.save state).exec v (((start.enroll srv).exec v w).2, none)).2 =
          (((start.enroll srv).exec v w).2, some state) := save_cases state
    rw [(Prod.mk.inj hsave).2] at hsaved
    rcases hsaved with rfl | rfl
    · exact ⟨state, Prod.ext hok rfl, rfl, .inl rfl⟩
    · exact ⟨state, Prod.ext hok rfl, rfl, .inr rfl⟩

theorem resolveNodeIdentity_saved {state : NodeState}
    (h : (start.resolveNodeIdentity srv).exec v (w, some state) = (.ok client, s)) :
    client = { nodeID := state.nodeID, apiToken := state.apiToken } := by
  obtain ⟨found, s₁, hload, h⟩ := Prog.exec_bind_ok.mp h
  obtain ⟨rfl, rfl⟩ := load_ok hload
  exact (Except.ok.inj (Prod.mk.inj h).1).symm

end

end AgentStart

end EdgeFabric
