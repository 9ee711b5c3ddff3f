/-
What the handlers of the API have in common (`internal/api/apiutil`,
`internal/audit`): replies, request bodies and path parameters, the error
that ends a handler, and the audit log.

A handler is a program whose error is the reply it ends with early. Bodies come
decoded, with the decoder's error text if they could not be; which texts decode
to what is the JSON library's business. Handlers that hand out session tokens
return a `Response`, all others a `Reply`, which has no place for one.
-/
import EdgeFabric.Auth.Token
import EdgeFabric.Cdn
import EdgeFabric.Fleet
import EdgeFabric.Networking.Service
import EdgeFabric.Tenant
import EdgeFabric.User

namespace EdgeFabric

/-! ## What JSON shows of a row -/

def User.json (u : User) : User := { u with passwordHash := "", totpSecret := "" }
def APIKey.json (k : APIKey) : APIKey := { k with keyHash := "" }
def Gateway.json (g : Gateway) : Gateway := { g with enrollmentToken := "" }
def SSHKey.json (k : SSHKey) : SSHKey := { k with privateKey := "" }
def WireGuardPeer.json (p : WireGuardPeer) : WireGuardPeer := { p with privateKey := "", presharedKey := "" }

/-! ## Responses -/

/-- `statusResponse`, its counts. -/
structure StatusOverview where
  tenantCount : Nat := 0
  userCount : Nat := 0
  nodeCount : Nat := 0
  nodesByStatus : List (NodeStatus × Nat) := []
  gatewayCount : Nat := 0
  gatewaysByStatus : List (GatewayStatus × Nat) := []
  staleNodeCount : Nat := 0
  staleGatewayCount : Nat := 0
  routeCount : Nat := 0
  dnsZoneCount : Nat := 0
  cdnSiteCount : Nat := 0
  deriving DecidableEq, Repr

/-- What a response carries. -/
inductive Datum where
  | tenant (t : Tenant)
  | user (u : User)
  | apiKey (k : APIKey)
  /-- `createAPIKeyResponse`: the key is shown once -/
  | newAPIKey (rawKey : String) (k : APIKey)
  | node (n : Node)
  | nodeGroup (g : NodeGroup)
  | gateway (g : Gateway)
  | sshKey (k : SSHKey)
  | job (j : ProvisioningJob)
  | bgpSession (b : BGPSession)
  | ipAllocation (a : IPAllocation)
  | wireGuardPeer (p : WireGuardPeer)
  | dnsZone (z : DNSZone)
  | dnsRecord (r : DNSRecord)
  | cdnSite (s : CDNSite)
  | cdnOrigin (o : CDNOrigin)
  | route (r : Route)
  | auditEvent (e : AuditEvent)
  /-- `loginResponse`, without its token -/
  | login (totpRequired : Bool)
  | totpEnrollment (secret provisioningURI : String)
  | enrollmentToken (token : String) (expiresAt : Time)
  /-- `enrollResponse`, without its token -/
  | enrolled (nodeID : ID) (wireGuardIP : String)
  | status (text : String)
  | networking (state : NetworkingService.NodeNetworkingState)
  | wireGuardConfig (text : String)
  | bgpConfig (sessions : List BGPSession)
  | dnsConfig (zones : List DNSService.ZoneWithRecords)
  | cdnConfig (sites : List CDNService.SiteWithOrigins)
  | nodeRoutes (routes : List RouteService.RouteWithGateway)
  | gatewayRoutes (routes : List Route)
  | overview (o : StatusOverview)
  /-- the counters of a tenant, which no handler changes -/
  | usage (tenantID : String)

inductive Body where
  | empty
  | error (code message : String)
  | object (d : Datum)
  | list (items : List Datum) (total offset limit : Nat) (nextCursor : Cursor)

/-- An answer that hands out no session. -/
structure Reply where
  status : Nat
  body : Body

/-- An answer, with the session tokens that it hands out. -/
structure Response where
  reply : Reply
  /-- the token in the body -/
  token : Option String := none
  /-- the session cookie that is set; an empty one clears it -/
  session : Option String := none

namespace Reply

/-- `apiutil.WriteError`. -/
def error (status : Nat) (code message : String) : Reply := { status, body := .error code message }

def badRequest : String → Reply := error 400 "bad_request"
def unauthorized : String → Reply := error 401 "unauthorized"
def forbidden : String → Reply := error 403 "forbidden"
def notFound : String → Reply := error 404 "not_found"
def conflict : String → Reply := error 409 "conflict"
def internalError : String → Reply := error 500 "internal_error"

/-- `apiutil.JSON` with status 200, and with 201. -/
def ok (d : Datum) : Reply := { status := 200, body := .object d }
def created (d : Datum) : Reply := { status := 201, body := .object d }
def noContent : Reply := { status := 204, body := .empty }

/-- `apiutil.ListJSON`. -/
def list {α : Type} (datum : α → Datum) (rows : List α) (total : Nat) (p : ListParams) : Reply :=
  { status := 200, body := .list (rows.map datum) total p.offset p.limit .absent }

/-- A reply that says what is wrong and nothing else. -/
def Refuses (r : Reply) : Prop := ∃ status code message, 400 ≤ status ∧ r = .error status code message

theorem refuses_error {status : Nat} {code message : String} (h : 400 ≤ status) :
    (Reply.error status code message).Refuses :=
  ⟨status, code, message, h, rfl⟩

theorem Refuses.status {r : Reply} (h : r.Refuses) : r.status ≠ 200 := by
  obtain ⟨status, code, message, hstatus, rfl⟩ := h
  show status ≠ 200
  omega

end Reply

/-! ## Handlers -/

abbrev Web := Prog Call Env World Reply

abbrev Handler := Query Call Env Reply (fun _ => True) fun w : World => w.store.accounts

abbrev Viewer := Query Call Env Reply (fun c => ¬ c.ChangesPeers) World.store

instance : MonadLift (Except Reply) Viewer := ⟨Query.ofExcept⟩

instance : MonadLift Viewer Handler := ⟨Query.weaken Call.any World.accounts_of_store⟩

instance : MonadLift Handler Web := ⟨Subtype.val⟩

/-- A service call whose error is answered by `f`. -/
def M.answering {α : Type} (f : Err → Reply) (p : M α) : Web α := p.mapError f
def Service.answering {α : Type} (f : Err → Reply) (q : Service α) : Handler α := q.mapError f
def Reads.answering {α : Type} (f : Err → Reply) (q : Reads α) : Viewer α := q.mapError f

/-- A service call whose outcome the handler looks at. The attempt itself does not fail. -/
def M.tried {α : Type} (p : M α) : Web (Except Err α) := p.attempt.mapError fun e => .internalError e.message
def Service.tried {α : Type} (q : Service α) : Handler (Except Err α) :=
  q.attempt.mapError fun e => .internalError e.message
def Reads.tried {α : Type} (q : Reads α) : Viewer (Except Err α) :=
  q.attempt.mapError fun e => .internalError e.message

def require (p : Prop) [Decidable p] (r : Reply) : Except Reply Unit := if p then .ok () else .error r

def missing (what failed : String) (e : Err) : Reply :=
  if e.is .notFound then .notFound (what ++ " not found") else .internalError failed

def missingOrBad (what : String) (e : Err) : Reply :=
  if e.is .notFound then .notFound (what ++ " not found") else .badRequest e.message

def takenOrBad (message : String) (e : Err) : Reply :=
  if e.is .alreadyExists then .conflict message else .badRequest e.message

def bad (e : Err) : Reply := .badRequest e.message

def failing (failed : String) (_ : Err) : Reply := .internalError failed

abbrev Decoded := Except String

def decode {α : Type} (body : Decoded α) : Except Reply α :=
  body.mapError fun msg => .badRequest ("invalid request body: " ++ msg)

theorem decode_ok {α : Type} {body : Decoded α} {a : α} : decode body = .ok a ↔ body = .ok a := by
  cases body <;> simp [decode, Except.mapError]

theorem decode_refuses {α : Type} {body : Decoded α} {r : Reply} (h : decode body = .error r) : r.Refuses := by
  cases body with
  | ok a => cases h
  | error msg =>
    cases h
    exact Reply.refuses_error (by decide)

theorem missing_refuses (what failed : String) (e : Err) : (missing what failed e).Refuses := by
  unfold missing
  split <;> exact Reply.refuses_error (by decide)

theorem missingOrBad_refuses (what : String) (e : Err) : (missingOrBad what e).Refuses := by
  unfold missingOrBad
  split <;> exact Reply.refuses_error (by decide)

theorem takenOrBad_refuses (message : String) (e : Err) : (takenOrBad message e).Refuses := by
  unfold takenOrBad
  split <;> exact Reply.refuses_error (by decide)

theorem bad_refuses (e : Err) : (bad e).Refuses := Reply.refuses_error (by decide)

theorem failing_refuses (failed : String) (e : Err) : (failing failed e).Refuses := Reply.refuses_error (by decide)

/-- `apiutil.ParseID`. The text of a parse error is the UUID library's. -/
def parseID (name raw : String) : Except Reply ID :=
  if raw = "" then .error (.badRequest ("missing path parameter: " ++ name))
  else
    match Uuid.parse raw.toList with
    | some id => .ok id
    | none => .error (.badRequest ("invalid UUID for " ++ name))

theorem parseID_text (name : String) (id : ID) : parseID name id.text = .ok id := by
  rw [parseID, if_neg id.text_ne_empty, ID.text, String.toList_ofList, Uuid.parse_text]

theorem parseID_refuses {name raw : String} {r : Reply} (h : parseID name raw = .error r) : r.Refuses := by
  unfold parseID at h
  split at h
  · cases h
    exact Reply.refuses_error (by decide)
  · split at h
    · cases h
    · cases h
      exact Reply.refuses_error (by decide)

/-- The query parameters of a list, as sent. -/
structure ListQuery where
  offset : String := ""
  limit : String := ""
  cursor : Cursor := .absent
  deriving DecidableEq, Repr

/-- `apiutil.ParseListParams`: numbers that cannot be read, or make no sense, are ignored. -/
def parseListParams (q : ListQuery) : ListParams :=
  { offset := match Text.atoi q.offset.toList with
      | some (.ofNat n) => n
      | _ => 0
    limit := min 200 (match Text.atoi q.limit.toList with
      | some (.ofNat (n + 1)) => n + 1
      | _ => defaultLimit)
    cursor := q.cursor }

/-- `apiutil.CanAccessTenant`. A caller without a tenant may see everything, and
everybody what has no tenant. -/
def canAccessTenant (claims : Claims) (tenantID : Option ID) : Bool :=
  claims.tenantID = none || tenantID = none || claims.tenantID = tenantID

def canAccessTenantVal (claims : Claims) (tenantID : ID) : Bool := canAccessTenant claims (some tenantID)

/-! ## The audit log -/

/-- Who sends a request. -/
structure Caller where
  claims : Claims
  remoteAddr : String

/-- A character as `json.Marshal` writes it in a string. -/
def jsonChar (c : Char) : List Char :=
  if c = '"' ∨ c = '\\' then ['\\', c]
  else if c = '\n' then ['\\', 'n']
  else if c = '\r' then ['\\', 'r']
  else if c = '\t' then ['\\', 't']
  else if c.toNat < 0x20 ∨ c ∈ ['<', '>', '&', ' ', ' '] then
    "\\u".toList ++ (Digits.fixed 16 4 c.toNat).map Nat.digitChar
  else [c]

def jsonString (s : String) : String := String.ofList ('"' :: s.toList.flatMap jsonChar ++ ['"'])

/-- A map of strings, its keys in order. -/
def jsonObject (fields : List (String × String)) : String :=
  "\x7b" ++ ",".intercalate (fields.map fun (k, v) => jsonString k ++ ":" ++ jsonString v) ++ "\x7d"

/-- `Logger.Log`, whose error every handler ignores. Without details the source stores a
JSON null. -/
def auditLog (tenantID userID : Option ID) (action resource : String) (details : Option (List (String × String)))
    (sourceIP : String) : Handler Unit := do
  let _ ← Service.tried do
    let id ← newID
    let timestamp ← now
    save fun _ => Store.createAuditEvent
      { id, tenantID, userID, apiKeyID := none, action, resource
        details := some ((details.map jsonObject).getD "null"), sourceIP, timestamp }

def Caller.log (c : Caller) (action resource : String) (details : List (String × String)) : Handler Unit :=
  auditLog c.claims.tenantID (some c.claims.userID) action resource (some details) c.remoteAddr

def Caller.logPlain (c : Caller) (action resource : String) : Handler Unit :=
  auditLog c.claims.tenantID (some c.claims.userID) action resource none c.remoteAddr

def Caller.logGlobal (c : Caller) (action resource : String) (details : List (String × String)) : Handler Unit :=
  auditLog none (some c.claims.userID) action resource (some details) c.remoteAddr

section
variable {v : Env} {s : Store} {E : Reply → Store → Prop}

theorem auditLog_appends {tenantID userID : Option ID} {action resource : String}
    {details : Option (List (String × String))} {sourceIP : String} {Q : Unit → Store → Prop}
    (h : ∀ auditEvents : Table AuditEvent.id, (∃ rows, auditEvents.rows = s.auditEvents.rows ++ rows) →
      Q () { s with auditEvents }) :
    Ends v s (auditLog tenantID userID action resource details sourceIP).1 Q E := by
  refine .bind (.mapError (.attempt ?_))
  refine .bind (Ends.newID fun id => .bind (Ends.now fun t => Ends.save ?_ ?_))
  · intro _ e s' hs
    obtain ⟨hinsert, hs'⟩ := Store.createAuditEvent_ok hs
    rw [hs']
    exact .pure (h _ ⟨_, (Table.insert_eq_some hinsert).2⟩)
  · intro e
    exact .pure (h s.auditEvents ⟨[], (List.append_nil _).symm⟩)

theorem auditLog_ends {tenantID userID : Option ID} {action resource : String}
    {details : Option (List (String × String))} {sourceIP : String} {Q : Unit → Store → Prop}
    (h : ∀ auditEvents, Q () { s with auditEvents }) :
    Ends v s (auditLog tenantID userID action resource details sourceIP).1 Q E :=
  auditLog_appends fun auditEvents _ => h auditEvents

end

theorem auditLog_later {tenantID userID : Option ID} {action resource : String}
    {details : Option (List (String × String))} {sourceIP : String} :
    (auditLog tenantID userID action resource details sourceIP).1.Within fun _ => World.Later := by
  refine .bind (.mapError (.attempt ?_)) fun _ => .pure _
  exact .bind (p := newID.1) later_ask fun _ => .bind (p := now.1) later_ask fun _ => later_writeAs

/-! ## Handlers that most resources have -/

/-- A request to the endpoints that most resources have. The paths of `create` and `list`
name the parent of a resource that has one. -/
inductive ResourceRequest (P β γ : Type) where
  | create (parent : P) (body : Decoded β)
  | list (parent : P) (query : ListQuery)
  | get (id : String)
  | update (id : String) (body : Decoded γ)
  | delete (id : String)

def ResourceRequest.action {P β γ : Type} : ResourceRequest P β γ → Action
  | .create _ _ => .create
  | .list _ _ => .list
  | .get _ => .read
  | .update _ _ => .update
  | .delete _ => .delete

section
variable {α : Type}

/-- `Get`. -/
def getResource (what : String) (get : ID → Reads α) (datum : α → Datum) (raw : String) : Viewer Reply := do
  let id ← parseID "id" raw
  let a ← (get id).answering (missing what ("failed to get " ++ what))
  return .ok (datum a)

/-- `List`. -/
def listResources (plural : String) (list : ListParams → Reads (List α × Nat)) (datum : α → Datum) (q : ListQuery) :
    Viewer Reply := do
  let params := parseListParams q
  let (rows, total) ← (list params).answering (failing ("failed to list " ++ plural))
  return .list datum rows total params

/-- `Delete`, with the entry in the audit log. -/
def deleteResource (what : String) (delete : ID → Service Unit) (log : ID → Handler Unit) (raw : String) :
    Handler Reply := do
  let id ← parseID "id" raw
  (delete id).answering (missing what ("failed to delete " ++ what))
  log id
  return .noContent

end

end EdgeFabric
