/-
Delivery of events to webhooks (`internal/events/webhook_handler.go`). `send` posts to one
endpoint until it accepts or the attempts are used up; `handle` does so for every endpoint. What
comes back of an attempt is given by a `Delivery`; the answer is the last one where the client
follows redirects.

`send_cases` says how the attempts at an endpoint can go, `delivery_complete` what the endpoints
receive.
-/
import EdgeFabric.Events
import Mathlib.Data.List.Range

namespace EdgeFabric.Webhooks

/-- The event as a handler gets it, with the time at which it was published; all of it goes into the
payload. -/
structure TimedEvent extends Event where
  timestamp : Time

/-- Library functions: `json.Marshal` of the payload, whether `http.NewRequestWithContext` takes a
URL, and the signature as `signPayload` writes it. -/
structure WebhookLib where
  marshal : TimedEvent → Except String (List UInt8)
  newRequest : String → Except String Unit
  signPayload : (payload : List UInt8) → (secret : String) → String

structure WebhookConfig where
  url : String
  secret : String

structure WebhookHandler where
  webhooks : List WebhookConfig
  retries : Int

structure Post where
  url : String
  headers : List (String × String)
  body : List UInt8
  deriving DecidableEq

def request (lib : WebhookLib) (wh : WebhookConfig) (body : List UInt8) : Post where
  url := wh.url
  headers := [("Content-Type", "application/json"), ("User-Agent", "EdgeFabric-Webhook/1.0")] ++
    if wh.secret ≠ "" then [("X-EdgeFabric-Signature", "sha256=" ++ lib.signPayload body wh.secret)] else []
  body := body

/-- What happens to the attempts at an endpoint: the error of `Do` or the status that comes back,
and whether the context is done in the wait before one. -/
structure Delivery where
  outcome : Nat → Except String Int
  done : Nat → Bool

/-- What an attempt leaves as the error; nothing when it is accepted. -/
def failure (url : String) : Except String Int → Option String
  | .error e => some ("POST " ++ url ++ ": " ++ e)
  | .ok status => if 200 ≤ status ∧ status < 300 then none else some ("POST " ++ url ++ ": status " ++ toString status)

/-- The loop of `send`: what is posted at the attempts that are left, and the error. -/
def sendLoop (lib : WebhookLib) (wh : WebhookConfig) (body : List UInt8) (d : Delivery) :
    List Nat → Option String → List Post × Option String
  | [], lastErr => ([], lastErr)
  | attempt :: attempts, _ =>
    if 0 < attempt ∧ d.done attempt then ([], some "context canceled")
    else
      match lib.newRequest wh.url with
      | .error e => ([], some ("create request: " ++ e))
      | .ok () =>
        match failure wh.url (d.outcome attempt) with
        | none => ([request lib wh body], none)
        | some e =>
          let r := sendLoop lib wh body d attempts (some e)
          (request lib wh body :: r.1, r.2)

def send (lib : WebhookLib) (retries : Int) (wh : WebhookConfig) (body : List UInt8) (d : Delivery) :
    List Post × Option String :=
  sendLoop lib wh body d (List.range (retries + 1).toNat) none

/-- The loop of `Handle`: the posts with the place of the endpoint, and the last error. -/
def deliver (lib : WebhookLib) (retries : Int) (body : List UInt8) (d : Nat → Delivery)
    (acc : List (Nat × Post) × Option String) (wh : WebhookConfig × Nat) : List (Nat × Post) × Option String :=
  let r := send lib retries wh.1 body (d wh.2)
  (acc.1 ++ r.1.map (Prod.mk wh.2), r.2.or acc.2)

def WebhookHandler.handle (lib : WebhookLib) (d : Nat → Delivery) (event : TimedEvent) (h : WebhookHandler) :
    List (Nat × Post) × Option String :=
  match lib.marshal event with
  | .error e => ([], some ("marshal webhook payload: " ++ e))
  | .ok body => h.webhooks.zipIdx.foldl (deliver lib h.retries body d) ([], none)

def postsTo (i : Nat) (posts : List (Nat × Post)) : List Post := (posts.filter (·.1 = i)).map Prod.snd

def Delivery.accepts (d : Delivery) (attempt : Nat) : Bool :=
  match d.outcome attempt with
  | .error _ => false
  | .ok status => 200 ≤ status ∧ status < 300

theorem failure_eq_none {d : Delivery} {url : String} {attempt : Nat} :
    failure url (d.outcome attempt) = none ↔ d.accepts attempt = true := by
  unfold failure Delivery.accepts
  cases d.outcome attempt with
  | error e => simp
  | ok status => simp

section
variable {lib : WebhookLib} {wh : WebhookConfig} {body : List UInt8} {d : Delivery} {retries : Int} {n : Nat}

theorem sendLoop_posts (hurl : lib.newRequest wh.url = .ok ()) (hdone : ∀ k, d.done k = false) (attempts : List Nat)
    (lastErr : Option String) :
    (sendLoop lib wh body d attempts lastErr).1 =
        List.replicate (min attempts.length (attempts.findIdx d.accepts + 1)) (request lib wh body) ∧
      ((sendLoop lib wh body d attempts lastErr).2 = none ↔
        attempts.any d.accepts = true ∨ attempts = [] ∧ lastErr = none) := by
  induction attempts generalizing lastErr with
  | nil => simp [sendLoop]
  | cons attempt attempts ih =>
    cases hfailure : failure wh.url (d.outcome attempt) with
    | none =>
      have haccepts := failure_eq_none.mp hfailure
      simp [sendLoop, hdone, hurl, hfailure, haccepts, List.findIdx_cons]
    | some e =>
      have haccepts : d.accepts attempt = false := by
        rw [← Bool.not_eq_true, ← failure_eq_none, hfailure]
        exact Option.some_ne_none e
      obtain ⟨hposts, herr⟩ := ih (some e)
      constructor
      · simp [sendLoop, hdone, hurl, hfailure, hposts, haccepts, List.findIdx_cons, ← List.replicate_succ,
          Nat.succ_min_succ]
      · simpa [sendLoop, hdone, hurl, hfailure, haccepts] using herr

theorem send_posts (hn : retries = n) (hurl : lib.newRequest wh.url = .ok ()) (hdone : ∀ k, d.done k = false) :
    ∃ m, (send lib retries wh body d).1 = List.replicate m (request lib wh body) ∧ 1 ≤ m ∧ m ≤ n + 1 ∧
      (∀ k < m, d.accepts k = true → k + 1 = m) ∧
        ((send lib retries wh body d).2 = none ↔ ∃ k < m, d.accepts k = true) := by
  have hattempts : (retries + 1).toNat = n + 1 := by omega
  obtain ⟨hposts, herr⟩ := sendLoop_posts hurl hdone (List.range (n + 1)) none
  rw [send, hattempts]
  generalize hfirst : (List.range (n + 1)).findIdx d.accepts = first at hposts
  have hbefore : ∀ k < first, k < n + 1 → d.accepts k = false := by
    intro k hk hlt
    have hnot := List.not_of_lt_findIdx (p := d.accepts) (hfirst ▸ hk : k < (List.range (n + 1)).findIdx d.accepts)
    rwa [List.getElem_range] at hnot
  rw [List.length_range] at hposts
  refine ⟨_, hposts, by omega, by omega, fun k hk haccepts => ?_, herr.trans ?_⟩
  · by_contra hne
    rw [hbefore k (by omega) (by omega)] at haccepts
    cases haccepts
  · simp only [List.any_eq_true, List.mem_range, List.range_eq_nil, Nat.add_eq_zero_iff, Nat.one_ne_zero,
      and_false, false_and, or_false]
    constructor
    · intro hany
      obtain ⟨k, hk, haccepts⟩ := hany
      have hle : first ≤ k := by
        by_contra hlt
        rw [hbefore k (by omega) hk] at haccepts
        cases haccepts
      have hfound := List.findIdx_getElem (w := (by rw [hfirst, List.length_range]; omega :
        (List.range (n + 1)).findIdx d.accepts < (List.range (n + 1)).length))
      rw [List.getElem_range, hfirst] at hfound
      exact ⟨first, by omega, hfound⟩
    · intro hany
      obtain ⟨k, hk, haccepts⟩ := hany
      exact ⟨k, by omega, haccepts⟩

theorem send_of_invalid (hn : retries = n) {e : String} (hurl : lib.newRequest wh.url = .error e) :
    send lib retries wh body d = ([], some ("create request: " ++ e)) := by
  rw [send, hn, show ((n : Int) + 1).toNat = n + 1 from rfl, List.range_succ_eq_map]
  simp [sendLoop, hurl]

theorem send_ok_iff (hn : retries = n) (hdone : ∀ k, d.done k = false) : (send lib retries wh body d).2 = none ↔
    ∃ k < (send lib retries wh body d).1.length, d.accepts k = true := by
  cases hurl : lib.newRequest wh.url with
  | error e => simp [send_of_invalid hn hurl]
  | ok u =>
    obtain ⟨m, hm, -, -, -, herr⟩ := send_posts hn hurl hdone
    rw [herr, hm, List.length_replicate]

end

/-! ## All endpoints -/

theorem postsTo_append (i : Nat) (l l' : List (Nat × Post)) : postsTo i (l ++ l') = postsTo i l ++ postsTo i l' := by
  simp [postsTo]

theorem postsTo_self (i : Nat) (posts : List Post) : postsTo i (posts.map (Prod.mk i)) = posts := by
  simp [postsTo, List.filter_map, Function.comp_def]

theorem postsTo_eq_nil {i : Nat} {l : List (Nat × Post)} (h : ∀ p ∈ l, p.1 ≠ i) : postsTo i l = [] := by
  simpa [postsTo] using h

section
variable (lib : WebhookLib) (retries : Int) (body : List UInt8) (d : Nat → Delivery)

def postsOf (l : List (WebhookConfig × Nat)) : List (Nat × Post) :=
  l.flatMap fun wh => (send lib retries wh.1 body (d wh.2)).1.map (Prod.mk wh.2)

theorem foldl_deliver (l : List (WebhookConfig × Nat)) (acc : List (Nat × Post) × Option String) :
    (l.foldl (deliver lib retries body d) acc).1 = acc.1 ++ postsOf lib retries body d l ∧
      ((l.foldl (deliver lib retries body d) acc).2 = none ↔
        acc.2 = none ∧ ∀ wh ∈ l, (send lib retries wh.1 body (d wh.2)).2 = none) := by
  induction l generalizing acc with
  | nil => simp [postsOf]
  | cons wh l ih =>
    obtain ⟨hposts, herr⟩ := ih (deliver lib retries body d acc wh)
    constructor
    · rw [List.foldl_cons, hposts]
      simp [deliver, postsOf]
    · rw [List.foldl_cons, herr]
      simp [deliver, Option.or_eq_none_iff, and_comm, and_assoc]

theorem postsTo_postsOf {webhooks : List WebhookConfig} {i : Nat} {wh : WebhookConfig} (hwh : webhooks[i]? = some wh) :
    postsTo i (postsOf lib retries body d webhooks.zipIdx) = (send lib retries wh body (d i)).1 := by
  obtain ⟨hi, rfl⟩ := List.getElem?_eq_some_iff.mp hwh
  -- the other endpoints have other places
  have hother (l : List (WebhookConfig × Nat)) (h : ∀ p ∈ l, p.2 ≠ i) :
    postsTo i (postsOf lib retries body d l) = [] := by
    refine postsTo_eq_nil fun p hp => ?_
    obtain ⟨q, hq, hp⟩ := List.mem_flatMap.mp hp
    obtain ⟨post, -, rfl⟩ := List.mem_map.mp hp
    exact h q hq
  have hsplit : webhooks.zipIdx =
      (webhooks.take i).zipIdx ++ ((webhooks[i], i) :: (webhooks.drop (i + 1)).zipIdx (i + 1)) := by
    have happend : webhooks.zipIdx = (webhooks.take i).zipIdx ++ (webhooks.drop i).zipIdx i := by
      conv_lhs => rw [← List.take_append_drop i webhooks]
      rw [List.zipIdx_append, List.length_take_of_le hi.le, Nat.zero_add]
    rw [happend, List.drop_eq_getElem_cons hi, List.zipIdx_cons]
  rw [hsplit, postsOf, List.flatMap_append, List.flatMap_cons, ← postsOf, ← postsOf, postsTo_append, postsTo_append,
    postsTo_self, hother, hother, List.nil_append, List.append_nil]
  · intro p hp
    have := List.mem_zipIdx hp
    omega
  · intro p hp
    have := List.mem_zipIdx hp
    simp only [List.length_take] at this
    omega

end

/-- Whatever the course of the attempts, while the context is not cancelled: an endpoint with a
valid URL receives between one and `n + 1` posts, all the same request, none after the first that
it answers with 2xx, and no others than `send` makes for it; and there is no error exactly when
every endpoint has answered a post with 2xx. -/
theorem delivery_complete {lib : WebhookLib} {h : WebhookHandler} {n : Nat} (hn : h.retries = n) {event : TimedEvent}
    {body : List UInt8} (hbody : lib.marshal event = .ok body) {d : Nat → Delivery}
      (hdone : ∀ i k, (d i).done k = false) :
    (∀ i wh, h.webhooks[i]? = some wh → lib.newRequest wh.url = .ok () →
        let posts := postsTo i (h.handle lib d event).1
        1 ≤ posts.length ∧ posts.length ≤ n + 1 ∧ (∀ p ∈ posts, p = request lib wh body) ∧
          (∀ k < posts.length, (d i).accepts k = true → k + 1 = posts.length) ∧ posts = (send lib n wh body (d i)).1) ∧
      ((h.handle lib d event).2 = none ↔
        ∀ i < h.webhooks.length, ∃ k < (postsTo i (h.handle lib d event).1).length, (d i).accepts k = true) := by
  obtain ⟨hposts, herr⟩ := foldl_deliver lib n body d h.webhooks.zipIdx ([], none)
  have hhandle : h.handle lib d event = h.webhooks.zipIdx.foldl (deliver lib n body d) ([], none) := by
    rw [WebhookHandler.handle, hbody, hn]
  rw [← hhandle] at hposts herr
  have hto (i : Nat) (wh : WebhookConfig) (hwh : h.webhooks[i]? = some wh) :
      postsTo i (h.handle lib d event).1 = (send lib n wh body (d i)).1 := by
    rw [hposts, List.nil_append, postsTo_postsOf lib n body d hwh]
  constructor
  · intro i wh hwh hurl
    obtain ⟨m, hm, hpos, hle, hlast, -⟩ := @send_posts lib wh body (d i) n n rfl hurl (hdone i)
    dsimp only
    rw [hto i wh hwh, hm, List.length_replicate]
    exact ⟨hpos, hle, fun p hp => (List.mem_replicate.mp hp).2, hlast, rfl⟩
  · rw [herr]
    simp only [true_and]
    constructor
    · intro hall i hi
      have hwh : h.webhooks[i]? = some h.webhooks[i] := List.getElem?_eq_getElem hi
      rw [hto i _ hwh]
      exact (send_ok_iff rfl (hdone i)).mp (hall (h.webhooks[i], i) (List.mk_mem_zipIdx_iff_getElem?.mpr hwh))
    · intro hall wh hwh
      have hwh := List.mk_mem_zipIdx_iff_getElem?.mp hwh
      have haccepted := hall wh.2 (List.getElem?_eq_some_iff.mp hwh).1
      rw [hto wh.2 wh.1 hwh] at haccepted
      exact (send_ok_iff rfl (hdone wh.2)).mpr haccepted

def Sample.lib : WebhookLib where
  marshal _ := .ok [123, 125]
  newRequest url := if url = "" then .error "empty url" else .ok ()
  signPayload _ secret := secret

def Sample.handler : WebhookHandler :=
  { webhooks := [⟨"http://192.0.2.1/a", "key"⟩, ⟨"http://192.0.2.2/b", ""⟩], retries := 2 }

def Sample.course (i : Nat) : Delivery where
  outcome k := if i = 0 ∧ 0 < k then .ok 204 else .ok 503
  done _ := false

def Sample.event : TimedEvent :=
  { type := .bgpSessionDown, severity := .critical, resource := "bgp/192.0.2.9", details := [], timestamp := 0 }

theorem delivery_complete_twice :
    (postsTo 0 (Sample.handler.handle Sample.lib Sample.course Sample.event).1).length = 2 ∧
      (postsTo 1 (Sample.handler.handle Sample.lib Sample.course Sample.event).1).length = 3 ∧
      (Sample.handler.handle Sample.lib Sample.course Sample.event).2 ≠ none := by
  refine ⟨by decide, by decide, fun h => ?_⟩
  obtain ⟨k, -, hk⟩ := ((delivery_complete (n := 2) rfl rfl fun _ _ => rfl).2.mp h) 1 (by decide)
  simp [Delivery.accepts, Sample.course] at hk

end EdgeFabric.Webhooks
