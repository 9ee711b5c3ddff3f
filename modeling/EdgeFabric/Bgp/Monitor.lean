/-
The monitor of BGP sessions (`internal/bgp/monitor.go`). It polls the speaker, remembers
the status of each peer that the last successful poll has listed, and publishes an event
when a session comes up or goes down.

`find_after` says what the monitor remembers, so the events of a poll can be read off it and
the successful poll before it (`monitor_events`).
-/
import EdgeFabric.Events
import EdgeFabric.Lib.Dict
import Mathlib.Data.List.Chain

namespace EdgeFabric.Bgp

/-- The fields of `SessionState` that the monitor reads. -/
structure SessionState where
  peerAddress : String
  peerASN : Nat
  status : String
  deriving DecidableEq

abbrev PeerStates := Table (Prod.fst : String × String → String)

def established (sess : SessionState) (fromStatus : String) : Event where
  type := .bgpSessionEstablished
  severity := .info
  resource := "bgp/" ++ sess.peerAddress
  details := [("peer_address", sess.peerAddress), ("peer_asn", toString sess.peerASN), ("from_status", fromStatus)]

def down (sess : SessionState) : Event where
  type := .bgpSessionDown
  severity := .critical
  resource := "bgp/" ++ sess.peerAddress
  details := [("peer_address", sess.peerAddress), ("peer_asn", toString sess.peerASN), ("to_status", sess.status)]

/-- The events for a status that differs from the last one. -/
def transition (lastStatus : String) (sess : SessionState) : List Event :=
  if sess.status = "established" ∧ lastStatus ≠ "established" then [established sess lastStatus]
  else if lastStatus = "established" ∧ sess.status ≠ "established" then [down sess]
  else []

/-- The loop of `poll`: one more session. -/
def visit (initial : Bool) (acc : PeerStates × List Event) (sess : SessionState) : PeerStates × List Event :=
  match acc.1.find sess.peerAddress with
  | none => (acc.1.put (sess.peerAddress, sess.status), acc.2)
  | some (_, lastStatus) =>
    if initial then (acc.1.put (sess.peerAddress, sess.status), acc.2)
    else if lastStatus ≠ sess.status then
      (acc.1.put (sess.peerAddress, sess.status), acc.2 ++ transition lastStatus sess)
    else acc

abbrev Poll := Except String (List SessionState)

def poll (initial : Bool) (result : Poll) (m : PeerStates) : PeerStates × List Event :=
  match result with
  | .error _ => (m, [])
  | .ok sessions =>
    let r := sessions.foldl (visit initial) (m, [])
    (r.1.filter fun p => p.1 ∈ sessions.map (·.peerAddress), r.2)

def after (polls : List Poll) : PeerStates :=
  (polls.foldl (fun s p => (false, (poll s.1 p s.2).1)) (true, ∅)).2

def published (before : List Poll) (p : Poll) : List Event := (poll before.isEmpty p (after before)).2

def publishedOver : (before stretch : List Poll) → List Event
  | _, [] => []
  | before, p :: stretch => published before p ++ publishedOver (before ++ [p]) stretch

/-! ## What the events say -/

def statusIn (addr : String) (sessions : List SessionState) : Option String :=
  (sessions.find? (·.peerAddress = addr)).map (·.status)

def statusAt (addr : String) (polls : List Poll) : Option String :=
  (polls.filterMap Except.toOption).getLast?.bind (statusIn addr)

def about (addr : String) (events : List Event) : List EventType :=
  (events.filter (·.resource = "bgp/" ++ addr)).map (·.type)

/-- What is to be published for a peer that had a status, or was not listed, and has one now. -/
def change (old : Option String) (new : String) : List EventType :=
  match old with
  | none => []
  | some old =>
    if new = "established" ∧ old ≠ "established" then [.bgpSessionEstablished]
    else if old = "established" ∧ new ≠ "established" then [.bgpSessionDown]
    else []

def Distinct (polls : List Poll) : Prop := ∀ sessions, .ok sessions ∈ polls → (sessions.map (·.peerAddress)).Nodup

section
variable {initial : Bool} {m : PeerStates} {events : List Event} {sess : SessionState} {sessions : List SessionState}
  {addr : String}

theorem find_visit : (visit initial (m, events) sess).1.find addr =
    if addr = sess.peerAddress then some (addr, sess.status) else m.find addr := by
  have hput : (m.put (sess.peerAddress, sess.status)).find addr =
      if addr = sess.peerAddress then some (addr, sess.status) else m.find addr := by
    have hself := Table.find_put_self (t := m) (a := (sess.peerAddress, sess.status))
    by_cases haddr : addr = sess.peerAddress
    · rw [if_pos haddr, haddr, hself]
    · rw [if_neg haddr]
      exact Table.find_put_of_ne haddr
  unfold visit
  split
  · exact hput
  · next a lastStatus hfind =>
    split
    · exact hput
    · split
      · exact hput
      · next hsame =>
        by_cases haddr : addr = sess.peerAddress
        · obtain rfl : a = sess.peerAddress := (Table.find_eq_some.mp hfind).2
          rw [if_pos haddr, haddr, ← not_not.mp hsame]
          exact hfind
        · rw [if_neg haddr]

theorem about_append (events events' : List Event) :
    about addr (events ++ events') = about addr events ++ about addr events' := by
  simp [about]

theorem about_transition (lastStatus : String) :
    about addr (transition lastStatus sess) =
      if sess.peerAddress = addr then change (some lastStatus) sess.status else [] := by
  by_cases hnew : sess.status = "established"
  · by_cases hold : lastStatus = "established"
    · simp [transition, change, about, hnew, hold]
    · by_cases haddr : sess.peerAddress = addr
      · simp [transition, change, about, established, hnew, hold, haddr]
      · simp [transition, about, established, hnew, hold, haddr]
  · by_cases hold : lastStatus = "established"
    · by_cases haddr : sess.peerAddress = addr
      · simp [transition, change, about, down, hnew, hold, haddr]
      · simp [transition, about, down, hnew, hold, haddr]
    · simp [transition, change, about, hnew, hold]

theorem about_visit (hinitial : initial = true → m.find sess.peerAddress = none) :
    about addr (visit initial (m, events) sess).2 = about addr events ++
      if sess.peerAddress = addr then change ((m.find addr).map Prod.snd) sess.status else [] := by
  rcases hfind : m.find sess.peerAddress with _ | ⟨a, lastStatus⟩
  · simp only [visit, hfind]
    by_cases haddr : sess.peerAddress = addr
    · simp [← haddr, hfind, change]
    · simp [haddr]
  · have hlater : initial = false := by
      cases initial with
      | false => rfl
      | true => cases (hinitial rfl).symm.trans hfind
    by_cases hsame : lastStatus = sess.status
    · by_cases haddr : sess.peerAddress = addr
      · simp [visit, ← haddr, hfind, hlater, change, hsame]
      · simp [visit, hfind, hlater, haddr, hsame]
    · simp only [visit, hfind, hlater, ne_eq, hsame, not_false_eq_true, if_true, Bool.false_eq_true, if_false,
        about_append, about_transition]
      by_cases haddr : sess.peerAddress = addr
      · simp [← haddr, hfind]
      · simp [haddr]

theorem statusIn_append (sessions : List SessionState) (sess : SessionState) : statusIn addr (sessions ++ [sess]) =
    (statusIn addr sessions).or (if sess.peerAddress = addr then some sess.status else none) := by
  by_cases haddr : sess.peerAddress = addr
  · cases hfind : sessions.find? (·.peerAddress = addr) with
    | none => simp [statusIn, List.find?_append, hfind, haddr]
    | some s => simp [statusIn, List.find?_append, hfind]
  · simp [statusIn, List.find?_append, haddr]

theorem statusIn_eq_none : statusIn addr sessions = none ↔ addr ∉ sessions.map (·.peerAddress) := by
  simp [statusIn]

theorem visits (hinitial : initial = true → m = ∅) (hnodup : (sessions.map (·.peerAddress)).Nodup) (addr : String) :
    (sessions.foldl (visit initial) (m, [])).1.find addr =
      ((statusIn addr sessions).map (Prod.mk addr)).or (m.find addr) ∧
    about addr (sessions.foldl (visit initial) (m, [])).2 =
      (statusIn addr sessions).elim [] (change ((m.find addr).map Prod.snd)) := by
  induction sessions using List.reverseRecOn generalizing addr with
  | nil => simp [statusIn, about]
  | append_singleton sessions sess ih =>
    rw [List.map_append, List.nodup_append] at hnodup
    obtain ⟨hbefore, -, hfresh⟩ := hnodup
    have ih := ih hbefore
    have hnew : statusIn sess.peerAddress sessions = none :=
      statusIn_eq_none.mpr fun h => hfresh _ h _ List.mem_cons_self rfl
    have hunknown : (sessions.foldl (visit initial) (m, [])).1.find sess.peerAddress = m.find sess.peerAddress := by
      rw [(ih _).1, hnew]
      rfl
    rw [List.foldl_append, List.foldl_cons, List.foldl_nil, find_visit,
      about_visit fun h => by rw [hunknown, hinitial h]; rfl, (ih addr).2, statusIn_append]
    by_cases haddr : sess.peerAddress = addr
    · subst haddr
      simp [hnew, hunknown]
    · simp [haddr, Ne.symm haddr, (ih addr).1]

theorem poll_ok (hinitial : initial = true → m = ∅) (hnodup : (sessions.map (·.peerAddress)).Nodup) (addr : String) :
    (poll initial (.ok sessions) m).1.find addr = (statusIn addr sessions).map (Prod.mk addr) ∧
    about addr (poll initial (.ok sessions) m).2 = (statusIn addr sessions).elim []
      (change ((m.find addr).map Prod.snd)) := by
  obtain ⟨hfind, habout⟩ := visits hinitial hnodup addr
  refine ⟨?_, habout⟩
  cases hstatus : statusIn addr sessions with
  | none =>
    -- the peer is no longer listed
    refine Table.find_eq_none.mpr fun p hp haddr => statusIn_eq_none.mp hstatus ?_
    rw [← haddr]
    exact of_decide_eq_true (Table.mem_filter.mp hp).2
  | some status =>
    rw [hstatus] at hfind
    have hlisted : addr ∈ sessions.map (·.peerAddress) := by
      by_contra hnot
      cases hstatus.symm.trans (statusIn_eq_none.mpr hnot)
    exact Table.find_eq_some.mpr ⟨Table.mem_filter.mpr ⟨(Table.find_eq_some.mp hfind).1, decide_eq_true hlisted⟩, rfl⟩

end

theorem after_concat (polls : List Poll) (p : Poll) :
    after (polls ++ [p]) = (poll polls.isEmpty p (after polls)).1 := by
  have hflag : (polls.foldl (fun s p => (false, (poll s.1 p s.2).1)) (true, (∅ : PeerStates))).1 = polls.isEmpty := by
    induction polls using List.reverseRecOn with
    | nil => rfl
    | append_singleton polls p _ => simp
  rw [after, List.foldl_append, List.foldl_cons, List.foldl_nil, hflag]
  rfl

theorem after_of_isEmpty {polls : List Poll} (h : polls.isEmpty = true) : after polls = ∅ := by
  rw [List.isEmpty_iff.mp h]
  rfl

theorem statusAt_error (addr : String) (polls : List Poll) (e : String) :
    statusAt addr (polls ++ [.error e]) = statusAt addr polls := by
  simp [statusAt, Except.toOption]

theorem statusAt_ok (addr : String) (polls : List Poll) (sessions : List SessionState) :
    statusAt addr (polls ++ [.ok sessions]) = statusIn addr sessions := by
  simp [statusAt, Except.toOption]

theorem find_after {polls : List Poll} (h : Distinct polls) (addr : String) :
    (after polls).find addr = (statusAt addr polls).map (Prod.mk addr) := by
  induction polls using List.reverseRecOn with
  | nil => rfl
  | append_singleton polls p ih =>
    have ih := ih fun sessions hs => h sessions (List.mem_append_left _ hs)
    rw [after_concat]
    cases p with
    | error e => rw [statusAt_error, ← ih, poll]
    | ok sessions => rw [(poll_ok after_of_isEmpty (h sessions (by simp)) addr).1, statusAt_ok]

theorem statusIn_of_mem {sessions : List SessionState} {sess : SessionState} {addr : String}
    (hnodup : (sessions.map (·.peerAddress)).Nodup) (hsess : sess ∈ sessions) (haddr : sess.peerAddress = addr) :
    statusIn addr sessions = some sess.status := by
  have hfound : (sessions.find? (·.peerAddress = addr)).isSome :=
    List.find?_isSome.mpr ⟨sess, hsess, decide_eq_true haddr⟩
  obtain ⟨s, hs⟩ := Option.isSome_iff_exists.mp hfound
  have hsame : s = sess := List.inj_on_of_nodup_map hnodup (List.mem_of_find?_eq_some hs) hsess
    ((of_decide_eq_true (List.find?_some hs :)).trans haddr.symm)
  rw [statusIn, hs, hsame, Option.map_some]

theorem about_published {before : List Poll} {sessions : List SessionState} (h : Distinct (before ++ [.ok sessions]))
    (addr : String) :
    about addr (published before (.ok sessions)) = (statusIn addr sessions).elim []
      (change (statusAt addr before)) := by
  rw [published, (poll_ok after_of_isEmpty (h sessions (by simp)) addr).2,
    find_after (fun l hl => h l (List.mem_append_left _ hl)) addr]
  simp [Function.comp_def]

theorem publishedOver_concat (before stretch : List Poll) (p : Poll) :
    publishedOver before (stretch ++ [p]) = publishedOver before stretch ++ published (before ++ stretch) p := by
  induction stretch generalizing before with
  | nil => simp [publishedOver]
  | cons q stretch ih => simp [publishedOver, ih]

theorem change_alternates {types : List EventType} {old new : String} (hchain : types.IsChain (· ≠ ·))
    (hlast : ∀ e ∈ types.getLast?, (e = .bgpSessionEstablished ↔ old = "established")) :
    (types ++ change (some old) new).IsChain (· ≠ ·) ∧
      ∀ e ∈ (types ++ change (some old) new).getLast?, (e = .bgpSessionEstablished ↔ new = "established") := by
  by_cases hnew : new = "established"
  · by_cases hold : old = "established"
    · simpa [change, hnew, hold] using And.intro hchain hlast
    · simp only [hold, iff_false] at hlast
      simpa [change, hnew, hold, List.isChain_append] using And.intro hchain hlast
  · by_cases hold : old = "established"
    · simp only [hold, iff_true] at hlast
      simp only [change, hnew, hold, false_and, if_false, true_and, ne_eq, not_false_eq_true, if_true]
      refine ⟨List.isChain_append.mpr ⟨hchain, List.IsChain.singleton _, fun e he e' he' => ?_⟩, by simp⟩
      obtain rfl : .bgpSessionDown = e' := by simpa using he'
      rw [hlast e he]
      decide
    · simpa [change, hnew, hold] using And.intro hchain hlast

theorem stretch_alternates {addr : String} {before stretch : List Poll} (h : Distinct (before ++ stretch))
    (hfirst : statusAt addr before = none)
    (hlisted : ∀ sessions, .ok sessions ∈ stretch → addr ∈ sessions.map (·.peerAddress)) :
    (about addr (publishedOver before stretch)).IsChain (· ≠ ·) ∧
      (statusAt addr (before ++ stretch)).elim (about addr (publishedOver before stretch) = []) fun status =>
        ∀ e ∈ (about addr (publishedOver before stretch)).getLast?,
          (e = .bgpSessionEstablished ↔ status = "established") := by
  induction stretch using List.reverseRecOn with
  | nil =>
    rw [List.append_nil, hfirst]
    exact ⟨.nil, rfl⟩
  | append_singleton stretch p ih =>
    rw [← List.append_assoc] at h ⊢
    obtain ⟨hchain, hlast⟩ := ih (fun l hl => h l (List.mem_append_left _ hl)) fun l hl =>
      hlisted l (List.mem_append_left _ hl)
    rw [publishedOver_concat, about_append]
    cases p with
    | error e =>
      rw [statusAt_error, show about addr (published (before ++ stretch) (.error e)) = [] from rfl, List.append_nil]
      exact ⟨hchain, hlast⟩
    | ok sessions =>
      obtain ⟨new, hnew⟩ := Option.ne_none_iff_exists'.mp
        (mt statusIn_eq_none.mp (not_not.mpr (hlisted sessions (by simp))))
      rw [about_published h, hnew, statusAt_ok, hnew, Option.elim_some]
      cases hold : statusAt addr (before ++ stretch) with
      | none =>
        rw [hold, Option.elim_none] at hlast
        simp [hlast, change]
      | some old =>
        rw [hold] at hlast
        exact change_alternates hchain hlast

/-- For every sequence of polls, of which those that succeed list a peer at most once: a poll
that lists a peer publishes about it what its status there and its status at the previous
successful poll say, which is nothing where that one does not list it; and from such a poll on,
for as long as the successful polls list the peer, its events alternate. -/
theorem monitor_events {polls : List Poll} (hdistinct : Distinct polls) (addr : String) :
    (∀ before sessions later, polls = before ++ .ok sessions :: later → ∀ sess ∈ sessions, sess.peerAddress = addr →
        about addr (published before (.ok sessions)) = change (statusAt addr before) sess.status) ∧
      ∀ before stretch later, polls = before ++ stretch ++ later → statusAt addr before = none →
        (∀ sessions, .ok sessions ∈ stretch → addr ∈ sessions.map (·.peerAddress)) →
        (about addr (publishedOver before stretch)).IsChain (· ≠ ·) := by
  constructor
  · intro before sessions later hpolls sess hsess haddr
    have hnow : Distinct (before ++ [.ok sessions]) := fun l hl => hdistinct l (by rw [hpolls]; simp at hl ⊢; tauto)
    rw [about_published hnow, statusIn_of_mem (hnow sessions (by simp)) hsess haddr, Option.elim_some]
  · intro before stretch later hpolls hfirst hlisted
    have hnow : Distinct (before ++ stretch) := fun l hl => hdistinct l (hpolls ▸ List.mem_append_left _ hl)
    exact (stretch_alternates hnow hfirst hlisted).1

def flap : List Poll :=
  [.ok [⟨"192.0.2.1", 64500, "active"⟩], .error "rpc", .ok [⟨"192.0.2.1", 64500, "established"⟩],
    .ok [⟨"192.0.2.1", 64500, "idle"⟩]]

theorem forall_flap {P : List SessionState → Prop} (h : ∀ l ∈ flap.filterMap Except.toOption, P l) :
    ∀ l, .ok l ∈ flap → P l :=
  fun l hl => h l (List.mem_filterMap.mpr ⟨_, hl, rfl⟩)

theorem flap_distinct : Distinct flap := forall_flap (by decide)

theorem monitor_events_flap :
    about "192.0.2.1" (publishedOver [] flap) = [.bgpSessionEstablished, .bgpSessionDown] ∧
      (about "192.0.2.1" (publishedOver [] flap)).IsChain (· ≠ ·) := by
  exact ⟨by decide, (monitor_events flap_distinct _).2 [] flap [] (by simp) rfl (forall_flap (by decide))⟩

end EdgeFabric.Bgp
