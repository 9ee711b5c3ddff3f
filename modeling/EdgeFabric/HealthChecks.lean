/-
The checkers of overlay peers (`internal/networking/health.go`) and of routes
(`internal/routeserver/health.go`). Both count the results of probes as the checker of CDN
origins does, with thresholds of their own, and publish an event when the verdict changes.

Whatever the results of the probes of a target are, the verdict is the one that the history
gives, and the events are failures and recoveries in turn (`verdicts_follow_history`).
-/
import EdgeFabric.CdnServer.Guards
import EdgeFabric.Events
import EdgeFabric.Lib.Verdict
import EdgeFabric.Store.Fleet

namespace EdgeFabric

/-! ## The checkers -/

/-- The thresholds of `OverlayHealthConfig` and `RouteHealthConfig`. -/
structure HealthConfig where
  unhealthyThreshold : Nat
  healthyThreshold : Nat

/-- `overlayPeerState` and `routeHealthState`. -/
structure HealthState (Target : Type) extends Verdict where
  target : Target
  deriving DecidableEq

def HealthState.new {Target : Type} (target : Target) : HealthState Target := { Verdict.new with target }

/-- The `markResult` of both checkers: the result is counted, and a change of the verdict published. -/
def HealthState.markWith {Target : Type} (cfg : HealthConfig) (failed recovered : HealthState Target → Event)
    (success : Bool) (s : HealthState Target) : HealthState Target × List Event :=
  let s' : HealthState Target := { s.mark cfg.unhealthyThreshold cfg.healthyThreshold success with target := s.target }
  (s', if s.healthy ∧ ¬ s'.healthy then [failed s'] else if ¬ s.healthy ∧ s'.healthy then [recovered s'] else [])

structure OverlayTarget where
  name : String
  ip : String
  deriving DecidableEq

namespace OverlayTarget

def unreachable (s : HealthState OverlayTarget) : Event where
  type := .overlayPeerUnreachable
  severity := .critical
  resource := "overlay/" ++ s.target.ip
  details := [("peer_name", s.target.name), ("peer_ip", s.target.ip),
    ("consecutive_failures", toString s.consecutiveFail)]

def recovered (s : HealthState OverlayTarget) : Event where
  type := .overlayPeerRecovered
  severity := .info
  resource := "overlay/" ++ s.target.ip
  details := [("peer_name", s.target.name), ("peer_ip", s.target.ip)]

def markResult (cfg : HealthConfig) (success : Bool) (s : HealthState OverlayTarget) :
    HealthState OverlayTarget × List Event :=
  s.markWith cfg unreachable recovered success

end OverlayTarget

structure RouteTarget where
  routeID : ID
  routeName : String
  protocol : RouteProtocol
  gatewayWGIP : String
  entryPort : Int
  deriving DecidableEq

namespace RouteTarget

def failed (s : HealthState RouteTarget) : Event where
  type := .routeHealthCheckFailed
  severity := .critical
  resource := "route/" ++ ID.text s.target.routeID
  details := [("route_name", s.target.routeName), ("gateway_ip", s.target.gatewayWGIP),
    ("entry_port", toString s.target.entryPort), ("consecutive_failures", toString s.consecutiveFail)]

def recovered (s : HealthState RouteTarget) : Event where
  type := .routeHealthCheckRecovered
  severity := .info
  resource := "route/" ++ ID.text s.target.routeID
  details := [("route_name", s.target.routeName), ("gateway_ip", s.target.gatewayWGIP),
    ("entry_port", toString s.target.entryPort)]

def markResult (cfg : HealthConfig) (success : Bool) (s : HealthState RouteTarget) :
    HealthState RouteTarget × List Event :=
  s.markWith cfg failed recovered success

end RouteTarget

/-! ## Histories -/

def probes {State : Type} (mark : Bool → State → State × List Event) (s : State) (results : List Bool) :
    State × List Event :=
  results.foldl (fun r success => ((mark success r.1).1, r.2 ++ (mark success r.1).2)) (s, [])

/-- The events are of the first type, the second, the first and so on. -/
def Alternate (failed recovered : EventType) (events : List Event) : Prop :=
  ∀ i (h : i < events.length), (events.get ⟨i, h⟩).type = if i % 2 = 0 then failed else recovered

/-- The verdict is the one of the history, and the events are the changes of the verdict. -/
structure FollowsHistory (cfg : HealthConfig) (failed recovered : EventType) (s : Verdict) (events : List Event)
    (results : List Bool) : Prop where
  verdict : s.healthy = false ↔ Verdict.Condemned cfg.unhealthyThreshold cfg.healthyThreshold results
  alternate : Alternate failed recovered events
  parity : events.length % 2 = 1 ↔ s.healthy = false

section
variable {cfg : HealthConfig} {a b : EventType} {events : List Event}

theorem Alternate.concat (h : Alternate a b events) {e : Event} (he : e.type = if events.length % 2 = 0 then a else b) :
    Alternate a b (events ++ [e]) := by
  intro i hi
  simp only [List.length_append, List.length_singleton] at hi
  by_cases hlast : i < events.length
  · simpa [List.getElem_append_left hlast] using h i hlast
  · obtain rfl : i = events.length := by omega
    simpa using he

theorem markWith_follows {Target : Type} {failed recovered : HealthState Target → Event} {s : HealthState Target}
    (ha : ∀ s, (failed s).type = a) (hb : ∀ s, (recovered s).type = b)
    (hs : Alternate a b events) (hparity : events.length % 2 = 1 ↔ s.healthy = false) (success : Bool) :
    Alternate a b (events ++ (s.markWith cfg failed recovered success).2) ∧
      ((events ++ (s.markWith cfg failed recovered success).2).length % 2 = 1 ↔
        (s.markWith cfg failed recovered success).1.healthy = false) := by
  unfold HealthState.markWith
  dsimp only
  generalize s.mark cfg.unhealthyThreshold cfg.healthyThreshold success = new
  obtain ⟨healthy, fails, oks⟩ := new
  cases hold : s.healthy with
  | true =>
    have heven : events.length % 2 = 0 := by simpa [hold] using hparity
    cases healthy with
    | true => simpa [hs] using heven
    | false => exact ⟨hs.concat (by simp [heven, ha]), by simp; omega⟩
  | false =>
    have hodd := hparity.mpr hold
    cases healthy with
    | true => exact ⟨hs.concat (by simp [hodd, hb]), by simp; omega⟩
    | false => simpa [hs] using hodd

theorem probes_follow {Target : Type} (failed recovered : HealthState Target → Event)
    (ha : ∀ s, (failed s).type = a) (hb : ∀ s, (recovered s).type = b)
    (hmax : 1 ≤ cfg.unhealthyThreshold) (hmin : 1 ≤ cfg.healthyThreshold) (target : Target) (results : List Bool) :
    FollowsHistory cfg a b (probes (HealthState.markWith cfg failed recovered) (.new target) results).1.toVerdict
      (probes (HealthState.markWith cfg failed recovered) (.new target) results).2 results := by
  suffices h : (probes (HealthState.markWith cfg failed recovered) (.new target) results).1.toVerdict.Records
      cfg.unhealthyThreshold cfg.healthyThreshold results ∧
      Alternate a b (probes (HealthState.markWith cfg failed recovered) (.new target) results).2 ∧
      ((probes (HealthState.markWith cfg failed recovered) (.new target) results).2.length % 2 = 1 ↔
        (probes (HealthState.markWith cfg failed recovered) (.new target) results).1.healthy = false) from
    ⟨h.1.verdict, h.2.1, h.2.2⟩
  induction results using List.reverseRecOn with
  | nil => exact ⟨.new hmax, nofun, by simp [probes, HealthState.new, Verdict.new]⟩
  | append_singleton results success ih =>
    obtain ⟨hrecords, hs, hparity⟩ := ih
    simp only [probes, List.foldl_append, List.foldl_cons, List.foldl_nil]
    exact ⟨hrecords.mark hmax hmin success, markWith_follows ha hb hs hparity success⟩

end

/-- The counters of an origin are those of a verdict. -/
def CdnServer.OriginHealth.verdict (oh : OriginHealth) : Verdict := ⟨oh.healthy, oh.consecutiveFail, oh.consecutiveOK⟩

theorem CdnServer.OriginHealth.verdict_markResult (oh : OriginHealth) (success : Bool) :
    (oh.markResult success).verdict = oh.verdict.mark unhealthyThreshold healthyThreshold success := by
  cases success with
  | true => rfl
  | false => rfl

theorem CdnServer.markResults_records (o : CDNOrigin) (results : List Bool) :
    (results.foldl (fun oh success => oh.markResult success) (⟨o, true, 0, 0⟩ : OriginHealth)).verdict.Records 3 1
      results := by
  induction results using List.reverseRecOn with
  | nil => exact .new (by decide)
  | append_singleton results success ih =>
    rw [List.foldl_append, List.foldl_cons, List.foldl_nil, OriginHealth.verdict_markResult]
    exact ih.mark (by decide) (by decide) success

/-- Whatever the results of the probes of a target are: the target is unhealthy exactly if as many
failures in a row as the one threshold came, and not as many successes in a row as the other
after them. The events of an overlay peer and of a route are failed and recovered in turn, an
odd number of them where the target is unhealthy. -/
theorem verdicts_follow_history (cfg : HealthConfig) (hmax : 1 ≤ cfg.unhealthyThreshold)
    (hmin : 1 ≤ cfg.healthyThreshold) (results : List Bool) :
    (∀ o : CDNOrigin, (results.foldl (fun oh success => oh.markResult success)
      (⟨o, true, 0, 0⟩ : CdnServer.OriginHealth)).healthy = false ↔ Verdict.Condemned 3 1 results) ∧
    (∀ target, FollowsHistory cfg .overlayPeerUnreachable .overlayPeerRecovered
      (probes (OverlayTarget.markResult cfg) (.new target) results).1.toVerdict
      (probes (OverlayTarget.markResult cfg) (.new target) results).2 results) ∧
    ∀ target, FollowsHistory cfg .routeHealthCheckFailed .routeHealthCheckRecovered
      (probes (RouteTarget.markResult cfg) (.new target) results).1.toVerdict
      (probes (RouteTarget.markResult cfg) (.new target) results).2 results :=
  ⟨fun o => (CdnServer.markResults_records o results).verdict,
    fun target => probes_follow OverlayTarget.unreachable OverlayTarget.recovered (fun _ => rfl)
      (fun _ => rfl) hmax hmin target results,
    fun target => probes_follow RouteTarget.failed RouteTarget.recovered (fun _ => rfl)
      (fun _ => rfl) hmax hmin target results⟩

/-- A route that fails twice and is reached once more, with thresholds 2 and 2. -/
theorem verdicts_follow_history_twice :
    (probes (RouteTarget.markResult ⟨2, 2⟩) (.new ⟨1, "web", .tcp, "10.100.0.5", 8080⟩)
      [false, false, true]).2.length = 1 ∧
    ((probes (RouteTarget.markResult ⟨2, 2⟩) (.new ⟨1, "web", .tcp, "10.100.0.5", 8080⟩)
      [false, false, true]).1.healthy = false ↔ Verdict.Condemned 2 2 [false, false, true]) :=
  ⟨rfl, ((verdicts_follow_history ⟨2, 2⟩ (by decide) (by decide) [false, false, true]).2.2 _).verdict⟩

end EdgeFabric
