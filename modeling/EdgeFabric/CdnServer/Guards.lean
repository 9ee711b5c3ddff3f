/-
What stands between a request and an origin: the site's token bucket, and the health
checker, which counts the failures of each origin in a row and takes it out after
three of them.

`RateLimiter` is a token bucket (`bucket_allow`), in seconds and tokens as exact
rationals. `Records` relates the counters of an origin to the results of its probes.
-/
import EdgeFabric.Domain
import EdgeFabric.Lib.TokenBucket
import Mathlib.Algebra.Order.Ring.Rat

namespace EdgeFabric.CdnServer

/-! ## Rate limiting -/

structure RateLimiter where
  tokens : ℚ
  maxTokens : ℚ
  /-- tokens per second -/
  refillRate : ℚ
  lastRefill : ℚ

/-- `NewRateLimiter`: `rps` requests per second, and as many at once. -/
def newRateLimiter (rps : Int) (now : ℚ) : RateLimiter :=
  { tokens := rps, maxTokens := rps, refillRate := rps, lastRefill := now }

namespace RateLimiter

def refill (now : ℚ) (rl : RateLimiter) : RateLimiter :=
  let elapsed := now - rl.lastRefill
  let tokens := rl.tokens + elapsed * rl.refillRate
  { rl with lastRefill := now, tokens := if rl.maxTokens < tokens then rl.maxTokens else tokens }

def allow (now : ℚ) (rl : RateLimiter) : Bool × RateLimiter :=
  let rl := rl.refill now
  if rl.tokens < 1 then (false, rl) else (true, { rl with tokens := rl.tokens - 1 })

theorem allow_snd (rl : RateLimiter) (now : ℚ) :
    (rl.allow now).2 = { rl with lastRefill := now, tokens := (rl.allow now).2.tokens } := by
  by_cases hempty : (rl.refill now).tokens < 1
  · simp only [allow, if_pos hempty]
    rfl
  · simp only [allow, if_neg hempty]
    rfl

def bucket (rl : RateLimiter) : TokenBucket ℚ :=
  { tokens := rl.tokens, capacity := rl.maxTokens, rate := rl.refillRate, last := rl.lastRefill }

theorem bucket_refill (rl : RateLimiter) (now : ℚ) : (rl.refill now).bucket = rl.bucket.fill now := by
  simp only [refill, bucket, TokenBucket.fill, TokenBucket.mk.injEq, and_true]
  by_cases hover : rl.maxTokens < rl.tokens + (now - rl.lastRefill) * rl.refillRate
  · rw [if_pos hover, min_eq_left hover.le]
  · rw [if_neg hover, min_eq_right (not_lt.mp hover)]

theorem bucket_allow (rl : RateLimiter) (now : ℚ) :
    ((rl.allow now).1, (rl.allow now).2.bucket) = rl.bucket.take now := by
  unfold allow TokenBucket.take
  rw [← bucket_refill]
  by_cases hempty : (rl.refill now).tokens < 1
  · have hbucket : (rl.refill now).bucket.tokens < 1 := hempty
    simp only [if_pos hempty, if_pos hbucket]
  · have hbucket : ¬ (rl.refill now).bucket.tokens < 1 := hempty
    simp only [if_neg hempty, if_neg hbucket]
    rfl

end RateLimiter

/-! ## Health checks -/

/-- Successes to mark an origin healthy, and failures to mark it unhealthy. -/
def healthyThreshold : Nat := 1
def unhealthyThreshold : Nat := 3

structure OriginHealth where
  origin : CDNOrigin
  healthy : Bool
  consecutiveFail : Nat
  consecutiveOK : Nat

abbrev HealthChecker := List OriginHealth

/-- `NewHealthChecker`: origins are healthy until proven otherwise. -/
def newHealthChecker (origins : List CDNOrigin) : HealthChecker :=
  origins.map fun origin => { origin, healthy := true, consecutiveFail := 0, consecutiveOK := 0 }

def HealthChecker.healthyOrigins (hc : HealthChecker) : List CDNOrigin :=
  (hc.filter (·.healthy)).map (·.origin)

def OriginHealth.markResult (success : Bool) (oh : OriginHealth) : OriginHealth :=
  if success then
    { oh with
      consecutiveOK := oh.consecutiveOK + 1, consecutiveFail := 0
      healthy := if healthyThreshold ≤ oh.consecutiveOK + 1 then true else oh.healthy }
  else
    { oh with
      consecutiveFail := oh.consecutiveFail + 1, consecutiveOK := 0
      healthy := if unhealthyThreshold ≤ oh.consecutiveFail + 1 then false else oh.healthy }

def checkURL (o : CDNOrigin) : String :=
  let path := if o.healthCheckPath = "" then "/" else o.healthCheckPath
  let scheme := if o.scheme = "" then "https" else o.scheme
  scheme ++ "://" ++ o.address ++ path

def probeSucceeds (get : String → Option Int) (o : CDNOrigin) : Bool :=
  match get (checkURL o) with
  | none => false
  | some status => 200 ≤ status && status < 400

def OriginHealth.checkOrigin (get : String → Option Int) (oh : OriginHealth) : OriginHealth :=
  oh.markResult (probeSucceeds get oh.origin)

/-- The weighted choice for a number below the total weight. -/
def pickWeighted : List CDNOrigin → Int → Option CDNOrigin
  | [], _ => none
  | o :: rest, r => if r - o.weight < 0 then some o else pickWeighted rest (r - o.weight)

/-- The choice among candidates; `draw` stands for the random number, before it is brought into
range. -/
def selectOrigin (draw : Nat) (candidates : List CDNOrigin) : Option CDNOrigin :=
  match candidates with
  | [] => none
  | [o] => some o
  | _ =>
    let totalWeight := (candidates.map (·.weight)).sum
    if totalWeight ≤ 0 then candidates[draw % candidates.length]?
    else (pickWeighted candidates (draw % totalWeight)).or candidates.getLast?

theorem mem_of_pickWeighted {l : List CDNOrigin} {r : Int} {o : CDNOrigin} (h : pickWeighted l r = some o) : o ∈ l := by
  induction l generalizing r with
  | nil => cases h
  | cons o' rest ih =>
    rw [pickWeighted] at h
    by_cases hr : r - o'.weight < 0
    · rw [if_pos hr] at h
      cases h
      exact List.mem_cons_self
    · rw [if_neg hr] at h
      exact List.mem_cons_of_mem _ (ih h)

theorem mem_of_selectOrigin {draw : Nat} {l : List CDNOrigin} {o : CDNOrigin} (h : selectOrigin draw l = some o) :
    o ∈ l := by
  unfold selectOrigin at h
  split at h
  · cases h
  · cases h
    exact List.mem_cons_self
  · dsimp only at h
    split at h
    · exact List.mem_of_getElem? h
    · rcases Option.or_eq_some_iff.mp h with h | ⟨-, h⟩
      · exact mem_of_pickWeighted h
      · exact List.mem_of_getLast? h

/-- How many of the latest results are failures; the last result comes first. -/
def failuresInARow (history : List Bool) : Nat := (history.takeWhile (!·)).length

structure OriginHealth.Records (oh : OriginHealth) (history : List Bool) : Prop where
  fails : oh.consecutiveFail = failuresInARow history
  verdict : oh.healthy = decide (failuresInARow history < unhealthyThreshold)

theorem OriginHealth.Records.markResult {oh : OriginHealth} {history : List Bool} (h : oh.Records history) (ok : Bool) :
    (oh.markResult ok).Records (ok :: history) := by
  cases ok with
  | true => exact ⟨rfl, rfl⟩
  | false =>
    have hrow : failuresInARow (false :: history) = failuresInARow history + 1 := rfl
    refine ⟨by rw [hrow, ← h.fails]; rfl, ?_⟩
    show (if unhealthyThreshold ≤ oh.consecutiveFail + 1 then false else oh.healthy) = _
    rw [hrow, h.fails, h.verdict]
    by_cases hmany : unhealthyThreshold ≤ failuresInARow history + 1
    · rw [if_pos hmany, decide_eq_false (not_lt.mpr hmany)]
    · have hfew : failuresInARow history + 1 < unhealthyThreshold := not_le.mp hmany
      rw [if_neg hmany, decide_eq_true hfew, decide_eq_true (Nat.lt_of_succ_lt hfew)]

end EdgeFabric.CdnServer
