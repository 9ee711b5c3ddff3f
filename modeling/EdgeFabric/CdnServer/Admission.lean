/-
Which requests get through to an origin, and to which one.

* `origin_choice_fair`: of the draws below the total weight, an origin gets as many as its
  weight says, and the last line of `selectOrigin` is dead.
* `limiter_exact`: the limiter lets a call through exactly if no window that ends with it
  gets more than the burst and what has flowed in.
-/
import EdgeFabric.CdnServer.Proxy

namespace EdgeFabric.CdnServer

/-! ## Choice of origins -/

/-- `selectOrigin` may choose the origin: the checker holds it healthy, or there is no checker. -/
def SiteRuntime.Healthy (sr : SiteRuntime) (o : CDNOrigin) : Prop :=
  match sr.healthChecker with
  | some hc => ∃ oh ∈ hc, oh.healthy = true ∧ oh.origin = o
  | none => o ∈ sr.origins

theorem SiteRuntime.mem_candidates {sr : SiteRuntime} {o : CDNOrigin} : o ∈ sr.candidates ↔ sr.Healthy o := by
  cases hc : sr.healthChecker with
  | none => simp [candidates, Healthy, hc]
  | some hc' => simp [candidates, Healthy, hc, HealthChecker.healthyOrigins, and_assoc]

def totalWeight (l : List CDNOrigin) : Int := (l.map (·.weight)).sum

/-- How many of the first `n` draws choose the origin. -/
def draws (n : Nat) (choose : Nat → Option CDNOrigin) (o : CDNOrigin) : Nat :=
  (List.range n).countP fun draw => choose draw = some o

section
variable {l : List CDNOrigin} {o : CDNOrigin}

theorem length_le_totalWeight (h : ∀ o ∈ l, 1 ≤ o.weight) : (l.length : Int) ≤ totalWeight l := by
  induction l with
  | nil => rfl
  | cons o rest ih =>
    have hrest := ih fun o ho => h o (List.mem_cons_of_mem _ ho)
    have ho := h o List.mem_cons_self
    simp only [totalWeight, List.map_cons, List.sum_cons, List.length_cons] at hrest ⊢
    omega

theorem pickWeighted_isSome {r : Int} (h : r < totalWeight l) (hr : 0 ≤ r) : (pickWeighted l r).isSome := by
  induction l generalizing r with
  | nil => exact absurd h (not_lt.mpr hr)
  | cons o rest ih =>
    rw [pickWeighted]
    split
    · rfl
    · simp only [totalWeight, List.map_cons, List.sum_cons] at h ih
      exact ih (by omega) (by omega)

theorem draws_pickWeighted (h : ∀ o ∈ l, 1 ≤ o.weight) (o : CDNOrigin) :
    (draws (totalWeight l).toNat (fun draw => pickWeighted l draw) o : Int) = totalWeight (l.filter (· = o)) := by
  induction l with
  | nil => rfl
  | cons o' rest ih =>
    have hrest : ∀ o ∈ rest, 1 ≤ o.weight := fun o ho => h o (List.mem_cons_of_mem _ ho)
    obtain ⟨w, hw⟩ := Int.eq_ofNat_of_zero_le (zero_le_one.trans (h o' List.mem_cons_self))
    have hlen := length_le_totalWeight hrest
    have htotal : (totalWeight (o' :: rest)).toNat = w + (totalWeight rest).toNat := by
      simp only [totalWeight, List.map_cons, List.sum_cons] at hlen ⊢
      omega
    -- the first `w` draws are for the origin at the head, the others walk on
    have hhead : ∀ r : Nat, r < w → pickWeighted (o' :: rest) r = some o' := fun r hr => if_pos (by omega)
    have htail : ∀ r : Nat, pickWeighted (o' :: rest) (w + r : Nat) = pickWeighted rest r := fun r => by
      have hsub : ((w + r : Nat) : Int) - o'.weight = r := by omega
      rw [pickWeighted, hsub, if_neg (by omega)]
    have hcount : draws (w + (totalWeight rest).toNat) (fun draw => pickWeighted (o' :: rest) draw) o =
        (if o' = o then w else 0) + draws (totalWeight rest).toNat (fun draw => pickWeighted rest draw) o := by
      simp only [draws, List.range_add, List.countP_append, List.countP_map, Function.comp_def, htail]
      rw [List.countP_congr (q := fun _ => o' = o) fun r hr => by simp [hhead r (List.mem_range.mp hr)]]
      by_cases ho : o' = o
      · simp [ho]
      · simp [ho]
    rw [htotal, hcount, Nat.cast_add, ih hrest]
    by_cases ho : o' = o
    · simp [ho, totalWeight, ← hw]
    · simp [ho]

theorem selectOrigin_weighted (h : ∀ o ∈ l, 1 ≤ o.weight) (hlen : 2 ≤ l.length) (draw : Nat) :
    selectOrigin draw l = pickWeighted l (draw % totalWeight l) ∧ (pickWeighted l (draw % totalWeight l)).isSome := by
  have htotal : 0 < totalWeight l := by have := length_le_totalWeight h; omega
  have hsome := pickWeighted_isSome (Int.emod_lt_of_pos (draw : Int) htotal) (Int.emod_nonneg _ htotal.ne')
  refine ⟨?_, hsome⟩
  obtain ⟨o, ho⟩ := Option.isSome_iff_exists.mp hsome
  obtain _ | ⟨a, _ | ⟨b, rest⟩⟩ := l
  · simp at hlen
  · simp at hlen
  · have hpick : selectOrigin draw (a :: b :: rest) =
        (pickWeighted (a :: b :: rest) (draw % totalWeight (a :: b :: rest))).or (a :: b :: rest).getLast? :=
      if_neg (not_le.mpr htotal)
    rw [hpick, ho, Option.some_or]

theorem selectOrigin_of_lt (h : ∀ o ∈ l, 1 ≤ o.weight) {draw : Nat} (hdraw : draw < totalWeight l) :
    selectOrigin draw l = pickWeighted l draw := by
  obtain _ | ⟨a, _ | ⟨b, rest⟩⟩ := l
  · rfl
  · simp only [totalWeight, List.map_cons, List.map_nil, List.sum_cons, List.sum_nil] at hdraw
    rw [selectOrigin, pickWeighted, if_pos (by omega)]
  · rw [(selectOrigin_weighted h (by simp) draw).1, Int.emod_eq_of_lt (by omega) hdraw]

theorem selectOrigin_eq_none (h : ∀ o ∈ l, 1 ≤ o.weight) {draw : Nat} : selectOrigin draw l = none ↔ l = [] := by
  obtain _ | ⟨a, _ | ⟨b, rest⟩⟩ := l
  · exact iff_of_true rfl rfl
  · simp [selectOrigin]
  · obtain ⟨heq, hsome⟩ := selectOrigin_weighted h (by simp) draw
    simp [heq, Option.isSome_iff_ne_none.mp hsome]

end

/-- Where all healthy origins have weights of at least 1, with a sum that an int can hold:
only healthy origins are chosen, each by as many of the draws below the sum as its weight, the
candidates are walked to their end by no draw, and none is chosen only if none is healthy. -/
theorem origin_choice_fair (sr : SiteRuntime) (hweights : ∀ o, sr.Healthy o → 1 ≤ o.weight) :
    (∀ draw o, selectOrigin draw sr.candidates = some o → sr.Healthy o) ∧
    (∀ o, (draws (totalWeight sr.candidates).toNat (selectOrigin · sr.candidates) o : Int) =
      totalWeight (sr.candidates.filter (· = o))) ∧
    (∀ o, sr.Healthy o → sr.candidates.Nodup →
      (draws (totalWeight sr.candidates).toNat (selectOrigin · sr.candidates) o : Int) = o.weight) ∧
    (2 ≤ sr.candidates.length → 0 < totalWeight sr.candidates ∧
      ∀ draw : Nat, (pickWeighted sr.candidates (draw % totalWeight sr.candidates)).isSome) ∧
    ∀ draw, selectOrigin draw sr.candidates = none ↔ ∀ o, ¬ sr.Healthy o := by
  simp only [← SiteRuntime.mem_candidates] at hweights ⊢
  have hdraws : ∀ o, (draws (totalWeight sr.candidates).toNat (selectOrigin · sr.candidates) o : Int) =
      totalWeight (sr.candidates.filter (· = o)) := fun o => by
    rw [← draws_pickWeighted hweights, draws, draws, List.countP_congr fun r hr => ?_]
    have hlt : (r : Int) < totalWeight sr.candidates := by
      have := List.mem_range.mp hr
      omega
    simp [selectOrigin_of_lt hweights hlt]
  refine ⟨fun _ _ => mem_of_selectOrigin, hdraws, fun o ho hnodup => ?_, fun hlen => ⟨?_, fun draw => ?_⟩,
    fun draw => ?_⟩
  · rw [hdraws, List.filter_eq, List.count_eq_one_of_mem hnodup ho]
    simp [totalWeight]
  · have := length_le_totalWeight hweights
    omega
  · exact (selectOrigin_weighted hweights hlen draw).2
  · rw [selectOrigin_eq_none hweights, List.eq_nil_iff_forall_not_mem]

namespace Sample

def weighted : SiteRuntime :=
  { site, origins := [], cache := none, rateLimiter := none, headerRules := [], waf := none
    healthChecker := some
      [⟨origin, true, 0, 0⟩, ⟨{ origin with id := 71, weight := 2 }, true, 0, 0⟩,
        ⟨{ origin with id := 72, weight := 4 }, false, 3, 0⟩] }

end Sample

/-- Two of three draws choose an origin of weight 2. -/
theorem origin_choice_fair_weighted :
    draws 3 (selectOrigin · Sample.weighted.candidates) { Sample.origin with id := 71, weight := 2 } = 2 ∧
    ∀ draw, selectOrigin draw Sample.weighted.candidates = none ↔ ∀ o, ¬ Sample.weighted.Healthy o := by
  refine ⟨by decide, (origin_choice_fair Sample.weighted fun o ho => ?_).2.2.2.2⟩
  have hall : ∀ o ∈ Sample.weighted.candidates, 1 ≤ o.weight := by decide
  exact hall o (SiteRuntime.mem_candidates.mpr ho)

/-! ## The limiter -/

namespace RateLimiter

/-- Calls of `Allow` at these times: the limiter afterwards, and the times of those that were
admitted, the last first. -/
def calls (times : List ℚ) (rl : RateLimiter) : RateLimiter × List ℚ :=
  times.foldl (fun s t => ((s.1.allow t).2, if (s.1.allow t).1 then t :: s.2 else s.2)) (rl, [])

/-- The bucket of the limiter after calls since `start` that admitted those at `times`. -/
structure Follows (rps start : ℚ) (rl : RateLimiter) (times : List ℚ) : Prop where
  within : rl.bucket.Within times
  drained : rl.bucket.Drained start times
  maxTokens : rl.maxTokens = rps
  refillRate : rl.refillRate = rps

variable {rps : Int} {start t : ℚ} {rl : RateLimiter} {times : List ℚ}

theorem follows_new (h : 1 ≤ rps) (start : ℚ) : (newRateLimiter rps start).Follows rps start [] := by
  have hrps : (0 : ℚ) ≤ rps := by exact_mod_cast zero_le_one.trans h
  exact ⟨.full hrps hrps start, .full start, rfl, rfl⟩

theorem Follows.allow (h : rl.Follows rps start times) (ht : rl.lastRefill ≤ t) :
    (rl.allow t).2.Follows rps start (if (rl.allow t).1 then t :: times else times) := by
  obtain ⟨hfst, hsnd⟩ := Prod.mk.inj (bucket_allow rl t)
  refine ⟨?_, ?_, by rw [allow_snd]; exact h.maxTokens, by rw [allow_snd]; exact h.refillRate⟩
  · rw [hfst, hsnd]
    exact h.within.take ht
  · rw [hfst, hsnd]
    exact h.drained.take h.within ht

theorem follows_calls (h : 1 ≤ rps) {calls : List ℚ} (hsorted : (start :: calls).Pairwise (· ≤ ·)) :
    ((newRateLimiter rps start).calls calls).1.Follows rps start ((newRateLimiter rps start).calls calls).2 ∧
      ((newRateLimiter rps start).calls calls).1.lastRefill ∈ start :: calls := by
  induction calls using List.reverseRecOn with
  | nil => exact ⟨follows_new h start, List.mem_cons_self⟩
  | append_singleton calls t ih =>
    rw [← List.cons_append] at hsorted ⊢
    obtain ⟨hbefore, -, hlast⟩ := List.pairwise_append.mp hsorted
    obtain ⟨hfollows, hrefill⟩ := ih hbefore
    simp only [RateLimiter.calls, List.foldl_append, List.foldl_cons, List.foldl_nil]
    refine ⟨hfollows.allow (hlast _ hrefill t List.mem_cons_self), ?_⟩
    rw [allow_snd]
    exact List.mem_append_right _ List.mem_cons_self

end RateLimiter

/-- After any calls with clock readings that do not go back, a call is admitted exactly if for
every time since the limiter was made the calls admitted from then on, this one included, are at
most the burst and what has flowed in. -/
theorem limiter_exact {rps : Int} (hrps : 1 ≤ rps) {start t : ℚ} {calls : List ℚ}
    (hsorted : (start :: calls ++ [t]).Pairwise (· ≤ ·)) :
    (((newRateLimiter rps start).calls calls).1.allow t).1 = true ↔
      ∀ a, start ≤ a → a ≤ t →
        (TokenBucket.passed a t ((newRateLimiter rps start).calls calls).2 : ℚ) + 1 ≤ rps + rps * (t - a) := by
  obtain ⟨hbefore, -, hlast⟩ := List.pairwise_append.mp hsorted
  obtain ⟨h, hrefill⟩ := RateLimiter.follows_calls hrps hbefore
  have htake := congrArg Prod.fst (RateLimiter.bucket_allow ((newRateLimiter rps start).calls calls).1 t)
  rw [show (((newRateLimiter rps start).calls calls).1.allow t).1 = _ from htake,
    TokenBucket.token_iff h.within h.drained (hlast _ hrefill t List.mem_cons_self)]
  simp only [RateLimiter.bucket, h.maxTokens, h.refillRate, mul_comm]

/-- The limiter of two requests in a second refuses the third at once. -/
theorem limiter_exact_burst :
    (((newRateLimiter 2 0).calls [0, 0]).1.allow 0).1 = false ∧
    ((((newRateLimiter 2 0).calls [0, 0]).1.allow 0).1 = true ↔ ∀ a : ℚ, 0 ≤ a → a ≤ 0 →
      (TokenBucket.passed a 0 ((newRateLimiter 2 0).calls [0, 0]).2 : ℚ) + 1 ≤ (2 : Int) + (2 : Int) * (0 - a)) :=
  ⟨by decide +kernel, limiter_exact (by decide) (by simp)⟩

end EdgeFabric.CdnServer
