/-
What a node has learnt about its origins and its clients, and what a reconciliation
leaves of it.

`Reconcile` builds every runtime anew, also for a configuration that has not changed:
the failures of an origin are forgotten and the token bucket is full again. So an
origin whose last three probes have failed may be selected, and a client may pass the
rate limit again at once (`reconcile_forgets`). Where a reconciliation comes when no
origin has failed since its last success and every bucket would be full, nothing is
lost by it (`reconcile_keeps_evidence`).
-/
import EdgeFabric.CdnServer.Proxy

namespace EdgeFabric.CdnServer

def probes (i j : Nat) (log : List NodeEvent) : List Bool :=
  log.filterMap fun
    | .probed i' j' ok => if i' = i ∧ j' = j then some ok else none
    | _ => none

def admissions (i : Nat) (log : List NodeEvent) : List ℚ :=
  log.filterMap fun
    | .served i' _ _ outcome time => if i' = i ∧ outcome.admitted then some time else none
    | _ => none

/-- An origin that is selected has a place in which its last three probes have not all failed. -/
def SelectsLive (s : NodeRun) : Prop :=
  ∀ i sr, s.node.proxy.runtimes[i]? = some sr → ∀ draw o, selectOrigin draw sr.candidates = some o →
    ∃ j, sr.origins[j]? = some o ∧ ¬ [false, false, false] <+: probes i j s.log

/-- In every window of `t` seconds, no more than `r + r * t` requests were admitted to a site with
the limit `r`. -/
def WithinLimits (config : List CDNService.SiteWithOrigins) (s : NodeRun) : Prop :=
  ∀ i swo (r : Int), config[i]? = some swo → swo.site.rateLimitRPS = some r → 0 < r → ∀ a t : ℚ, 0 ≤ t →
    (TokenBucket.passed a (a + t) (admissions i s.log) : ℚ) ≤ r + r * t

/-- The reconciliations of the run are with this configuration. -/
def NodeMove.Of (config : List CDNService.SiteWithOrigins) : NodeMove → Prop
  | .reconcile config' _ => config' = config
  | _ => True

/-- Nothing is there to be lost: no origin has failed since its last success, and every bucket
would be full by now. -/
def SiteRuntime.Clean (now : ℚ) (sr : SiteRuntime) : Prop :=
  (∀ oh ∈ sr.healthChecker.getD [], oh.consecutiveFail = 0) ∧
    ∀ rl ∈ sr.rateLimiter, rl.maxTokens ≤ rl.tokens + (now - rl.lastRefill) * rl.refillRate

instance (now : ℚ) (sr : SiteRuntime) : Decidable (sr.Clean now) := by
  unfold SiteRuntime.Clean
  infer_instance

def NodeMove.Clean (m : NodeMove) (s : NodeRun) : Prop :=
  match m with
  | .reconcile _ _ => ∀ sr ∈ s.node.proxy.runtimes, sr.Clean s.node.now
  | _ => True

instance (m : NodeMove) (s : NodeRun) : Decidable (m.Clean s) := by
  unfold NodeMove.Clean
  cases m <;> infer_instance

/-- The counters of a site are those of the run. -/
structure SiteRuntime.Knows (swo : CDNService.SiteWithOrigins) (now : ℚ) (history : Nat → List Bool) (times : List ℚ)
    (sr : SiteRuntime) : Prop where
  origins : sr.origins = swo.origins
  checker : match sr.healthChecker with
    | none => sr.origins = []
    | some hc => hc.map OriginHealth.origin = sr.origins ∧
      ∀ j (oh : OriginHealth), hc[j]? = some oh → oh.Records (history j)
  limiter : ∀ r, swo.site.rateLimitRPS = some r → 0 < r → ∃ rl, sr.rateLimiter = some rl ∧ rl.maxTokens = r ∧
    rl.refillRate = r ∧ rl.lastRefill ≤ now ∧ rl.bucket.Within times

structure NodeRun.Knows (config : List CDNService.SiteWithOrigins) (s : NodeRun) : Prop where
  length : s.node.proxy.runtimes.length = config.length
  site : ∀ i swo (sr : SiteRuntime), config[i]? = some swo → s.node.proxy.runtimes[i]? = some sr →
    sr.Knows swo s.node.now (fun j => probes i j s.log) (admissions i s.log)

section
variable {lib : ProxyLib} {config : List CDNService.SiteWithOrigins} {swo : CDNService.SiteWithOrigins} {now : ℚ}
  {history : Nat → List Bool} {times : List ℚ} {sr sr' : SiteRuntime} {s s' : NodeRun}

theorem three_failures {h : List Bool} (hfails : [false, false, false] <+: h) :
    unhealthyThreshold ≤ failuresInARow h := by
  obtain ⟨rest, rfl⟩ := hfails
  show 3 ≤ (rest.takeWhile (!·)).length + 3
  omega

theorem SiteRuntime.Knows.selects (h : sr.Knows swo now history times) {draw : Nat} {o : CDNOrigin}
    (hselect : selectOrigin draw sr.candidates = some o) :
    ∃ j, sr.origins[j]? = some o ∧ ¬ [false, false, false] <+: history j := by
  have hmem := mem_of_selectOrigin hselect
  have hchecker := h.checker
  unfold SiteRuntime.candidates at hmem
  cases hc : sr.healthChecker with
  | none =>
    rw [hc] at hchecker hmem
    rw [hchecker] at hmem
    exact absurd hmem List.not_mem_nil
  | some checker =>
    rw [hc] at hchecker hmem
    obtain ⟨horigins, hrecords⟩ := hchecker
    obtain ⟨oh, hoh, rfl⟩ := List.mem_map.mp hmem
    obtain ⟨hoh, hhealthy⟩ := List.mem_filter.mp hoh
    obtain ⟨j, hj⟩ := List.mem_iff_getElem?.mp hoh
    refine ⟨j, by rw [← horigins, List.getElem?_map, hj]; rfl, fun hfails => ?_⟩
    have hverdict := (hrecords j oh hj).verdict
    rw [hhealthy] at hverdict
    have hfew : failuresInARow (history j) < unhealthyThreshold := of_decide_eq_true hverdict.symm
    exact absurd (three_failures hfails) (not_le.mpr hfew)

theorem SiteRuntime.Knows.later (h : sr.Knows swo now history times) {now' : ℚ} (hnow : now ≤ now') :
    sr.Knows swo now' history times := by
  refine ⟨h.origins, h.checker, fun r hr hpos => ?_⟩
  obtain ⟨rl, hrl, hmax, hrate, hlast, hwithin⟩ := h.limiter r hr hpos
  exact ⟨rl, hrl, hmax, hrate, hlast.trans hnow, hwithin⟩

theorem SiteRuntime.Knows.serve {r : Request} {x : Exchange} {outcome : Outcome} {st st' : SiteState}
    (h : st.runtime.Knows swo now history times) (hserves : st.Serves lib r x now outcome st') :
    st'.runtime.Knows swo now history (if outcome.admitted then now :: times else times) := by
  obtain ⟨hcached, hadmitted⟩ := hserves.recached
  rw [SiteState.allow_runtime] at hcached
  rw [hcached, hadmitted]
  refine ⟨h.origins, h.checker, fun limit hlimit hpos => ?_⟩
  obtain ⟨rl, hrl, hmax, hrate, hlast, hwithin⟩ := h.limiter limit hlimit hpos
  have htake := hwithin.take hlast
  rw [← RateLimiter.bucket_allow, ← SiteState.allow_fst hrl] at htake
  refine ⟨(rl.allow now).2, by rw [hrl]; rfl, ?_, ?_, ?_, htake⟩
  · rw [RateLimiter.allow_snd, ← hmax]
  · rw [RateLimiter.allow_snd, ← hrate]
  · rw [RateLimiter.allow_snd]

theorem map_set_of_eq {α β : Type} {f : α → β} {l : List α} {j : Nat} {a b : α} (h : l[j]? = some b) (hf : f a = f b) :
    (l.set j a).map f = l.map f := by
  induction l generalizing j with
  | nil => rfl
  | cons c l ih =>
    cases j with
    | zero =>
      obtain rfl : c = b := by simpa using h
      simp [hf]
    | succ j => simp [ih (by simpa using h)]

theorem SiteRuntime.Knows.probe {hc : HealthChecker} {j : Nat} {oh : OriginHealth}
    (h : sr.Knows swo now history times) (hhc : sr.healthChecker = some hc) (hoh : hc[j]? = some oh) (ok : Bool) :
    { sr with healthChecker := some (hc.set j (oh.markResult ok)) }.Knows swo now
      (fun j' => if j = j' then ok :: history j' else history j') times := by
  have hchecker := h.checker
  rw [hhc] at hchecker
  obtain ⟨horigins, hrecords⟩ := hchecker
  have hsame : (oh.markResult ok).origin = oh.origin := by
    unfold OriginHealth.markResult
    split <;> rfl
  refine ⟨h.origins, ⟨?_, fun j' oh' hj' => ?_⟩, h.limiter⟩
  · exact (map_set_of_eq hoh hsame).trans horigins
  · rw [List.getElem?_set] at hj'
    by_cases hj : j = j'
    · subst hj
      rw [if_pos rfl] at hj' ⊢
      split at hj'
      · cases hj'
        exact (hrecords j oh hoh).markResult ok
      · cases hj'
    · rw [if_neg hj] at hj' ⊢
      exact hrecords j' oh' hj'

theorem newSiteRuntime_knows (cfg : CacheConfig) (choice : ReconcileChoice) (dirs : ID → Dir)
    (hhistory : ∀ j < swo.origins.length, failuresInARow (history j) = 0)
    (htimes : ∀ r : Int, swo.site.rateLimitRPS = some r → 0 < r → (TokenBucket.full (r : ℚ) r now).Within times) :
    (newSiteRuntime lib cfg choice dirs now swo).Knows swo now history times := by
  refine ⟨rfl, ?_, fun r hr hpos => ?_⟩
  · unfold newSiteRuntime
    by_cases hnone : swo.origins = []
    · simp only [if_pos hnone]
      exact hnone
    · simp only [if_neg hnone]
      refine ⟨by rw [newHealthChecker, List.map_map]; exact List.map_id _, fun j oh hj => ?_⟩
      rw [newHealthChecker, List.getElem?_map] at hj
      obtain ⟨o, ho, rfl⟩ := Option.map_eq_some_iff.mp hj
      have hnofail := hhistory j (List.getElem?_eq_some_iff.mp ho).1
      exact ⟨hnofail.symm, by rw [hnofail]; rfl⟩
  · refine ⟨newRateLimiter r now, ?_, rfl, rfl, le_rfl, htimes r hr hpos⟩
    simp [newSiteRuntime, hr, hpos]

theorem NodeRun.Knows.set (hs : s.Knows config) {i : Nat} {n : Node} {log : List NodeEvent}
    (hruntimes : n.proxy.runtimes = s.node.proxy.runtimes.set i sr') (hnow : n.now = s.node.now)
    (hsite : ∀ swo sr, config[i]? = some swo → s.node.proxy.runtimes[i]? = some sr →
      sr'.Knows swo s.node.now (fun j => probes i j log) (admissions i log))
    (hother : ∀ i', i ≠ i' → (∀ j, probes i' j log = probes i' j s.log) ∧ admissions i' log = admissions i' s.log) :
    NodeRun.Knows config { node := n, log } := by
  refine ⟨by simp only [hruntimes, List.length_set, hs.length], fun i' swo sr hswo hsr => ?_⟩
  simp only [hruntimes, List.getElem?_set] at hsr
  rw [hnow]
  by_cases hi : i = i'
  · subst hi
    rw [if_pos rfl] at hsr
    split at hsr
    · next hlt =>
      cases hsr
      exact hsite swo _ hswo (List.getElem?_eq_getElem hlt)
    · cases hsr
  · rw [if_neg hi] at hsr
    obtain ⟨hprobes, hadmissions⟩ := hother i' hi
    simp only [hprobes, hadmissions]
    exact hs.site i' swo sr hswo hsr

theorem NodeRun.Knows.request {r : Request} {x : Exchange} {place : Option (Nat × ID)} {outcome : Outcome} {n : Node}
    (hs : s.Knows config) (hserve : s.node.serveHTTP lib r x = some (place, outcome, n)) :
    NodeRun.Knows config { node := n, log := logged place r outcome s.node.now :: s.log } := by
  rcases Node.serveHTTP_inv hserve with ⟨rfl, rfl, rfl⟩ | ⟨i, st, st', rfl, hsite, hserves, rfl⟩
  · exact ⟨hs.length, hs.site⟩
  · obtain ⟨hsr, -⟩ := Node.site_eq hsite
    refine hs.set rfl rfl (fun swo sr hswo hsr' => ?_) fun i' hi => ⟨fun _ => rfl, ?_⟩
    · cases hsr.symm.trans hsr'
      have hknows := (hs.site i swo st.runtime hswo hsr).serve hserves
      cases hadmitted : outcome.admitted <;> simpa [admissions, probes, logged, hadmitted] using hknows
    · simp [admissions, logged, hi]

theorem NodeRun.Knows.probe {i j : Nat} {get : String → Option Int} {ok : Bool} {n : Node} (hs : s.Knows config)
    (hprobe : s.node.probe i j get = some (ok, n)) :
    NodeRun.Knows config { node := n, log := .probed i j ok :: s.log } := by
  obtain ⟨sr, hc, oh, hsr, hhc, hoh, rfl⟩ := Node.probe_inv hprobe
  refine hs.set rfl rfl (fun swo sr' hswo hsr' => ?_) fun i' hi => ⟨fun j' => ?_, rfl⟩
  · cases hsr.symm.trans hsr'
    have hknows := (hs.site i swo sr hswo hsr).probe hhc hoh ok
    have hprobes : (fun j' => probes i j' (.probed i j ok :: s.log)) =
        fun j' => if j = j' then ok :: probes i j' s.log else probes i j' s.log := by
      funext j'
      by_cases hj : j = j' <;> simp [probes, hj]
    rw [hprobes]
    exact hknows
  · simp [probes, hi]

theorem NodeRun.Knows.reconcile {choice : ReconcileChoice} {n : Node} (hs : s.Knows config)
    (hclean : ∀ sr ∈ s.node.proxy.runtimes, sr.Clean s.node.now)
    (hreconcile : s.node.reconcile lib config choice = .ok n) :
    NodeRun.Knows config { node := n, log := .reconciled :: s.log } := by
  obtain ⟨hruntimes, -, hnow, -⟩ := Node.reconcile_ok hreconcile
  refine ⟨by simp [hruntimes], fun i swo sr hswo hsr => ?_⟩
  simp only [hruntimes, List.getElem?_map, hswo, Option.map_some, Option.some.injEq] at hsr
  rw [← hsr, hnow]
  -- the runtime that was there
  have hlt : i < s.node.proxy.runtimes.length := by
    rw [hs.length]
    exact (List.getElem?_eq_some_iff.mp hswo).1
  obtain ⟨old, hold⟩ : ∃ old, s.node.proxy.runtimes[i]? = some old := ⟨_, List.getElem?_eq_getElem hlt⟩
  have hknows := hs.site i swo old hswo hold
  obtain ⟨hfails, hfull⟩ := hclean old (List.mem_of_getElem? hold)
  refine newSiteRuntime_knows _ _ _ (fun j hj => ?_) fun r hr hpos => ?_
  · have hchecker := hknows.checker
    rw [hknows.origins] at hchecker
    cases hc : old.healthChecker with
    | none =>
      rw [hc] at hchecker
      rw [hchecker] at hj
      exact absurd hj (Nat.not_lt_zero j)
    | some checker =>
      rw [hc] at hchecker hfails
      obtain ⟨horigins, hrecords⟩ := hchecker
      have hlen : j < checker.length := by
        rw [← horigins, List.length_map] at hj
        exact hj
      have hrec := hrecords j _ (List.getElem?_eq_getElem hlen)
      exact hrec.fails.symm.trans (hfails _ (List.getElem_mem hlen))
  · obtain ⟨rl, hrl, hmax, hrate, hlast, hwithin⟩ := hknows.limiter r hr hpos
    have hfill := hwithin.fill hlast
    have hbucket : rl.bucket.fill s.node.now = .full (r : ℚ) r s.node.now := by
      have hover := hfull rl hrl
      rw [hmax, hrate] at hover
      simp only [TokenBucket.fill, TokenBucket.full, RateLimiter.bucket, min_eq_left hover, hmax, hrate]
    rw [hbucket] at hfill
    exact hfill

theorem NodeRun.Knows.move {m : NodeMove} (hs : s.Knows config) (hof : m.Of config) (hclean : m.Clean s)
    (hstep : s.step lib m = some s') : s'.Knows config := by
  cases NodeRun.step_inv hstep with
  | request hserve => exact hs.request hserve
  | probe hprobe => exact hs.probe hprobe
  | advance hd =>
    exact ⟨hs.length, fun i swo sr hswo hsr => (hs.site i swo sr hswo hsr).later (le_add_of_nonneg_right hd)⟩
  | purge hpurge =>
    rcases Node.purgeCache_ok hpurge with rfl | ⟨i, st, b, hsite, -, rfl⟩
    · exact hs
    · obtain ⟨hsr, -⟩ := Node.site_eq hsite
      refine hs.set rfl rfl (fun swo sr hswo hsr' => ?_) fun _ _ => ⟨fun _ => rfl, rfl⟩
      cases hsr.symm.trans hsr'
      have hknows := hs.site i swo st.runtime hswo hsr
      exact ⟨hknows.origins, hknows.checker, hknows.limiter⟩
  | reconcile hreconcile =>
    cases hof
    exact hs.reconcile hclean hreconcile
  | refused => exact hs

end

/-- In every run on one configuration in which a reconciliation comes only when no origin has failed
since its last success and every token bucket would be full, no origin is selected whose last
three probes have failed, and every site keeps to its rate limit. -/
theorem reconcile_keeps_evidence (lib : ProxyLib) (config : List CDNService.SiteWithOrigins) (start n : Node)
    (choice : ReconcileChoice) (hstart : start.reconcile lib config choice = .ok n) (moves : List NodeMove)
    (s : NodeRun) (hof : ∀ m ∈ moves, m.Of config)
    (hclean : Machine.Along (NodeRun.step lib) NodeMove.Clean moves { node := n, log := [] })
    (hrun : Machine.run (NodeRun.step lib) moves { node := n, log := [] } = some s) :
    SelectsLive s ∧ WithinLimits config s := by
  have hfirst : NodeRun.Knows config { node := n, log := [] } := by
    obtain ⟨hruntimes, -, hnow, -⟩ := Node.reconcile_ok hstart
    refine ⟨by simp [hruntimes], fun i swo sr hswo hsr => ?_⟩
    simp only [hruntimes, List.getElem?_map, hswo, Option.map_some, Option.some.injEq] at hsr
    rw [← hsr, hnow]
    refine newSiteRuntime_knows _ _ _ (fun _ _ => rfl) fun r _ hpos => ?_
    have hr : (0 : ℚ) ≤ r := by exact_mod_cast hpos.le
    exact TokenBucket.Within.full hr hr _
  have hall : Machine.Along (NodeRun.step lib) (fun m s => m.Of config ∧ m.Clean s) moves { node := n, log := [] } :=
    Machine.Along.and (.of_mem hof) hclean
  have hknows := Machine.run_invariant (fun m s s' hs hm hstep => NodeRun.Knows.move hs hm.1 hm.2 hstep)
    hfirst hall hrun
  constructor
  · intro i sr hsr draw o hselect
    have hlt : i < config.length := by
      rw [← hknows.length]
      exact (List.getElem?_eq_some_iff.mp hsr).1
    exact (hknows.site i _ sr (List.getElem?_eq_getElem hlt) hsr).selects hselect
  · intro i swo r hswo hr hpos a t ht
    have hlt : i < s.node.proxy.runtimes.length := by
      rw [hknows.length]
      exact (List.getElem?_eq_some_iff.mp hswo).1
    obtain ⟨rl, -, hmax, hrate, -, hwithin⟩ :=
      (hknows.site i swo _ hswo (List.getElem?_eq_getElem hlt)).limiter r hr hpos
    have hwindow : _ ≤ rl.maxTokens + t * rl.refillRate := hwithin.window a t ht
    rw [hmax, hrate, mul_comm] at hwindow
    exact hwindow

namespace Sample

def limited : List CDNService.SiteWithOrigins :=
  [{ site := { site with rateLimitRPS := some 1, cacheEnabled := false }, origins := [origin] }]

def asked : NodeMove := .request (request "/" "") (answering (page 1))

def probed (ok : Bool) : NodeMove := .probe 0 0 fun _ => if ok then some 200 else none

def reconciled : NodeMove := .reconcile limited reconcileChoice

def calm : List NodeMove := [probed true, asked, .advance 1, reconciled, asked]

def hasty : List NodeMove := [probed false, probed false, probed false, asked, reconciled, asked]

theorem moves_of (moves : List NodeMove) (h : moves ⊆ [probed true, probed false, asked, .advance 1, reconciled]) :
    ∀ m ∈ moves, m.Of limited := by
  intro m hm
  have hcases := h hm
  simp only [List.mem_cons, List.not_mem_nil, or_false] at hcases
  rcases hcases with rfl | rfl | rfl | rfl | rfl
  · trivial
  · trivial
  · trivial
  · trivial
  · rfl

def evidence (moves : List NodeMove) : Option (List Bool × List ℚ × Option (List CDNOrigin × List CDNOrigin)) :=
  (Machine.run (NodeRun.step .plain) moves { node := configured "" (fun _ => ∅) limited, log := [] }).map fun s =>
    (probes 0 0 s.log, admissions 0 s.log, s.node.proxy.runtimes[0]?.map fun sr => (sr.origins, sr.candidates))

end Sample

theorem reconcile_keeps_evidence_calm :
    ∃ s, Machine.run (NodeRun.step .plain) Sample.calm
        { node := Sample.configured "" (fun _ => ∅) Sample.limited, log := [] } = some s ∧
      admissions 0 s.log = [1, 0] ∧ SelectsLive s ∧ WithinLimits Sample.limited s := by
  have hrun : (Sample.evidence Sample.calm).map (fun found => found.2.1) = some [1, 0] := by decide +kernel
  cases hs : Machine.run (NodeRun.step .plain) Sample.calm
      { node := Sample.configured "" (fun _ => ∅) Sample.limited, log := [] } with
  | none => rw [Sample.evidence, hs] at hrun; cases hrun
  | some s =>
    rw [Sample.evidence, hs] at hrun
    exact ⟨s, rfl, Option.some.inj hrun, reconcile_keeps_evidence .plain Sample.limited _ _ Sample.reconcileChoice
      (Sample.reconcile_configured _ _ _) Sample.calm s (Sample.moves_of _ (by simp [Sample.calm]))
        (by decide +kernel) hs⟩

/-- An origin is selected though its last three probes have failed, and two requests are admitted
at once where one is the limit. -/
theorem reconcile_forgets :
    ∃ s, (∀ m ∈ Sample.hasty, m.Of Sample.limited) ∧
      Machine.run (NodeRun.step .plain) Sample.hasty
        { node := Sample.configured "" (fun _ => ∅) Sample.limited, log := [] } = some s ∧
      ¬ SelectsLive s ∧ ¬ WithinLimits Sample.limited s := by
  have hrun : Sample.evidence Sample.hasty =
      some ([false, false, false], [0, 0], some ([Sample.origin], [Sample.origin])) := by decide +kernel
  cases hs : Machine.run (NodeRun.step .plain) Sample.hasty
      { node := Sample.configured "" (fun _ => ∅) Sample.limited, log := [] } with
  | none => rw [Sample.evidence, hs] at hrun; cases hrun
  | some s =>
    rw [Sample.evidence, hs] at hrun
    simp only [Option.map_some, Option.some.injEq, Prod.mk.injEq] at hrun
    obtain ⟨hprobes, hadmissions, hsite⟩ := hrun
    refine ⟨s, Sample.moves_of _ (by simp [Sample.hasty]), rfl, fun hlive => ?_, fun hlimits => ?_⟩
    · obtain ⟨sr, hsr, horigins⟩ := Option.map_eq_some_iff.mp hsite
      obtain ⟨horigins, hcandidates⟩ := Prod.mk.inj horigins
      obtain ⟨j, hj, hnot⟩ := hlive 0 sr hsr 0 Sample.origin (by rw [hcandidates]; rfl)
      rw [horigins] at hj
      cases j with
      | zero => exact hnot (by rw [hprobes])
      | succ j => cases hj
    · have htwo := hlimits 0 _ 1 rfl rfl (by decide) 0 0 le_rfl
      rw [hadmissions] at htwo
      have hcount : TokenBucket.passed (0 : ℚ) (0 + 0) [0, 0] = 2 := by decide +kernel
      rw [hcount] at htwo
      norm_num at htwo

end EdgeFabric.CdnServer
