/-
An origin may forbid that its response is used again, with `no-store` or `no-cache` on
any of its `Cache-Control` lines. The cache looks at the first line only, so a response
that forbids it on another line is stored and served again (`directive_overlooked`).

Where a response that has the directive at all has it on its first line, no such response
is stored, and every hit is a copy of one that was (`directives_respected`).
-/
import EdgeFabric.CdnServer.Entries

namespace EdgeFabric.CdnServer
open Text (bytes)

/-- A line with one of the directives that forbid reuse. Directives are separated by commas, a
value follows an equals sign, and letter case does not matter. -/
def Forbids (line : Bytes) : Bool :=
  (line.splitOn 44).any fun part => token (part.takeWhile (· ≠ 61)) ∈ [bytes "no-store", bytes "no-cache"]

def Response.forbidden (r : Response) : Bool := (r.headers.values cacheControl).any Forbids

/-- If some line forbids it, then the first does. -/
def Response.Forthright (r : Response) : Prop := r.forbidden = true → Forbids (r.headers.get cacheControl) = true

instance (r : Response) : Decidable r.Forthright := inferInstanceAs (Decidable (_ → _))

/-! ## Lines -/

theorem infix_of_mem_splitOn {d : UInt8} {l part : Bytes} (h : part ∈ l.splitOn d) : part <:+: l := by
  -- the first part is where the text starts
  have hparts : ∀ l : Bytes, ∀ first rest, l.splitOn d = first :: rest → first <+: l ∧ ∀ p ∈ rest, p <:+: l := by
    intro l
    induction l with
    | nil =>
      intro first rest hl
      obtain ⟨rfl, rfl⟩ := List.cons.inj hl
      exact ⟨List.prefix_refl _, fun p hp => absurd hp List.not_mem_nil⟩
    | cons b l ih =>
      intro first rest hl
      rw [List.splitOn_cons_eq_if_modifyHead] at hl
      cases hsplit : l.splitOn d with
      | nil => exact absurd hsplit (List.splitOn_ne_nil _ _)
      | cons first' rest' =>
        obtain ⟨hfirst, hrest⟩ := ih first' rest' hsplit
        have hsuffix : l <:+: b :: l := (List.suffix_cons b l).isInfix
        rw [hsplit] at hl
        split at hl
        · obtain ⟨rfl, rfl⟩ := List.cons.inj hl
          refine ⟨List.nil_prefix, fun p hp => ?_⟩
          rcases List.mem_cons.mp hp with rfl | hp
          · exact hfirst.isInfix.trans hsuffix
          · exact (hrest p hp).trans hsuffix
        · obtain ⟨rfl, rfl⟩ := List.cons.inj hl
          exact ⟨(List.prefix_cons_inj b).mpr hfirst, fun p hp => (hrest p hp).trans hsuffix⟩
  cases hl : l.splitOn d with
  | nil => exact absurd hl (List.splitOn_ne_nil _ _)
  | cons first rest =>
    obtain ⟨hfirst, hrest⟩ := hparts l first rest hl
    rw [hl] at h
    rcases List.mem_cons.mp h with rfl | h
    · exact hfirst.isInfix
    · exact hrest part h

theorem exists_infix_token (text : Bytes) : ∃ word, word <:+: text ∧ token text = word.map asciiLower := by
  have hend : ∀ (p : UInt8 → Bool) (l : Bytes), (l.reverse.dropWhile p).reverse <+: l := fun p l => by
    rw [← List.reverse_suffix, List.reverse_reverse]
    exact List.dropWhile_suffix p
  exact ⟨_, (hend _ _).isInfix.trans (List.dropWhile_suffix _).isInfix, rfl⟩

theorem lt_of_asciiLower_lt {b : UInt8} (h : asciiLower b < 128) : b < 128 := by
  unfold asciiLower at h
  grind

theorem contains_of_forbids (v : Platform) {line : Bytes} (h : Forbids line = true) :
    (contains (v.toLower line) (bytes "no-store") || contains (v.toLower line) (bytes "no-cache")) = true := by
  obtain ⟨part, hpart, htoken⟩ := List.any_eq_true.mp h
  obtain ⟨word, hword, hlower⟩ := exists_infix_token (part.takeWhile (· ≠ 61))
  have hline : word <:+: line :=
    (hword.trans (List.takeWhile_prefix _).isInfix).trans (infix_of_mem_splitOn hpart)
  obtain ⟨before, after, rfl⟩ := hline
  rw [hlower] at htoken
  have hwords : word.map asciiLower = bytes "no-store" ∨ word.map asciiLower = bytes "no-cache" := by
    simpa using htoken
  have hascii : ∀ x ∈ word, x < 128 := fun x hx => by
    have hmem := List.mem_map_of_mem (f := asciiLower) hx
    have hsmall : ∀ y ∈ word.map asciiLower, y < 128 := by
      rcases hwords with hw | hw
      · rw [hw]
        decide +kernel
      · rw [hw]
        decide +kernel
    exact lt_of_asciiLower_lt (hsmall _ hmem)
  obtain ⟨before', after', hlowered⟩ := v.toLower_ascii before word after hascii
  rw [hlowered, Bool.or_eq_true, contains_iff, contains_iff]
  exact hwords.imp (fun hw => ⟨before', after', by rw [hw]⟩) fun hw => ⟨before', after', by rw [hw]⟩

theorem Response.Forthright.not_forbidden {v : Platform} {r : Response} (h : r.Forthright)
    (hok : cacheable v r = true) : r.forbidden = false := by
  by_contra hforbidden
  have hfirst : Forbids (r.headers.get cacheControl) = true := h (by simpa using hforbidden)
  have hne : r.headers.get cacheControl ≠ [] := fun hnil => by
    rw [hnil] at hfirst
    exact absurd hfirst (by decide)
  have hskip : shouldSkipCache v r.headers = true := by
    unfold shouldSkipCache
    dsimp only
    rw [if_neg hne]
    exact contains_of_forbids v hfirst
  rw [cacheable, hskip] at hok
  cases hok

/-! ## Runs -/

def Ruleless (lib : ProxyLib) (site : CDNSite) : Prop := (site.headerRules.bind lib.headerRules).getD [] = []

def NodeMove.Ruleless (lib : ProxyLib) (siteID : ID) : NodeMove → Prop
  | .reconcile config _ => ∀ swo ∈ config, swo.site.id = siteID → CdnServer.Ruleless lib swo.site
  | _ => True

def NodeMove.Forthright : NodeMove → Prop
  | .request _ x => ∀ origin answer, x.fetch origin = .whole answer → answer.Forthright
  | _ => True

/-- What the site has stored did not forbid it, and hits are copies of that. -/
structure Respected (v : Platform) (siteID : ID) (log : List NodeEvent) : Prop where
  stored : ∀ ev ∈ log, ∀ answer resp, ev.Stores siteID answer resp → answer.forbidden = false
  hits : HitsStem v siteID (fun _ => True) log

/-- Along a run, with what the caches hold. -/
structure NodeRun.Respects (lib : ProxyLib) (siteID : ID) (s : NodeRun) : Prop where
  holds : s.node.Holds lib.toPlatform (fun _ _ => True) (Stem lib.toPlatform siteID s.log)
  ruleless : ∀ sr ∈ s.node.proxy.runtimes, sr.site.id = siteID → sr.headerRules = []
  log : Respected lib.toPlatform siteID s.log

section
variable {lib : ProxyLib} {siteID : ID} {s s' : NodeRun} {m : NodeMove}

theorem NodeRun.Steps.stored {ev : NodeEvent} {answer resp : Response} (hsteps : s.Steps lib m s')
    (hlog : s'.log = ev :: s.log) (hstores : ev.Stores siteID answer resp) :
    ∃ r x, m = .request r x ∧ ∃ sr ∈ s.node.proxy.runtimes, sr.site.id = siteID ∧
      (∃ origin, x.fetch origin = .whole answer) ∧
      resp = { answer with headers := applyHeaderRules lib sr.headerRules answer.headers } ∧
      cacheable lib.toPlatform resp = true := by
  obtain ⟨i, r', origin, reply, time, rfl⟩ := hstores
  cases hsteps with
  | @request r x place outcome n hserve =>
    have hev := (List.cons.inj hlog).1
    cases place with
    | none => cases hev
    | some spot =>
      obtain ⟨rfl, rfl, -, rfl, -⟩ := NodeEvent.served.inj hev
      obtain ⟨sr, hsr, hid, hfetch, hresp, hok, -⟩ := Node.serveHTTP_stored hserve
      exact ⟨r, x, rfl, sr, hsr, hid, ⟨origin, hfetch⟩, hresp, hok⟩
  | probe hprobe => cases (List.cons.inj hlog).1
  | advance => exact absurd hlog.symm (List.cons_ne_self _ _)
  | purge => exact absurd hlog.symm (List.cons_ne_self _ _)
  | reconcile => cases (List.cons.inj hlog).1
  | refused => exact absurd hlog.symm (List.cons_ne_self _ _)

theorem NodeRun.Respects.step (hs : s.Respects lib siteID) (hruleless : m.Ruleless lib siteID)
    (hforthright : m.Forthright) (hstep : s.step lib m = some s') : s'.Respects lib siteID := by
  have hsteps := NodeRun.step_inv hstep
  obtain ⟨new, hlog, hholds, hhit⟩ := hsteps.stems hs.holds fun _ _ _ => trivial
  refine ⟨hlog ▸ hholds, fun sr' hsr' hid => ?_, ?_⟩
  · rcases hsteps.runtime hsr' with ⟨sr, hsr, hsite, hrules⟩ | ⟨config, choice, rfl, swo, hswo, rfl⟩
    · rw [hrules]
      exact hs.ruleless sr hsr (by rw [← hsite]; exact hid)
    · exact hruleless swo hswo hid
  · rw [hlog]
    cases new with
    | none => exact hs.log
    | some ev =>
      refine ⟨fun ev' hev' answer resp hstores => ?_, hs.log.hits.cons fun i r e time hev _ => ?_⟩
      · rcases List.mem_cons.mp hev' with rfl | hev'
        · obtain ⟨r, x, rfl, sr, hsr, hid, ⟨origin, hfetch⟩, hresp, hok⟩ := hsteps.stored hlog hstores
          rw [hs.ruleless sr hsr hid] at hresp
          have hsame : resp = answer := hresp
          exact (hforthright origin answer hfetch).not_forbidden (hsame ▸ hok)
        · exact hs.log.stored ev' hev' answer resp hstores
      · exact hhit i r e time (congrArg some hev)

end

/-- In every run of a node in which the site stays without header rules and every response that
forbids reuse does so on its first line, no response that forbids it is stored for the site,
and every hit is a copy of a response that was stored. -/
theorem directives_respected (lib : ProxyLib) (siteID : ID) (start n : Node)
    (config : List CDNService.SiteWithOrigins) (choice : ReconcileChoice)
    (hstart : start.reconcile lib config choice = .ok n) (hempty : start.dirs siteID = ∅) (moves : List NodeMove)
    (s : NodeRun) (hruleless : ∀ m ∈ .reconcile config choice :: moves, m.Ruleless lib siteID)
    (hforthright : ∀ m ∈ moves, m.Forthright)
    (hrun : Machine.run (NodeRun.step lib) moves { node := n, log := [] } = some s) :
    Respected lib.toPlatform siteID s.log := by
  have hfirst : NodeRun.Respects lib siteID { node := n, log := [] } := by
    refine ⟨Node.Holds.reconcile (fun id f hf _ _ _ _ _ _ hid => ?_) (fun _ _ => trivial) (fun _ _ _ _ _ _ => trivial)
      hstart, fun sr hsr hid => ?_, fun ev hev => absurd hev List.not_mem_nil, .nil⟩
    · rw [hid, hempty] at hf
      exact absurd hf Table.not_mem_empty
    · rw [(Node.reconcile_ok hstart).1] at hsr
      obtain ⟨swo, hswo, rfl⟩ := List.mem_map.mp hsr
      exact hruleless _ List.mem_cons_self swo hswo hid
  have hall : Machine.Along (NodeRun.step lib) (fun m _ => m.Ruleless lib siteID ∧ m.Forthright) moves
      { node := n, log := [] } :=
    Machine.Along.of_mem fun m hm => ⟨hruleless m (List.mem_cons_of_mem _ hm), hforthright m hm⟩
  exact (Machine.run_invariant (fun m s s' hs hm hstep => NodeRun.Respects.step hs hm.1 hm.2 hstep) hfirst
    hall hrun).log

namespace Sample

theorem caching_ruleless : (NodeMove.reconcile caching reconcileChoice).Ruleless .plain 60 :=
  fun swo hswo _ => by
    cases List.mem_singleton.mp hswo
    rfl

/-- A page with these `Cache-Control` lines. -/
def controlled (lines : List String) : Response :=
  { page 1 with headers := .ofList [(cacheControl, lines.map bytes)] }

def reused (answer : Response) : List NodeEvent :=
  [.served 0 60 (request "/" "") (.hit (entry answer)) 0,
    .served 0 60 (request "/" "") (.proxied origin answer (deliver .plain site (request "/" "") answer)
      (some answer)) 0]

end Sample

theorem directives_respected_twoLines :
    ∃ s, Machine.run (NodeRun.step .plain) [Sample.get (Sample.controlled ["max-age=60", "public"]),
          Sample.get (Sample.controlled ["Max-Age=0, No-Store"])]
        { node := Sample.configured "" (fun _ => ∅) Sample.caching, log := [] } = some s ∧
      s.log = Sample.reused (Sample.controlled ["max-age=60", "public"]) ∧ Respected .plain 60 s.log := by
  have hrun : Sample.cachingLog [Sample.get (Sample.controlled ["max-age=60", "public"]),
      Sample.get (Sample.controlled ["Max-Age=0, No-Store"])] =
        some (Sample.reused (Sample.controlled ["max-age=60", "public"])) := by decide +kernel
  obtain ⟨s, hs, hlog⟩ := Option.map_eq_some_iff.mp hrun
  refine ⟨s, hs, hlog, directives_respected .plain 60 _ _ Sample.caching Sample.reconcileChoice
    (Sample.reconcile_configured _ _ _) rfl _ s (fun m hm => ?_) (fun m hm => ?_) hs⟩
  · simp only [List.mem_cons, List.not_mem_nil, or_false] at hm
    rcases hm with rfl | rfl | rfl
    · exact Sample.caching_ruleless
    · trivial
    · trivial
  · simp only [List.mem_cons, List.not_mem_nil, or_false] at hm
    rcases hm with rfl | rfl
    · intro origin answer hanswer
      cases hanswer
      decide
    · intro origin answer hanswer
      cases hanswer
      decide

/-- `no-store` on a second line: the response is stored and served again. -/
theorem directive_overlooked :
    (∀ m ∈ .reconcile Sample.caching Sample.reconcileChoice ::
        List.replicate 2 (Sample.get (Sample.controlled ["max-age=60", "no-store"])), m.Ruleless .plain 60) ∧
    ∃ s, Machine.run (NodeRun.step .plain) (List.replicate 2
      (Sample.get (Sample.controlled ["max-age=60", "no-store"])))
        { node := Sample.configured "" (fun _ => ∅) Sample.caching, log := [] } = some s ∧
      s.log = Sample.reused (Sample.controlled ["max-age=60", "no-store"]) ∧
      (Sample.controlled ["max-age=60", "no-store"]).forbidden = true ∧ ¬ Respected .plain 60 s.log := by
  have hrun : Sample.cachingLog (List.replicate 2 (Sample.get (Sample.controlled ["max-age=60", "no-store"]))) =
      some (Sample.reused (Sample.controlled ["max-age=60", "no-store"])) := by decide +kernel
  obtain ⟨s, hs, hlog⟩ := Option.map_eq_some_iff.mp hrun
  have hforbidden : (Sample.controlled ["max-age=60", "no-store"]).forbidden = true := by decide
  refine ⟨fun m hm => ?_, s, hs, hlog, hforbidden, fun h => ?_⟩
  · rcases List.mem_cons.mp hm with rfl | hm
    · exact Sample.caching_ruleless
    · obtain rfl := List.eq_of_mem_replicate hm
      trivial
  · rw [hlog] at h
    have hnot := h.stored _ (List.mem_cons_of_mem _ List.mem_cons_self) _ _ ⟨_, _, _, _, _, rfl⟩
    rw [hforbidden] at hnot
    cases hnot

end EdgeFabric.CdnServer
