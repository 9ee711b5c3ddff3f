/-
Purging. An operator's purge of a site is accepted by the controller, which looks the
site up and does nothing else; it is the next `Reconcile` of each node that is meant to
empty the cache, since it builds all runtimes anew. The memory cache is gone then, but a
disk cache is set up again on the same directory and finds its files there, so what was
spilled to disk before the purge is served after it (`purge_ineffective`).

On nodes without a disk cache, and where a reconciliation after a purge finds no files of
the purged site, every later hit stems from what was stored since the purge
(`purge_takes_effect`).
-/
import EdgeFabric.CdnServer.Entries
import EdgeFabric.ConfigSync

namespace EdgeFabric.CdnServer
open Text (bytes)

/-- The controller and a node, with the purges that the controller has accepted and, for each,
what the node had logged by then. -/
structure Purging where
  controller : World
  run : NodeRun
  purges : List (ID × List NodeEvent)

inductive PurgeMove where
  /-- an operator has a site purged -/
  | purge (siteID : ID) (env : Env)
  /-- whatever else happens at the controller -/
  | controller (w : World)
  | node (m : NodeMove)

namespace Purging

def step (lib : ProxyLib) (m : PurgeMove) (s : Purging) : Option Purging :=
  match m with
  | .purge siteID env =>
    match (CDNService.purgeSiteCache siteID).1.exec env s.controller with
    | (.ok _, w) => some { s with controller := w, purges := (siteID, s.run.log) :: s.purges }
    | (.error _, w) => some { s with controller := w }
  | .controller w => some { s with controller := w }
  | .node m => (s.run.step lib m).map fun run => { s with run }

/-- The site was purged, and the node has not reconciled since. -/
def Pending (s : Purging) (siteID : ID) : Prop :=
  ∃ before, (siteID, before) ∈ s.purges ∧ ∃ since, s.run.log = since ++ before ∧ .reconciled ∉ since

/-- A reconciliation of a node with a disk cache finds no files of sites that were purged. -/
def Clear (m : PurgeMove) (s : Purging) : Prop :=
  match m with
  | .node (.reconcile _ _) =>
    s.run.node.proxy.cacheConfig.dir = "" ∨ ∀ siteID, s.Pending siteID → s.run.node.dirs siteID = ∅
  | _ => True

/-- After a purge and a reconciliation, hits of the site stem from what was stored since the
purge. -/
def Effective (v : Platform) (s : Purging) : Prop :=
  ∀ siteID before, (siteID, before) ∈ s.purges → ∀ newer i r e time mid,
    s.run.log = newer ++ .served i siteID r (.hit e) time :: (mid ++ before) → .reconciled ∈ mid →
      StemsFrom v mid siteID e

/-! ## One purge -/

/-- Since the purge: once the node has reconciled, the caches hold what was stored since the purge
only. Without a disk cache, files are not read. -/
structure Since (v : Platform) (cfg : CacheConfig) (siteID : ID) (n : Node) (since : List NodeEvent) : Prop where
  holds : .reconciled ∈ since → n.Holds v (fun _ _ => cfg.dir ≠ "") (Stem v siteID since)
  hits : HitsStem v siteID (.reconciled ∈ ·) since

section
variable {lib : ProxyLib} {cfg : CacheConfig} {siteID : ID} {s s' : NodeRun} {m : NodeMove} {since : List NodeEvent}

theorem Since.move (h : Since lib.toPlatform cfg siteID s.node since) (hcfg : s.node.proxy.cacheConfig = cfg)
    (hclear : .reconciled ∉ since → ∀ config choice, m = .reconcile config choice →
      cfg.dir = "" ∨ s.node.dirs siteID = ∅) (hsteps : s.Steps lib m s') :
    ∃ new : Option NodeEvent, s'.log = new.toList ++ s.log ∧
      Since lib.toPlatform cfg siteID s'.node (new.toList ++ since) := by
  by_cases hrec : .reconciled ∈ since
  · obtain ⟨new, hlog, hholds, hhit⟩ := hsteps.stems (h.holds hrec) fun hdisk _ _ => by rw [← hcfg]; exact hdisk
    refine ⟨new, hlog, fun _ => hholds, ?_⟩
    cases new with
    | none => exact h.hits
    | some ev => exact h.hits.cons fun i r e time hev _ => hhit i r e time (congrArg some hev)
  · obtain ⟨new, hlog, hnew⟩ := hsteps.log
    refine ⟨new, hlog, ?_⟩
    cases new with
    | none => exact ⟨fun hmem => absurd hmem hrec, h.hits⟩
    | some ev =>
      refine ⟨fun hmem => ?_, h.hits.cons fun i r e time _ hmem => absurd hmem hrec⟩
      obtain rfl : .reconciled = ev := (List.mem_cons.mp hmem).resolve_right hrec
      obtain ⟨config, choice, rfl, hreconcile⟩ := hnew rfl
      have hclear := hclear hrec config choice rfl
      refine Node.Holds.reconcile (fun id f hf key body m hdisk _ _ hid => ?_)
        (fun hdisk _ => by rw [← hcfg]; exact hdisk) (fun hdisk _ _ _ _ _ => by rw [← hcfg]; exact hdisk) hreconcile
      rw [hid, hclear.resolve_left hdisk] at hf
      exact absurd hf Table.not_mem_empty

end

/-! ## Runs -/

/-- Every purge is as `Since` says. -/
structure Sound (v : Platform) (cfg : CacheConfig) (s : Purging) : Prop where
  config : s.run.node.proxy.cacheConfig = cfg
  since : ∀ siteID before, (siteID, before) ∈ s.purges →
    ∃ since, s.run.log = since ++ before ∧ Since v cfg siteID s.run.node since

variable {lib : ProxyLib} {cfg : CacheConfig} {s s' : Purging} {m : PurgeMove}

theorem cacheConfig_step (hstep : s.step lib m = some s') :
    s'.run.node.proxy.cacheConfig = s.run.node.proxy.cacheConfig := by
  unfold Purging.step at hstep
  split at hstep
  · split at hstep <;> cases hstep <;> rfl
  · cases hstep
    rfl
  · obtain ⟨run, hrun, rfl⟩ := Option.map_eq_some_iff.mp hstep
    exact (NodeRun.step_inv hrun).proxy.1

theorem clear_of_memory {moves : List PurgeMove} (hdir : s.run.node.proxy.cacheConfig.dir = "") :
    Machine.Along (step lib) Clear moves s := by
  refine Machine.Along.of_invariant (I := fun s => s.run.node.proxy.cacheConfig.dir = "") (fun m s hdir => ?_)
    (fun m s s' hdir hstep => by rw [cacheConfig_step hstep]; exact hdir) hdir
  unfold Clear
  split
  · exact .inl hdir
  · trivial

theorem Sound.step (hs : s.Sound lib.toPlatform cfg) (hclear : Clear m s) (hstep : s.step lib m = some s') :
    s'.Sound lib.toPlatform cfg := by
  unfold Purging.step at hstep
  split at hstep
  · split at hstep
    · cases hstep
      refine ⟨hs.config, fun siteID before hmem => ?_⟩
      rcases List.mem_cons.mp hmem with heq | hmem
      · cases heq
        exact ⟨[], rfl, fun h => absurd h List.not_mem_nil, .nil⟩
      · exact hs.since siteID before hmem
    · cases hstep
      exact ⟨hs.config, hs.since⟩
  · cases hstep
    exact ⟨hs.config, hs.since⟩
  · next m =>
    obtain ⟨run, hrun, rfl⟩ := Option.map_eq_some_iff.mp hstep
    have hsteps := NodeRun.step_inv hrun
    refine ⟨hsteps.proxy.1.trans hs.config, fun siteID before hmem => ?_⟩
    obtain ⟨since, hlog, hsince⟩ := hs.since siteID before hmem
    have hfiles : .reconciled ∉ since → ∀ config choice, m = .reconcile config choice →
        cfg.dir = "" ∨ s.run.node.dirs siteID = ∅ := fun hrec config choice hm => by
      subst hm
      have hclear : s.run.node.proxy.cacheConfig.dir = "" ∨ _ := hclear
      rw [hs.config] at hclear
      exact hclear.imp_right fun hempty => hempty siteID ⟨before, hmem, since, hlog, hrec⟩
    obtain ⟨new, hlog', hsince'⟩ := hsince.move hs.config hfiles hsteps
    exact ⟨new.toList ++ since, by rw [hlog', hlog, List.append_assoc], hsince'⟩

theorem Sound.effective (hs : s.Sound lib.toPlatform cfg) : s.Effective lib.toPlatform := by
  intro siteID before hmem newer i r e time mid hlog hrec
  obtain ⟨since, hsince, hall⟩ := hs.since siteID before hmem
  have heq : since = newer ++ .served i siteID r (.hit e) time :: mid := by
    rw [hsince, ← List.cons_append, ← List.append_assoc] at hlog
    exact List.append_cancel_right hlog
  exact hall.hits newer mid i r e time heq hrec

end Purging

namespace Sample

def controller : World := { tick := 0, store := EdgeFabric.Sample.served }

def served : List CDNService.SiteWithOrigins :=
  [{ site := EdgeFabric.Sample.servedSite, origins := EdgeFabric.Sample.served.cdnOrigins.rows }]

def spilled : Dir :=
  (Disk.write .plain (entry (page 1)).key (page 1) 0 (entry (page 1)).ttl
    { cache := newDiskCache 1000 [], dir := ∅ }).dir

def stocked : Node := configured "/var/cache" (fun id => if id = 60 then spilled else ∅) served

def purging (n : Node) : Purging := { controller, run := { node := n, log := [] }, purges := [] }

def purgeLog (n : Node) (moves : List PurgeMove) : Option (List (ID × List NodeEvent) × List NodeEvent) :=
  (Machine.run (Purging.step .plain) moves (purging n)).map fun s => (s.purges, s.run.log)

def purgeThenGet (answer : Response) : List PurgeMove :=
  [.purge 60 .calm, .node (.reconcile served reconcileChoice), .node (get answer)]

end Sample
end EdgeFabric.CdnServer
