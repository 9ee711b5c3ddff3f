/-
The table of the ICMP proxy. It is written when an ICMP route starts and at no
other time: a route that is removed, that moves to another entry address or that
changes its protocol leaves its entry behind, and the proxy is made once in the
life of a forwarder, so after a `Stop` no ICMP route starts again. In every run
in which each configuration still has the keys that are in the table, and asks
for no ICMP route once the proxy is gone, the table is the configuration's
(`icmp_table_follows`).
-/
import EdgeFabric.Routing.Running
import EdgeFabric.Routing.Configs

namespace EdgeFabric.Routing
variable {side : Side}

def Side.IsICMP (side : Side) (d : side.Item) : Prop := (side.route d).protocol = .icmp

instance (d : side.Item) : Decidable (side.IsICMP d) := inferInstanceAs (Decidable ((side.route d).protocol = .icmp))

theorem Side.isICMP_of_fields {side : Side} {a b : side.Item} (h : side.fields a = side.fields b) :
    side.IsICMP a ↔ side.IsICMP b := by
  rw [Side.IsICMP, Side.IsICMP, (side.traffic a b h).2.2]

namespace Forwarder
variable {v : Os} {s s' : Forwarder side} {d : side.Item} {rt : Runtime side}

def icmpTable (s : Forwarder side) : Table side.icmpKey := s.icmpProxy.getD ∅

/-- The proxy exists or is still to be made. -/
def ProxyUsable (s : Forwarder side) : Prop := s.icmpOnce = true → s.icmpProxy.isSome = true

instance (s : Forwarder side) : Decidable s.ProxyUsable :=
  inferInstanceAs (Decidable (s.icmpOnce = true → s.icmpProxy.isSome = true))

/-- The proxy is not there before it is made. -/
def MadeOnce (s : Forwarder side) : Prop := s.icmpOnce = false → s.icmpProxy = none

/-! ## One route -/

theorem listen_icmp (v : Os) (t : Transport) (a : Addr) (s : Forwarder side) :
    (s.listen v t a).2.icmpProxy = s.icmpProxy ∧ (s.listen v t a).2.icmpOnce = s.icmpOnce := by
  obtain ⟨_, hl⟩ | ⟨_, hl⟩ := s.listen_cases v t a <;> rw [hl] <;> exact ⟨rfl, rfl⟩

theorem startRoute_not_icmp (hd : ¬ side.IsICMP d) :
    (s.startRoute v d).2.icmpProxy = s.icmpProxy ∧ (s.startRoute v d).2.icmpOnce = s.icmpOnce := by
  have hlisten : ∀ (s : Forwarder side) t r s₁, s.listen v t (side.listen d) = (r, s₁) →
      s₁.icmpProxy = s.icmpProxy ∧ s₁.icmpOnce = s.icmpOnce := by
    intro s t r s₁ h
    have := listen_icmp v t (side.listen d) s
    rwa [h] at this
  unfold startRoute
  dsimp only
  split
  · rcases hl : s.listen v .tcp (side.listen d) with ⟨e | l, s₁⟩ <;> exact hlisten s _ _ _ hl
  split
  · rcases hl : s.listen v .udp (side.listen d) with ⟨e | l, s₁⟩ <;> exact hlisten s _ _ _ hl
  split
  · rcases hl : s.listen v .tcp (side.listen d) with ⟨e | l, s₁⟩
    · exact hlisten s _ _ _ hl
    · dsimp only
      rcases hk : s₁.listen v .udp (side.listen d) with ⟨e | k, s₂⟩ <;>
        exact ⟨(hlisten s₁ _ _ _ hk).1.trans (hlisten s _ _ _ hl).1,
          (hlisten s₁ _ _ _ hk).2.trans (hlisten s _ _ _ hl).2⟩
  split
  · next hp => exact absurd hp hd
  · exact ⟨rfl, rfl⟩

theorem startRoute_icmp (hraw : ∀ n, v.rawSocket n = true) (hp : s.ProxyUsable) (ho : s.MadeOnce) (hd : side.IsICMP d) :
    ∃ s', s.startRoute v d = (.ok ⟨d, none, none⟩, s') ∧ s'.icmpOnce = true ∧
      s'.icmpProxy = some (s.icmpTable.put (side.icmpEntry d)) := by
  have hproto : (side.route d).protocol = .icmp := hd
  have hstart : ∃ s', s.startICMPRoute v d = (.ok (), s') ∧ s'.icmpOnce = true ∧
      s'.icmpProxy = some (s.icmpTable.put (side.icmpEntry d)) := by
    cases honce : s.icmpOnce with
    | true =>
      obtain ⟨table, htable⟩ := Option.isSome_iff_exists.mp (hp honce)
      simp [startICMPRoute, initICMP, honce, htable, icmpTable]
    | false => simp [startICMPRoute, initICMP, honce, hraw, icmpTable, ho honce]
  obtain ⟨s', hs', hrest⟩ := hstart
  refine ⟨s', ?_, hrest⟩
  simp only [startRoute, hproto, hs']
  rfl

theorem reconcileRoute_icmp (hraw : ∀ n, v.rawSocket n = true) (ho : s.MadeOnce) (hp : side.IsICMP d → s.ProxyUsable) :
    (s.reconcileRoute v d = s ∧ ∃ rt ∈ s.routes, rt.id = (side.route d).id ∧ side.fields rt.item = side.fields d) ∨
    (¬ side.IsICMP d ∧ (s.reconcileRoute v d).icmpProxy = s.icmpProxy ∧
      (s.reconcileRoute v d).icmpOnce = s.icmpOnce) ∨
    (side.IsICMP d ∧ (s.reconcileRoute v d).icmpOnce = true ∧
      (s.reconcileRoute v d).icmpProxy = some (s.icmpTable.put (side.icmpEntry d))) := by
  have htry : ∀ s₀ : Forwarder side, s₀.icmpProxy = s.icmpProxy → s₀.icmpOnce = s.icmpOnce →
      (¬ side.IsICMP d ∧ (s₀.tryStart v d).icmpProxy = s.icmpProxy ∧ (s₀.tryStart v d).icmpOnce = s.icmpOnce) ∨
      (side.IsICMP d ∧ (s₀.tryStart v d).icmpOnce = true ∧
        (s₀.tryStart v d).icmpProxy = some (s.icmpTable.put (side.icmpEntry d))) := by
    intro s₀ hproxy honce
    by_cases hd : side.IsICMP d
    · have hp₀ : s₀.ProxyUsable := by rw [ProxyUsable, hproxy, honce]; exact hp hd
      have ho₀ : s₀.MadeOnce := by rw [MadeOnce, hproxy, honce]; exact ho
      obtain ⟨s', hs', honce', hproxy'⟩ := startRoute_icmp hraw hp₀ ho₀ hd
      have htable : s₀.icmpTable = s.icmpTable := by rw [icmpTable, hproxy, icmpTable]
      rw [htable] at hproxy'
      exact .inr ⟨hd, by simp only [tryStart, hs']; exact ⟨honce', hproxy'⟩⟩
    · obtain ⟨hsame, hsame'⟩ := startRoute_not_icmp (v := v) (s := s₀) hd
      refine .inl ⟨hd, ?_⟩
      unfold tryStart
      rcases hs : s₀.startRoute v d with ⟨e | rt, s₁⟩ <;> rw [hs] at hsame hsame' <;>
        exact ⟨hsame.trans hproxy, hsame'.trans honce⟩
  obtain hkept | ⟨s₀, heq, _, hs₀⟩ := reconcileRoute_cases v d s
  · exact .inl hkept
  · rw [heq]
    obtain ⟨rfl, _⟩ | ⟨existing, _, _, rfl⟩ := hs₀ <;> exact .inr (htry _ rfl rfl)

theorem stopAllRemoved_icmp (want : Table fun d : side.Item => (side.route d).id) :
    (s.stopAllRemoved v want).icmpProxy = s.icmpProxy ∧ (s.stopAllRemoved v want).icmpOnce = s.icmpOnce := by
  refine List.foldl_visited (f := stopRemoved want) (l := v.order s.calls s.routes.rows) (b := s.ranged)
    (I := fun _ s₁ => s₁.icmpProxy = s.icmpProxy ∧ s₁.icmpOnce = s.icmpOnce) ⟨rfl, rfl⟩ ?_
  intro seen rt rest s₁ _ h
  unfold stopRemoved
  split <;> exact h

end Forwarder

open Forwarder (desired)

/-! ## One reconcile -/

/-- No two ICMP routes of the configuration have one entry address. -/
def OnePerEntry (config : Option (List side.Item)) : Prop :=
  ∀ d ∈ desired config, ∀ d' ∈ desired config, side.IsICMP d → side.IsICMP d' →
    (side.route d).entryIP = (side.route d').entryIP → d = d'

/-- Every key in the table is the key of an ICMP route of the configuration. -/
def KeysKept (s : Forwarder side) (config : Option (List side.Item)) : Prop :=
  ∀ e ∈ s.icmpTable, ∃ d ∈ desired config, side.IsICMP d ∧ side.icmpKey e = side.icmpKey (side.icmpEntry d)

section
variable {config : Option (List side.Item)} {seen : List side.Item} {v : Os} {s s₁ : Forwarder side} {d : side.Item}

theorem OnePerEntry.keys (h : OnePerEntry config) {d d' : side.Item} (hd : d ∈ desired config)
    (hd' : d' ∈ desired config) (hi : side.IsICMP d) (hi' : side.IsICMP d')
    (hkey : side.icmpKey (side.icmpEntry d) = side.icmpKey (side.icmpEntry d')) : d = d' := by
  rcases side.icmpApart d d' hkey with hip | hid
  · exact h d hd d' hd' hi hi' hip
  · exact (desired config).key_inj hd hd' hid

/-- The loop over the desired routes, as far as the proxy is concerned. -/
structure IcmpProgress (config : Option (List side.Item)) (seen : List side.Item) (s₁ : Forwarder side) : Prop where
  wf : s₁.WF
  running : s₁.running = true
  madeOnce : s₁.MadeOnce
  usable : ∀ d ∈ desired config, side.IsICMP d → s₁.ProxyUsable
  keys : KeysKept s₁ config
  present : ∀ d ∈ desired config, side.IsICMP d →
    (d ∈ seen ∨ ∃ rt ∈ s₁.routes, rt.id = (side.route d).id ∧ side.fields rt.item = side.fields d) →
    side.icmpEntry d ∈ s₁.icmpTable

theorem IcmpProgress.step (h : IcmpProgress config seen s₁) (hraw : ∀ n, v.rawSocket n = true)
    (hone : OnePerEntry config)
    (hd : d ∈ desired config) : IcmpProgress config (seen ++ [d]) (s₁.reconcileRoute v d) := by
  have hstep := Forwarder.reconcileRoute_reconciled (v := v) (d := d) h.wf h.running
  -- what runs as desired did so before, or is the route at hand
  have hruns : ∀ d' ∈ desired config, d' ≠ d →
      (d' ∈ seen ++ [d] ∨ ∃ rt ∈ (s₁.reconcileRoute v d).routes, rt.id = (side.route d').id ∧
        side.fields rt.item = side.fields d') →
      (d' ∈ seen ∨ ∃ rt ∈ s₁.routes, rt.id = (side.route d').id ∧ side.fields rt.item = side.fields d') := by
    intro d' hd' hne hor
    rcases hor with hseen | ⟨rt, hrt, hid, hf⟩
    · exact .inl ((List.mem_append.mp hseen).resolve_right fun h => hne (List.mem_singleton.mp h))
    · refine .inr ⟨rt, (hstep.others rt fun he => ?_).mp hrt, hid, hf⟩
      exact hne ((desired config).key_inj hd' hd (hid.symm.trans he))
  obtain ⟨heq, hkept⟩ | ⟨hnot, hproxy, honce⟩ | ⟨hicmp, honce, hproxy⟩ :=
    Forwarder.reconcileRoute_icmp (v := v) hraw h.madeOnce (h.usable d hd)
  · rw [heq] at hruns ⊢
    refine ⟨h.wf, h.running, h.madeOnce, h.usable, h.keys, fun d' hd' hi hor => h.present d' hd' hi ?_⟩
    by_cases hne : d' = d
    · exact .inr (hne ▸ hkept)
    · exact hruns d' hd' hne hor
  · have htable : (s₁.reconcileRoute v d).icmpTable = s₁.icmpTable := by
      rw [Forwarder.icmpTable, hproxy, Forwarder.icmpTable]
    refine ⟨hstep.wf, hstep.running, ?_, fun d' hd' hi => ?_, ?_, fun d' hd' hi hor => ?_⟩
    · rw [Forwarder.MadeOnce, hproxy, honce]
      exact h.madeOnce
    · rw [Forwarder.ProxyUsable, hproxy, honce]
      exact h.usable d' hd' hi
    · rw [KeysKept, htable]
      exact h.keys
    · rw [htable]
      exact h.present d' hd' hi (hruns d' hd' (fun he => hnot (he ▸ hi)) hor)
  · have htable : (s₁.reconcileRoute v d).icmpTable = s₁.icmpTable.put (side.icmpEntry d) := by
      rw [Forwarder.icmpTable, hproxy]
      rfl
    refine ⟨hstep.wf, hstep.running, fun hno => ?_, fun _ _ _ _ => by rw [hproxy]; rfl, fun e he => ?_,
      fun d' hd' hi hor => ?_⟩
    · rw [honce] at hno
      cases hno
    · rw [htable] at he
      rcases Table.mem_put.mp he with ⟨he, _⟩ | rfl
      · exact h.keys e he
      · exact ⟨d, hd, hicmp, rfl⟩
    · rw [htable, Table.mem_put]
      by_cases hne : d' = d
      · exact .inr (by rw [hne])
      · refine .inl ⟨h.present d' hd' hi (hruns d' hd' hne hor), fun hkey => hne ?_⟩
        exact hone.keys hd' hd hi hicmp hkey

/-- Running ICMP routes have their entries. -/
structure IcmpInv (s : Forwarder side) : Prop where
  wf : s.WF
  madeOnce : s.MadeOnce
  entries : ∀ rt ∈ s.routes, side.IsICMP rt.item → side.icmpEntry rt.item ∈ s.icmpTable

theorem IcmpInv.reconcileRoutes (h : IcmpInv s) (hrun : s.running = true) (hraw : ∀ n, v.rawSocket n = true)
    (hone : OnePerEntry config) (hkeys : KeysKept s config)
    (husable : ∀ d ∈ desired config, side.IsICMP d → s.ProxyUsable) :
    IcmpInv (s.reconcileRoutes v config) ∧
      ∀ e, e ∈ (s.reconcileRoutes v config).icmpTable ↔
        ∃ d ∈ desired config, side.IsICMP d ∧ e = side.icmpEntry d := by
  obtain ⟨hwf₁, hrun₁, hmem₁⟩ := Forwarder.stopAllRemoved_spec v (desired config) h.wf
  obtain ⟨hproxy₁, honce₁⟩ := Forwarder.stopAllRemoved_icmp (v := v) (s := s) (desired config)
  have htable₁ : (s.stopAllRemoved v (desired config)).icmpTable = s.icmpTable := by
    rw [Forwarder.icmpTable, hproxy₁, Forwarder.icmpTable]
  have hloop : IcmpProgress config (v.order (s.stopAllRemoved v (desired config)).calls (desired config).rows)
      (s.reconcileRoutes v config) := by
    refine List.foldl_visited (I := IcmpProgress config)
      ⟨hwf₁.ranged, hrun₁.trans hrun, ?_, fun d hd hi => ?_, ?_, ?_⟩ ?_
    · rw [Forwarder.MadeOnce]
      exact fun hno => hproxy₁.trans (h.madeOnce (honce₁ ▸ hno))
    · exact fun hmade => (congrArg Option.isSome hproxy₁).trans (husable d hd hi (honce₁ ▸ hmade))
    · intro e he
      exact hkeys e (htable₁ ▸ he)
    · intro d hd hi hor
      obtain ⟨rt, hrt, hid, hf⟩ := hor.resolve_left List.not_mem_nil
      have hentry := h.entries rt ((hmem₁ rt).mp hrt).1 ((Side.isICMP_of_fields hf).mpr hi)
      rw [side.icmpTraffic _ _ hf hid] at hentry
      exact htable₁.symm ▸ hentry
    · intro seen d rest s₁ hl hI
      exact hI.step hraw hone (RangeOrder.mem_order.mp (hl ▸ List.mem_append_right _ List.mem_cons_self))
  have hpresent : ∀ d ∈ desired config, side.IsICMP d → side.icmpEntry d ∈ (s.reconcileRoutes v config).icmpTable :=
    fun d hd hi => hloop.present d hd hi (.inl (RangeOrder.mem_order.mpr hd))
  refine ⟨⟨hloop.wf, hloop.madeOnce, fun rt hrt hi => ?_⟩, fun e => ⟨fun he => ?_, ?_⟩⟩
  · obtain ⟨d, hd, hid, hf⟩ := (Forwarder.reconcileRoutes_spec config h.wf hrun).2.2.1 rt hrt
    rw [side.icmpTraffic _ _ hf hid.symm]
    exact hpresent d hd ((Side.isICMP_of_fields hf).mp hi)
  · obtain ⟨d, hd, hi, hkey⟩ := hloop.keys e he
    exact ⟨d, hd, hi, Table.key_inj he (hpresent d hd hi) hkey⟩
  · rintro ⟨d, hd, hi, rfl⟩
    exact hpresent d hd hi

end

/-! ## Runs -/

/-- A reconcile keeps the keys that are in the table, and asks for an ICMP route only
while the proxy can be had. -/
def KeepsICMP (s : Forwarder side) : ForwarderCall side → Prop
  | .start | .stop => True
  | .reconcile config =>
    s.running = true → KeysKept s config ∧ ((∃ d ∈ desired config, side.IsICMP d) → s.ProxyUsable)

/-- All of these calls, made one after the other, meet `Ok`. -/
def CallsMeet (v : Os) (Ok : Forwarder side → ForwarderCall side → Prop) :
    List (ForwarderCall side) → Forwarder side → Prop
  | [], _ => True
  | c :: calls, s => Ok s c ∧ CallsMeet v Ok calls (c.run v s)

theorem IcmpInv.new : IcmpInv (Forwarder.new side) :=
  ⟨.new, fun _ => rfl, fun _ h => absurd h Table.not_mem_empty⟩

theorem IcmpInv.run {v : Os} {s : Forwarder side} {c : ForwarderCall side} (h : IcmpInv s)
    (hraw : ∀ n, v.rawSocket n = true) (hone : ∀ config, c = .reconcile config → OnePerEntry config)
    (hc : KeepsICMP s c) : IcmpInv (c.run v s) := by
  cases c with
  | start =>
    refine ⟨h.wf.start, ?_, ?_⟩ <;> simp only [ForwarderCall.run, Forwarder.start] <;> split
    · exact h.madeOnce
    · exact h.madeOnce
    · exact h.entries
    · exact h.entries
  | stop =>
    have hwf : (s.stop v).2.WF := h.wf.stop
    cases hrun : s.running with
    | false => simpa [ForwarderCall.run, Forwarder.stop, hrun] using h
    | true =>
      have hstop := Forwarder.stop_eq v s hrun
      refine ⟨hwf, ?_, fun rt hrt => absurd hrt (hwf.stopped ?_ rt)⟩
      · simp [ForwarderCall.run, hstop, Forwarder.MadeOnce]
      · simp [hstop]
  | reconcile config =>
    cases hrun : s.running with
    | false => simpa [ForwarderCall.run, Forwarder.reconcile, hrun] using h
    | true =>
      obtain ⟨hkeys, husable⟩ := hc hrun
      have hinv := (h.reconcileRoutes hrun hraw (hone config rfl) hkeys fun d hd hi => husable ⟨d, hd, hi⟩).1
      simpa [ForwarderCall.run, Forwarder.reconcile, hrun] using hinv

theorem IcmpInv.after {v : Os} (hraw : ∀ n, v.rawSocket n = true) (calls : List (ForwarderCall side))
    {s : Forwarder side} (h : IcmpInv s) (hone : ∀ config, .reconcile config ∈ calls → OnePerEntry config)
    (hmeet : CallsMeet v KeepsICMP calls s) : IcmpInv (calls.foldl (ForwarderCall.run v) s) := by
  induction calls generalizing s with
  | nil => exact h
  | cons c calls ih =>
    exact ih (h.run hraw (fun config hc => hone config (hc ▸ List.mem_cons_self)) hmeet.1)
      (fun config hc => hone config (List.mem_cons_of_mem _ hc)) hmeet.2

/-- **The ICMP table follows the configuration**, in every run whose reconciles keep the
keys and find the proxy. -/
theorem icmp_table_follows (side : Side) (v : Os) (hraw : ∀ n, v.rawSocket n = true) (calls : List (ForwarderCall side))
    (config : Option (List side.Item)) (hone : ∀ c, .reconcile c ∈ calls → OnePerEntry c) (hone' : OnePerEntry config)
    (hmeet : CallsMeet v KeepsICMP calls (.new side)) (hkeep : KeepsICMP (Forwarder.after v calls) (.reconcile config))
    (hok : ((Forwarder.after v calls).reconcile v config).1 = .ok ()) :
    ∀ e, e ∈ ((Forwarder.after v calls).reconcile v config).2.icmpTable ↔
      ∃ d ∈ desired config, side.IsICMP d ∧ e = side.icmpEntry d := by
  have hinv : IcmpInv (Forwarder.after v calls) := .after hraw calls .new hone hmeet
  generalize Forwarder.after v calls = s at *
  cases hrun : s.running with
  | false => simp [Forwarder.reconcile, hrun] at hok
  | true =>
    have heq : (s.reconcile v config).2 = s.reconcileRoutes v config := by simp [Forwarder.reconcile, hrun]
    obtain ⟨hkeys, husable⟩ := hkeep hrun
    rw [heq]
    exact (hinv.reconcileRoutes hrun hraw hone' hkeys fun d hd hi => husable ⟨d, hd, hi⟩).2

instance [DecidableEq side.Item] (config : Option (List side.Item)) : Decidable (OnePerEntry config) :=
  inferInstanceAs (Decidable (∀ d ∈ desired config, ∀ d' ∈ desired config, side.IsICMP d → side.IsICMP d' →
    (side.route d).entryIP = (side.route d').entryIP → d = d'))

instance (s : Forwarder side) (config : Option (List side.Item)) : Decidable (KeysKept s config) :=
  inferInstanceAs (Decidable (∀ e ∈ s.icmpTable, ∃ d ∈ desired config, side.IsICMP d ∧
    side.icmpKey e = side.icmpKey (side.icmpEntry d)))

instance (s : Forwarder side) : (c : ForwarderCall side) → Decidable (KeepsICMP s c)
  | .start | .stop => inferInstanceAs (Decidable True)
  | .reconcile config => inferInstanceAs (Decidable (s.running = true → KeysKept s config ∧
      ((∃ d ∈ desired config, side.IsICMP d) → s.ProxyUsable)))

instance CallsMeet.decidable (v : Os) (Ok : Forwarder side → ForwarderCall side → Prop) [∀ s c, Decidable (Ok s c)] :
    (calls : List (ForwarderCall side)) → (s : Forwarder side) → Decidable (CallsMeet v Ok calls s)
  | [], _ => inferInstanceAs (Decidable True)
  | c :: calls, s =>
    have := CallsMeet.decidable v Ok calls (c.run v s)
    inferInstanceAs (Decidable (Ok s c ∧ CallsMeet v Ok calls (c.run v s)))

namespace Sample

def ping (id : ID) (entryIP : String) : Route :=
  { EdgeFabric.Sample.edgeRoute id "p" entryIP 80 "10.0.0.1" with
    protocol := .icmp, entryPort := none, destinationPort := none }

def pings (id : ID) (entryIP gatewayWGIP : String) : Option (List RouteServer.side.Item) :=
  some [⟨ping id entryIP, gatewayWGIP⟩]

def pingSent (id : ID) (entryIP gatewayWGIP : String) : RouteServer.side.Entry :=
  RouteServer.side.icmpEntry ⟨ping id entryIP, gatewayWGIP⟩

def pinged : List (ForwarderCall RouteServer.side) := [.start, .reconcile (pings 41 "192.0.2.7" "10.100.0.9")]

def unpinged : Forwarder RouteServer.side := .after os (pinged ++ [.reconcile none])

def repinged : Forwarder RouteServer.side := .after os (pinged ++ [.stop] ++ pinged)

def unpingedGateway : Forwarder (GatewayRt.side "10.100.0.9") :=
  .after os [.start, .reconcile (some [ping 41 "192.0.2.7"]), .reconcile none]

end Sample

/-- The address goes to another route, and the gateway changes. -/
theorem icmp_table_follows_gateway :
    Sample.pingSent 42 "192.0.2.7" "10.100.0.8" ∈
      ((Forwarder.after Sample.os Sample.pinged).reconcile Sample.os
        (Sample.pings 42 "192.0.2.7" "10.100.0.8")).2.icmpTable := by
  have hfollows := icmp_table_follows RouteServer.side Sample.os (fun _ => rfl) Sample.pinged
    (Sample.pings 42 "192.0.2.7" "10.100.0.8") (fun c hc => by
      obtain rfl : c = Sample.pings 41 "192.0.2.7" "10.100.0.9" := by simpa [Sample.pinged] using hc
      decide) (by decide) (by decide) (by decide) (by decide)
  have hd : ∃ d ∈ desired (Sample.pings 42 "192.0.2.7" "10.100.0.8"), RouteServer.side.IsICMP d ∧
      Sample.pingSent 42 "192.0.2.7" "10.100.0.8" = RouteServer.side.icmpEntry d := by
    decide
  exact (hfollows _).mpr hd

/-- An ICMP route that is removed stays in the table of a node and of a gateway; after a
stop and a start no ICMP route gets into it. -/
theorem icmp_table_stale :
    Sample.unpinged.icmpTable.rows = [Sample.pingSent 41 "192.0.2.7" "10.100.0.9"] ∧
      Sample.repinged.running = true ∧ Sample.repinged.icmpTable.rows = [] ∧
      Sample.unpingedGateway.icmpTable.rows =
        [(GatewayRt.side "10.100.0.9").icmpEntry (Sample.ping 41 "192.0.2.7")] := by
  decide

end EdgeFabric.Routing
