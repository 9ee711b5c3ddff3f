/-
Whether one reconcile is enough. Routes that are gone are stopped first, but a
route that changed is stopped and started again in its turn, in the order of a
map: a route that is to listen where another one, which changes too and has not
had its turn, still listens, does not start, and nothing retries it before the
next reconcile. In every order of the map every desired route runs if and only if
no route takes over an address that another one is to give up in the same call
(`reconcile_runs_all`).
-/
import Mathlib.Data.List.Rotate
import EdgeFabric.Routing.Running
import EdgeFabric.Routing.Configs

namespace EdgeFabric.Routing
variable {side : Side}

def ListensOn (protocol : RouteProtocol) : Transport → Prop
  | .tcp => protocol = .tcp ∨ protocol = .all
  | .udp => protocol = .udp ∨ protocol = .all

instance (protocol : RouteProtocol) : (t : Transport) → Decidable (ListensOn protocol t)
  | .tcp => inferInstanceAs (Decidable (protocol = .tcp ∨ protocol = .all))
  | .udp => inferInstanceAs (Decidable (protocol = .udp ∨ protocol = .all))

def HasListeners (protocol : RouteProtocol) : Prop := protocol = .tcp ∨ protocol = .udp ∨ protocol = .all

theorem ListensOn.hasListeners {protocol : RouteProtocol} {t : Transport} (h : ListensOn protocol t) :
    HasListeners protocol := by
  cases t with
  | tcp => exact h.elim .inl fun h => .inr (.inr h)
  | udp => exact .inr h

def Side.Uses (side : Side) (d : side.Item) (t : Transport) : Prop := ListensOn (side.route d).protocol t

/-- A bind fails only if its address is held by an open socket of the forwarder. -/
def Os.BindsFree (v : Os) : Prop :=
  ∀ n t a held, v.bind n t a held = false → ∃ l ∈ held, l.transport = t ∧ l.addr = a

theorem Runtime.Shaped.uses {rt : Runtime side} (h : rt.Shaped) {l : Listener} (hl : rt.Owns l) :
    side.Uses rt.item l.transport := by
  rcases hl with hl | hl
  · rw [(h.tcpAt l hl).1]
    exact h.tcp.mp (by simp [hl])
  · rw [(h.udpAt l hl).1]
    exact h.udp.mp (by simp [hl])

theorem Side.uses_of_fields {side : Side} {a b : side.Item} (h : side.fields a = side.fields b) (t : Transport) :
    side.Uses a t ↔ side.Uses b t := by
  rw [Side.Uses, Side.Uses, (side.traffic a b h).2.2]

namespace Forwarder
variable {v : Os} {s : Forwarder side} {d : side.Item}

theorem startRoute_succeeds (hv : v.BindsFree)
    (hproto : HasListeners (side.route d).protocol)
    (hfree : ∀ l ∈ s.sockets, side.Uses d l.transport → l.addr ≠ side.listen d) :
    ∃ rt s', s.startRoute v d = (.ok rt, s') := by
  have hbind : ∀ t n, side.Uses d t → v.bind n t (side.listen d) s.sockets = true := by
    intro t n ht
    by_contra hno
    obtain ⟨l, hl, rfl, ha⟩ := hv n t (side.listen d) s.sockets (by simpa using hno)
    exact hfree l hl ht ha
  unfold startRoute
  dsimp only
  split
  · next hp =>
    simp only [listen, hbind .tcp s.calls (.inl hp), if_true]
    exact ⟨_, _, rfl⟩
  split
  · next hp =>
    simp only [listen, hbind .udp s.calls (.inl hp), if_true]
    exact ⟨_, _, rfl⟩
  split
  · next hp =>
    -- the socket just opened is no hindrance to the second bind
    have hudp : v.bind (s.calls + 1) .udp (side.listen d) (⟨s.calls, .tcp, side.listen d⟩ :: s.sockets) = true := by
      by_contra hno
      obtain ⟨l, hl, ht, ha⟩ := hv _ _ _ _ (by simpa using hno)
      rcases List.mem_cons.mp hl with rfl | hl
      · cases ht
      · exact hfree l hl (by rw [ht]; exact .inr hp) ha
    simp only [listen, hbind .tcp s.calls (.inr hp), hudp, if_true]
    exact ⟨_, _, rfl⟩
  · next h₁ h₂ h₃ => exact absurd hproto (by simp [HasListeners, h₁, h₂, h₃])

theorem tryStart_runs (hv : v.BindsFree) (h : s.WF)
    (hproto : HasListeners (side.route d).protocol)
    (hfree : ∀ rt ∈ s.routes, ∀ t, side.Uses rt.item t → side.Uses d t → side.listen rt.item ≠ side.listen d) :
    ∃ rt ∈ (s.tryStart v d).routes, rt.item = d := by
  have hsockets : ∀ l ∈ s.sockets, side.Uses d l.transport → l.addr ≠ side.listen d := by
    intro l hl hu
    obtain ⟨rt, hrt, hown⟩ := h.owned l hl
    rw [(h.shaped rt hrt).addr hown]
    exact hfree rt hrt l.transport ((h.shaped rt hrt).uses hown) hu
  obtain ⟨rt, s', hs⟩ := startRoute_succeeds hv hproto hsockets
  refine ⟨rt, ?_, (startRoute_ok hs).item⟩
  simp only [tryStart, hs]
  exact Table.mem_put.mpr (.inr rfl)

theorem reconcileRoute_runs (hv : v.BindsFree) (h : s.WF)
    (hproto : HasListeners (side.route d).protocol)
    (hfree : (∀ rt ∈ s.routes, rt.id = (side.route d).id → side.fields rt.item ≠ side.fields d) →
      ∀ rt ∈ s.routes, rt.id ≠ (side.route d).id → ∀ t, side.Uses rt.item t → side.Uses d t →
        side.listen rt.item ≠ side.listen d) :
    ∃ rt ∈ (s.reconcileRoute v d).routes, rt.id = (side.route d).id := by
  obtain ⟨heq, rt, hrt, hid, _⟩ | ⟨s₀, heq, hchanged, hs₀⟩ := reconcileRoute_cases v d s
  · exact ⟨rt, by rwa [heq], hid⟩
  · rw [heq]
    have hruns : ∃ rt ∈ (s₀.tryStart v d).routes, rt.item = d := by
      obtain ⟨rfl, hnone⟩ | ⟨existing, hmem, hid, rfl⟩ := hs₀
      · exact tryStart_runs hv h hproto fun rt hrt => hfree hchanged rt hrt (hnone rt hrt)
      · refine tryStart_runs hv (h.stopRoute hmem) hproto fun rt hrt => ?_
        obtain ⟨hrt, hne⟩ := mem_routes_stopRoute.mp hrt
        exact hfree hchanged rt hrt (hid ▸ hne)
    obtain ⟨rt, hrt, hitem⟩ := hruns
    exact ⟨rt, hrt, by rw [Runtime.id, hitem]⟩

end Forwarder

open Forwarder (desired)

/-- Two desired routes do not listen on the same network and address. -/
def Side.ListenApart (side : Side) (config : Option (List side.Item)) : Prop :=
  ∀ d ∈ desired config, ∀ d' ∈ desired config, ∀ t, side.Uses d t → side.Uses d' t → side.listen d = side.listen d' →
    d = d'

/-- No route is to start where a route listens that stays, but changes in the same call. -/
def NoExchange (s : Forwarder side) (config : Option (List side.Item)) : Prop :=
  ∀ d ∈ desired config, (∀ rt ∈ s.routes, rt.id = (side.route d).id → side.fields rt.item ≠ side.fields d) →
    ∀ rt ∈ s.routes, ∀ d' ∈ desired config, (side.route d').id = rt.id → side.fields rt.item ≠ side.fields d' →
      rt.id ≠ (side.route d).id → ∀ t, side.Uses rt.item t → side.Uses d t → side.listen rt.item ≠ side.listen d

/-- The loop over the desired routes of `config`, begun on what `s` runs of them, when it
has visited `seen`. -/
structure Progress (s : Forwarder side) (config : Option (List side.Item)) (seen : List side.Item)
    (s₁ : Forwarder side) : Prop where
  wf : s₁.WF
  running : s₁.running = true
  visited : ∀ d ∈ seen, d ∈ desired config
  runs : ∀ d ∈ seen, HasListeners (side.route d).protocol → ∃ rt ∈ s₁.routes, rt.id = (side.route d).id
  origin : ∀ rt ∈ s₁.routes, (∃ d ∈ seen, (side.route d).id = rt.id ∧ side.fields rt.item = side.fields d) ∨
    rt ∈ s.routes ∧ ∃ d ∈ desired config, (side.route d).id = rt.id
  waits : ∀ rt ∈ s.routes, ∀ d ∈ desired config, (side.route d).id = rt.id → d ∉ seen → rt ∈ s₁.routes

section
variable {s s₁ : Forwarder side} {config : Option (List side.Item)} {seen : List side.Item} {d : side.Item}

/-- Nobody listens where a desired route has to start: routes that had their turn listen
at their own addresses, and so do those that do not change; the others do not stand in the
way. -/
theorem Progress.free (h : Progress s config seen s₁) (hapart : side.ListenApart config) (hex : NoExchange s config)
    (hd : d ∈ desired config) (hunseen : d ∉ seen)
    (hstarts : ∀ rt ∈ s₁.routes, rt.id = (side.route d).id → side.fields rt.item ≠ side.fields d) :
    ∀ rt ∈ s₁.routes, rt.id ≠ (side.route d).id → ∀ t, side.Uses rt.item t → side.Uses d t →
      side.listen rt.item ≠ side.listen d := by
  intro rt hrt hne t hu hud
  have hagrees : ∀ d' ∈ desired config, (side.route d').id = rt.id → side.fields rt.item = side.fields d' →
      side.listen rt.item ≠ side.listen d := by
    intro d' hd' hid hf hlisten
    rw [(side.traffic _ _ hf).1] at hlisten
    have heq := hapart d' hd' d hd t ((Side.uses_of_fields hf t).mp hu) hud hlisten
    exact hne (heq ▸ hid).symm
  rcases h.origin rt hrt with ⟨d', hd', hid, hf⟩ | ⟨hrts, d', hd', hid⟩
  · exact hagrees d' (h.visited d' hd') hid hf
  · by_cases hf : side.fields rt.item = side.fields d'
    · exact hagrees d' hd' hid hf
    · have hnew : ∀ rt' ∈ s.routes, rt'.id = (side.route d).id → side.fields rt'.item ≠ side.fields d :=
        fun rt' hrt' hid' => hstarts rt' (h.waits rt' hrt' d hd hid'.symm hunseen) hid'
      exact hex d hd hnew rt hrts d' hd' hid hf hne t hu hud

theorem Progress.step {v : Os} (h : Progress s config seen s₁) (hv : v.BindsFree) (hapart : side.ListenApart config)
    (hex : NoExchange s config) (hd : d ∈ desired config) (hunseen : d ∉ seen) :
    Progress s config (seen ++ [d]) (s₁.reconcileRoute v d) := by
  have hstep := Forwarder.reconcileRoute_reconciled (v := v) (d := d) h.wf h.running
  have hother : ∀ d' ∈ desired config, d' ≠ d → (side.route d').id ≠ (side.route d).id := fun d' hd' hne hid =>
    hne ((desired config).key_inj hd' hd hid)
  refine ⟨hstep.wf, hstep.running, List.forall_mem_concat h.visited hd, fun d' hd' hproto => ?_, fun rt hrt => ?_,
    fun rt hrt d' hd' hid hnot => ?_⟩
  · rcases List.mem_append.mp hd' with hd' | hd'
    · obtain ⟨rt, hrt, hid⟩ := h.runs d' hd' hproto
      have hne := hother d' (h.visited d' hd') fun he => hunseen (he ▸ hd')
      exact ⟨rt, (hstep.others rt (hid ▸ hne)).mpr hrt, hid⟩
    · rw [List.mem_singleton.mp hd'] at hproto ⊢
      exact Forwarder.reconcileRoute_runs hv h.wf hproto fun hstarts => h.free hapart hex hd hunseen hstarts
  · by_cases hrtd : rt.id = (side.route d).id
    · exact .inl ⟨d, by simp, hrtd.symm, hstep.agrees rt hrt hrtd⟩
    · rcases h.origin rt ((hstep.others rt hrtd).mp hrt) with ⟨d', hd', hid, hf⟩ | hold
      · exact .inl ⟨d', List.mem_append_left _ hd', hid, hf⟩
      · exact .inr hold
  · have hne : d' ≠ d := fun he => hnot (by simp [he])
    have hrt₁ := h.waits rt hrt d' hd' hid fun hm => hnot (List.mem_append_left _ hm)
    exact (hstep.others rt (hid ▸ hother d' hd' hne)).mpr hrt₁

end

theorem Forwarder.reconcileRoutes_runs {v : Os} (hv : v.BindsFree) {s : Forwarder side} (hwf : s.WF)
    (hrun : s.running = true) {config : Option (List side.Item)} (hapart : side.ListenApart config)
    (hex : NoExchange s config) {d : side.Item} (hd : d ∈ desired config)
      (hproto : HasListeners (side.route d).protocol) :
    ∃ rt ∈ (s.reconcileRoutes v config).routes, rt.id = (side.route d).id ∧ side.fields rt.item = side.fields d := by
  obtain ⟨hwf₁, hrun₁, hmem₁⟩ := Forwarder.stopAllRemoved_spec v (desired config) hwf
  have hloop : Progress s config (v.order (s.stopAllRemoved v (desired config)).calls (desired config).rows)
      (s.reconcileRoutes v config) := by
    refine List.foldl_visited (I := Progress s config) ⟨hwf₁.ranged, hrun₁.trans hrun, ?_, ?_, ?_, ?_⟩ ?_
    · exact fun d hd => absurd hd List.not_mem_nil
    · exact fun d hd _ => absurd hd List.not_mem_nil
    · intro rt hrt
      obtain ⟨hrts, hfind⟩ := (hmem₁ rt).mp hrt
      obtain ⟨d, hd⟩ := Option.ne_none_iff_exists'.mp hfind
      exact .inr ⟨hrts, d, Table.find_eq_some.mp hd⟩
    · intro rt hrt d hd hid _
      exact (hmem₁ rt).mpr ⟨hrt, by simp [Table.find_eq_some.mpr ⟨hd, hid⟩]⟩
    · intro seen d rest s₁ hl h
      have hd : d ∈ desired config := RangeOrder.mem_order.mp (hl ▸ List.mem_append_right _ List.mem_cons_self)
      exact h.step hv hapart hex hd (Forwarder.not_mem_seen (Forwarder.nodup_order _ _) hl)
  obtain ⟨rt, hrt, hid⟩ := hloop.runs d (RangeOrder.mem_order.mpr hd) hproto
  obtain ⟨d', hd', hid', hf⟩ := (Forwarder.reconcileRoutes_spec config hwf hrun).2.2.1 rt hrt
  exact ⟨rt, hrt, hid, (desired config).key_inj hd' hd (hid'.trans hid) ▸ hf⟩

/-! ## An exchange that is lost -/

/-- Binds fail for held addresses only; loops begin at the `k`-th row. -/
def Os.rotating (k : Nat) : Os where
  order _ _ l := l.rotate k
  perm _ _ l := l.rotate_perm k
  bind _ t a held := !held.any fun l => l.transport = t ∧ l.addr = a
  rawSocket _ := true

theorem Os.rotating_bindsFree (k : Nat) : (Os.rotating k).BindsFree := by
  intro n t a held h
  simpa [Os.rotating] using h

namespace Forwarder
variable {v : Os} {k : Nat} {s s' : Forwarder side} {d : side.Item} {rt : Runtime side} {t : Transport}

theorem startRoute_binds (h : s.startRoute v d = (.ok rt, s')) (ht : side.Uses d t) :
    ∃ n held, s.sockets ⊆ held ∧ v.bind n t (side.listen d) held = true := by
  unfold startRoute at h
  dsimp only at h
  split at h
  · next hp =>
    obtain ⟨hb, -⟩ | ⟨-, hl⟩ := s.listen_cases v .tcp (side.listen d)
    · cases t with
      | tcp => exact ⟨_, _, List.Subset.refl _, hb⟩
      | udp => exact absurd ht (by rw [Side.Uses, hp]; decide)
    · rw [hl] at h
      cases h
  split at h
  · next hp =>
    obtain ⟨hb, -⟩ | ⟨-, hl⟩ := s.listen_cases v .udp (side.listen d)
    · cases t with
      | tcp => exact absurd ht (by rw [Side.Uses, hp]; decide)
      | udp => exact ⟨_, _, List.Subset.refl _, hb⟩
    · rw [hl] at h
      cases h
  split at h
  · obtain ⟨hb, hl⟩ | ⟨-, hl⟩ := s.listen_cases v .tcp (side.listen d) <;> rw [hl] at h
    · dsimp only at h
      obtain ⟨hb', -⟩ | ⟨-, hk⟩ := listen_cases v .udp (side.listen d)
        { s with calls := s.calls + 1, sockets := ⟨s.calls, .tcp, side.listen d⟩ :: s.sockets }
      · cases t with
        | tcp => exact ⟨_, _, List.Subset.refl _, hb⟩
        | udp => exact ⟨_, _, List.subset_cons_self _ _, hb'⟩
      · rw [hk] at h
        cases h
    · cases h
  · next h₁ h₂ h₃ => exact absurd ht.hasListeners (by simp [HasListeners, h₁, h₂, h₃])

/-- A route of another id listens where `d` is to start. -/
def Held (s : Forwarder side) (d : side.Item) : Prop :=
  ∃ rt ∈ s.routes, rt.id ≠ (side.route d).id ∧ ∃ t, side.Uses rt.item t ∧ side.Uses d t ∧
    side.listen rt.item = side.listen d

theorem tryStart_held (h : s.WF) (hheld : s.Held d) : (s.tryStart (.rotating k) d).routes = s.routes := by
  obtain ⟨rt, hrt, -, t, hu, hud, haddr⟩ := hheld
  have hshaped := h.shaped rt hrt
  obtain ⟨l, hown, hl⟩ : ∃ l, rt.Owns l ∧ l.transport = t := by
    cases t with
    | tcp =>
      obtain ⟨l, hl⟩ := Option.isSome_iff_exists.mp (hshaped.tcp.mpr hu)
      exact ⟨l, .inl hl, (hshaped.tcpAt l hl).1⟩
    | udp =>
      obtain ⟨l, hl⟩ := Option.isSome_iff_exists.mp (hshaped.udp.mpr hu)
      exact ⟨l, .inr hl, (hshaped.udpAt l hl).1⟩
  unfold tryStart
  rcases hs : s.startRoute (.rotating k) d with ⟨e | rt', s₁⟩
  · exact (startRoute_error h.fresh hs).routes
  · obtain ⟨n, held, hsub, hbind⟩ := startRoute_binds hs hud
    have hfree : (held.any fun l => l.transport = t ∧ l.addr = side.listen d) = false := Bool.not_eq_true' _ ▸ hbind
    have hmem := hsub (h.opened rt hrt l hown)
    exact absurd (decide_eq_true ⟨hl, (hshaped.addr hown).trans haddr⟩) (List.any_eq_false.mp hfree l hmem)

theorem reconcileRoute_held (h : s.WF) (hheld : s.Held d)
    (hchanged : ∀ rt ∈ s.routes, rt.id = (side.route d).id → side.fields rt.item ≠ side.fields d) :
    ∀ rt ∈ (s.reconcileRoute (.rotating k) d).routes, rt.id ≠ (side.route d).id := by
  obtain ⟨-, rt, hrt, hid, hf⟩ | ⟨s₀, heq, -, hs₀⟩ := reconcileRoute_cases (.rotating k) d s
  · exact absurd hf (hchanged rt hrt hid)
  · rw [heq]
    obtain ⟨rfl, hnone⟩ | ⟨existing, hmem, hid, rfl⟩ := hs₀
    · rwa [tryStart_held h hheld]
    · obtain ⟨rt, hrt, hne, t, hlisten⟩ := hheld
      rw [tryStart_held (h.stopRoute hmem) ⟨rt, mem_routes_stopRoute.mpr ⟨hrt, hid ▸ hne⟩, hne, t, hlisten⟩]
      exact fun rt hrt => hid ▸ (mem_routes_stopRoute.mp hrt).2

/-- A route that has its turn first, while another one still listens where it is to start,
does not run after the reconcile. -/
theorem reconcileRoutes_loses (h : s.WF) (hrun : s.running = true) {config : Option (List side.Item)}
    {rest : List side.Item} (horder : (desired config).rows.rotate k = d :: rest)
    (hheld : (s.stopAllRemoved (.rotating k) (desired config)).Held d)
    (hchanged : ∀ rt ∈ s.routes, rt.id = (side.route d).id → side.fields rt.item ≠ side.fields d) :
    ∀ rt ∈ (s.reconcileRoutes (.rotating k) config).routes, rt.id ≠ (side.route d).id := by
  obtain ⟨hwf, hrun', hmem⟩ := stopAllRemoved_spec (.rotating k) (desired config) h
  have hnodup := nodup_order (v := .rotating k) (desired config) 0
  rw [show (Os.rotating k).order 0 (desired config).rows = d :: rest from horder] at hnodup
  have hrest : ∀ d' ∈ d :: rest, d' ∈ desired config := fun d' hd' => List.mem_rotate.mp (horder ▸ hd')
  unfold reconcileRoutes startDesired
  rw [show (Os.rotating k).order _ (desired config).rows = d :: rest from horder, List.foldl_cons]
  have hfirst := reconcileRoute_reconciled (v := .rotating k) (d := d) hwf.ranged (hrun'.trans hrun)
  refine (List.foldl_visited (I := fun _ (s₁ : Forwarder side) => s₁.WF ∧ s₁.running = true ∧
      ∀ rt ∈ s₁.routes, rt.id ≠ (side.route d).id) ⟨hfirst.wf, hfirst.running, ?_⟩ ?_).2.2
  · exact reconcileRoute_held hwf.ranged hheld fun rt hrt => hchanged rt ((hmem rt).mp hrt).1
  · intro seen d' rest' s₁ hl hI
    obtain ⟨hwf₁, hrun₁, hnone⟩ := hI
    have hd' : d' ∈ rest := hl ▸ List.mem_append_right _ List.mem_cons_self
    have hne : (side.route d').id ≠ (side.route d).id := fun hid =>
      (List.nodup_cons.mp hnodup).1 ((desired config).key_inj (hrest d' (List.mem_cons_of_mem _ hd'))
        (hrest d List.mem_cons_self) hid ▸ hd')
    have hstep := reconcileRoute_reconciled (v := .rotating k) (d := d') hwf₁ hrun₁
    refine ⟨hstep.wf, hstep.running, fun rt hrt hid => ?_⟩
    exact hnone rt ((hstep.others rt (hid ▸ hne.symm)).mp hrt) hid

end Forwarder

/-- **One reconcile is enough**, whatever ran before it and in whatever order the maps are
visited, precisely if the call exchanges no address. -/
theorem reconcile_runs_all (side : Side) (v₀ : Os) (calls : List (ForwarderCall side))
    (config : Option (List side.Item)) (hrun : (Forwarder.after v₀ calls).running = true)
    (hproto : ∀ d ∈ desired config,
      (side.route d).protocol = .tcp ∨ (side.route d).protocol = .udp ∨ (side.route d).protocol = .all)
    (hapart : side.ListenApart config) :
    (∀ v : Os, v.BindsFree → ∀ d ∈ desired config, ∃ rt ∈ ((Forwarder.after v₀ calls).reconcile v config).2.routes,
      rt.id = (side.route d).id ∧ side.fields rt.item = side.fields d) ↔
        NoExchange (Forwarder.after v₀ calls) config := by
  have hwf : (Forwarder.after v₀ calls).WF := .after calls
  have heq : ∀ v, ((Forwarder.after v₀ calls).reconcile v config).2 =
      (Forwarder.after v₀ calls).reconcileRoutes v config := by
    simp [Forwarder.reconcile, hrun]
  simp only [heq]
  constructor
  · intro hall d hd hchanged rt hrt d' hd' hid _ hne t hu hud haddr
    -- the loop that begins with `d` finds the address taken
    obtain ⟨before, rest, hrows⟩ := List.append_of_mem (Table.mem_def.mp hd)
    have horder : (desired config).rows.rotate before.length = d :: (rest ++ before) := by
      rw [hrows, List.rotate_append_length_eq, List.cons_append]
    obtain ⟨rt', hrt', hid', -⟩ := hall (.rotating before.length) (Os.rotating_bindsFree _) d hd
    refine Forwarder.reconcileRoutes_loses hwf hrun horder ⟨rt, ?_, hne, t, hu, hud, haddr⟩ hchanged rt' hrt' hid'
    have hkept := (Forwarder.stopAllRemoved_spec (.rotating before.length) (desired config) hwf).2.2 rt
    exact hkept.mpr ⟨hrt, by simp [Table.find_eq_some.mpr ⟨hd', hid⟩]⟩
  · exact fun hex v hv d hd => Forwarder.reconcileRoutes_runs hv hwf hrun hapart hex hd (hproto d hd)

/-! ## Runs -/

instance {P : Transport → Prop} [DecidablePred P] : Decidable (∀ t, P t) :=
  decidable_of_iff (P .tcp ∧ P .udp) ⟨fun h t => by cases t; exacts [h.1, h.2], fun h => ⟨h _, h _⟩⟩

instance (d : side.Item) (t : Transport) : Decidable (side.Uses d t) :=
  inferInstanceAs (Decidable (ListensOn (side.route d).protocol t))

instance [DecidableEq side.Item] (config : Option (List side.Item)) : Decidable (side.ListenApart config) :=
  inferInstanceAs (Decidable (∀ d ∈ desired config, ∀ d' ∈ desired config, ∀ t, side.Uses d t → side.Uses d' t →
    side.listen d = side.listen d' → d = d'))

instance [DecidableEq side.Fields] (s : Forwarder side) (config : Option (List side.Item)) :
    Decidable (NoExchange s config) :=
  inferInstanceAs (Decidable (∀ d ∈ desired config,
    (∀ rt ∈ s.routes, rt.id = (side.route d).id → side.fields rt.item ≠ side.fields d) →
    ∀ rt ∈ s.routes, ∀ d' ∈ desired config, (side.route d').id = rt.id → side.fields rt.item ≠ side.fields d' →
      rt.id ≠ (side.route d).id → ∀ t, side.Uses rt.item t → side.Uses d t → side.listen rt.item ≠ side.listen d))

namespace Sample

theorem os_bindsFree : os.BindsFree := by
  intro n t a held h
  simpa [os] using h

def entries (a b : String) : Option (List RouteServer.side.Item) :=
  some [⟨EdgeFabric.Sample.edgeRoute 41 "a" a 80 "10.0.0.1", "10.100.0.9"⟩,
    ⟨EdgeFabric.Sample.edgeRoute 42 "b" b 80 "10.0.0.2", "10.100.0.9"⟩]

def ports (a b : Int) : Option (List (GatewayRt.side "10.100.0.9").Item) :=
  some [EdgeFabric.Sample.edgeRoute 41 "a" "192.0.2.7" a "10.0.0.1",
    EdgeFabric.Sample.edgeRoute 42 "b" "192.0.2.8" b "10.0.0.2"]

def node : Forwarder RouteServer.side := .after os [.start, .reconcile (entries "192.0.2.7" "192.0.2.8")]

def gateway : Forwarder (GatewayRt.side "10.100.0.9") := .after os [.start, .reconcile (ports 80 81)]

end Sample

/-- The first route moves to a free address, the second stays. -/
theorem reconcile_runs_all_moved :
    NoExchange Sample.node (Sample.entries "192.0.2.9" "192.0.2.8") ∧
      ∃ d ∈ desired (Sample.entries "192.0.2.9" "192.0.2.8"),
        ∃ rt ∈ (Sample.node.reconcile Sample.os (Sample.entries "192.0.2.9" "192.0.2.8")).2.routes,
          rt.id = (RouteServer.side.route d).id ∧ RouteServer.side.fields rt.item = RouteServer.side.fields d := by
  have hex : NoExchange Sample.node (Sample.entries "192.0.2.9" "192.0.2.8") := by decide
  have hruns := (reconcile_runs_all RouteServer.side Sample.os _ (Sample.entries "192.0.2.9" "192.0.2.8")
    (by decide) (by decide) (by decide)).mpr hex Sample.os Sample.os_bindsFree
  have hfirst : ∃ d ∈ desired (Sample.entries "192.0.2.9" "192.0.2.8"), (RouteServer.side.route d).id = 41 := by
    decide
  obtain ⟨d, hd, _⟩ := hfirst
  exact ⟨hex, d, hd, hruns d hd⟩

/-- Two running routes exchange their addresses, or their ports: the one that has its turn
first does not start. -/
theorem exchange_stops_route :
    (Sample.node.running = true ∧ RouteServer.side.ListenApart (Sample.entries "192.0.2.8" "192.0.2.7") ∧
      (Sample.node.reconcile Sample.os (Sample.entries "192.0.2.8" "192.0.2.7")).2.routes.rows.map Runtime.id = [42]) ∧
    Sample.gateway.running = true ∧ (GatewayRt.side "10.100.0.9").ListenApart (Sample.ports 81 80) ∧
      (Sample.gateway.reconcile Sample.os (Sample.ports 81 80)).2.routes.rows.map Runtime.id = [42] := by
  decide

end EdgeFabric.Routing
