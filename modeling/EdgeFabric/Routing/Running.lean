/-
What a forwarder runs. A listener that is open belongs to one running route, of
a protocol and at an address that the route has (`WF`): a start that fails half
way closes what it opened, and stopping one route closes no listener of another.
After a reconcile every running route agrees with the configuration just given,
and routes that did not change were left alone (`running_agrees`).
-/
import EdgeFabric.Routing.Forwarder

namespace EdgeFabric.Routing
variable {side : Side}

namespace Runtime

def Owns (rt : Runtime side) (l : Listener) : Prop := rt.tcpListener = some l ∨ rt.udpConn = some l

/-- A route has the listeners of its protocol, at its address, and no others. -/
structure Shaped (rt : Runtime side) : Prop where
  tcp : rt.tcpListener.isSome = true ↔ (side.route rt.item).protocol = .tcp ∨ (side.route rt.item).protocol = .all
  udp : rt.udpConn.isSome = true ↔ (side.route rt.item).protocol = .udp ∨ (side.route rt.item).protocol = .all
  tcpAt : ∀ l, rt.tcpListener = some l → l.transport = .tcp ∧ l.addr = side.listen rt.item
  udpAt : ∀ l, rt.udpConn = some l → l.transport = .udp ∧ l.addr = side.listen rt.item

theorem Shaped.addr {rt : Runtime side} (h : rt.Shaped) {l : Listener} (hl : rt.Owns l) :
    l.addr = side.listen rt.item := by
  rcases hl with hl | hl
  · exact (h.tcpAt l hl).2
  · exact (h.udpAt l hl).2

end Runtime

namespace Forwarder
variable {v : Os} {s s' : Forwarder side} {d : side.Item} {rt : Runtime side}

/-! ## Starting and stopping one route -/

/-- What a start that succeeds does: the listeners are new sockets. -/
structure Started (d : side.Item) (s : Forwarder side) (rt : Runtime side) (s' : Forwarder side) : Prop where
  item : rt.item = d
  shaped : rt.Shaped
  routes : s'.routes = s.routes
  running : s'.running = s.running
  calls : s.calls ≤ s'.calls
  sockets : ∀ l, l ∈ s'.sockets ↔ l ∈ s.sockets ∨ rt.Owns l
  number : ∀ l, rt.Owns l → s.calls ≤ l.number ∧ l.number < s'.calls

/-- What a start that fails does. -/
structure NotStarted (s s' : Forwarder side) : Prop where
  routes : s'.routes = s.routes
  running : s'.running = s.running
  calls : s.calls ≤ s'.calls
  sockets : ∀ l, l ∈ s'.sockets ↔ l ∈ s.sockets

/-- No open socket has a number that is still to be given. -/
def Fresh (s : Forwarder side) : Prop := ∀ l ∈ s.sockets, l.number < s.calls

theorem listen_cases (v : Os) (t : Transport) (a : Addr) (s : Forwarder side) :
    (v.bind s.calls t a s.sockets = true ∧ s.listen v t a = (.ok ⟨s.calls, t, a⟩,
        { s with calls := s.calls + 1, sockets := ⟨s.calls, t, a⟩ :: s.sockets })) ∨
      (v.bind s.calls t a s.sockets = false ∧
        s.listen v t a = (.error (.listen t a), { s with calls := s.calls + 1 })) := by
  unfold listen
  cases v.bind s.calls t a s.sockets <;> simp

theorem startICMPRoute_same {r : Except StartError Unit} (h : s.startICMPRoute v d = (r, s')) :
    s'.routes = s.routes ∧ s'.running = s.running ∧ s'.sockets = s.sockets ∧ s.calls ≤ s'.calls := by
  have hinit : ∀ r₁ s₁, s.initICMP v = (r₁, s₁) →
      s₁.routes = s.routes ∧ s₁.running = s.running ∧ s₁.sockets = s.sockets ∧ s.calls ≤ s₁.calls := by
    intro r₁ s₁ h₁
    unfold initICMP at h₁
    split at h₁
    · cases h₁; simp
    · split at h₁ <;> cases h₁ <;> simp
  unfold startICMPRoute at h
  split at h
  · next hi => cases h; exact hinit _ _ hi
  · next hi =>
    have hmade := hinit _ _ hi
    split at h <;> cases h <;> exact hmade

theorem startRoute_ok (h : s.startRoute v d = (.ok rt, s')) : Started d s rt s' := by
  unfold startRoute at h
  dsimp only at h
  split at h
  · next hp =>
    obtain ⟨_, hl⟩ | ⟨_, hl⟩ := s.listen_cases v .tcp (side.listen d) <;> rw [hl] at h <;> cases h
    exact {
      item := rfl, routes := rfl, running := rfl, calls := Nat.le_succ _
      shaped := ⟨by simp [hp], by simp [hp]; decide, by simp, by simp⟩
      sockets := by simp [Runtime.Owns, or_comm, eq_comm]
      number := by simp [Runtime.Owns] }
  split at h
  · next hp =>
    obtain ⟨_, hl⟩ | ⟨_, hl⟩ := s.listen_cases v .udp (side.listen d) <;> rw [hl] at h <;> cases h
    exact {
      item := rfl, routes := rfl, running := rfl, calls := Nat.le_succ _
      shaped := ⟨by simp [hp]; decide, by simp [hp], by simp, by simp⟩
      sockets := by simp [Runtime.Owns, or_comm, eq_comm]
      number := by simp [Runtime.Owns] }
  split at h
  · next hp =>
    obtain ⟨_, hl⟩ | ⟨_, hl⟩ := s.listen_cases v .tcp (side.listen d) <;> rw [hl] at h
    · dsimp only at h
      obtain ⟨_, hk⟩ | ⟨_, hk⟩ := listen_cases v .udp (side.listen d)
        { s with calls := s.calls + 1, sockets := ⟨s.calls, .tcp, side.listen d⟩ :: s.sockets } <;>
        rw [hk] at h <;> cases h
      exact {
        item := rfl, routes := rfl, running := rfl, calls := by simp; omega
        shaped := ⟨by simp [hp], by simp [hp], by simp, by simp⟩
        sockets := by intro l; simp only [Runtime.Owns, List.mem_cons, Option.some.injEq]; grind
        number := by intro l; simp only [Runtime.Owns, Option.some.injEq]; grind }
    · cases h
  split at h
  · next hp =>
    rcases hi : s.startICMPRoute v d with ⟨e | u, s₁⟩ <;> rw [hi] at h <;> cases h
    obtain ⟨hroutes, hrunning, hsockets, hcalls⟩ := startICMPRoute_same hi
    exact {
      item := rfl, routes := hroutes, running := hrunning, calls := hcalls
      shaped := ⟨by simp [hp]; decide, by simp [hp]; decide, by simp, by simp⟩
      sockets := by simp [Runtime.Owns, hsockets]
      number := by simp [Runtime.Owns] }
  · cases h

theorem startRoute_error {e : StartError} (hs : s.Fresh) (h : s.startRoute v d = (.error e, s')) : NotStarted s s' := by
  unfold startRoute at h
  dsimp only at h
  split at h
  · obtain ⟨_, hl⟩ | ⟨_, hl⟩ := s.listen_cases v .tcp (side.listen d) <;> rw [hl] at h <;> cases h
    exact ⟨rfl, rfl, Nat.le_succ _, fun _ => Iff.rfl⟩
  split at h
  · obtain ⟨_, hl⟩ | ⟨_, hl⟩ := s.listen_cases v .udp (side.listen d) <;> rw [hl] at h <;> cases h
    exact ⟨rfl, rfl, Nat.le_succ _, fun _ => Iff.rfl⟩
  split at h
  · obtain ⟨_, hl⟩ | ⟨_, hl⟩ := s.listen_cases v .tcp (side.listen d) <;> rw [hl] at h
    · dsimp only at h
      obtain ⟨_, hk⟩ | ⟨_, hk⟩ := listen_cases v .udp (side.listen d)
        { s with calls := s.calls + 1, sockets := ⟨s.calls, .tcp, side.listen d⟩ :: s.sockets } <;>
        rw [hk] at h <;> cases h
      -- the listener that is closed again is none of the older ones
      refine ⟨rfl, rfl, by simp [close]; omega, fun l => ?_⟩
      have hnew : l ∈ s.sockets → (⟨s.calls, .tcp, side.listen d⟩ : Listener) ≠ l := by
        intro hl he
        have := hs l hl
        rw [← he] at this
        exact Nat.lt_irrefl _ this
      simp only [close, List.mem_filter, List.mem_cons, decide_eq_true_eq, ne_eq, Option.some.injEq]
      grind
    · cases h
      exact ⟨rfl, rfl, Nat.le_succ _, fun _ => Iff.rfl⟩
  split at h
  · rcases hi : s.startICMPRoute v d with ⟨e' | u, s₁⟩ <;> rw [hi] at h <;> cases h
    obtain ⟨hroutes, hrunning, hsockets, hcalls⟩ := startICMPRoute_same hi
    exact ⟨hroutes, hrunning, hcalls, fun l => by simp [hsockets]⟩
  · cases h
    exact ⟨rfl, rfl, Nat.le_refl _, fun _ => Iff.rfl⟩

theorem mem_sockets_stopRoute {l : Listener} : l ∈ (s.stopRoute rt).sockets ↔ l ∈ s.sockets ∧ ¬ rt.Owns l := by
  simp [stopRoute, close, Runtime.Owns, and_comm]

@[simp] theorem mem_routes_stopRoute {rt' : Runtime side} :
    rt' ∈ (s.stopRoute rt).routes ↔ rt' ∈ s.routes ∧ rt'.id ≠ rt.id := by
  simp [stopRoute, close]

/-! ## The invariant -/

/-- The open sockets are the listeners of the running routes; a forwarder that is stopped
runs none. -/
structure WF (s : Forwarder side) : Prop where
  stopped : s.running = false → ∀ rt, ¬ rt ∈ s.routes
  fresh : s.Fresh
  owned : ∀ l ∈ s.sockets, ∃ rt ∈ s.routes, rt.Owns l
  shaped : ∀ rt ∈ s.routes, rt.Shaped
  opened : ∀ rt ∈ s.routes, ∀ l, rt.Owns l → l ∈ s.sockets
  apart : ∀ rt ∈ s.routes, ∀ rt' ∈ s.routes, ∀ l, rt.Owns l → rt'.Owns l → rt = rt'

theorem WF.new : (new side).WF where
  stopped _ _ := Table.not_mem_empty
  fresh _ h := absurd h List.not_mem_nil
  owned _ h := absurd h List.not_mem_nil
  shaped _ h := absurd h Table.not_mem_empty
  opened _ h := absurd h Table.not_mem_empty
  apart _ h := absurd h Table.not_mem_empty

theorem WF.ranged (h : s.WF) : s.ranged.WF where
  stopped := h.stopped
  fresh l hl := Nat.lt_succ_of_lt (h.fresh l hl)
  owned := h.owned
  shaped := h.shaped
  opened := h.opened
  apart := h.apart

theorem WF.stopRoute (h : s.WF) (hrt : rt ∈ s.routes) : (s.stopRoute rt).WF where
  stopped hr rt' hrt' := h.stopped hr rt' (mem_routes_stopRoute.mp hrt').1
  fresh l hl := h.fresh l (mem_sockets_stopRoute.mp hl).1
  owned l hl := by
    obtain ⟨hopen, hnot⟩ := mem_sockets_stopRoute.mp hl
    obtain ⟨rt', hrt', hown⟩ := h.owned l hopen
    refine ⟨rt', mem_routes_stopRoute.mpr ⟨hrt', fun hid => hnot ?_⟩, hown⟩
    rwa [← s.routes.key_inj hrt' hrt hid]
  shaped rt' hrt' := h.shaped rt' (mem_routes_stopRoute.mp hrt').1
  opened rt' hrt' l hown := by
    obtain ⟨hmem, hid⟩ := mem_routes_stopRoute.mp hrt'
    refine mem_sockets_stopRoute.mpr ⟨h.opened rt' hmem l hown, fun hown' => hid ?_⟩
    rw [h.apart rt' hmem rt hrt l hown hown']
  apart rt₁ h₁ rt₂ h₂ := h.apart rt₁ (mem_routes_stopRoute.mp h₁).1 rt₂ (mem_routes_stopRoute.mp h₂).1

theorem WF.notStarted (h : s.WF) (hn : NotStarted s s') : s'.WF where
  stopped hr rt hrt := h.stopped (hn.running ▸ hr) rt (hn.routes ▸ hrt)
  fresh l hl := Nat.lt_of_lt_of_le (h.fresh l ((hn.sockets l).mp hl)) hn.calls
  owned l hl := by
    rw [hn.routes]
    exact h.owned l ((hn.sockets l).mp hl)
  shaped := by
    rw [hn.routes]
    exact h.shaped
  opened rt hrt l hown := (hn.sockets l).mpr (h.opened rt (hn.routes ▸ hrt) l hown)
  apart := by
    rw [hn.routes]
    exact h.apart

theorem WF.started (h : s.WF) (hs : Started d s rt s') (hrun : s.running = true)
    (hnew : ∀ rt' ∈ s.routes, rt'.id ≠ rt.id) : WF { s' with routes := s'.routes.put rt } := by
  have hmem : ∀ rt', rt' ∈ s'.routes.put rt ↔ rt' ∈ s.routes ∨ rt' = rt := by
    intro rt'
    rw [Table.mem_put, hs.routes]
    exact or_congr ⟨fun h => h.1, fun h => ⟨h, hnew rt' h⟩⟩ Iff.rfl
  -- an older listener is not one of the new route's
  have hold : ∀ rt' ∈ s.routes, ∀ l, rt'.Owns l → ¬ rt.Owns l := by
    intro rt' hrt' l hown hown'
    have hlt := h.fresh l (h.opened rt' hrt' l hown)
    have hge := (hs.number l hown').1
    omega
  refine ⟨fun hr => ?_, fun l hl => ?_, fun l hl => ?_, fun rt' hrt' => ?_, fun rt' hrt' l hown => ?_, ?_⟩
  · rw [hs.running, hrun] at hr
    cases hr
  · rcases (hs.sockets l).mp hl with hl | hl
    · exact Nat.lt_of_lt_of_le (h.fresh l hl) hs.calls
    · exact (hs.number l hl).2
  · rcases (hs.sockets l).mp hl with hl | hl
    · obtain ⟨rt', hrt', hown⟩ := h.owned l hl
      exact ⟨rt', (hmem rt').mpr (.inl hrt'), hown⟩
    · exact ⟨rt, (hmem rt).mpr (.inr rfl), hl⟩
  · rcases (hmem rt').mp hrt' with hrt' | rfl
    · exact h.shaped rt' hrt'
    · exact hs.shaped
  · rcases (hmem rt').mp hrt' with hrt' | rfl
    · exact (hs.sockets l).mpr (.inl (h.opened rt' hrt' l hown))
    · exact (hs.sockets l).mpr (.inr hown)
  · intro rt₁ h₁ rt₂ h₂ l hown₁ hown₂
    rcases (hmem rt₁).mp h₁ with hold₁ | rfl <;> rcases (hmem rt₂).mp h₂ with hold₂ | rfl
    · exact h.apart rt₁ hold₁ rt₂ hold₂ l hown₁ hown₂
    · exact absurd hown₂ (hold rt₁ hold₁ l hown₁)
    · exact absurd hown₁ (hold rt₂ hold₂ l hown₂)
    · rfl

/-! ## The loops of a reconcile -/

/-- What the loop's body does for the desired route `d`: it runs as desired, if it runs,
and the other routes are left alone. -/
structure Reconciled (d : side.Item) (s s' : Forwarder side) : Prop where
  wf : s'.WF
  running : s'.running = true
  others : ∀ rt, rt.id ≠ (side.route d).id → (rt ∈ s'.routes ↔ rt ∈ s.routes)
  agrees : ∀ rt ∈ s'.routes, rt.id = (side.route d).id → side.fields rt.item = side.fields d
  keeps : ∀ rt ∈ s.routes, rt.id = (side.route d).id → side.fields rt.item = side.fields d → rt ∈ s'.routes

theorem tryStart_reconciled (h : s.WF) (hrun : s.running = true)
    (hnew : ∀ rt ∈ s.routes, rt.id ≠ (side.route d).id) : Reconciled d s (s.tryStart v d) := by
  unfold tryStart
  rcases hs : s.startRoute v d with ⟨e | rt, s₁⟩
  · have hn := startRoute_error h.fresh hs
    have hmem : ∀ rt, rt ∈ s₁.routes ↔ rt ∈ s.routes := fun rt => by rw [hn.routes]
    exact {
      wf := h.notStarted hn
      running := hn.running.trans hrun
      others := fun rt _ => hmem rt
      agrees := fun rt hrt hid => absurd hid (hnew rt ((hmem rt).mp hrt))
      keeps := fun rt hrt hid => absurd hid (hnew rt hrt) }
  · have hst := startRoute_ok hs
    have hid : rt.id = (side.route d).id := by rw [Runtime.id, hst.item]
    refine ⟨h.started hst hrun (hid ▸ hnew), hst.running.trans hrun, fun rt' hne => ?_, fun rt' hrt' hid' => ?_,
      fun rt' hrt' hid' => absurd hid' (hnew rt' hrt')⟩
    · have hne' : rt' ≠ rt := fun he => hne (he ▸ hid)
      simp only [Table.mem_put, hst.routes, hne', or_false]
      exact ⟨fun h => h.1, fun h => ⟨h, fun he => hne (he.trans hid)⟩⟩
    · rcases Table.mem_put.mp hrt' with ⟨hold, _⟩ | rfl
      · exact absurd hid' (hnew rt' (hst.routes ▸ hold))
      · rw [hst.item]

theorem reconcileRoute_cases (v : Os) (d : side.Item) (s : Forwarder side) :
    (s.reconcileRoute v d = s ∧ ∃ rt ∈ s.routes, rt.id = (side.route d).id ∧ side.fields rt.item = side.fields d) ∨
    ∃ s₀, s.reconcileRoute v d = s₀.tryStart v d ∧
      (∀ rt ∈ s.routes, rt.id = (side.route d).id → side.fields rt.item ≠ side.fields d) ∧
      (s₀ = s ∧ (∀ rt ∈ s.routes, rt.id ≠ (side.route d).id) ∨
        ∃ rt ∈ s.routes, rt.id = (side.route d).id ∧ s₀ = s.stopRoute rt) := by
  unfold reconcileRoute
  cases hfind : s.routes.find (side.route d).id with
  | none =>
    have hnone : ∀ rt ∈ s.routes, rt.id ≠ (side.route d).id := fun rt hrt => Table.find_eq_none.mp hfind rt hrt
    exact .inr ⟨s, rfl, fun rt hrt hid => absurd hid (hnone rt hrt), .inl ⟨rfl, hnone⟩⟩
  | some existing =>
    obtain ⟨hmem, hid⟩ := Table.find_eq_some.mp hfind
    cases hch : side.routeChanged existing.item d with
    | false =>
      have hsame : side.fields existing.item = side.fields d :=
        not_not.mp fun hne => by simp [(side.routeChanged_iff _ _).mpr hne] at hch
      simp only [hch, Bool.not_false, if_true]
      exact .inl ⟨trivial, existing, hmem, hid, hsame⟩
    | true =>
      simp only [hch, Bool.not_true, Bool.false_eq_true, if_false]
      refine .inr ⟨_, rfl, fun rt hrt hrtd => ?_, .inr ⟨existing, hmem, hid, rfl⟩⟩
      rw [s.routes.key_inj hrt hmem (hrtd.trans hid.symm)]
      exact (side.routeChanged_iff _ _).mp hch

theorem reconcileRoute_reconciled (h : s.WF) (hrun : s.running = true) : Reconciled d s (s.reconcileRoute v d) := by
  obtain ⟨heq, rt₀, hrt₀, hid₀, hf₀⟩ | ⟨s₀, heq, hchanged, hs₀⟩ := reconcileRoute_cases v d s
  · rw [heq]
    refine ⟨h, hrun, fun _ _ => Iff.rfl, fun rt hrt hid => ?_, fun _ hrt _ _ => hrt⟩
    rw [s.routes.key_inj hrt hrt₀ (hid.trans hid₀.symm), hf₀]
  · rw [heq]
    obtain ⟨rfl, hnone⟩ | ⟨existing, hmem, hid, rfl⟩ := hs₀
    · exact tryStart_reconciled h hrun hnone
    · have hgone : ∀ rt ∈ (s.stopRoute existing).routes, rt.id ≠ (side.route d).id := fun rt hrt =>
        hid ▸ (mem_routes_stopRoute.mp hrt).2
      have hst := tryStart_reconciled (v := v) (d := d) (h.stopRoute hmem) hrun hgone
      refine ⟨hst.wf, hst.running, fun rt hne => ?_, hst.agrees, fun rt hrt hid' hf => absurd hf (hchanged rt hrt hid')⟩
      rw [hst.others rt hne, mem_routes_stopRoute, hid]
      exact ⟨fun h => h.1, fun h => ⟨h, hne⟩⟩

theorem nodup_order {α κ : Type} {key : α → κ} (t : Table key) (n : Nat) : (v.order n t.rows).Nodup :=
  (v.perm n t.rows).nodup_iff.mpr (List.Nodup.of_map key t.nodup)

theorem not_mem_seen {α : Type} {l seen rest : List α} {a : α} (hl : l.Nodup) (h : l = seen ++ a :: rest) :
    a ∉ seen := by
  rw [h] at hl
  exact fun ha => (List.nodup_append.mp hl).2.2 a ha a List.mem_cons_self rfl

theorem stopAllRemoved_spec (v : Os) (want : Table fun d : side.Item => (side.route d).id) (h : s.WF) :
    (s.stopAllRemoved v want).WF ∧ (s.stopAllRemoved v want).running = s.running ∧
      ∀ rt, rt ∈ (s.stopAllRemoved v want).routes ↔ rt ∈ s.routes ∧ want.find rt.id ≠ none := by
  have hloop := List.foldl_visited (f := stopRemoved want) (l := v.order s.calls s.routes.rows) (b := s.ranged)
    (I := fun seen s₁ => s₁.WF ∧ s₁.running = s.running ∧
      ∀ rt, rt ∈ s₁.routes ↔ rt ∈ s.routes ∧ (rt ∈ seen → want.find rt.id ≠ none))
    ⟨h.ranged, rfl, fun rt => by simp [ranged]⟩ ?_
  · obtain ⟨hwf, hrun, hmem⟩ := hloop
    refine ⟨hwf, hrun, fun rt => ?_⟩
    refine (hmem rt).trans ?_
    exact and_congr_right fun hrt => ⟨fun h => h (RangeOrder.mem_order.mpr hrt), fun h _ => h⟩
  · intro seen rt rest s₁ hl hI
    obtain ⟨hwf, hrun, hmem⟩ := hI
    have hrt : rt ∈ s.routes := RangeOrder.mem_order.mp (hl ▸ List.mem_append_right _ List.mem_cons_self)
    have hunseen := not_mem_seen (nodup_order s.routes s.calls) hl
    have hhere : rt ∈ s₁.routes := (hmem rt).mpr ⟨hrt, fun h => absurd h hunseen⟩
    unfold stopRemoved
    split
    · next hgone =>
      refine ⟨hwf.stopRoute hhere, hrun, fun rt' => ?_⟩
      rw [mem_routes_stopRoute, hmem rt']
      simp only [List.mem_append, List.mem_singleton]
      constructor
      · intro hkept
        obtain ⟨⟨hrt', hseen⟩, hne⟩ := hkept
        exact ⟨hrt', fun h => h.elim hseen fun he => absurd (he ▸ rfl) hne⟩
      · intro hkept
        obtain ⟨hrt', hseen⟩ := hkept
        refine ⟨⟨hrt', fun h => hseen (.inl h)⟩, fun hid => hseen (.inr (s.routes.key_inj hrt' hrt hid)) ?_⟩
        rw [hid, hgone]
    · next hwanted =>
      refine ⟨hwf, hrun, fun rt' => ?_⟩
      rw [hmem rt']
      simp only [List.mem_append, List.mem_singleton]
      constructor
      · intro hkept
        obtain ⟨hrt', hseen⟩ := hkept
        exact ⟨hrt', fun h => h.elim hseen fun he => he ▸ hwanted⟩
      · intro hkept
        obtain ⟨hrt', hseen⟩ := hkept
        exact ⟨hrt', fun h => hseen (.inl h)⟩

theorem startDesired_spec (v : Os) (want : Table fun d : side.Item => (side.route d).id) (h : s.WF)
    (hrun : s.running = true) (hwant : ∀ rt ∈ s.routes, want.find rt.id ≠ none) :
    (s.startDesired v want).WF ∧ (s.startDesired v want).running = true ∧
      (∀ rt ∈ (s.startDesired v want).routes, ∃ d ∈ want, (side.route d).id = rt.id ∧
        side.fields rt.item = side.fields d) ∧
      ∀ rt ∈ s.routes, ∀ d ∈ want, (side.route d).id = rt.id → side.fields rt.item = side.fields d →
        rt ∈ (s.startDesired v want).routes := by
  have hloop := List.foldl_visited (f := reconcileRoute v) (l := v.order s.calls want.rows) (b := s.ranged)
    (I := fun seen s₁ => s₁.WF ∧ s₁.running = true ∧
      (∀ rt ∈ s₁.routes, ∃ d ∈ want, (side.route d).id = rt.id ∧ (d ∈ seen → side.fields rt.item = side.fields d)) ∧
      ∀ rt ∈ s.routes, ∀ d ∈ want, (side.route d).id = rt.id → side.fields rt.item = side.fields d → rt ∈ s₁.routes)
    ⟨h.ranged, hrun, fun rt hrt => ?_, fun rt hrt _ _ _ _ => hrt⟩ ?_
  · obtain ⟨hwf, hrun', hagree, hkeep⟩ := hloop
    refine ⟨hwf, hrun', fun rt hrt => ?_, hkeep⟩
    obtain ⟨d, hd, hid, hf⟩ := hagree rt hrt
    exact ⟨d, hd, hid, hf (RangeOrder.mem_order.mpr hd)⟩
  · obtain ⟨d, hd⟩ := Option.ne_none_iff_exists'.mp (hwant rt hrt)
    obtain ⟨hmem, hid⟩ := Table.find_eq_some.mp hd
    exact ⟨d, hmem, hid, fun h => absurd h List.not_mem_nil⟩
  · intro seen d rest s₁ hl hI
    obtain ⟨hwf, hrun', hagree, hkeep⟩ := hI
    have hd : d ∈ want := RangeOrder.mem_order.mp (hl ▸ List.mem_append_right _ List.mem_cons_self)
    have hstep := reconcileRoute_reconciled (v := v) (d := d) hwf hrun'
    refine ⟨hstep.wf, hstep.running, fun rt hrt => ?_, fun rt hrt d' hd' hid hf => ?_⟩
    · by_cases hrtd : rt.id = (side.route d).id
      · exact ⟨d, hd, hrtd.symm, fun _ => hstep.agrees rt hrt hrtd⟩
      · obtain ⟨d', hd', hid, hf⟩ := hagree rt ((hstep.others rt hrtd).mp hrt)
        refine ⟨d', hd', hid, fun hseen => ?_⟩
        rcases List.mem_append.mp hseen with hseen | hseen
        · exact hf hseen
        · rw [List.mem_singleton.mp hseen] at hid
          exact absurd hid.symm hrtd
    · have hrt₁ := hkeep rt hrt d' hd' hid hf
      by_cases hrtd : rt.id = (side.route d).id
      · have heq : d' = d := want.key_inj hd' hd (hid.trans hrtd)
        exact hstep.keeps rt hrt₁ hrtd (heq ▸ hf)
      · exact (hstep.others rt hrtd).mpr hrt₁

theorem reconcileRoutes_spec (config : Option (List side.Item)) (h : s.WF) (hrun : s.running = true) :
    (s.reconcileRoutes v config).WF ∧ (s.reconcileRoutes v config).running = true ∧
      (∀ rt ∈ (s.reconcileRoutes v config).routes, ∃ d ∈ desired config, (side.route d).id = rt.id ∧
        side.fields rt.item = side.fields d) ∧
      ∀ rt ∈ s.routes, ∀ d ∈ desired config, (side.route d).id = rt.id → side.fields rt.item = side.fields d →
        rt ∈ (s.reconcileRoutes v config).routes := by
  obtain ⟨hwf, hrun', hmem⟩ := stopAllRemoved_spec v (desired config) h
  obtain ⟨hwf', hrun'', hagree, hkeep⟩ := startDesired_spec v (desired config) hwf (hrun'.trans hrun)
    fun rt hrt => ((hmem rt).mp hrt).2
  refine ⟨hwf', hrun'', hagree, fun rt hrt d hd hid hf => hkeep rt ((hmem rt).mpr ⟨hrt, ?_⟩) d hd hid hf⟩
  rw [Table.find_eq_some.mpr ⟨hd, hid⟩]
  simp

theorem reconcile_agrees {config : Option (List side.Item)} (h : s.WF) (hrt : rt ∈ (s.reconcile v config).2.routes) :
    ∃ d ∈ desired config, (side.route d).id = rt.id ∧ side.fields rt.item = side.fields d := by
  cases hs : s.running with
  | false =>
    have heq : (s.reconcile v config).2 = s := by simp [Forwarder.reconcile, hs]
    rw [heq] at hrt
    exact absurd hrt (h.stopped hs rt)
  | true =>
    have heq : (s.reconcile v config).2 = s.reconcileRoutes v config := by simp [Forwarder.reconcile, hs]
    rw [heq] at hrt
    exact (reconcileRoutes_spec config h hs).2.2.1 rt hrt

theorem WF.reconcile (config : Option (List side.Item)) (h : s.WF) : (s.reconcile v config).2.WF := by
  unfold Forwarder.reconcile
  split
  · exact h
  · next hrun => exact (reconcileRoutes_spec config h (by simpa using hrun)).1

theorem WF.start (h : s.WF) : s.start.2.WF := by
  unfold Forwarder.start
  split
  · exact h
  · exact ⟨fun hr => (by cases hr), h.fresh, h.owned, h.shaped, h.opened, h.apart⟩

theorem stop_eq (v : Os) (s : Forwarder side) (hrun : s.running = true) :
    s.stop v = (.ok (), { s.stopAllRemoved v ∅ with icmpProxy := none, running := false }) := by
  have hbody : (fun (s : Forwarder side) (rt : Runtime side) => s.stopRoute rt) = stopRemoved ∅ := by
    funext s rt
    exact (if_pos (Table.find_eq_none.mpr fun _ h => absurd h Table.not_mem_empty)).symm
  simp only [stop, hrun, hbody, stopAllRemoved, Bool.not_true, Bool.false_eq_true, if_false]

theorem WF.stop (h : s.WF) : (s.stop v).2.WF := by
  cases hrun : s.running with
  | false => simpa [Forwarder.stop, hrun] using h
  | true =>
    rw [stop_eq v s hrun]
    obtain ⟨hwf, _, hmem⟩ := stopAllRemoved_spec v ∅ h
    have hnone : ∀ rt, ¬ rt ∈ (s.stopAllRemoved v ∅).routes := fun rt hrt =>
      ((hmem rt).mp hrt).2 (Table.find_eq_none.mpr fun _ h => absurd h Table.not_mem_empty)
    exact ⟨fun _ => hnone, hwf.fresh, hwf.owned, hwf.shaped, hwf.opened, hwf.apart⟩

theorem after_concat (calls : List (ForwarderCall side)) (c : ForwarderCall side) :
    Forwarder.after v (calls ++ [c]) = c.run v (Forwarder.after v calls) := by
  simp [Forwarder.after]

theorem WF.after (calls : List (ForwarderCall side)) : (Forwarder.after v calls).WF := by
  suffices hfold : ∀ (calls : List (ForwarderCall side)) (s : Forwarder side), s.WF →
    (calls.foldl (ForwarderCall.run v) s).WF from hfold calls _ .new
  intro calls
  induction calls with
  | nil => exact fun s h => h
  | cons c calls ih =>
    intro s h
    refine ih _ ?_
    cases c with
    | start => exact h.start
    | stop => exact h.stop
    | reconcile config => exact h.reconcile config

end Forwarder

open Forwarder (desired)

theorem mem_routes_of_run {v : Os} {s : Forwarder side} {rt : Runtime side} (h : s.WF) {c : ForwarderCall side}
    (hc : ∀ config, c ≠ .reconcile config) (hrt : rt ∈ (c.run v s).routes) : rt ∈ s.routes := by
  cases c with
  | start =>
    simp only [ForwarderCall.run, Forwarder.start] at hrt
    split at hrt <;> exact hrt
  | stop =>
    cases hrun : s.running with
    | false => simpa [ForwarderCall.run, Forwarder.stop, hrun] using hrt
    | true =>
      rw [ForwarderCall.run, Forwarder.stop_eq v s hrun] at hrt
      exact (((Forwarder.stopAllRemoved_spec v ∅ h).2.2 rt).mp hrt).1
  | reconcile config => exact absurd rfl (hc config)

theorem mem_routes_of_after {v : Os} {rt : Runtime side} {calls since : List (ForwarderCall side)}
    (hsince : ∀ c ∈ since, ∀ config, c ≠ .reconcile config) (hrt : rt ∈ (Forwarder.after v (calls ++ since)).routes) :
    rt ∈ (Forwarder.after v calls).routes := by
  induction since using List.reverseRecOn with
  | nil => simpa using hrt
  | append_singleton since c ih =>
    rw [← List.append_assoc, Forwarder.after_concat] at hrt
    have hc := hsince c (List.mem_append_right _ (List.mem_singleton_self c))
    exact ih (fun c' hc' => hsince c' (List.mem_append_left _ hc')) (mem_routes_of_run (.after _) hc hrt)

/-- **Running routes agree with the last configuration.** After a reconcile every running
route is in the configuration just given and has its listen address, its protocol and its
dial address; it has open listeners of its protocol, at that address, and no others; and a
route whose fields are those of the configuration before keeps the listeners it has. -/
theorem running_agrees (side : Side) (v : Os) (calls : List (ForwarderCall side)) (config : Option (List side.Item)) :
    let s := Forwarder.after v calls
    let s' := (s.reconcile v config).2
    (∀ rt ∈ s'.routes, (∃ d ∈ config.getD [], (side.route d).id = rt.id ∧ side.listen rt.item = side.listen d ∧
        (side.route rt.item).protocol = (side.route d).protocol ∧ side.dial rt.item = side.dial d) ∧
      rt.Shaped ∧ ∀ l, rt.Owns l → l ∈ s'.sockets) ∧
    ∀ past last since, calls = past ++ [.reconcile last] ++ since → (∀ c ∈ since, ∀ config, c ≠ .reconcile config) →
      ∀ d₁ ∈ desired last, ∀ d ∈ desired config, (side.route d₁).id = (side.route d).id →
        side.fields d₁ = side.fields d → ∀ rt ∈ s.routes, rt.id = (side.route d).id → rt ∈ s'.routes := by
  intro s s'
  have hwf : s.WF := .after calls
  have hwf' : s'.WF := hwf.reconcile config
  refine ⟨fun rt hrt => ⟨?_, hwf'.shaped rt hrt, hwf'.opened rt hrt⟩, ?_⟩
  · obtain ⟨d, hd, hid, hf⟩ := Forwarder.reconcile_agrees hwf hrt
    obtain ⟨hlisten, hdial, hproto⟩ := side.traffic _ _ hf
    exact ⟨d, Table.mem_of_mem_ofList hd, hid, hlisten, hproto, hdial⟩
  · intro past last since hcalls hsince d₁ hd₁ d hd hid hf rt hrt hrtd
    have hrun : s.running = true := by
      by_contra hno
      exact hwf.stopped (by simpa using hno) rt hrt
    -- the route runs as the configuration before had it
    have hlast : rt ∈ ((Forwarder.after v past).reconcile v last).2.routes := by
      have hafter : rt ∈ (Forwarder.after v calls).routes := hrt
      rw [hcalls] at hafter
      have hthen := mem_routes_of_after hsince hafter
      rwa [Forwarder.after_concat] at hthen
    obtain ⟨d₂, hd₂, hid₂, hf₂⟩ := Forwarder.reconcile_agrees (.after past) hlast
    have heq : d₂ = d₁ := (desired last).key_inj hd₂ hd₁ (hid₂.trans (hrtd.trans hid.symm))
    have hs' : s' = s.reconcileRoutes v config := by simp [s', Forwarder.reconcile, hrun]
    rw [hs']
    exact (Forwarder.reconcileRoutes_spec config hwf hrun).2.2.2 rt hrt d hd hrtd.symm
      (hf₂.trans ((congrArg side.fields heq).trans hf))

end EdgeFabric.Routing
