/-
Queries and transfers while the DNS server is reconfigured. A query looks for its zone in one
section of the lock and reads nothing but that zone afterwards, and `Reconcile` leaves the zones
it replaces as they are. So whatever the interleaving with calls of `Reconcile`, an answer is
the one that the server gives under a single configuration, the one in force when the query
found its zone (`reconfiguration_atomic`).
-/
import EdgeFabric.DnsServer.Server

namespace EdgeFabric.DnsServer
open DNSService (ZoneWithRecords)

/-! ## Interleavings -/

/-- What runs at the same time: queries, and callers of `Reconcile`. -/
inductive Client where
  | query (r : Request)
  | reconciles (configs : List (Option (List ZoneWithRecords)))

def Client.prog (v : Letters) (axfrEnabled : Bool) : Client → Handler (Option Reply)
  | .query r => do
    let reply ← handleQuery v axfrEnabled r
    return some reply
  | .reconciles configs => do
    Prog.each (reconcile v) configs
    return none

section
variable {v : Letters} {axfrEnabled : Bool} {ι : Type} [DecidableEq ι]

def system (v : Letters) (axfrEnabled : Bool) (clients : ι → Client) : Sys ι Unit Unit Server String (Option Reply) :=
  { state := .started, procs := fun i => (clients i).prog v axfrEnabled }

theorem Client.prog_within (c : Client) : (c.prog v axfrEnabled).Within fun _ => Server.Step v := by
  cases c with
  | query r => exact .bind handleQuery_within fun _ => .pure _
  | reconciles configs =>
    refine .bind ?_ fun _ => .pure _
    induction configs with
    | nil => exact .pure ()
    | cons config configs ih => exact .bind (reconcile_within config) fun _ => ih

/-- After the steps of `sched`. -/
def after (v : Letters) (axfrEnabled : Bool) (clients : ι → Client) (sched : List ι) :
    Sys ι Unit Unit Server String (Option Reply) :=
  (system v axfrEnabled clients).run () sched

variable {clients : ι → Client} {i : ι} {r : Request} {sched : List ι}

theorem after_concat (j : ι) : after v axfrEnabled clients
    (sched ++ [j]) = (after v axfrEnabled clients sched).step () j := by
  simp [after, Sys.run]

theorem after_within : (after v axfrEnabled clients sched).AllWithin fun _ => Server.Step v := by
  induction sched using List.reverseRecOn with
  | nil => exact fun j => (clients j).prog_within
  | append_singleton sched j ih =>
    rw [after_concat]
    exact ih.step () j

theorem after_sound : (after v axfrEnabled clients sched).state.Sound v := by
  induction sched using List.reverseRecOn with
  | nil => exact Server.sound_started v
  | append_singleton sched j ih =>
    rw [after_concat]
    exact after_within.state (fun _ _ _ hstep hs => Server.Step.sound hstep hs) () j ih

/-- How far a query has come after the steps of `sched`: it has not begun, it was counted, or its answer
is that of the configuration which was in force at one of its steps. -/
inductive Progress (v : Letters) (axfrEnabled : Bool) (clients : ι → Client) (i : ι) (r : Request)
    (sched : List ι) : Prop where
  | waiting (h : (after v axfrEnabled clients sched).procs i = (Client.query r).prog v axfrEnabled)
  | counted (q : Question) (hq : r.question = some q)
      (h : (after v axfrEnabled clients sched).procs i = findAndAnswer v axfrEnabled r >>= fun reply =>
        return some reply)
  | answered (before rest : List ι) (hsched : sched = before ++ i :: rest)
      (hrunning : (after v axfrEnabled clients before).result i = none)
      (hkeeps : (after v axfrEnabled clients before).state.Keeps (after v axfrEnabled clients sched).state)
      (hyields : ((after v axfrEnabled clients sched).procs i).Yields (after v axfrEnabled clients before).state.Keeps
        (· = .ok (some (respond v axfrEnabled r (after v axfrEnabled clients before).state.zoneAt))))

theorem procs_step_of_ne {c : Sys ι Unit Unit Server String (Option Reply)} {j : ι} (h : i ≠ j) :
    (c.step () j).procs i = c.procs i := by
  cases hp : c.procs j with
  | ret x => rw [Sys.step_of_ret hp]
  | step l act next => simp [Sys.step_of_step hp, h]

theorem Progress.step (h : Progress v axfrEnabled clients i r sched) (j : ι) :
    Progress v axfrEnabled clients i r (sched ++ [j]) := by
  have hstate : (after v axfrEnabled clients sched).state.Keeps (after v axfrEnabled clients (sched ++ [j])).state := by
    rw [after_concat]
    exact after_within.state (fun _ _ _ hstep hs => Server.Step.keeps hstep hs) () j fun _ _ h => h
  cases h with
  | waiting h =>
    by_cases hij : i = j
    · subst hij
      have hrunning : (after v axfrEnabled clients sched).result i = none := Sys.result_of_step h
      have hnext : (after v axfrEnabled clients (sched ++ [i])).procs i =
          findAndAnswer v axfrEnabled r >>= fun reply => return some reply := by
        rw [after_concat, Sys.step_of_step h]
        exact Function.update_self i _ _
      cases hq : r.question with
      | none =>
        refine .answered sched [] rfl hrunning hstate ?_
        rw [hnext, findAndAnswer, respond, hq]
        exact .pure rfl
      | some q => exact .counted q hq hnext
    · refine .waiting ?_
      rw [after_concat, procs_step_of_ne hij]
      exact h
  | counted q hq h =>
    by_cases hij : i = j
    · subst hij
      have hlook : (after v axfrEnabled clients sched).procs i = .step () (fun _ s => s) fun _ s =>
          answerFound v axfrEnabled r q (s.findZone (v.toLower q.name)) >>= fun reply => return some reply := by
        rw [h, findAndAnswer, hq]
        rfl
      refine .answered sched [] rfl (Sys.result_of_step hlook) hstate ?_
      have hnext : (after v axfrEnabled clients (sched ++ [i])).procs i =
          answerFound v axfrEnabled r q ((after v axfrEnabled clients sched).state.findZone (v.toLower q.name)) >>=
            fun reply => return some reply := by
        rw [after_concat, Sys.step_of_step hlook]
        exact Function.update_self i _ _
      rw [hnext, respond, hq]
      exact (answerFound_yields after_sound).map some
    · refine .counted q hq ?_
      rw [after_concat, procs_step_of_ne hij]
      exact h
  | answered before rest hsched hrunning hkeeps hyields =>
    refine .answered before (rest ++ [j])
      (by simp [hsched]) hrunning (fun addr zd hzone => hstate addr zd (hkeeps addr zd hzone)) ?_
    rw [after_concat]
    exact Sys.yields_step hyields hkeeps () j

theorem progress (hi : clients i = .query r) : Progress v axfrEnabled clients i r sched := by
  induction sched using List.reverseRecOn with
  | nil => exact .waiting (congrArg (Client.prog v axfrEnabled) hi)
  | append_singleton sched j ih => exact ih.step j

end

/-- However calls of `Reconcile` and queries are interleaved, what a query returns is what the server answers
under the configuration that was in force at one of the query's own steps. -/
theorem reconfiguration_atomic (v : Letters) (axfrEnabled : Bool) {ι : Type} [DecidableEq ι] (clients : ι → Client)
    (sched : List ι) (i : ι) (r : Request) (hi : clients i = .query r) (result : Except String (Option Reply))
    (hresult : (after v axfrEnabled clients sched).result i = some result) :
    ∃ before rest reply, sched = before ++ i :: rest ∧ (after v axfrEnabled clients before).result i = none ∧
      underConfig v axfrEnabled (after v axfrEnabled clients before).state.config r = .ok reply ∧
        result = .ok (some reply) := by
  cases progress hi with
  | waiting h =>
    have hnone : (after v axfrEnabled clients sched).result i = none := Sys.result_of_step h
    cases hnone.symm.trans hresult
  | counted q hq h =>
    have hnone : (after v axfrEnabled clients sched).result i = none := by
      rw [findAndAnswer, hq] at h
      exact Sys.result_of_step h
    cases hnone.symm.trans hresult
  | answered before rest hsched hrunning hkeeps hyields =>
    exact ⟨before, rest, _, hsched, hrunning, underConfig_sound after_sound r, Sys.yields_result hyields hresult⟩

namespace Sample

def soaQuery : Request where
  question := some { name := "a.".toList, qtype := typeSOA }
  client := none
  order := .asStored

/-- A query, and two calls of `Reconcile`. -/
def clients (reconciler : Bool) : Client :=
  if reconciler then .reconciles [some [zone "a." []], some [zone "b." []]] else .query soaQuery

/-- The query looks for its zone between the two calls, and reads it after the second one. -/
def between : List Bool := [false, true, false, true, false]

end Sample

/-- The answer is the one under the first configuration. -/
theorem reconfiguration_atomic_between :
    (after Sample.letters true Sample.clients Sample.between).result false =
        some (.ok (some (.message (.ofAnswer [buildSOA (buildZoneData Sample.letters (Sample.zone "a." []))])))) ∧
      ∃ before rest reply, Sample.between = before ++ false :: rest ∧
        (after Sample.letters true Sample.clients before).result false = none ∧
        underConfig Sample.letters true (after Sample.letters true Sample.clients before).state.config Sample.soaQuery =
          .ok reply ∧
        (.ok (some (.message (.ofAnswer [buildSOA (buildZoneData Sample.letters (Sample.zone "a." []))]))) :
          Except String _) = .ok (some reply) := by
  have hresult : (after Sample.letters true Sample.clients Sample.between).result false =
      some (.ok (some (.message (.ofAnswer [buildSOA (buildZoneData Sample.letters (Sample.zone "a." []))])))) := by
    decide
  exact ⟨hresult, reconfiguration_atomic Sample.letters true Sample.clients Sample.between false Sample.soaQuery
    rfl _ hresult⟩

end EdgeFabric.DnsServer
