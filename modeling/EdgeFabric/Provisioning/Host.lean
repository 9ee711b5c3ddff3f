/-
What the pipelines do to the files of a host: the binary, its staging and backup copies,
the unit of the service. The steps send the commands below (`steps_send`); a step that
succeeds has had all its effects, one that fails some first ones.

When the backup step fails, the rollback installs whatever backup an earlier upgrade has
left (`rollback_installs_stale_backup`, `rollback_restores_binary`). And enrollment uploads
the binary to its staging path, from which it never moves it to the path that the service
starts (`enrolled_service_has_no_binary`, `service_starts_uploaded_binary`).
-/
import EdgeFabric.Provisioning.PipelineLog
import EdgeFabric.Lib.Shell

namespace EdgeFabric

open Shell (Files Deed Command)

/-! ## The commands of the steps -/

namespace Host

def validate : Command := .run "echo edgefabric-ssh-ok && uname -a"

def makeBin : Command := .run "mkdir -p /usr/local/bin"

def backup : Command :=
  .ifFile remoteBinaryPath (.and (.cp remoteBinaryPath remoteBinaryBackup) (.run "echo backed-up"))
    (.run "echo no-existing-binary")

def swap : Command := .mv remoteBinaryStaging remoteBinaryPath

def rollback : Command :=
  .ifFile remoteBinaryBackup
    (.and (.mv remoteBinaryBackup remoteBinaryPath)
      (.and (.run "systemctl restart edgefabric") (.run "echo rolled-back")))
    (.run "echo no-backup-available")

def configPath : String := "/etc/edgefabric/config.yaml"
def unitPath : String := "/etc/systemd/system/edgefabric.service"
def wgPath : String := "/etc/wireguard/wg0.conf"

def writeConfig (cfg : String) : Command := .and (.run "mkdir -p /etc/edgefabric") (.cat configPath "EFCONFIG" cfg)

def installUnit : Command :=
  .lines (.cat unitPath "EFUNIT" generateSystemdUnit)
    (.and (.run "systemctl daemon-reload") (.run "systemctl enable edgefabric"))

def writeWireGuard (wgConf : String) : Command := .and (.run "mkdir -p /etc/wireguard") (.cat wgPath "WGCONF" wgConf)

def wgUp : Command := .run "wg-quick down wg0 2>/dev/null; wg-quick up wg0"

def cleanup : Command :=
  .and (.run "systemctl disable edgefabric 2>/dev/null || true") <| .and (.rm unitPath) <|
    .and (.run "systemctl daemon-reload") <| .and (.rm remoteBinaryPath) <| .and (.rmAll "/etc/edgefabric") <|
    .rmAll "/var/lib/edgefabric"

/-- What a run of a pipeline brings to the host: the binary it uploads, the agent's
configuration, and that of WireGuard if it has one. -/
structure Payload where
  binary : String
  config : String
  wgConfig : Option String
  deriving DecidableEq, Repr

def actions (x : Payload) (action : ProvisioningAction) : ProvisioningStep → List Deed
  | .validateSSH => [.command validate]
  | .uploadBinary => [.command makeBin, .upload remoteBinaryStaging x.binary]
  | .backupBinary => [.command backup]
  | .atomicSwap => [.command swap]
  | .rollback => [.command rollback]
  | .writeConfig => [.command (writeConfig x.config)]
  | .installSystemd => [.command installUnit]
  | .startService => [.command (.run "systemctl start edgefabric")]
  | .stopService => [.command (.run "systemctl stop edgefabric")]
  | .verifyOnline => [.command (.run "systemctl is-active edgefabric")]
  | .sendCommand => [.command (.run (commandFor action))]
  | .configureWireGuard =>
    match x.wgConfig with
    | none => []
    | some wgConf => [.command (writeWireGuard wgConf), .command wgUp]
  | .cleanup => [.command cleanup]
  | .generateWGKeys | .waitEnrollment => []

end Host

/-- The steps that change the files send the texts of these commands. -/
theorem steps_send (node : Node) :
    stepBackupBinary node = remoteStep node Host.backup.text "backup binary" (fun output => { output }) ∧
    stepAtomicSwap node =
      remoteStep node Host.swap.text "atomic swap" (fun _ => { output := "binary swapped atomically" }) ∧
    stepRollback node = remoteStep node Host.rollback.text "rollback" (fun output => { output }) ∧
    stepInstallSystemd node = remoteStep node Host.installUnit.text "install systemd unit"
      (fun _ => { output := "systemd unit installed and enabled" }) := by
  refine ⟨congrArg (remoteStep node · _ _) ?_, rfl, congrArg (remoteStep node · _ _) ?_,
    congrArg (remoteStep node · _ _) ?_⟩
  · decide +kernel
  · decide +kernel
  · decide +kernel

/-! ## What a run leaves on the host -/

/-- What a step does to the files, by what is recorded of it: all its actions if it
succeeded, and some first ones if it failed. -/
def StepDoes (x : Host.Payload) (action : ProvisioningAction) (r : StepResult) (f f' : Files) : Prop :=
  if r.status = .success then Shell.effects (Host.actions x action r.step) f = some f'
  else Shell.Part (Host.actions x action r.step) f f'

inductive LogDoes (x : Host.Payload) (action : ProvisioningAction) : List StepResult → Files → Files → Prop where
  | nil {f} : LogDoes x action [] f f
  | cons {r rest f f₁ f₂} : StepDoes x action r f f₁ → LogDoes x action rest f₁ f₂ → LogDoes x action (r :: rest) f f₂

structure HostJob where
  provisioner : Provisioner
  env : Env
  world : World
  job : ProvisioningJob
  node : Node
  payload : Host.Payload

namespace HostJob
variable (j : HostJob)

def final : ProvisioningJob :=
  match ((runPipeline j.provisioner j.job j.node (pipelineFor j.job.action)).exec j.env j.world).1 with
  | .ok job' => job'
  | .error _ => j.job

def log : List StepResult := j.final.steps.getD []

/-- The run makes `f'` of the files `f`. -/
def On (f f' : Files) : Prop := LogDoes j.payload j.job.action j.log f f'

def Succeeded (step : ProvisioningStep) : Prop := ∃ r ∈ j.log, r.step = step ∧ r.status = .success

end HostJob

theorem LogDoes.append_inv {x : Host.Payload} {action : ProvisioningAction} {a b : List StepResult} {f f' : Files}
    (h : LogDoes x action (a ++ b) f f') : ∃ f₁, LogDoes x action a f f₁ ∧ LogDoes x action b f₁ f' := by
  induction a generalizing f with
  | nil => exact ⟨f, .nil, h⟩
  | cons r a ih =>
    cases h with
    | cons hr hrest =>
      obtain ⟨f₁, ha, hb⟩ := ih hrest
      exact ⟨f₁, .cons hr ha, hb⟩

section
variable {x : Host.Payload} {action : ProvisioningAction}

theorem LogDoes.of_not_touches {log : List StepResult} {f f' : Files} {path : String} (h : LogDoes x action log f f')
    (hpath : ∀ r ∈ log, ∀ a ∈ Host.actions x action r.step, ¬ a.Touches path) : f' path = f path := by
  induction h with
  | nil => rfl
  | @cons r rest f f₁ f₂ hr _ ih =>
    rw [ih fun r' hr' => hpath r' (List.mem_cons_of_mem _ hr')]
    have hnot := hpath r List.mem_cons_self
    unfold StepDoes at hr
    split at hr
    · exact Shell.effects_of_not_touches hr hnot
    · exact hr.of_not_touches hnot

theorem upgrade_touches {step : ProvisioningStep} (hstep : step ∈ pipelineFor .upgrade) :
    (step ≠ .backupBinary → ∀ a ∈ Host.actions x action step, ¬ a.Touches remoteBinaryBackup) ∧
    (step ≠ .atomicSwap → ∀ a ∈ Host.actions x action step, ¬ a.Touches remoteBinaryPath) := by
  simp only [pipelineFor, List.mem_cons, List.not_mem_nil, or_false] at hstep
  rcases hstep with rfl | rfl | rfl | rfl | rfl | rfl | rfl <;>
    simp [Host.actions, Deed.Touches, Command.Touches, Host.validate, Host.makeBin, Host.backup, Host.swap,
      remoteBinaryBackup, remoteBinaryPath, remoteBinaryStaging]

end

theorem Host.backup_effect {f f' : Files} (h : Host.backup.effect f = some f') {b : String}
    (hb : f remoteBinaryPath = some b) : f' remoteBinaryBackup = some b := by
  have hf : Host.backup.effect f = some (Function.update f remoteBinaryBackup (some b)) := by
    simp [Host.backup, Command.effect, hb]
  rw [hf] at h
  cases h
  exact Function.update_self ..

theorem Host.rollback_effect {f f' : Files} (h : Host.rollback.effect f = some f') :
    f' remoteBinaryPath = (f remoteBinaryBackup).or (f remoteBinaryPath) := by
  cases hb : f remoteBinaryBackup with
  | none =>
    have hf : Host.rollback.effect f = some f := by simp [Host.rollback, Command.effect, hb]
    rw [hf] at h
    cases h
    rfl
  | some b =>
    have hf : Host.rollback.effect f =
        some (Function.update (Function.update f remoteBinaryBackup none) remoteBinaryPath (some b)) := by
      simp [Host.rollback, Command.effect, hb]
    rw [hf] at h
    cases h
    exact Function.update_self ..

/-! ## The log of a run -/

theorem HostJob.log_split (j : HostJob) :
    ∃ (executed : List (ProvisioningStep × Bool)) (tried rollback : List StepResult),
      Tried (pipelineFor j.job.action) executed ∧ j.log = tried ++ rollback ∧ tried.map StepResult.entry = executed ∧
      (∀ r ∈ rollback, r.step = .rollback) ∧
      rollback.length = (if j.job.action = .upgrade ∧ ∃ step, failedStep executed = some step ∧
        shouldRollback step (pipelineFor j.job.action) false then 1 else 0) := by
  obtain ⟨job', trace, w', -, hplain, hlogged⟩ :=
    runPipeline_logged j.provisioner j.env j.world j.job j.node (pipelineFor j.job.action)
  obtain ⟨log, hsteps, hlog⟩ := hlogged.log
  dsimp only at hsteps
  have hjlog : j.log = log := by rw [HostJob.log, HostJob.final, hplain, hsteps, Option.getD_some]
  rw [List.map_nil, List.nil_append, List.map_eq_append_iff] at hlog
  obtain ⟨tried, rollback, rfl, htried, hrollback⟩ := hlog
  refine ⟨_, tried, rollback, hlogged.tried, hjlog, htried, fun r hr => ?_, ?_⟩
  · have hmem : r.entry ∈ rollback.map StepResult.entry := List.mem_map_of_mem hr
    rw [hrollback] at hmem
    obtain ⟨ok, -, hentry⟩ := List.mem_map.mp hmem
    exact (congrArg Prod.fst hentry).symm
  · rw [← hlogged.rollbacks, ← List.length_map, hrollback, List.length_map]

theorem Tried.step_mem {steps : List ProvisioningStep} {executed : List (ProvisioningStep × Bool)}
    (h : Tried steps executed) {e : ProvisioningStep × Bool} (he : e ∈ executed) : e.1 ∈ steps := by
  induction h with
  | nil => cases he
  | passed _ ih =>
    rcases List.mem_cons.mp he with rfl | he
    · exact List.mem_cons_self
    · exact List.mem_cons_of_mem _ (ih he)
  | failed =>
    obtain rfl := List.mem_singleton.mp he
    exact List.mem_cons_self

section
variable {x : Host.Payload} {action : ProvisioningAction} {r : StepResult} {step : ProvisioningStep} {f f' : Files}

theorem StepResult.of_entry {ok : Bool} (h : r.entry = (step, ok)) : r.step = step ∧
    (r.status = .success ↔ ok = true) := by
  cases h
  exact ⟨rfl, by simp⟩

theorem StepDoes.success (h : StepDoes x action r f f') (hr : r.entry = (step, true)) :
    Shell.effects (Host.actions x action step) f = some f' := by
  obtain ⟨rfl, hstatus⟩ := StepResult.of_entry hr
  rwa [StepDoes, if_pos (hstatus.mpr rfl)] at h

theorem StepDoes.failure (h : StepDoes x action r f f') (hr : r.entry = (step, false)) :
    Shell.Part (Host.actions x action step) f f' := by
  obtain ⟨rfl, hstatus⟩ := StepResult.of_entry hr
  rwa [StepDoes, if_neg (fun hs => nomatch hstatus.mp hs)] at h

theorem LogDoes.keeps_backup {log : List StepResult} {executed : List (ProvisioningStep × Bool)}
    (h : LogDoes x action log f f') (hlog : log.map StepResult.entry = executed)
    (htried : Tried [.uploadBinary, .stopService, .atomicSwap, .startService, .verifyOnline] executed) :
    f' remoteBinaryBackup = f remoteBinaryBackup := by
  refine h.of_not_touches fun r hr => ?_
  have hmem := htried.step_mem (hlog ▸ List.mem_map_of_mem hr : r.entry ∈ executed)
  refine (upgrade_touches ?_).1 ?_
  · exact List.mem_cons_of_mem _ (List.mem_cons_of_mem _ hmem)
  · intro hstep
    have : r.entry.1 = r.step := rfl
    rw [this, hstep] at hmem
    simp at hmem

end

theorem LogDoes.backed_up {x : Host.Payload} {action : ProvisioningAction} {tried : List StepResult}
    {executed : List (ProvisioningStep × Bool)} {f f' : Files} {b : String}
    (h : LogDoes x action tried f f') (hentries : tried.map StepResult.entry = executed)
    (htried : Tried (pipelineFor .upgrade) executed) (hvalidated : failedStep executed ≠ some .validateSSH)
    (hb : f remoteBinaryPath = some b)
    (hbackup : (.backupBinary, true) ∈ executed ∨ f remoteBinaryBackup = none) :
    f' remoteBinaryBackup = some b ∨ f' remoteBinaryBackup = none ∧ f' remoteBinaryPath = some b := by
  cases htried with
  | failed => exact absurd rfl hvalidated
  | passed htried =>
    obtain ⟨r₁, tried, rfl, hr₁, hentries⟩ := List.map_eq_cons_iff.mp hentries
    cases h with
    | @cons _ _ _ f₁ _ hdoes₁ h =>
      have hvalidate := Shell.effects_singleton (hdoes₁.success hr₁)
      cases hvalidate
      cases htried with
      | failed =>
        obtain ⟨r₂, tried, rfl, hr₂, hentries⟩ := List.map_eq_cons_iff.mp hentries
        obtain rfl := List.map_eq_nil_iff.mp hentries
        cases h with
        | cons hdoes₂ h =>
          cases h
          have hnone : f remoteBinaryBackup = none := by simpa using hbackup
          rcases Shell.part_singleton.mp (hdoes₂.failure hr₂) with rfl | hcopied
          · exact .inr ⟨hnone, hb⟩
          · exact .inl (Host.backup_effect hcopied hb)
      | passed htried =>
        obtain ⟨r₂, tried, rfl, hr₂, hentries⟩ := List.map_eq_cons_iff.mp hentries
        cases h with
        | cons hdoes₂ h =>
          have hcopied := Host.backup_effect (Shell.effects_singleton (hdoes₂.success hr₂)) hb
          rw [h.keeps_backup hentries htried]
          exact .inl hcopied

/-! ## Histories -/

structure HostEntry where
  job : HostJob
  before : Files
  after : Files

/-- Upgrade jobs on one host, one after the other. -/
inductive UpgradeHistory : Files → List HostEntry → Prop where
  | nil {f} : UpgradeHistory f []
  | cons {e rest} : e.job.job.action = .upgrade → e.job.On e.before e.after → UpgradeHistory e.after rest →
      UpgradeHistory e.before (e :: rest)

theorem UpgradeHistory.mem {f : Files} {entries : List HostEntry} (h : UpgradeHistory f entries) {e : HostEntry}
    (he : e ∈ entries) : e.job.job.action = .upgrade ∧ e.job.On e.before e.after := by
  induction h with
  | nil => cases he
  | cons hup hon _ ih =>
    rcases List.mem_cons.mp he with rfl | he
    · exact ⟨hup, hon⟩
    · exact ih he

/-- In every history of upgrades of a host: a job that starts with a binary installed,
whose backup succeeds or finds no earlier backup, leaves that binary in place if its
rollback succeeds, which only jobs that have failed get to. -/
theorem rollback_restores_binary {f : Files} {entries : List HostEntry} (h : UpgradeHistory f entries) {e : HostEntry}
    (he : e ∈ entries) (hbinary : (e.before remoteBinaryPath).isSome)
    (hbackup : e.job.Succeeded .backupBinary ∨ e.before remoteBinaryBackup = none)
    (hrollback : e.job.Succeeded .rollback) : e.after remoteBinaryPath = e.before remoteBinaryPath := by
  obtain ⟨hup, hon⟩ := h.mem he
  obtain ⟨b, hb⟩ := Option.isSome_iff_exists.mp hbinary
  obtain ⟨executed, tried, rollback, htried, hlog, hentries, hsteps, hlength⟩ := e.job.log_split
  rw [hup] at htried hlength
  rw [HostJob.On, hlog] at hon
  obtain ⟨f₁, hdone, hundone⟩ := hon.append_inv
  -- the successful rollback is the one entry after the steps of the pipeline
  obtain ⟨r, hr, hstep, hstatus⟩ := hrollback
  have hmem : r ∈ rollback := by
    rw [hlog, List.mem_append] at hr
    refine hr.resolve_left fun hr => ?_
    have := htried.step_mem (hentries ▸ List.mem_map_of_mem hr : r.entry ∈ executed)
    rw [show r.entry.1 = .rollback from hstep] at this
    exact absurd this (by decide)
  split at hlength
  swap
  · rw [List.length_eq_zero_iff.mp hlength] at hmem
    cases hmem
  next hdue =>
  obtain ⟨-, failed, hfailed, hdue⟩ := hdue
  obtain ⟨r', rfl⟩ := List.length_eq_one_iff.mp hlength
  obtain rfl := List.mem_singleton.mp hmem
  have hvalidated : failedStep executed ≠ some .validateSSH := by
    rintro hv
    obtain rfl := Option.some.inj (hfailed.symm.trans hv)
    exact absurd hdue (by decide)
  have hbacked : (.backupBinary, true) ∈ executed ∨ e.before remoteBinaryBackup = none := by
    refine hbackup.imp_left ?_
    rintro ⟨r', hr', hstep', hstatus'⟩
    rw [hlog, List.mem_append] at hr'
    rcases hr' with hr' | hr'
    · have hentry : r'.entry = (.backupBinary, true) := by simp [StepResult.entry, hstep', hstatus']
      exact hentry ▸ hentries ▸ List.mem_map_of_mem hr'
    · rw [hsteps r' hr'] at hstep'
      cases hstep'
  have hinstalled : e.after remoteBinaryPath = (f₁ remoteBinaryBackup).or (f₁ remoteBinaryPath) := by
    cases hundone with
    | cons hdoes hrest =>
      cases hrest
      have hentry : r.entry = (.rollback, true) := by simp [StepResult.entry, hstep, hstatus]
      exact Host.rollback_effect (Shell.effects_singleton (hdoes.success hentry))
  rw [hinstalled, hb]
  rcases hdone.backed_up hentries htried hvalidated hb hbacked with hcopy | ⟨hnone, hkept⟩
  · rw [hcopy]
    rfl
  · rw [hnone, hkept]
    rfl

/-- What a log does if the steps that failed have had no effect. -/
def Host.play (x : Host.Payload) (action : ProvisioningAction) : List (ProvisioningStep × Bool) → Files → Option Files
  | [], f => some f
  | (step, true) :: rest, f => (Shell.effects (Host.actions x action step) f).bind (Host.play x action rest)
  | (_, false) :: rest, f => Host.play x action rest f

theorem LogDoes.of_play {x : Host.Payload} {action : ProvisioningAction} {log : List StepResult} {f f' : Files}
    (h : Host.play x action (log.map StepResult.entry) f = some f') : LogDoes x action log f f' := by
  induction log generalizing f with
  | nil =>
    cases h
    exact .nil
  | cons r rest ih =>
    rw [List.map_cons] at h
    rcases hr : r.entry with ⟨step, _ | _⟩
    · rw [hr, Host.play] at h
      obtain ⟨rfl, hstatus⟩ := StepResult.of_entry hr
      refine .cons ?_ (ih h)
      rw [StepDoes, if_neg (fun hs => nomatch hstatus.mp hs)]
      exact ⟨[], List.nil_prefix, rfl⟩
    · rw [hr, Host.play] at h
      obtain ⟨f₁, heffects, hrest⟩ := Option.bind_eq_some_iff.mp h
      obtain ⟨rfl, hstatus⟩ := StepResult.of_entry hr
      refine .cons ?_ (ih hrest)
      rw [StepDoes, if_pos (hstatus.mpr rfl)]
      exact heffects

namespace Sample

def hostWith (binary : String) : Files := fun path => if path = remoteBinaryPath then some binary else none

def hostJob (action : ProvisioningAction) (v : Env) (binary : String) : HostJob :=
  { provisioner := provisioner, env := v, world := ⟨0, onlineFleet⟩, job := job action
    node := { node 10 100 with status := .online }
    payload := { binary, config := "", wgConfig := none } }

def inactive : Env := { Env.calm with remote := fun _ _ => ⟨"edgefabric-ssh-ok", none⟩ }

def noBackup : Env :=
  { Env.calm with remote := fun t _ => ⟨"edgefabric-ssh-ok active", if t = 14 then some "exit 1" else none⟩ }

theorem entries_inactive : (hostJob .upgrade inactive "v1").log.map StepResult.entry =
    [(.validateSSH, true), (.backupBinary, true), (.uploadBinary, true), (.stopService, true), (.atomicSwap, true),
      (.startService, true), (.verifyOnline, false), (.rollback, true)] := by
  decide +kernel

theorem entries_upgraded : (hostJob .upgrade Env.calm "v1").log.map StepResult.entry =
    (pipelineFor .upgrade).map (·, true) := by
  decide +kernel

theorem noBackup_failed : (hostJob .upgrade noBackup "v2").final.status = .failed := by decide +kernel

theorem entries_noBackup : (hostJob .upgrade noBackup "v2").log.map StepResult.entry =
    [(.validateSSH, true), (.backupBinary, false), (.rollback, true)] := by
  decide +kernel

end Sample

variable {j : HostJob} {f f' : Files} {x : Host.Payload} {action : ProvisioningAction}

theorem HostJob.succeeded_of_entry {step : ProvisioningStep} (h : (step, true) ∈ j.log.map StepResult.entry) :
    j.Succeeded step := by
  obtain ⟨r, hr, hentry⟩ := List.mem_map.mp h
  obtain ⟨hstep, hstatus⟩ := StepResult.of_entry hentry
  exact ⟨r, hr, hstep, hstatus.mpr rfl⟩

theorem HostJob.on_of_play {entries : List (ProvisioningStep × Bool)} {α : Type} (view : Files → α)
    {a : α} (hlog : j.log.map StepResult.entry = entries)
    (h : (Host.play j.payload j.job.action entries f).map view = some a) : ∃ f', j.On f f' ∧ view f' = a := by
  obtain ⟨f', hplay, hview⟩ := Option.map_eq_some_iff.mp h
  exact ⟨f', .of_play (hlog ▸ hplay), hview⟩

/-- An upgrade whose new binary does not come up is rolled back to the old one. -/
theorem rollback_restores_binary_inactive :
    ∃ f', (Sample.hostJob .upgrade Sample.inactive "v1").On (Sample.hostWith "v0") f' ∧
      f' remoteBinaryPath = some "v0" := by
  obtain ⟨f', hon, -⟩ := HostJob.on_of_play (f := Sample.hostWith "v0") (fun _ => ()) Sample.entries_inactive rfl
  have h := rollback_restores_binary (.cons (e := ⟨_, _, f'⟩) rfl hon .nil) List.mem_cons_self rfl
    (.inl (HostJob.succeeded_of_entry (Sample.entries_inactive ▸ by decide)))
    (HostJob.succeeded_of_entry (Sample.entries_inactive ▸ by decide))
  exact ⟨f', hon, h⟩

/-- The host has been upgraded from `v0` to `v1`, which leaves `v0` as backup. When the
backup of the next upgrade fails, its rollback installs `v0`. -/
theorem rollback_installs_stale_backup :
    ∃ e₁ e₂ : HostEntry, UpgradeHistory (Sample.hostWith "v0") [e₁, e₂] ∧ e₂.job.final.status = .failed ∧
      e₂.job.Succeeded .rollback ∧ e₂.before remoteBinaryPath = some "v1" ∧ e₂.after remoteBinaryPath = some "v0" := by
  obtain ⟨f₁, hon₁, hview⟩ := HostJob.on_of_play (f := Sample.hostWith "v0") (a := (some "v1", some "v0"))
    (fun f => (f remoteBinaryPath, f remoteBinaryBackup)) Sample.entries_upgraded rfl
  obtain ⟨hbinary, hbackup⟩ := Prod.mk.inj hview
  have hrollback : Host.rollback.effect f₁ =
      some (Function.update (Function.update f₁ remoteBinaryBackup none) remoteBinaryPath (some "v0")) := by
    simp [Host.rollback, Command.effect, hbackup]
  have hplay : (Host.play { binary := "v2", config := "", wgConfig := none } .upgrade
      [(.validateSSH, true), (.backupBinary, false), (.rollback, true)] f₁).map
        (· remoteBinaryPath) = some (some "v0") := by
    simp [Host.play, Shell.effects, Host.actions, Deed.effect, Host.validate, Command.effect, hrollback]
  obtain ⟨f₂, hon₂, hrolled⟩ := HostJob.on_of_play (· remoteBinaryPath) Sample.entries_noBackup hplay
  let e₁ : HostEntry := ⟨Sample.hostJob .upgrade Env.calm "v1", Sample.hostWith "v0", f₁⟩
  let e₂ : HostEntry := ⟨Sample.hostJob .upgrade Sample.noBackup "v2", f₁, f₂⟩
  refine ⟨e₁, e₂, .cons (e := e₁) rfl hon₁ (.cons (e := e₂) rfl hon₂ .nil), Sample.noBackup_failed,
    HostJob.succeeded_of_entry ?_, hbinary, hrolled⟩
  rw [Sample.entries_noBackup]
  decide

/-! ## The service that is started -/

/-- The program that a unit starts: the first word of its `ExecStart`. -/
def execStart (unit : String) : Option String :=
  ((unit.toList.splitOn '\n').find? ("ExecStart=".toList.isPrefixOf ·)).map fun line =>
    String.ofList ((line.drop "ExecStart=".length).takeWhile (· ≠ ' '))

/-- The program that the installed unit starts. -/
def Host.servicePath (f : Files) : Option String := (f Host.unitPath).bind execStart

theorem execStart_generateSystemdUnit : execStart (generateSystemdUnit ++ "\n") = some remoteBinaryPath := by
  unfold execStart generateSystemdUnit
  simp only [String.toList_append]
  decide +kernel

theorem Tried.steps_isPrefix {steps : List ProvisioningStep} {executed : List (ProvisioningStep × Bool)}
    (h : Tried steps executed) : executed.map Prod.fst <+: steps := by
  induction h with
  | nil => exact List.prefix_rfl
  | passed _ ih => exact List.cons_prefix_cons.mpr ⟨rfl, ih⟩
  | failed => exact List.cons_prefix_cons.mpr ⟨rfl, List.nil_prefix⟩

theorem pipelineFor_nodup (action : ProvisioningAction) : (pipelineFor action).Nodup := by
  cases action <;> decide

theorem eq_takeWhile_of_isPrefix {l steps : List ProvisioningStep} {step : ProvisioningStep} (h : l ++ [step] <+: steps)
    (hnodup : steps.Nodup) : l = steps.takeWhile (· ≠ step) := by
  obtain ⟨rest, rfl⟩ := h
  have hstep : step ∉ l := by
    intro hmem
    exact (List.nodup_append.mp (hnodup.sublist (List.sublist_append_left _ _))).2.2 step hmem step (by simp) rfl
  rw [List.append_assoc, List.takeWhile_append_of_pos]
  · simp
  · intro a ha
    have hne : a ≠ step := fun h => hstep (h ▸ ha)
    simpa using hne

theorem HostJob.log_before (j : HostJob) {before after : List StepResult} {r : StepResult}
    (hlog : j.log = before ++ r :: after) (hr : r.step ≠ .rollback) :
    before.map StepResult.step = (pipelineFor j.job.action).takeWhile (· ≠ r.step) := by
  obtain ⟨executed, tried, rollback, htried, hsplit, hentries, hsteps, -⟩ := j.log_split
  rw [hsplit] at hlog
  have hnot : r ∉ rollback := fun hmem => hr (hsteps r hmem)
  obtain ⟨rest, rfl⟩ : ∃ rest, tried = before ++ r :: rest := by
    rcases List.append_eq_append_iff.mp hlog with ⟨c, rfl, hc⟩ | ⟨c, rfl, hc⟩
    · refine absurd ?_ hnot
      rw [hc]
      simp
    · cases c with
      | nil =>
        refine absurd ?_ hnot
        rw [← show r :: after = rollback from hc]
        exact List.mem_cons_self
      | cons a c =>
        cases hc
        exact ⟨c, rfl⟩
  refine eq_takeWhile_of_isPrefix (List.IsPrefix.trans ?_ htried.steps_isPrefix) (pipelineFor_nodup _)
  rw [← hentries]
  refine ⟨rest.map StepResult.step, ?_⟩
  simp [StepResult.entry, Function.comp_def]

theorem HostJob.log_before_start (j : HostJob) {before after : List StepResult} {r : StepResult}
    (hlog : j.log = before ++ r :: after) (hr : r.step = .startService) :
    before.map StepResult.step = (pipelineFor j.job.action).takeWhile (· ≠ .startService) := by
  have h := j.log_before hlog (by rw [hr]; decide)
  rwa [hr] at h

theorem LogDoes.all_succeeded {log : List StepResult}
    (h : LogDoes x action log f f') (hok : ∀ r ∈ log, r.status = .success) :
    Shell.effects ((log.map StepResult.step).flatMap (Host.actions x action)) f = some f' := by
  induction h with
  | nil => rfl
  | cons hr _ ih =>
    rw [StepDoes, if_pos (hok _ List.mem_cons_self)] at hr
    rw [List.map_cons, List.flatMap_cons, Shell.effects_append, hr]
    exact ih fun r hr => hok r (List.mem_cons_of_mem _ hr)

theorem Host.enroll_effects
    (h : Shell.effects (([.validateSSH, .uploadBinary, .writeConfig, .installSystemd] :
      List ProvisioningStep).flatMap (Host.actions x action)) f = some f') :
    f' Host.unitPath = some (generateSystemdUnit ++ "\n") ∧ f' remoteBinaryPath = f remoteBinaryPath := by
  constructor
  · rw [show ([.validateSSH, .uploadBinary, .writeConfig, .installSystemd] : List ProvisioningStep) =
      [.validateSSH, .uploadBinary, .writeConfig] ++ [.installSystemd] from rfl, List.flatMap_append,
        Shell.effects_append] at h
    obtain ⟨f₁, -, h⟩ := Option.bind_eq_some_iff.mp h
    cases Shell.effects_singleton h
    exact Function.update_self ..
  · refine Shell.effects_of_not_touches h fun a ha => ?_
    simp only [Host.actions, List.flatMap_cons, List.flatMap_nil, List.cons_append, List.nil_append, List.mem_cons,
      List.not_mem_nil, or_false] at ha
    rcases ha with rfl | rfl | rfl | rfl | rfl <;>
      simp [Deed.Touches, Command.Touches, Host.validate, Host.makeBin, Host.writeConfig, Host.installUnit,
        Host.configPath, Host.unitPath, remoteBinaryPath, remoteBinaryStaging]

/-- An upgrade leaves the new binary at the install path, the old one, if any, as backup, and no staging file. -/
theorem Host.upgrade_effects
    (h : Shell.effects (([.validateSSH, .backupBinary, .uploadBinary, .stopService, .atomicSwap] :
      List ProvisioningStep).flatMap (Host.actions x action)) f = some f') (path : String) :
    f' path = if path = remoteBinaryPath then some x.binary else if path = remoteBinaryStaging then none
      else if path = remoteBinaryBackup then (f remoteBinaryPath).or (f remoteBinaryBackup) else f path := by
  rw [show ([.validateSSH, .backupBinary, .uploadBinary, .stopService, .atomicSwap] : List ProvisioningStep) =
    [.validateSSH, .backupBinary] ++ [.uploadBinary, .stopService, .atomicSwap] from rfl, List.flatMap_append,
    Shell.effects_append] at h
  obtain ⟨f₁, hbackup, h⟩ := Option.bind_eq_some_iff.mp h
  have hf : Shell.effects (([.uploadBinary, .stopService, .atomicSwap] : List ProvisioningStep).flatMap
      (Host.actions x action)) f₁ = some (Function.update (Function.update (Function.update f₁ remoteBinaryStaging
        (some x.binary)) remoteBinaryStaging none) remoteBinaryPath (some x.binary)) := by
    simp [Host.actions, Shell.effects, Deed.effect, Command.effect, Host.makeBin, Host.swap]
  have hf₁ : f₁ = Function.update f remoteBinaryBackup ((f remoteBinaryPath).or (f remoteBinaryBackup)) := by
    cases hb : f remoteBinaryPath with
    | none =>
      have hkept : Shell.effects (([.validateSSH, .backupBinary] : List ProvisioningStep).flatMap
          (Host.actions x action)) f = some f := by
        simp [Host.actions, Shell.effects, Deed.effect, Command.effect, Host.validate, Host.backup, hb]
      rw [hkept] at hbackup
      cases hbackup
      exact (Function.update_eq_self ..).symm
    | some b =>
      have hcopied : Shell.effects (([.validateSSH, .backupBinary] : List ProvisioningStep).flatMap
          (Host.actions x action)) f = some (Function.update f remoteBinaryBackup (some b)) := by
        simp [Host.actions, Shell.effects, Deed.effect, Command.effect, Host.validate, Host.backup, hb]
      rw [hcopied] at hbackup
      cases hbackup
      rfl
  rw [hf] at h
  cases h
  rw [hf₁]
  simp only [Function.update_apply]
  split_ifs <;> rfl

/-- The service that an upgrade starts is at the install path, or runs a binary that the host has already, at another
path than that of the upload or as the backup that the upgrade leaves. The one that an enrollment starts is at the
install path, where the upload is not put. -/
def HostJob.Prepared (j : HostJob) (f : Files) : Prop :=
  if j.job.action = .upgrade then
    ∃ path, Host.servicePath f = some path ∧ (path = remoteBinaryPath ∨
      path = remoteBinaryBackup ∧ (f remoteBinaryPath).or (f remoteBinaryBackup) = some j.payload.binary ∨
      path ≠ remoteBinaryBackup ∧ path ≠ remoteBinaryStaging ∧ f path = some j.payload.binary)
  else f remoteBinaryPath = some j.payload.binary

/-- In every run of an enrollment, a reprovisioning or an upgrade that gets to the start of
the service: the service starts the binary that the run uploaded precisely if the host was
prepared for it when the run began. -/
theorem service_starts_uploaded_binary (j : HostJob)
    (haction : j.job.action = .enroll ∨ j.job.action = .reprovision ∨ j.job.action = .upgrade)
    {before after : List StepResult} {r : StepResult} (hlog : j.log = before ++ r :: after)
    (hr : r.step = .startService) (hok : ∀ r ∈ before, r.status = .success) {f f' : Files}
    (hfiles : LogDoes j.payload j.job.action before f f') :
    (∃ path, Host.servicePath f' = some path ∧ f' path = some j.payload.binary) ↔ j.Prepared f := by
  have heffects := hfiles.all_succeeded hok
  rw [j.log_before_start hlog hr] at heffects
  by_cases hup : j.job.action = .upgrade
  · rw [HostJob.Prepared, if_pos hup]
    rw [hup] at heffects
    have hupgraded := Host.upgrade_effects heffects
    have hunit : f' Host.unitPath = f Host.unitPath := by
      rw [hupgraded, if_neg (by decide), if_neg (by decide), if_neg (by decide)]
    rw [Host.servicePath, hunit]
    refine exists_congr fun path => and_congr_right fun _ => ?_
    rw [hupgraded path]
    have hstaging : remoteBinaryStaging ≠ remoteBinaryPath ∧ remoteBinaryStaging ≠ remoteBinaryBackup := by decide
    have hbackup : remoteBinaryBackup ≠ remoteBinaryPath ∧ remoteBinaryBackup ≠ remoteBinaryStaging := by decide
    split_ifs with hp hs hb
    · simp [hp]
    · simp [hs, hstaging]
    · simp [hb, hbackup]
    · simp [hp, hs, hb]
  · rw [HostJob.Prepared, if_neg hup]
    have hsteps : (pipelineFor j.job.action).takeWhile (· ≠ .startService) =
        [.validateSSH, .uploadBinary, .writeConfig, .installSystemd] := by
      rcases haction with h | h | h
      · rw [h]
        decide
      · rw [h]
        decide
      · exact absurd h hup
    rw [hsteps] at heffects
    obtain ⟨hunit, hbinary⟩ := Host.enroll_effects heffects
    have hservice : Host.servicePath f' = some remoteBinaryPath := by
      rw [Host.servicePath, hunit, Option.bind_some, execStart_generateSystemdUnit]
    rw [hservice, ← hbinary]
    constructor
    · rintro ⟨path, hpath, hfile⟩
      cases hpath
      exact hfile
    · exact fun hfile => ⟨remoteBinaryPath, rfl, hfile⟩

theorem HostJob.reaches (steps : List ProvisioningStep) {step : ProvisioningStep} {rest : List ProvisioningStep}
    (h : j.log.map StepResult.entry = (steps ++ step :: rest).map (·, true))
    (hplay : (Host.play j.payload j.job.action (steps.map (·, true)) f).isSome) :
    ∃ before r after f', j.log = before ++ r :: after ∧ r.step = step ∧ (∀ r ∈ before, r.status = .success) ∧
      LogDoes j.payload j.job.action before f f' := by
  rw [List.map_append] at h
  obtain ⟨before, tail, hlog, hbefore, htail⟩ := List.map_eq_append_iff.mp h
  obtain ⟨r, after, rfl, hr, -⟩ := List.map_eq_cons_iff.mp htail
  obtain ⟨f', hplay⟩ := Option.isSome_iff_exists.mp hplay
  refine ⟨before, r, after, f', hlog, (StepResult.of_entry hr).1, fun r' hr' => ?_, .of_play (hbefore ▸ hplay)⟩
  have hmem : r'.entry ∈ before.map StepResult.entry := List.mem_map_of_mem hr'
  rw [hbefore] at hmem
  obtain ⟨e, -, he⟩ := List.mem_map.mp hmem
  exact (StepResult.of_entry he.symm).2.mpr rfl

namespace Sample

def enrolledHost : Files := Function.update (hostWith "v0") Host.unitPath (some (generateSystemdUnit ++ "\n"))

theorem entries_enrolled : (hostJob .enroll Env.calm "v1").log.map StepResult.entry =
    (pipelineFor .enroll).map (·, true) := by
  decide +kernel

end Sample

/-- The service of an enrolled host starts the binary of its upgrade. -/
theorem service_starts_uploaded_binary_upgrade :
    let j := Sample.hostJob .upgrade Env.calm "v1"
    ∃ before r after f', j.log = before ++ r :: after ∧ r.step = .startService ∧
      LogDoes j.payload .upgrade before Sample.enrolledHost f' ∧
      ∃ path, Host.servicePath f' = some path ∧ f' path = some "v1" := by
  intro j
  obtain ⟨before, r, after, f', hlog, hr, hok, hfiles⟩ := j.reaches (f := Sample.enrolledHost)
    [.validateSSH, .backupBinary, .uploadBinary, .stopService, .atomicSwap] Sample.entries_upgraded rfl
  refine ⟨before, r, after, f', hlog, hr, hfiles, ?_⟩
  refine (service_starts_uploaded_binary j (.inr (.inr rfl)) hlog hr hok hfiles).mpr ⟨remoteBinaryPath, ?_, .inl rfl⟩
  rw [Host.servicePath, Sample.enrolledHost, Function.update_self, Option.bind_some, execStart_generateSystemdUnit]

/-- A host is enrolled that has no binary yet. Its service starts a file that is not there. -/
theorem enrolled_service_has_no_binary :
    let j := Sample.hostJob .enroll Env.calm "v1"
    ∃ before r after f', j.log = before ++ r :: after ∧ r.step = .startService ∧ (∀ r ∈ before, r.status = .success) ∧
      LogDoes j.payload .enroll before (fun _ => none) f' ∧
      Host.servicePath f' = some remoteBinaryPath ∧ f' remoteBinaryPath = none := by
  intro j
  obtain ⟨before, r, after, f', hlog, hr, hok, hfiles⟩ := j.reaches (f := fun _ => none)
    [.validateSSH, .uploadBinary, .writeConfig, .installSystemd] Sample.entries_enrolled rfl
  have heffects := hfiles.all_succeeded hok
  rw [j.log_before_start hlog hr] at heffects
  obtain ⟨hunit, hbinary⟩ := Host.enroll_effects heffects
  refine ⟨before, r, after, f', hlog, hr, hok, hfiles, ?_, hbinary⟩
  rw [Host.servicePath, hunit, Option.bind_some, execStart_generateSystemdUnit]

end EdgeFabric
