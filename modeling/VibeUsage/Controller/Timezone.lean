import VibeUsage.Controller.Model
import VibeUsage.Storage.Erasing

/-!
# Changing the timezone

`restart_vibe_for_timezone` changes the settings in memory first, then saves them, then restarts the
usage client, and shows the new settings whatever came of it. Nothing takes the change back, so that
a save that fails leaves the settings and the view ahead of the client and of the storage
(`toggles_allOrNothing_iff`). The intents for the language and the volume save first.

* `toggle_of_not_saved`, `toggle_of_refused` and `toggle_of_saved` are the ways in which an intent
  goes.
* `toggles_allOrNothing_iff` is about any list of intents, each with the failures of its own.
* `toggle_not_allOrNothing` is one save that fails.
-/

namespace VibeUsage

/-! ### In step -/

/-- A timezone with the revision of the configuration it belongs to. -/
abbrev Zone : Type := Timezone × UInt32

def DeviceConfig.zone (settings : DeviceConfig) : Zone :=
  (settings.timezone, settings.configRevision)

def AppView.zone (view : AppView) : Zone := (view.timezone, view.configRevision)

def VibeContext.zone (g : VibeContext) : Zone := (g.timezone, g.configRevision)

/-- The settings, the view and the running client agree with what was saved last. -/
structure InStep (saved : DeviceConfig) (c : Controller) : Prop where
  running : c.client.vibe.initialized = true
  settings : c.settings.zone = saved.zone
  view : c.view.zone = saved.zone
  client : c.client.vibe.zone = saved.zone

/-- The controller, before an intent during which the operations of the storage end as `faults`
says. -/
def Controller.withFaults (c : Controller) (faults : ℕ → Fault) : Controller :=
  { c with client := { c.client with
    board := { c.client.board with powered := true, tick := 0, faults } } }

def toggleTimezone (faults : ℕ → Fault) (c : Controller) : Controller :=
  (handleIntent .toggleTimezone (c.withFaults faults)).2

/-- The result of `device_config_save` during the intent. -/
def saveResult (faults : ℕ → Fault) (c : Controller) : Except EspErr Unit :=
  (deviceConfigSave c.settings.toggled (c.withFaults faults).client.board).1

/-- What was saved last, once the intent is over. -/
def savedAfter (faults : ℕ → Fault) (saved : DeviceConfig) (c : Controller) : DeviceConfig :=
  match saveResult faults c with
  | .ok () => c.settings.toggled
  | .error _ => saved

/-- After each of these intents all are in step, and one whose save fails changes none of them. -/
def AllOrNothing (saved : DeviceConfig) (c : Controller) : List (ℕ → Fault) → Prop
  | [] => True
  | faults :: attempts =>
    InStep (savedAfter faults saved c) (toggleTimezone faults c) ∧
      (∀ error, saveResult faults c = .error error →
        (toggleTimezone faults c).settings.zone = c.settings.zone ∧
          (toggleTimezone faults c).view.zone = c.view.zone ∧
          (toggleTimezone faults c).client.vibe.zone = c.client.vibe.zone) ∧
      AllOrNothing (savedAfter faults saved c) (toggleTimezone faults c) attempts

/-- `vibe_init` takes the origin and the names. -/
def Controller.Accepted (c : Controller) : Prop :=
  (normalizeOrigin c.bootstrapOrigin).isSome ∧ (copyString 65 c.clientName).isSome ∧
    (copyString 65 c.hostname).isSome

/-! ### Saving -/

/-- The number of storage operations of `device_config_save`. -/
def configSaveOperations : ℕ := 3

/-- Settings that can be saved are saved in three operations. -/
theorem does_deviceConfigSave {config : DeviceConfig} (h : config.Storable) :
    Does configSaveOperations (fun flash ↦ (flash.create .vibeCfg).put .vibeCfg .settings
      (.blob (configBody config ++ Codec.u32 (vibeCrc32 (configBody config)))))
      (deviceConfigSave config) := by
  rw [deviceConfigSave, Prog.check_of_pos h]
  exact (does_operate _ _ _).seq ((does_operate _ _ _).seq (does_operate _ _ _))

/-- A fault in any of them is reported. -/
theorem refuses_deviceConfigSave {config : DeviceConfig} (h : config.Storable) :
    Refuses configSaveOperations (deviceConfigSave config) := by
  rw [deviceConfigSave, Prog.check_of_pos h]
  exact .seq (does_operate _ _ _) (refuses_operate _ _ _)
    (.seq (does_operate _ _ _) (refuses_operate _ _ _) (refuses_operate _ _ _))

/-- **The save succeeds** exactly when the settings are fit to be saved and no operation of it
fails. -/
theorem saveResult_eq_ok {faults : ℕ → Fault} {c : Controller} :
    saveResult faults c = .ok () ↔
      c.settings.toggled.Storable ∧ ∀ i < configSaveOperations, faults i = .none := by
  unfold saveResult
  generalize hb : (c.withFaults faults).client.board = b
  have hpower : b.powered = true := by rw [← hb]; rfl
  have hfaults : ∀ i, b.faults (b.tick + i) = faults i := by
    intro i
    rw [← hb]
    exact congrArg faults (Nat.zero_add i)
  by_cases hstorable : c.settings.toggled.Storable
  · by_cases hnone : ∀ i < configSaveOperations, faults i = .none
    · rw [does_deviceConfigSave hstorable b hpower fun i hi ↦ (hfaults i).trans (hnone i hi)]
      exact iff_of_true rfl ⟨hstorable, hnone⟩
    · have hfault : ∃ i < configSaveOperations, b.faults (b.tick + i) ≠ .none := by
        simpa [hfaults] using hnone
      obtain ⟨error, b', hrun⟩ := refuses_deviceConfigSave hstorable b hpower hfault
      rw [hrun]
      exact iff_of_false (by simp) fun h ↦ hnone h.2
  · rw [deviceConfigSave, Prog.check_of_neg hstorable]
    simp [hstorable, Prog.bind_apply]

/-! ### Restarting the client -/

/-- What is taken of a configuration. -/
theorem takeConfig_eq_some {config : VibeConfig} {g g' : VibeContext}
    (h : takeConfig config g = some g') :
    g'.timezone = config.timezone ∧ g'.configRevision = orDefault config.configRevision 1 := by
  simp only [takeConfig, Option.bind_eq_bind, Option.bind_eq_some_iff] at h
  obtain ⟨_, -, _, -, _, -, h⟩ := h
  split at h
  · cases h
  · cases h
    exact ⟨rfl, rfl⟩

/-- **A configuration is taken** when the origin, the name and the hostname can be. -/
theorem takeConfig_isSome {c : Controller} (g : VibeContext)
    (hzone : c.settings.timezone.Supported) :
    (takeConfig c.vibeConfig g).isSome ↔ c.Accepted := by
  unfold Controller.Accepted takeConfig Controller.vibeConfig
  cases normalizeOrigin c.bootstrapOrigin <;> cases copyString 65 c.clientName <;>
    cases copyString 65 c.hostname <;> simp [hzone]

/-- The deadline is loaded, whatever the flash does. -/
theorem loadRetry_run (c : Client) :
    ∃ c', loadRetry c = (.ok (), c') ∧ c'.vibe.zone = c.vibe.zone := by
  unfold loadRetry
  rw [Prog.bind_of_ok (Prog.attempt_apply _ c)]
  cases (stored vibeStoreLoadRetryNotBefore c).1 with
  | ok utcSeconds => exact ⟨_, rfl, rfl⟩
  | error _ => exact ⟨_, rfl, rfl⟩

/-- So is the account. -/
theorem loadAuth_run (config : VibeConfig) (c : Client) :
    ∃ c', loadAuth config c = (.ok (), c') ∧ c'.vibe.zone = c.vibe.zone := by
  unfold loadAuth
  rw [Prog.bind_of_ok (Prog.attempt_apply _ c)]
  cases (stored vibeStoreLoadAuth c).1 with
  | ok auth => exact ⟨_, rfl, rfl⟩
  | error error => exact ⟨_, rfl, rfl⟩

/-- So is the cache. -/
theorem loadCache_run (c : Client) :
    ∃ c', loadCache c = (.ok (), c') ∧ c'.vibe.zone = c.vibe.zone := by
  unfold loadCache
  rw [Prog.bind_of_ok (getVibe_apply c)]
  split
  · exact ⟨_, rfl, rfl⟩
  · rw [Prog.bind_of_ok (Prog.attempt_apply _ c)]
    cases (stored (vibeStoreLoadCache c.vibe.auth c.vibe.configRevision c.vibe.timezone) c).1 with
    | ok cache => exact ⟨_, rfl, rfl⟩
    | error _ => exact ⟨_, rfl, rfl⟩

/-- **A client that starts** runs with the timezone and the revision it was given. -/
theorem vibeInit_run {config : VibeConfig} {c : Client} {g : VibeContext}
    (h : takeConfig config c.vibe = some g) :
    ∃ c', vibeInit config c = (.ok (), c') ∧ c'.vibe.initialized = true ∧
      c'.vibe.zone = (config.timezone, orDefault config.configRevision 1) := by
  obtain ⟨hzone, hrevision⟩ := takeConfig_eq_some h
  obtain ⟨c₁, hretry, h₁⟩ := loadRetry_run { c with vibe := g }
  obtain ⟨c₂, hauth, h₂⟩ := loadAuth_run config c₁
  obtain ⟨c₃, hcache, h₃⟩ := loadCache_run c₂
  refine ⟨{ c₃ with vibe := { c₃.vibe with
    lastCacheWriteAt := newestCacheTimestamp c₃.vibe.cache, initialized := true } }, ?_, rfl, ?_⟩
  · rw [vibeInit, Prog.bind_of_ok (getVibe_apply c), h]
    show (do loadRetry; loadAuth config; loadCache; _ : Vibe Unit) { c with vibe := g } = _
    rw [Prog.bind_of_ok hretry, Prog.bind_of_ok hauth, Prog.bind_of_ok hcache]
    rfl
  · show c₃.vibe.zone = _
    rw [h₃, h₂, h₁, ← hzone, ← hrevision]
    rfl

/-- A client that does not start is left with nothing. -/
theorem vibeInit_refused {config : VibeConfig} {c : Client} (h : takeConfig config c.vibe = none) :
    vibeInit config c = (.error .invalidArg, { c with
      vibe := { VibeContext.zero with lastError := some .invalidArgument } }) := by
  rw [vibeInit, Prog.bind_of_ok (getVibe_apply c), h]
  rfl

/-! ### One intent -/

/-- The controller just before the new settings are saved. -/
def Controller.beforeSave (c : Controller) : Controller :=
  (do
    let _ ← call (vibeCancel : Vibe Unit)
    clearPublicLink
    Prog.modify fun c ↦ { c with settings := c.settings.toggled } : Ctl Unit)
    { c with log := .asked :: c.log } |>.2

/-- What the rest of the intent leaves alone. -/
def Controller.kept (c : Controller) :
    DeviceConfig × Zone × VibeContext × Bool × CString × CString × CString :=
  (c.settings, c.view.zone, c.client.vibe, c.shuttingDown, c.bootstrapOrigin, c.clientName,
    c.hostname)

/-- What is shown starts anew. -/
theorem moves_rebuildToday : Prog.Moves (Prog.Keeps Controller.kept) rebuildToday := by
  refine .bind (fun _ ↦ rfl) fun hasAuth ↦ .bind (fun _ ↦ rfl) fun _ ↦ .bind (fun _ ↦ rfl) fun _ ↦
    .bind .get fun c ↦ .bind (fun _ ↦ rfl) fun timeValid ↦ .ite (.ret ()) ?_
  exact .bind (fun _ ↦ rfl) fun now ↦ .ite (fun _ ↦ rfl) fun _ ↦ rfl

/-- What is left once the client has been restarted, or not. -/
theorem toggle_of_saveAndRestart {c : Controller} {result : Except EspErr Unit} {client : Client}
    {processZone : Timezone}
    (h : saveAndRestart c.beforeSave = (.ok result, { c.beforeSave with client, processZone }))
    (hrun : c.shuttingDown = false) :
    (handleIntent .toggleTimezone c).2.kept =
      (c.settings.toggled, c.settings.toggled.zone, client.vibe, false, c.bootstrapOrigin,
        c.clientName, c.hostname) := by
  obtain ⟨finish, hstart, herror, hok⟩ : ∃ finish : Except EspErr Unit → Controller → Ctl Unit,
      handleIntent .toggleTimezone c = (do
        let result ← saveAndRestart
        let c ← Prog.get
        publish fun view ↦ { forgetUsage view with
          timezone := c.settings.timezone
          configRevision := c.settings.configRevision }
        finish result c : Ctl Unit) c.beforeSave ∧
      (∀ error c, finish (.error error) c = publish fun view ↦
        recordFailure c.client.vibe .storage (some error)
          { view with lifecycle := .storageError }) ∧
      ∀ c, finish (.ok ()) c = rebuildToday := by
    rw [handleIntent, Prog.bind_of_ok (Prog.get_apply c), if_neg (by simp [hrun])]
    exact ⟨_, rfl, fun _ _ ↦ rfl, fun _ ↦ rfl⟩
  rw [hstart, Prog.bind_of_ok h, Prog.bind_of_ok (Prog.get_apply _)]
  cases result with
  | error error =>
    rw [herror, ← hrun]
    rfl
  | ok =>
    rw [hok]
    refine (moves_rebuildToday _).trans ?_
    rw [← hrun]
    rfl

/-- The call of `device_config_save`, and what follows it. -/
theorem saveAndRestart_eq (faults : ℕ → Fault) (c : Controller) :
    ∃ board, saveAndRestart (c.withFaults faults).beforeSave =
      (match saveResult faults c with
        | .ok () => do
          setProcessZone
          applyVibeConfig
        | .error error => pure (.error error))
        { (c.withFaults faults).beforeSave with
          client := { (c.withFaults faults).beforeSave.client with board } } :=
  ⟨_, rfl⟩

/-- **A save that fails** leaves the client as it was, the settings and the view changed. -/
theorem toggle_of_not_saved {faults : ℕ → Fault} {c : Controller} {error : EspErr}
    (h : saveResult faults c = .error error) (hrun : c.shuttingDown = false) :
    (toggleTimezone faults c).settings.zone = c.settings.toggled.zone ∧
      (toggleTimezone faults c).client.vibe.zone = c.client.vibe.zone := by
  obtain ⟨board, hsave⟩ := saveAndRestart_eq faults c
  rw [h] at hsave
  have hkept := toggle_of_saveAndRestart hsave hrun
  simp only [Controller.kept, Prod.mk.injEq] at hkept
  obtain ⟨hsettings, -, hclient, -⟩ := hkept
  exact ⟨congrArg _ hsettings, (congrArg _ hclient).trans rfl⟩

/-- **A client that refuses its configuration** is no longer running. -/
theorem toggle_of_refused {faults : ℕ → Fault} {c : Controller} (h : saveResult faults c = .ok ())
    (hrun : c.shuttingDown = false) (hrefuse : ¬ c.Accepted) :
    (toggleTimezone faults c).client.vibe.initialized = false := by
  obtain ⟨board, hsave⟩ := saveAndRestart_eq faults c
  rw [h] at hsave
  generalize hd : ({ (c.withFaults faults).beforeSave with
    client := { (c.withFaults faults).beforeSave.client with board } } : Controller) = d at hsave
  have hzone : d.settings.timezone.Supported := by
    rw [← hd]
    exact (saveResult_eq_ok.1 h).1.2.2.1
  have hnone : takeConfig d.vibeConfig d.client.vibe = none := by
    rw [← Option.not_isSome_iff_eq_none, takeConfig_isSome _ hzone, ← hd]
    exact hrefuse
  have hinit := vibeInit_refused hnone
  have happly : (do
      setProcessZone
      applyVibeConfig : Ctl (Except EspErr Unit)) d = (.ok (.error .invalidArg), { d with
        client := { d.client with
          vibe := { VibeContext.zero with lastError := some .invalidArgument } }
        processZone := d.settings.timezone }) := by
    rw [setProcessZone, Prog.bind_of_ok (Prog.modify_apply _ d), applyVibeConfig,
      Prog.bind_of_ok (Prog.get_apply _), call]
    show (_, _) = _
    rw [show Controller.vibeConfig { d with processZone := d.settings.timezone } = d.vibeConfig
      from rfl, hinit]
  have hstart := hsave.trans happly
  subst hd
  have hkept := toggle_of_saveAndRestart hstart hrun
  simp only [Controller.kept, Prod.mk.injEq] at hkept
  obtain ⟨-, -, hclient, -⟩ := hkept
  exact congrArg VibeContext.initialized hclient

/-- **A save and a restart that succeed** leave all in step, ready for the next intent. -/
theorem toggle_of_saved {faults : ℕ → Fault} {c : Controller} (h : saveResult faults c = .ok ())
    (hrun : c.shuttingDown = false) (haccept : c.Accepted) :
    InStep c.settings.toggled (toggleTimezone faults c) ∧
      (toggleTimezone faults c).settings = c.settings.toggled ∧
      (toggleTimezone faults c).shuttingDown = false ∧
      (toggleTimezone faults c).Accepted := by
  obtain ⟨board, hsave⟩ := saveAndRestart_eq faults c
  rw [h] at hsave
  generalize hd : ({ (c.withFaults faults).beforeSave with
    client := { (c.withFaults faults).beforeSave.client with board } } : Controller) = d at hsave
  have hsettings : d.settings = c.settings.toggled := by
    rw [← hd]
    rfl
  obtain ⟨hrevision, -, hzone, -⟩ := (saveResult_eq_ok.1 h).1
  rw [← hsettings] at hzone hrevision
  have hsome : (takeConfig d.vibeConfig d.client.vibe).isSome := by
    rw [takeConfig_isSome _ hzone, ← hd]
    exact haccept
  obtain ⟨g, hg⟩ := Option.isSome_iff_exists.1 hsome
  obtain ⟨client, hinit, hrunning, hclient⟩ := vibeInit_run hg
  -- The process timezone is set before the client is started with the new settings.
  have happly : (do
      setProcessZone
      applyVibeConfig : Ctl (Except EspErr Unit)) d =
        (.ok (.ok ()), { d with client, processZone := d.settings.timezone }) := by
    rw [setProcessZone, Prog.bind_of_ok (Prog.modify_apply _ d), applyVibeConfig,
      Prog.bind_of_ok (Prog.get_apply _), call]
    show (_, _) = _
    rw [show Controller.vibeConfig { d with processZone := d.settings.timezone } = d.vibeConfig
      from rfl, hinit]
  have hstart := hsave.trans happly
  subst hd
  have hkept := toggle_of_saveAndRestart hstart hrun
  simp only [Controller.kept, Prod.mk.injEq] at hkept
  obtain ⟨hsettings', hview', hclient', hrun', horigin, hname, hhost⟩ := hkept
  have hrunsWith : client.vibe.zone = c.settings.toggled.zone := by
    rw [hclient, ← hsettings]
    exact congrArg _ (if_neg hrevision)
  refine ⟨⟨?_, congrArg _ hsettings', hview', ?_⟩, hsettings', hrun', ?_⟩
  · exact (congrArg VibeContext.initialized hclient').trans hrunning
  · exact (congrArg VibeContext.zone hclient').trans hrunsWith
  · unfold Controller.Accepted toggleTimezone
    rw [horigin, hname, hhost]
    exact haccept

/-! ### Any number of intents -/

/-- The other timezone is another. -/
theorem toggled_zone_ne (settings : DeviceConfig) : settings.toggled.zone ≠ settings.zone := by
  intro h
  have htimezone : settings.toggled.timezone = settings.timezone := congrArg Prod.fst h
  unfold DeviceConfig.toggled at htimezone
  split at htimezone
  · simp_all
  · exact absurd htimezone.symm ‹_›

/-- The new settings can be saved unless the revision wraps. -/
theorem storable_toggled {settings : DeviceConfig} (h : settings.Storable) :
    settings.toggled.Storable ↔ settings.configRevision + 1 ≠ 0 := by
  obtain ⟨-, hrefresh, -, hid⟩ := h
  refine ⟨fun h ↦ h.1, fun hrevision ↦ ⟨hrevision, hrefresh, ?_, hid⟩⟩
  show Timezone.Supported (if settings.timezone = .asiaShanghai then .utc else .asiaShanghai)
  split
  · decide
  · decide

/-- **Every intent is all or nothing** exactly when every save and every restart succeeds: no
operation of a save fails, the revision does not come round to zero, and the client takes its
configuration. -/
theorem toggles_allOrNothing_iff {saved : DeviceConfig} {c : Controller} (h : InStep saved c)
    (hrun : c.shuttingDown = false) (hstorable : c.settings.Storable)
    (attempts : List (ℕ → Fault)) :
    AllOrNothing saved c attempts ↔
      (∀ faults ∈ attempts, ∀ i < configSaveOperations, faults i = .none) ∧
      c.settings.configRevision.toNat + attempts.length < 2 ^ 32 ∧
      (attempts = [] ∨ c.Accepted) := by
  induction attempts generalizing saved c with
  | nil =>
    have hlt := c.settings.configRevision.toNat_lt
    simpa [AllOrNothing] using hlt
  | cons faults attempts ih =>
    rw [AllOrNothing, List.forall_mem_cons]
    cases hsave : saveResult faults c with
    | error error =>
      -- The save fails: the settings have moved on and the client has not.
      obtain ⟨hsettings, hclient⟩ := toggle_of_not_saved hsave hrun
      refine iff_of_false ?_ ?_
      · rintro ⟨hstep, -, -⟩
        refine toggled_zone_ne c.settings ?_
        rw [← hsettings, hstep.settings, ← hstep.client, hclient, h.client, h.settings]
      · rintro ⟨⟨hnone, -⟩, hwrap, -⟩
        have hok : saveResult faults c = .ok () := by
          refine saveResult_eq_ok.2 ⟨(storable_toggled hstorable).2 fun hzero ↦ ?_, hnone⟩
          have hnat := congrArg UInt32.toNat hzero
          rw [UInt32.toNat_add] at hnat
          simp only [List.length_cons] at hwrap
          simp at hnat
          omega
        rw [hsave] at hok
        cases hok
    | ok =>
      obtain ⟨hstorable', hnone⟩ := saveResult_eq_ok.1 hsave
      have hnext : (c.settings.configRevision + 1).toNat = c.settings.configRevision.toNat + 1 := by
        have hne := (storable_toggled hstorable).1 hstorable'
        have hlt := c.settings.configRevision.toNat_lt
        rw [UInt32.toNat_add]
        refine Nat.mod_eq_of_lt (lt_of_le_of_ne (by simp; omega) fun heq ↦ hne ?_)
        exact UInt32.toNat_inj.1 (by rw [UInt32.toNat_add, heq]; rfl)
      by_cases haccept : c.Accepted
      · obtain ⟨hstep, hsettings, hrun', haccept'⟩ := toggle_of_saved hsave hrun haccept
        have hsaved : savedAfter faults saved c = c.settings.toggled := by
          rw [savedAfter, hsave]
        rw [hsaved, ih hstep hrun' (by rwa [hsettings]), hsettings]
        have hrevision : c.settings.toggled.configRevision.toNat =
            c.settings.configRevision.toNat + 1 := hnext
        rw [hrevision, List.length_cons, Nat.add_assoc, Nat.add_comm 1]
        constructor
        · rintro ⟨-, -, hrest, hwrap, -⟩
          exact ⟨⟨hnone, hrest⟩, hwrap, Or.inr haccept⟩
        · rintro ⟨⟨-, hrest⟩, hwrap, -⟩
          refine ⟨hstep, ?_, hrest, hwrap, Or.inr haccept'⟩
          intro error herror
          cases herror
      · refine iff_of_false ?_ ?_
        · rintro ⟨hstep, -, -⟩
          have hstopped := toggle_of_refused hsave hrun haccept
          rw [hstep.running] at hstopped
          cases hstopped
        · rintro ⟨-, -, hnil | haccept'⟩
          · cases hnil
          · exact haccept haccept'

/-- A configuration in the first revision. -/
def shanghaiSettings : DeviceConfig where
  configRevision := 1
  refreshSeconds := 900
  timezone := .asiaShanghai
  deviceId := .ofBytes (ascii ['0', '1', '2', '3'])

/-- A controller in step with its client, on a configuration that was saved. -/
def runningController : Controller :=
  { Controller.zero with
    client := { Client.zero with vibe := { VibeContext.zero with
      initialized := true, configRevision := 1 } }
    settings := shanghaiSettings
    processZone := .asiaShanghai
    bootstrapOrigin := .ofBytes (httpsScheme ++ ascii ['a', 'p', 'i'])
    clientName := .ofBytes (ascii ['v', 'i', 'b', 'e'])
    hostname := .ofBytes (ascii ['v', 'i', 'b', 'e'])
    view := { AppView.zero with configRevision := 1 } }

/-- The sample is in step. -/
theorem inStep_runningController : InStep shanghaiSettings runningController :=
  ⟨rfl, rfl, rfl, rfl⟩

/-- Two intents whose saves succeed. -/
theorem toggles_allOrNothing_iff_twice :
    AllOrNothing shanghaiSettings runningController [fun _ ↦ .none, fun _ ↦ .none] ↔
      (∀ faults ∈ [fun _ : ℕ ↦ Fault.none, fun _ ↦ .none],
        ∀ i < configSaveOperations, faults i = .none) ∧
      runningController.settings.configRevision.toNat + 2 < 2 ^ 32 ∧
      ([fun _ : ℕ ↦ Fault.none, fun _ ↦ .none] = [] ∨ runningController.Accepted) :=
  toggles_allOrNothing_iff inStep_runningController rfl (by decide) _

/-- **One save fails.** The settings and the view are in UTC at the second revision, the client and
the storage still in Shanghai at the first. -/
theorem toggle_not_allOrNothing :
    ¬ AllOrNothing shanghaiSettings runningController [fun _ ↦ .fails] ∧
      (toggleTimezone (fun _ ↦ .fails) runningController).settings.zone = (.utc, 2) ∧
      (toggleTimezone (fun _ ↦ .fails) runningController).view.zone = (.utc, 2) ∧
      (toggleTimezone (fun _ ↦ .fails) runningController).client.vibe.zone = (.asiaShanghai, 1) ∧
      savedAfter (fun _ ↦ .fails) shanghaiSettings runningController = shanghaiSettings := by
  refine ⟨?_, rfl, rfl, rfl, rfl⟩
  rintro ⟨hstep, -, -⟩
  have hsettings : (Timezone.utc, (2 : UInt32)) = (Timezone.asiaShanghai, 1) := hstep.settings
  cases hsettings

end VibeUsage
