import VibeUsage.Controller.Model

/-!
# The start of the device

`app_controller_init`, from a power-up to the first view. A journal of a factory reset that was cut
short is found before the usage client can load a credential; the local stores are erased at once,
the others once the Wi-Fi driver runs, and the device restarts. A start that fails leaves a device
without a controller task.

The order in which the source does things is kept, since what is left undone depends on it: the
journal comes before the account, the Wi-Fi before the stores that need it. A step that fails aborts
the start, and the model ends there as the code does.
-/

namespace VibeUsage

/-- The argument of `app_controller_init`, and what the rest of the device answers. -/
structure BootInput where
  settings : DeviceConfig
  bootstrapOrigin : CString
  clientName : CString
  productPrefix : CString
  hostname : CString
  /-- The queue, the mutex and the event group can be created. -/
  resources : Bool
  /-- What `board_audio_set_alert_volume` and `wifi_adapter_init` return. -/
  audio : Option EspErr
  wifiInit : Option EspErr
  wifiHasCredentials : Bool
  mono : ℕ → ℤ

/-- The four texts fit into the controller's arrays. -/
def BootInput.TextsFit (boot : BootInput) : Prop :=
  boot.bootstrapOrigin.bytes.length < originBytes ∧ boot.clientName.bytes.length < 65 ∧
    boot.productPrefix.bytes.length < 24 ∧ boot.hostname.bytes.length < 65

instance (boot : BootInput) : Decidable boot.TextsFit :=
  inferInstanceAs (Decidable (_ ∧ _ ∧ _ ∧ _))

/-- A program of the start, which stops at the first error. -/
abbrev Start (α : Type) : Type := Prog Controller EspErr α

/-- A call of the usage client. -/
def startCall {α : Type} (p : Vibe α) : Start α :=
  Prog.on Controller.client (fun client c ↦ { c with client }) p

/-- The result of a call that is not modelled. -/
def outcome (error : Option EspErr) : Start Unit := Prog.check (error = none) (error.getD .fail)

def takeArguments (boot : BootInput) : Start Unit := Prog.modify fun c ↦ { c with
  settings := boot.settings
  bootstrapOrigin := boot.bootstrapOrigin
  clientName := boot.clientName
  hostname := boot.hostname }

/-- The local half of a reset that was cut short. -/
def resumeReset (pending : Bool) : Start Unit :=
  if pending then startCall vibeFactoryResetResumeLocal else pure ()

/-- The other half, which ends with `esp_restart`. -/
def endReset : Start Unit := do
  startCall (stored wifiAdapterClearCredentials)
  startCall (stored smartTodoClear)
  startCall (stored llmSettingsClear)
  startCall vibeFactoryResetComplete
  Prog.modify fun c ↦ { c with stopped := true }

def firstView (boot : BootInput) : Start Unit := Prog.modify fun c ↦ { c with
  view := { AppView.zero with
    lifecycle := .loadConfig
    dataState := if c.client.vibe.hasAuth then .stale else .linkRequired
    hasAuth := c.client.vibe.hasAuth
    wifiHasCredentials := boot.wifiHasCredentials
    configRevision := boot.settings.configRevision
    timezone := boot.settings.timezone } }

/-- `setenv` of `TZ`, and `tzset` -/
def takeZone (boot : BootInput) : Start Unit := Prog.modify fun c ↦
  { c with processZone := boot.settings.timezone }

def appControllerInit (boot : BootInput) : Start Unit := do
  Prog.check (boot.settings.deviceId.bytes ≠ []) .invalidArg
  takeArguments boot
  Prog.check boot.TextsFit .invalidSize
  Prog.check (boot.resources = true) .noMem
  let pending ← startCall (stored vibeStoreResetPending)
  resumeReset pending
  takeZone boot
  let c ← Prog.get
  startCall (vibeInit c.vibeConfig)
  outcome boot.audio
  outcome boot.wifiInit
  if pending then endReset else firstView boot

/-! ### Runs over several starts -/

/-- What is left of a device that is switched off and on. -/
def Controller.powerOn (c : Controller) (boot : BootInput) : Controller :=
  { Controller.zero with
    client := { c.client with
      vibe := .zero
      exchange := .silent
      board := { c.client.board with powered := true, tick := c.client.board.tick + 1 } }
    mono := boot.mono
    log := c.log }

/-- A start from power-up. -/
def Controller.boot (boot : BootInput) (c : Controller) : Controller :=
  match appControllerInit boot (c.powerOn boot) with
  | (.ok (), c) => c
  | (.error _, c) => { c with stopped := true }

/-- What may happen to a device. -/
inductive Happening
  | turn (turn : Turn)
  | boot (boot : BootInput)

def Controller.next (c : Controller) : Happening → Controller
  | .turn turn => (controllerTurn turn c).2
  | .boot boot => c.boot boot

/-- The device after all this. -/
def afterAll (c : Controller) (happenings : List Happening) : Controller :=
  happenings.foldl Controller.next c

end VibeUsage
