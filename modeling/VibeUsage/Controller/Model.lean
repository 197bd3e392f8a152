import VibeUsage.Bounds
import VibeUsage.Client.Fetch
import VibeUsage.Controller.FactoryReset
import VibeUsage.State
import VibeUsage.Storage.DeviceConfig

/-!
# The controller

The task of `app_controller.c`: it takes one command from its queue, if there is one, runs the
action that is due, and looks at the clock. Its actions wait for deadlines on the monotonic clock;
zero means that a deadline is not set.

The view is the part of `app_controller_view_t` that is read, or that says what came of a call;
texts, addresses and the fields of other components are left out. A view that is published is the
view; what is written to a copy that is not published is lost. Whatever the network, the Wi-Fi
driver and the other components answer is an input of the turn. `vibe_request_device_code` and
`vibe_poll_device_code` are represented by the response they parse.

The log is a history of the requests and of what may put one off. No code reads it.
-/

namespace VibeUsage

/-- An `app_reason_t`. -/
inductive AppReason
  | none
  | wifi
  | time
  | auth
  | http
  | schema
  | storage
  | cancelled
deriving DecidableEq, Repr

/-- A `wifi_adapter_event_t`. -/
inductive WifiEvent
  | scanning
  | connecting
  | gotIp
  | disconnected
  | portalEnter
  | provisioningTimeout
  | portalExit
deriving DecidableEq, Repr

/-- An `app_intent_t`. The others are those of the voice, of its acknowledgement, of the language
and of the volume. They touch nothing that is modelled here, but that a request by voice closes a
portal of the language model which is open; it is left out. -/
inductive AppIntent
  | refresh
  | reconcile
  | startWifi
  | reconfigureWifi
  | relink
  | unlink
  | toggleTimezone
  | factoryReset
  | llmConfig
  | llmConfigClose
  | other
deriving DecidableEq, Repr

/-- A `command_t`. -/
inductive Command
  | boot
  | wifiEvent (event : WifiEvent)
  | intent (intent : AppIntent)
  | shutdown
deriving DecidableEq, Repr

/-- The parts of an `app_controller_view_t`. -/
structure AppView where
  lifecycle : AppState
  dataState : DataState
  reason : AppReason
  busy : Bool
  wifiHasCredentials : Bool
  wifiConnected : Bool
  wifiProvisioning : Bool
  timeValid : Bool
  hasAuth : Bool
  hasToday : Bool
  hasSevenDay : Bool
  configRevision : UInt32
  timezone : Timezone
  lastError : Option VibeError
  lastSystemError : Option EspErr
  lastHttpStatus : Int
  llmConfigOpen : Bool
  today : UsageSnapshot
  sevenDay : UsageSnapshot

/-- A zeroed snapshot. -/
def UsageSnapshot.zero : UsageSnapshot where
  schemaVersion := 0
  generation := 0
  todayKey := 0
  todayTokens := 0
  sevenDayTokens := 0
  agents := []
  validDaysMask := 0
  todayComplete := false
  sevenDayComplete := false
  hasAnyData := false
  hasLkg := false
  timeValid := false
  persisted := false
  sourcesCollapsed := false
  lastFetchAt := 0
  lastReconcileAt := 0
  state := .ready

/-- The fields of a `vibe_device_code_t` that the controller reads. -/
structure DeviceCode where
  deviceCode : CString
  interval : UInt32
  monotonicDeadlineSeconds : ℤ
  deriving DecidableEq

def DeviceCode.zero : DeviceCode := ⟨.empty, 0, 0⟩

/-- What a poll of a device code is told. -/
inductive PollStatus
  | pending
  | success (apiKey : CString)
  | denied
  | expired
  | alreadyDelivered
  | slowDown (retryAfterSeconds : UInt32)
deriving DecidableEq

/-- The answer to a request of the device flow, with the status it came with. -/
structure Reply (α : Type) where
  /-- The parsed answer, or the error and what `vibe_last_error` says of it. -/
  result : Except (EspErr × Option VibeError) α
  httpStatus : Int
  retryAfterSeconds : UInt32

/-- The inputs of one turn of the controller's loop. -/
structure Turn where
  command : Option Command
  /-- The exchange of a usage request. -/
  exchange : Exchange
  /-- The code and its lifetime and interval, in seconds. -/
  code : Reply (CString × UInt32 × UInt32)
  poll : Reply PollStatus
  /-- What `esp_netif_sntp_sync_wait` returns. -/
  sntp : Option EspErr
  random : UInt32
  /-- An open item of the list is due within 40 seconds. -/
  todoSoon : Bool
  wifiHasCredentials : Bool
  wifiIsConnected : Bool
  wifiIsProvisioning : Bool
  /-- What `wifi_adapter_start_station` and `wifi_adapter_start_provisioning` return. -/
  wifiStart : Option EspErr
  /-- What `llm_portal_start` returns. -/
  portalStart : Option EspErr

/-- An entry of the log. -/
inductive LogEntry
  /-- A usage request, the clock having last been read at this time. -/
  | requested (automatic : Bool) (at_ : ℤ)
  /-- An automatic request has failed and is to be repeated at `until_`. -/
  | backedOff (until_ : ℤ)
  /-- A pass of the last seven days is still active when that happens. -/
  | passActive
  /-- A link with a device code has come to its end; a retry was, or was not, set for later. -/
  | linkEnded (retrySet : Bool)
  /-- An intent of the user that asks for a request. -/
  | asked
  /-- The network is there again. -/
  | reconnected
deriving DecidableEq, Repr

/-- A `controller_t`, with what surrounds it. -/
structure Controller where
  client : Client
  settings : DeviceConfig
  /-- The time zone of the process, as `setenv` has set it. -/
  processZone : Timezone
  bootstrapOrigin : CString
  clientName : CString
  hostname : CString
  /-- No turn follows: `esp_restart` has been reached, or the start has failed. -/
  stopped : Bool
  shuttingDown : Bool
  online : Bool
  reconcileActive : Bool
  requestCodeRetry : Bool
  manualRefreshPending : Bool
  timeSyncPending : Bool
  failureCount : UInt8
  linkIntervalSeconds : UInt32
  nextLinkPollUs : ℤ
  nextRefreshUs : ℤ
  nextReconcileUs : ℤ
  nextRetryUs : ℤ
  lastManualRefreshUs : ℤ
  llmDeadlineUs : ℤ
  view : AppView
  deviceCode : DeviceCode
  /-- What `esp_timer_get_time` returns, reading by reading. -/
  mono : ℕ → ℤ
  monoReadings : ℕ
  turn : Turn
  /-- The latest entry first. -/
  log : List LogEntry

/-- A program of the controller. None fails; a call that does returns its error. -/
abbrev Ctl (α : Type) : Type := Prog Controller Empty α

/-! ### Zeroed states -/

def AppView.zero : AppView where
  lifecycle := .boot
  dataState := .ready
  reason := .none
  busy := false
  wifiHasCredentials := false
  wifiConnected := false
  wifiProvisioning := false
  timeValid := false
  hasAuth := false
  hasToday := false
  hasSevenDay := false
  configRevision := 0
  timezone := .asiaShanghai
  lastError := none
  lastSystemError := none
  lastHttpStatus := 0
  llmConfigOpen := false
  today := .zero
  sevenDay := .zero

/-- A turn in which nothing arrives, and whatever is asked is answered by a failure. -/
def Turn.silent : Turn where
  command := none
  exchange := .silent
  code := ⟨.error (.fail, none), 0, 0⟩
  poll := ⟨.error (.fail, none), 0, 0⟩
  sntp := some .timeout
  random := 0
  todoSoon := false
  wifiHasCredentials := false
  wifiIsConnected := false
  wifiIsProvisioning := false
  wifiStart := none
  portalStart := none

def DeviceConfig.zero : DeviceConfig := ⟨0, 0, .asiaShanghai, .empty⟩

/-- The controller before it is initialized, its clock standing still. -/
def Controller.zero : Controller where
  client := .zero
  settings := .zero
  processZone := .utc
  bootstrapOrigin := .empty
  clientName := .empty
  hostname := .empty
  stopped := false
  shuttingDown := false
  online := false
  reconcileActive := false
  requestCodeRetry := false
  manualRefreshPending := false
  timeSyncPending := false
  failureCount := 0
  linkIntervalSeconds := 0
  nextLinkPollUs := 0
  nextRefreshUs := 0
  nextReconcileUs := 0
  nextRetryUs := 0
  lastManualRefreshUs := 0
  llmDeadlineUs := 0
  view := .zero
  deviceCode := .zero
  mono := fun _ ↦ 0
  monoReadings := 0
  turn := .silent
  log := []

/-! ### Its surroundings -/

/-- A call of the usage client. -/
def call {α : Type} (p : Vibe α) : Ctl (Except EspErr α) := fun c ↦
  (.ok (p c.client).1, { c with client := (p c.client).2 })

def monotonicUs : Ctl ℤ := fun c ↦
  (.ok (c.mono c.monoReadings), { c with monoReadings := c.monoReadings + 1 })

/-- A reading of the wall clock. -/
def wallClock : Ctl Int64 := fun c ↦
  (.ok (c.client.clock c.client.readings),
    { c with client := { c.client with readings := c.client.readings + 1 } })

def systemTimeValid : Ctl Bool := do
  let now ← wallClock
  pure (decide (now ≥ timeMinValid))

def vibeHasAuth : Ctl Bool := fun c ↦ (.ok c.client.vibe.hasAuth, c)

/-- Change the view and publish it. -/
def publish (f : AppView → AppView) : Ctl Unit := Prog.modify fun c ↦ { c with view := f c.view }

def addLog (entry : LogEntry) : Ctl Unit := Prog.modify fun c ↦ { c with log := entry :: c.log }

/-- A call of the client that makes a usage request, with its entry in the log. -/
def request (automatic : Bool) (p : Vibe UsageSnapshot) : Ctl (Except EspErr UsageSnapshot) := do
  Prog.modify fun c ↦
    { c with log := .requested automatic (c.mono (c.monoReadings - 1)) :: c.log }
  call p

/-! ### The view -/

def recordFailure (vibe : VibeContext) (reason : AppReason) (systemError : Option EspErr)
    (view : AppView) : AppView :=
  { view with
    busy := false
    reason
    lastSystemError := systemError
    lastError := vibe.lastError
    lastHttpStatus := vibe.lastHttpStatus
    dataState := if view.hasToday ∨ view.today.hasLkg then .stale else view.dataState }

/-- What the view says of the client after a call. -/
def noteOutcome (vibe : VibeContext) (view : AppView) : AppView :=
  { view with
    busy := false
    lastError := vibe.lastError
    lastHttpStatus := vibe.lastHttpStatus }

/-- The account's data are no longer shown. -/
def forgetUsage (view : AppView) : AppView :=
  { view with hasToday := false, hasSevenDay := false, today := .zero, sevenDay := .zero }

def updateClockFields : Ctl Unit := do
  let timeValid ← systemTimeValid
  publish fun view ↦ { view with timeValid }

def updateToday : Ctl Unit := do
  match ← call (vibeSnapshot .today) with
  | .ok today =>
    publish fun view ↦ { view with
      today
      hasToday := today.hasLkg || today.todayComplete
      dataState := today.state }
  | .error _ => pure ()

def updateSevenDay : Ctl Unit := do
  match ← call (vibeSnapshot .sevenDays) with
  | .ok sevenDay => publish fun view ↦ { view with sevenDay, hasSevenDay := sevenDay.hasLkg }
  | .error _ => pure ()

def updateSnapshots : Ctl Unit := do
  updateToday
  updateSevenDay

/-- The end of a link, and of everything that is due. -/
def clearPublicLink : Ctl Unit := Prog.modify fun c ↦ { c with
  deviceCode := .zero
  nextLinkPollUs := 0
  linkIntervalSeconds := 0
  nextRefreshUs := 0
  nextReconcileUs := 0
  nextRetryUs := 0
  reconcileActive := false
  requestCodeRetry := false
  manualRefreshPending := false }

def closeLlmPortal : Ctl Unit := Prog.modify fun c ↦ { c with llmDeadlineUs := 0 }

def startLlmPortal : Ctl Unit := do
  let c ← Prog.get
  match c.turn.portalStart with
  | some _ => pure ()
  | none => do
    let now ← monotonicUs
    Prog.modify fun c ↦ { c with llmDeadlineUs := now + 600000000 }

/-! ### Retrying -/

/-- Between 60 seconds and half an hour, doubled with every failure, give or take a fifth. -/
def retryDelaySeconds (failureCount : UInt8) (random : UInt32) : ℤ :=
  let base : ℤ := min (60 * 2 ^ min failureCount.toNat 5) 1800
  let span := base / 5
  base + ((random.toNat : ℤ) % (2 * span + 1) - span)

def scheduleRetry : Ctl Unit := do
  let c ← Prog.get
  let delay := retryDelaySeconds c.failureCount c.turn.random
  let serverDelay : ℤ := c.client.vibe.lastRetryAfterSeconds.toNat
  let delay := if c.client.vibe.lastHttpStatus = 429 then max delay serverDelay else delay
  let now ← monotonicUs
  Prog.modify fun c ↦ { c with
    nextRetryUs := now + delay * 1000000
    -- A past-due periodic deadline must not bypass this backoff.
    nextRefreshUs := 0
    failureCount := if c.failureCount < 255 then c.failureCount + 1 else c.failureCount }

/-- The entries of an automatic request that has failed. -/
def logBackoff : Ctl Unit := Prog.modify fun c ↦
  { c with log := if c.reconcileActive then .passActive :: .backedOff c.nextRetryUs :: c.log
    else .backedOff c.nextRetryUs :: c.log }

/-! ### Time -/

/-- The call that fails says why; what counts is whether the clock is set. -/
def syncSystemTime : Ctl (Option EspErr) := do
  let valid ← systemTimeValid
  let c ← Prog.get
  pure (if valid then none else some (c.turn.sntp.getD .timeout))

/-- The configuration of the usage client. -/
def Controller.vibeConfig (c : Controller) : VibeConfig where
  bootstrapOrigin := c.bootstrapOrigin
  clientName := c.clientName
  hostname := c.hostname
  timezone := c.settings.timezone
  generation := 1
  configRevision := c.settings.configRevision
  refreshSeconds := c.settings.refreshSeconds
  maxUsageBodyBytes := 0
  maxUsageBuckets := 0

/-- `setenv` of `TZ`, and `tzset` -/
def setProcessZone : Ctl Unit := Prog.modify fun c ↦ { c with processZone := c.settings.timezone }

def applyVibeConfig : Ctl (Except EspErr Unit) := do
  let c ← Prog.get
  call (vibeInit c.vibeConfig)

def afterTimeReady : Ctl Unit := do
  updateClockFields
  let hasAuth ← vibeHasAuth
  publish fun view ↦ { view with timeValid := true, hasAuth, lastSystemError := none }
  updateSnapshots
  let now ← monotonicUs
  if hasAuth then Prog.modify fun c ↦ { c with nextRefreshUs := now }
  else Prog.modify fun c ↦ { c with requestCodeRetry := true, nextRetryUs := now }

def handleTimeSync : Ctl Unit := do
  publish fun view ↦ { view with lifecycle := .timeSync, busy := true, reason := .none }
  match ← syncSystemTime with
  | some error => do
    let c ← Prog.get
    publish fun view ↦ recordFailure c.client.vibe .time (some error)
      { view with lifecycle := .timeRequired }
    scheduleRetry
  | none => afterTimeReady

/-! ### Linking a device -/

/-- `vibe_request_device_code`, with the response it parses. -/
def vibeRequestDeviceCode (reply : Reply (CString × UInt32 × UInt32)) :
    Vibe (CString × UInt32 × UInt32) := do
  let g ← getVibe
  Prog.check g.initialized .invalidState
  setVibe fun g ↦ { g with lastRetryAfterSeconds := reply.retryAfterSeconds }
  match reply.result with
  | .error (error, lastError) =>
    setError lastError reply.httpStatus
    Prog.fail error
  | .ok code =>
    setError none reply.httpStatus
    pure code

/-- `vibe_poll_device_code`, with the response it parses. -/
def vibePollDeviceCode (reply : Reply PollStatus) : Vibe PollStatus := do
  let g ← getVibe
  Prog.check g.initialized .invalidArg
  setVibe fun g ↦ { g with lastRetryAfterSeconds := reply.retryAfterSeconds }
  match reply.result with
  | .error (error, lastError) =>
    setError lastError reply.httpStatus
    Prog.fail error
  | .ok status =>
    match status with
    | .success apiKey => linkAccount apiKey
    | _ => setError none reply.httpStatus
    pure status

/-- The link request of `start_device_link`. -/
def requestLink : Ctl Unit := do
  clearPublicLink
  publish fun view ↦ { view with
    lifecycle := .deviceLink, dataState := .linkRequired, busy := true, reason := .none }
  let c ← Prog.get
  match ← call (vibeRequestDeviceCode c.turn.code) with
  | .error error => do
    let c ← Prog.get
    publish fun view ↦
      { recordFailure c.client.vibe .auth (some error) view with
        lifecycle := .deviceLink, dataState := .linkRequired }
    Prog.modify fun c ↦ { c with requestCodeRetry := true }
    scheduleRetry
  | .ok (deviceCode, expiresIn, interval) => do
    let received ← monotonicUs
    let now ← monotonicUs
    Prog.modify fun c ↦ { c with
      deviceCode := ⟨deviceCode, interval, received / 1000000 + expiresIn.toNat⟩
      linkIntervalSeconds := interval
      nextLinkPollUs := now + interval.toNat * 1000000
      requestCodeRetry := false
      failureCount := 0
      nextRetryUs := 0 }
    let c ← Prog.get
    publish fun view ↦
      { noteOutcome c.client.vibe view with reason := .none, lastSystemError := none }

def startDeviceLink : Ctl Unit := do
  let c ← Prog.get
  let timeValid ← systemTimeValid
  if ¬ c.online ∨ ¬ timeValid then pure () else requestLink

/-- Another poll after this many seconds. -/
def pollAgain (seconds : ℤ) : Ctl Unit := do
  let now ← monotonicUs
  Prog.modify fun c ↦ { c with nextLinkPollUs := now + seconds * 1000000 }

/-- The link has come to its end. -/
def endLink (f : AppView → AppView) : Ctl Unit := do
  let c ← Prog.get
  addLog (.linkEnded (decide (c.nextRetryUs ≠ 0)))
  clearPublicLink
  publish f

/-- What `poll_device_link` does with the answer. -/
def settlePoll (nowSeconds : ℤ) : Except EspErr PollStatus → Ctl Unit
  | .error error => do
    let c ← Prog.get
    publish fun view ↦
      { recordFailure c.client.vibe .auth (some error) view with lifecycle := .deviceLink }
    let wait : ℤ := max c.linkIntervalSeconds.toNat 5
    let wait := if c.client.vibe.lastHttpStatus = 429 then
      max wait c.client.vibe.lastRetryAfterSeconds.toNat else wait
    let remaining := c.deviceCode.monotonicDeadlineSeconds - nowSeconds
    pollAgain (if remaining > 0 ∧ wait > remaining then remaining else wait)
  | .ok .pending => do
    let c ← Prog.get
    pollAgain c.linkIntervalSeconds.toNat
  | .ok (.slowDown retryAfterSeconds) => do
    Prog.modify fun c ↦ { c with
      linkIntervalSeconds := c.linkIntervalSeconds + max retryAfterSeconds 5 }
    let c ← Prog.get
    pollAgain c.linkIntervalSeconds.toNat
    publish (noteOutcome c.client.vibe)
  | .ok (.success _) => do
    let c ← Prog.get
    endLink fun view ↦
      { noteOutcome c.client.vibe view with
        hasAuth := true, reason := .none, lifecycle := .syncing }
    let now ← monotonicUs
    Prog.modify fun c ↦ { c with nextRefreshUs := now }
  | .ok _ => do
    let c ← Prog.get
    endLink fun view ↦
      { noteOutcome c.client.vibe view with dataState := .linkRequired, reason := .auth }

def pollDeviceLink : Ctl Unit := do
  let c ← Prog.get
  if c.deviceCode.deviceCode.bytes = [] ∨ ¬ c.online then pure ()
  else do
    let now ← monotonicUs
    let nowSeconds := now / 1000000
    if nowSeconds ≥ c.deviceCode.monotonicDeadlineSeconds then
      endLink fun view ↦
        { view with lifecycle := .deviceLink, dataState := .linkRequired, reason := .auth }
    else do
      let result ← call (vibePollDeviceCode c.turn.poll)
      settlePoll nowSeconds result

/-! ### Usage -/

/-- The server has named a time before which nothing is asked for. -/
def showRetryWindow (view : AppView) : AppView :=
  { view with
    lifecycle := .dashboard
    busy := false
    reason := .http
    dataState := if view.hasToday ∨ view.today.hasLkg then .stale else view.dataState }

def showSyncing (view : AppView) : AppView :=
  { view with lifecycle := .syncing, busy := true, reason := .none }

def failureReason (vibe : VibeContext) : AppReason :=
  if vibe.lastError = some .storage then .storage else .http

/-- The account is refused: there is nothing to retry. -/
def showRefused (vibe : VibeContext) (view : AppView) : AppView :=
  let view := forgetUsage view
  if vibe.lastError = some .storage then
    { view with lifecycle := .storageError, dataState := .authRequired, reason := .storage }
  else { view with lifecycle := .dashboard, dataState := .authRequired, reason := .auth }

/-- What `fetch_today` does when its call fails. -/
def failToday (manual : Bool) (error : EspErr) : Ctl Unit := do
  let c ← Prog.get
  let vibe := c.client.vibe
  publish fun view ↦
    { noteOutcome vibe view with lastSystemError := some error, hasAuth := vibe.hasAuth }
  if vibe.lastHttpStatus = 401 ∧ ¬ vibe.hasAuth then do
    clearPublicLink
    publish (showRefused vibe)
  else do
    publish fun view ↦ recordFailure vibe (failureReason vibe) (some error)
      { view with lifecycle := .dashboard }
    scheduleRetry
    if manual then pure () else logBackoff

/-- The pass over the last seven days starts when one of them is missing. -/
def queueReconcile : Ctl Unit := do
  match ← call (vibeBeginReconcile false) with
  | .ok () => do
    let now ← monotonicUs
    Prog.modify fun c ↦ { c with reconcileActive := true, nextReconcileUs := now + 1000000 }
  | .error error => do
    let c ← Prog.get
    publish fun view ↦ recordFailure c.client.vibe .storage (some error)
      { view with lifecycle := .storageError }

/-- What `fetch_today` does when its call succeeds. -/
def finishToday : Ctl Unit := do
  let now ← monotonicUs
  Prog.modify fun c ↦ { c with
    failureCount := 0
    nextRetryUs := 0
    nextRefreshUs := now + c.settings.refreshSeconds.toNat * 1000000 }
  let c ← Prog.get
  publish fun view ↦ { noteOutcome c.client.vibe view with hasAuth := c.client.vibe.hasAuth }
  updateSnapshots
  publish fun view ↦ { view with
    lifecycle := .dashboard
    reason := .none
    lastSystemError := none
    dataState := view.today.state }
  let c ← Prog.get
  if c.view.sevenDay.sevenDayComplete then pure () else queueReconcile
  updateClockFields

/-- The request of `fetch_today`. -/
def syncToday (manual : Bool) : Ctl Unit := do
  publish showSyncing
  match ← request (!manual) vibeFetchToday with
  | .error error => failToday manual error
  | .ok _ => finishToday

def fetchToday (manual : Bool) : Ctl Unit := do
  let c ← Prog.get
  let timeValid ← systemTimeValid
  if ¬ c.online ∨ ¬ timeValid ∨ ¬ c.client.vibe.hasAuth then pure ()
  else do
    let now ← monotonicUs
    match ← call vibeRetryRemainingSeconds with
    | .error _ => pure ()
    | .ok retryRemaining =>
      if retryRemaining > 0 then do
        Prog.modify fun c ↦ { c with
          nextRetryUs := now + retryRemaining.toNat * 1000000
          nextRefreshUs := 0 }
        publish showRetryWindow
      else if manual ∧ c.lastManualRefreshUs ≠ 0 ∧ now - c.lastManualRefreshUs < 60000000 then
        pure ()
      else do
        Prog.modify fun c ↦ { c with
          lastManualRefreshUs := if manual then now else c.lastManualRefreshUs }
        syncToday manual

/-- What `reconcile_one` does when its call fails. -/
def failReconcile (error : EspErr) : Ctl Unit := do
  Prog.modify fun c ↦ { c with reconcileActive := false }
  let c ← Prog.get
  let vibe := c.client.vibe
  publish fun view ↦ recordFailure vibe (failureReason vibe) (some error)
    { view with lifecycle := .dashboard }
  scheduleRetry
  logBackoff

/-- What `reconcile_one` does when its call succeeds. -/
def finishReconcile : Ctl Unit := do
  let c ← Prog.get
  publish (noteOutcome c.client.vibe)
  updateSnapshots
  publish fun view ↦ { view with lifecycle := .dashboard, reason := .none, lastSystemError := none }
  let c ← Prog.get
  if ¬ c.client.vibe.reconcilePending then
    Prog.modify fun c ↦ { c with reconcileActive := false }
  else do
    let now ← monotonicUs
    Prog.modify fun c ↦ { c with nextReconcileUs := now + 1000000 }

/-- The request of `reconcile_one`. -/
def syncDay : Ctl Unit := do
  publish showSyncing
  match ← request true vibeReconcile with
  | .error error => failReconcile error
  | .ok _ => finishReconcile

def reconcileOne : Ctl Unit := do
  let c ← Prog.get
  let timeValid ← systemTimeValid
  if ¬ c.reconcileActive ∨ ¬ c.online ∨ ¬ timeValid ∨ ¬ c.client.vibe.hasAuth then pure ()
  else
    match ← call vibeRetryRemainingSeconds with
    | .error _ => pure ()
    | .ok retryRemaining =>
      if retryRemaining > 0 then do
        let now ← monotonicUs
        Prog.modify fun c ↦ { c with nextReconcileUs := now + retryRemaining.toNat * 1000000 }
        publish showRetryWindow
      else syncDay

/-! ### Commands -/

/-- The settings with the other timezone. -/
def DeviceConfig.toggled (settings : DeviceConfig) : DeviceConfig :=
  { settings with
    configRevision := settings.configRevision + 1
    timezone := if settings.timezone = .asiaShanghai then .utc else .asiaShanghai }

/-- The settings are saved, and the process and the usage client go on with them. -/
def saveAndRestart : Ctl (Except EspErr Unit) := do
  let c ← Prog.get
  match ← call (stored (deviceConfigSave c.settings)) with
  | .ok () => do
    setProcessZone
    applyVibeConfig
  | .error error => pure (.error error)

/-- The data of the new timezone are asked for. -/
def rebuildToday : Ctl Unit := do
  let hasAuth ← vibeHasAuth
  publish fun view ↦ { view with lastSystemError := none, hasAuth }
  Prog.modify fun c ↦ { c with reconcileActive := false }
  let c ← Prog.get
  let timeValid ← systemTimeValid
  if ¬ c.online ∨ ¬ timeValid then pure ()
  else do
    let now ← monotonicUs
    if hasAuth then Prog.modify fun c ↦ { c with nextRefreshUs := now }
    else Prog.modify fun c ↦ { c with requestCodeRetry := true, nextRetryUs := now }

def restartVibeForTimezone : Ctl Unit := do
  let _ ← call (vibeCancel : Vibe Unit)
  clearPublicLink
  Prog.modify fun c ↦ { c with settings := c.settings.toggled }
  let result ← saveAndRestart
  let c ← Prog.get
  publish fun view ↦ { forgetUsage view with
    timezone := c.settings.timezone
    configRevision := c.settings.configRevision }
  match result with
  | .error error =>
    publish fun view ↦ recordFailure c.client.vibe .storage (some error)
      { view with lifecycle := .storageError }
  | .ok () => rebuildToday

def intentRefresh : Ctl Unit := do
  addLog .asked
  let c ← Prog.get
  if c.view.dataState = .linkRequired ∨ c.view.dataState = .authRequired ∨
      ¬ c.client.vibe.hasAuth then do
    let now ← monotonicUs
    Prog.modify fun c ↦ { c with requestCodeRetry := true, nextRetryUs := now }
  else Prog.modify fun c ↦ { c with manualRefreshPending := true }

def intentReconcile : Ctl Unit := do
  let c ← Prog.get
  let timeValid ← systemTimeValid
  if ¬ c.online ∨ ¬ timeValid ∨ ¬ c.client.vibe.hasAuth then pure ()
  else
    match ← call (vibeBeginReconcile true) with
    | .ok () => do
      addLog .asked
      let now ← monotonicUs
      Prog.modify fun c ↦ { c with reconcileActive := true, nextReconcileUs := now }
      publish fun view ↦ { view with lastSystemError := none, reason := .none }
    | .error error => do
      let c ← Prog.get
      publish fun view ↦ recordFailure c.client.vibe .storage (some error)
        { view with lifecycle := .storageError }

/-- `reconfigure_wifi` -/
def reconfigureWifi : Ctl Unit := do
  closeLlmPortal
  let _ ← call (vibeCancel : Vibe Unit)
  Prog.modify fun c ↦ { c with online := false, timeSyncPending := false }
  let c ← Prog.get
  publish fun view ↦ { view with lifecycle := .wifiProvisioning, wifiConnected := false }
  match c.turn.wifiStart with
  | none => pure ()
  | some error => publish (recordFailure c.client.vibe .wifi (some error))

/-- The first lines of `APP_INTENT_RELINK` and `APP_INTENT_UNLINK`. -/
def unlinkAccount : Ctl (Except EspErr Unit) := do
  let result ← call vibeUnlink
  clearPublicLink
  let error := match result with
    | .ok () => none
    | .error error => some error
  publish fun view ↦ { forgetUsage view with
    hasAuth := false
    dataState := .linkRequired
    lastSystemError := error
    reason := if error = none then .none else .storage }
  pure result

def intentRelink : Ctl Unit := do
  addLog .asked
  match ← unlinkAccount with
  | .error _ => publish fun view ↦ { view with lifecycle := .storageError }
  | .ok () => do
    publish fun view ↦ { view with lifecycle := .deviceLink }
    let now ← monotonicUs
    Prog.modify fun c ↦ { c with requestCodeRetry := true, nextRetryUs := now }

def intentUnlink : Ctl Unit := do
  let _ ← unlinkAccount
  publish fun view ↦ { view with lifecycle := .deviceLink }

def intentLlmConfig : Ctl Unit := do
  publish fun view ↦ { view with llmConfigOpen := true }
  let c ← Prog.get
  if c.online ∧ ¬ c.turn.wifiIsProvisioning then startLlmPortal
  else if ¬ c.turn.wifiIsProvisioning then reconfigureWifi
  else pure ()

def intentReset : Ctl Unit := do
  publish fun view ↦ { view with lifecycle := .resetting, busy := true }
  closeLlmPortal
  match ← call intentFactoryReset with
  | .ok () => Prog.modify fun c ↦ { c with stopped := true }
  | .error error => do
    let c ← Prog.get
    publish fun view ↦ recordFailure c.client.vibe .storage (some error)
      { view with lifecycle := .storageError }

def handleIntent (intent : AppIntent) : Ctl Unit := do
  let c ← Prog.get
  if c.shuttingDown then pure ()
  else
    match intent with
    | .refresh => intentRefresh
    | .reconcile => intentReconcile
    | .startWifi => reconfigureWifi
    | .reconfigureWifi => reconfigureWifi
    | .relink => intentRelink
    | .unlink => intentUnlink
    | .toggleTimezone => do
      addLog .asked
      restartVibeForTimezone
    | .factoryReset => intentReset
    | .llmConfig => intentLlmConfig
    | .llmConfigClose => do
      closeLlmPortal
      publish fun view ↦ { view with wifiProvisioning := false, llmConfigOpen := false }
    | .other => pure ()

/-- The parts of an event that go beyond the view. -/
def handleWifiEvent (event : WifiEvent) : Ctl Unit := do
  let c ← Prog.get
  if c.shuttingDown then pure ()
  else do
    publish fun view ↦ { view with
      wifiHasCredentials := c.turn.wifiHasCredentials
      wifiConnected := c.turn.wifiIsConnected
      wifiProvisioning := c.turn.wifiIsProvisioning }
    match event with
    | .scanning => publish fun view ↦ { view with lifecycle := .wifiConnecting }
    | .connecting => publish fun view ↦ { view with lifecycle := .wifiConnecting }
    | .gotIp => do
      addLog .reconnected
      Prog.modify fun c ↦ { c with online := true, timeSyncPending := true }
      publish fun view ↦ { view with
        wifiConnected := true, wifiProvisioning := false, lifecycle := .timeSync, reason := .none }
      if c.view.llmConfigOpen then startLlmPortal else pure ()
    | .disconnected => do
      closeLlmPortal
      Prog.modify fun c ↦ { c with online := false, timeSyncPending := false }
      let _ ← call (vibeCancel : Vibe Unit)
      publish fun view ↦ { view with
        wifiConnected := false
        lifecycle := .wifiConnecting
        reason := .wifi
        dataState := if view.hasToday ∨ view.today.hasLkg then .stale else view.dataState }
    | .portalEnter => do
      Prog.modify fun c ↦ { c with online := false, timeSyncPending := false }
      let _ ← call (vibeCancel : Vibe Unit)
      publish fun view ↦ { view with
        wifiProvisioning := true, wifiConnected := false, lifecycle := .wifiProvisioning }
    | .provisioningTimeout => do
      closeLlmPortal
      publish fun view ↦ { view with wifiProvisioning := false }
    | .portalExit =>
      publish fun view ↦ { view with
        wifiProvisioning := false
        lifecycle := if view.wifiHasCredentials then .wifiConnecting else .wifiRequired }

/-- The station is started when there are credentials, the portal when there are none. -/
def bootWifi : Ctl Unit := do
  publish fun view ↦
    if view.wifiHasCredentials then { view with lifecycle := .wifiConnecting }
    else { view with lifecycle := .wifiProvisioning, wifiProvisioning := true }
  let c ← Prog.get
  match c.turn.wifiStart with
  | none => pure ()
  | some error =>
    publish fun view ↦ recordFailure c.client.vibe .wifi (some error)
      (if view.wifiHasCredentials then view else { view with lifecycle := .wifiRequired })

def handleBoot : Ctl Unit := do
  let hasAuth ← vibeHasAuth
  let c ← Prog.get
  publish fun view ↦ { view with hasAuth, wifiHasCredentials := c.turn.wifiHasCredentials }
  updateClockFields
  let c ← Prog.get
  if c.view.timeValid then updateSnapshots else pure ()
  bootWifi

def handleShutdown : Ctl Unit := do
  closeLlmPortal
  Prog.modify fun c ↦
    { c with shuttingDown := true, reconcileActive := false, timeSyncPending := false }
  let _ ← call (vibeCancel : Vibe Unit)
  clearPublicLink
  Prog.modify fun c ↦ { c with online := false }
  publish fun view ↦ { view with
    llmConfigOpen := false, lifecycle := .prepareSleep, busy := false, wifiConnected := false
    wifiProvisioning := false }

def handleCommand : Command → Ctl Unit
  | .boot => handleBoot
  | .wifiEvent event => handleWifiEvent event
  | .intent intent => handleIntent intent
  | .shutdown => handleShutdown

/-! ### What is due -/

/-- The portal of the language model closes after ten minutes. -/
def smartTick : Ctl Unit := do
  let c ← Prog.get
  if c.llmDeadlineUs = 0 then pure ()
  else do
    let now ← monotonicUs
    if now < c.llmDeadlineUs then pure ()
    else do
      closeLlmPortal
      publish fun view ↦ { view with llmConfigOpen := false }

/-- A minute of the hour after three, the device's own. -/
def reconciliationMinute (deviceId : CString) : ℕ :=
  (deviceId.bytes.foldl (fun hash byte ↦ (hash ^^^ byte.toUInt32) * 16777619)
    (2166136261 : UInt32)).toNat % 60

/-- Local seconds. -/
def localSeconds (timezone : Timezone) (utc : Int64) : ℤ := utc.toInt + utcOffset timezone

/-- The pass of a day is due once the device's minute after three has come in the zone of the
process, and no later than a day after the last one. -/
def reconciliationDueAt (zone : Timezone) (deviceId : CString) (now last : Int64) : Bool :=
  let seconds := localSeconds zone now
  let windowReached := decide (seconds % 86400 ≥
    3 * 3600 + 60 * (reconciliationMinute deviceId : ℤ))
  if last ≤ 0 then windowReached
  else if now - last ≥ 86400 then true
  else windowReached && decide (seconds / 86400 ≠ localSeconds zone last / 86400)

def dailyReconciliationDue : Ctl Bool := do
  let timeValid ← systemTimeValid
  let now ← wallClock
  let c ← Prog.get
  pure (timeValid && reconciliationDueAt c.processZone c.settings.deviceId now
    c.view.sevenDay.lastReconcileAt)

/-- A pass is begun, unless one is pending already. -/
def beginPending : Ctl (Except EspErr Unit) := do
  let c ← Prog.get
  if c.client.vibe.reconcilePending then pure (.ok ())
  else call (vibeBeginReconcile false)

/-- A pass is due. -/
def queuePass (now : ℤ) : Ctl Unit := do
  match ← beginPending with
  | .ok () => Prog.modify fun c ↦ { c with reconcileActive := true, nextReconcileUs := now }
  | .error error => do
    let c ← Prog.get
    publish fun view ↦ recordFailure c.client.vibe .storage (some error)
      { view with lifecycle := .storageError }
    scheduleRetry

/-- The deadlines that are met one after the other, the first that is due. -/
def runDeadlines (now : ℤ) : Ctl Unit := do
  let c ← Prog.get
  if c.reconcileActive ∧ c.nextReconcileUs > 0 ∧ now ≥ c.nextReconcileUs then reconcileOne
  else if c.client.vibe.hasAuth ∧ c.nextRefreshUs > 0 ∧ now ≥ c.nextRefreshUs then
    fetchToday false
  else if c.nextRetryUs > 0 ∧ now ≥ c.nextRetryUs then do
    Prog.modify fun c ↦ { c with nextRetryUs := 0 }
    let timeValid ← systemTimeValid
    if ¬ timeValid then handleTimeSync
    else if ¬ c.client.vibe.hasAuth ∨ c.requestCodeRetry then startDeviceLink
    else fetchToday false
  else pure ()

/-- A pass is pending, or the pass of the day is due. -/
def passWanted : Ctl Bool := do
  let c ← Prog.get
  if c.client.vibe.reconcilePending then pure true else dailyReconciliationDue

/-- Whether a pass is to be queued. -/
def passDue : Ctl Bool := do
  let c ← Prog.get
  if c.reconcileActive ∨ c.nextRetryUs ≠ 0 ∨ ¬ c.client.vibe.hasAuth then pure false
  else do
    let timeValid ← systemTimeValid
    if timeValid then passWanted else pure false

/-- The actions of the usage client. -/
def runUsage (now : ℤ) : Ctl Unit := do
  let c ← Prog.get
  if c.deviceCode.deviceCode.bytes ≠ [] ∧ c.nextLinkPollUs > 0 ∧ now ≥ c.nextLinkPollUs then
    pollDeviceLink
  else if c.manualRefreshPending ∧ c.client.vibe.hasAuth then do
    Prog.modify fun c ↦ { c with manualRefreshPending := false }
    fetchToday true
  else do
    let due ← passDue
    if due then queuePass now else runDeadlines now

def runDueActions : Ctl Unit := do
  let c ← Prog.get
  if c.shuttingDown then pure ()
  else do
    smartTick
    let now ← monotonicUs
    let c ← Prog.get
    if ¬ c.online then pure ()
    else if c.timeSyncPending then do
      Prog.modify fun c ↦ { c with timeSyncPending := false }
      handleTimeSync
    else if c.view.llmConfigOpen ∨ c.turn.todoSoon then pure ()
    else runUsage now

/-- One turn of the loop of `controller_task`. Nothing comes after a restart. -/
def controllerTurn (turn : Turn) : Ctl Unit := do
  let c ← Prog.get
  if c.stopped then pure ()
  else do
    Prog.modify fun c ↦ { c with turn, client := { c.client with exchange := turn.exchange } }
    match turn.command with
    | some command => handleCommand command
    | none => pure ()
    let c ← Prog.get
    if c.stopped then pure ()
    else do
      runDueActions
      -- `refresh_clock_view`
      updateClockFields

/-- The controller after these turns. -/
def afterTurns (c : Controller) (turns : List Turn) : Controller :=
  turns.foldl (fun c turn ↦ (controllerTurn turn c).2) c

end VibeUsage
