import VibeUsage.Usage

/-!
# The application reducer

`vibe_state.c`: the lifecycle as a function of a model and an event, with the effects to perform as
a set of bits. Every account has a generation and every timezone a revision, which only events of
the user and a refused credential advance; results carry the ones they were started under.

Two of the four results are compared with the model. `HTTP_401` and `HTTP_FAILURE` are acted on
whatever they carry, and no branch reads `operation_revision`.

* `vibeAppReduce_stale_iff` says of one event what is discarded.
* `reduceAll_generation` counts over a run how often the generation and the revision have been
  advanced.
* `cancelled_result_ignored_iff` is the result: of the results that arrive after a cancellation,
  whatever came between, which are ignored.
-/

namespace VibeUsage

/-- The lifecycle, `vibe_app_state_t`. -/
inductive AppState where
  | boot
  | loadConfig
  | wifiRequired
  | wifiProvisioning
  | wifiConnecting
  | timeSync
  | timeRequired
  | deviceLink
  | syncing
  | dashboard
  | settings
  | storageError
  | prepareSleep
  | resetting
  deriving DecidableEq, Repr

/-- A `vibe_app_event_type_t`. -/
inductive AppEventType where
  | bootLoaded
  | userStartWifi
  | userReconfigureWifi
  | wifiGotIp
  | wifiLost
  | timeValid
  | timeInvalid
  | userRelink
  | authSuccess
  | httpSuccess
  | http401
  | httpFailure
  | timezoneChanged
  | userReset
  | powerSleep
  | storageFailure
  deriving DecidableEq, Repr

/-- A `vibe_app_event_t`. -/
structure AppEvent where
  type : AppEventType
  generation : UInt32
  configRevision : UInt32
  flag : Bool
  deriving DecidableEq

/-- A `vibe_app_model_t`. -/
structure AppModel where
  lifecycle : AppState
  dataState : DataState
  generation : UInt32
  configRevision : UInt32
  operationRevision : UInt32
  hasWifiCredentials : Bool
  hasAuth : Bool
  timeValid : Bool
  hasLkg : Bool
  deriving DecidableEq

/-! ### Effects -/

namespace Effect

def none : UInt32 := 0
def cancelNetwork : UInt32 := 1 <<< (0 : UInt32)
def startStation : UInt32 := 1 <<< (1 : UInt32)
def startPortal : UInt32 := 1 <<< (2 : UInt32)
def requestCode : UInt32 := 1 <<< (3 : UInt32)
def persistAuth : UInt32 := 1 <<< (4 : UInt32)
def persistTombstone : UInt32 := 1 <<< (5 : UInt32)
def fetchToday : UInt32 := 1 <<< (6 : UInt32)
def invalidateCache : UInt32 := 1 <<< (7 : UInt32)
def writeResetJournal : UInt32 := 1 <<< (8 : UInt32)
def stopWorkers : UInt32 := 1 <<< (9 : UInt32)
def discardResult : UInt32 := 1 <<< (10 : UInt32)

end Effect

/-! ### The reducer -/

def vibeAppModelInit : AppModel where
  lifecycle := .boot
  dataState := .linkRequired
  generation := 1
  configRevision := 1
  operationRevision := 1
  hasWifiCredentials := false
  hasAuth := false
  timeValid := false
  hasLkg := false

/-- The generation or the configuration of an event is not that of the model. -/
def Stale (model : AppModel) (event : AppEvent) : Prop :=
  event.generation ≠ model.generation ∨ event.configRevision ≠ model.configRevision

instance (model : AppModel) (event : AppEvent) : Decidable (Stale model event) :=
  inferInstanceAs (Decidable (_ ∨ _))

def vibeAppReduce (model : AppModel) (event : AppEvent) : AppModel × UInt32 :=
  match event.type with
  | .bootLoaded =>
    ({ model with
        hasWifiCredentials := event.flag
        lifecycle := if event.flag then .wifiConnecting else .wifiRequired },
      if event.flag then Effect.startStation else Effect.none)
  | .userStartWifi | .userReconfigureWifi =>
    ({ model with
        operationRevision := model.operationRevision + 1
        lifecycle := .wifiProvisioning },
      Effect.cancelNetwork ||| Effect.startPortal)
  | .wifiGotIp => ({ model with lifecycle := .timeSync }, Effect.none)
  | .wifiLost =>
    ({ model with
        operationRevision := model.operationRevision + 1
        lifecycle := .wifiConnecting
        dataState := if model.hasLkg then .stale else model.dataState },
      Effect.cancelNetwork)
  | .timeValid =>
    if model.hasAuth then
      ({ model with timeValid := true, lifecycle := .syncing }, Effect.fetchToday)
    else
      ({ model with timeValid := true, lifecycle := .deviceLink, dataState := .linkRequired },
        Effect.requestCode)
  | .timeInvalid =>
    ({ model with
        timeValid := false
        lifecycle := .timeRequired
        dataState := if model.hasLkg then .stale else model.dataState },
      Effect.cancelNetwork)
  | .userRelink =>
    ({ model with
        generation := model.generation + 1
        operationRevision := model.operationRevision + 1
        hasAuth := false
        hasLkg := false
        dataState := .linkRequired
        lifecycle := if model.timeValid then .deviceLink else .timeSync },
      Effect.cancelNetwork ||| Effect.persistTombstone ||| Effect.invalidateCache |||
        if model.timeValid then Effect.requestCode else 0)
  | .authSuccess =>
    if Stale model event then (model, Effect.discardResult)
    else
      ({ model with hasAuth := true, lifecycle := .syncing },
        Effect.persistAuth ||| Effect.fetchToday)
  | .httpSuccess =>
    if Stale model event then (model, Effect.discardResult)
    else
      ({ model with
          hasLkg := true
          dataState := if event.flag then .empty else .ready
          lifecycle := .dashboard },
        Effect.none)
  | .http401 =>
    ({ model with
        generation := model.generation + 1
        operationRevision := model.operationRevision + 1
        hasAuth := false
        hasLkg := false
        dataState := .authRequired
        lifecycle := .dashboard },
      Effect.cancelNetwork ||| Effect.persistTombstone ||| Effect.invalidateCache)
  | .httpFailure =>
    ({ model with dataState := .stale, lifecycle := .dashboard }, Effect.none)
  | .timezoneChanged =>
    ({ model with
        configRevision := model.configRevision + 1
        operationRevision := model.operationRevision + 1
        hasLkg := false
        dataState := .stale
        lifecycle := if model.hasAuth && model.timeValid then .syncing else .timeSync },
      Effect.cancelNetwork ||| Effect.invalidateCache |||
        if model.hasAuth && model.timeValid then Effect.fetchToday else 0)
  | .userReset =>
    ({ model with
        operationRevision := model.operationRevision + 1
        lifecycle := .resetting },
      Effect.cancelNetwork ||| Effect.stopWorkers ||| Effect.writeResetJournal)
  | .powerSleep =>
    ({ model with
        operationRevision := model.operationRevision + 1
        lifecycle := .prepareSleep },
      Effect.cancelNetwork ||| Effect.stopWorkers)
  | .storageFailure => ({ model with lifecycle := .storageError }, Effect.cancelNetwork)

/-- The model after a run of events. -/
def reduceAll (model : AppModel) (events : List AppEvent) : AppModel :=
  events.foldl (fun model event ↦ (vibeAppReduce model event).1) model

/-- The events that report the outcome of an asynchronous operation. -/
def AppEventType.IsResult (type : AppEventType) : Prop :=
  type = .authSuccess ∨ type = .httpSuccess ∨ type = .http401 ∨ type = .httpFailure

/-! ### Stale results -/

/-- The two results that are compared with the model. -/
def AppEventType.IsChecked (type : AppEventType) : Prop :=
  type = .authSuccess ∨ type = .httpSuccess

/-- A checked result that is stale is discarded. -/
theorem vibeAppReduce_of_stale {model : AppModel} {event : AppEvent} (h : event.type.IsChecked)
    (hstale : Stale model event) : vibeAppReduce model event = (model, Effect.discardResult) := by
  unfold vibeAppReduce
  rcases h with h | h <;> rw [h] <;> exact if_pos hstale

/-- The effects of a result that is not checked. -/
theorem vibeAppReduce_unchecked {model : AppModel} {event : AppEvent} (h : event.type.IsResult)
    (hchecked : ¬ event.type.IsChecked) :
    (vibeAppReduce model event).2 ≠ Effect.discardResult ∧
      (vibeAppReduce model event).1.lifecycle = .dashboard := by
  unfold vibeAppReduce
  rcases h with h | h | h | h
  · exact absurd (Or.inl h) hchecked
  · exact absurd (Or.inr h) hchecked
  · rw [h]
    dsimp only
    exact ⟨by decide, rfl⟩
  · rw [h]
    dsimp only
    exact ⟨by decide, rfl⟩

/-- **A stale result is discarded** exactly when it is one of the two that are checked. -/
theorem vibeAppReduce_stale_iff (events : List AppEvent) {event : AppEvent}
    (h : event.type.IsResult) (hstale : Stale (reduceAll vibeAppModelInit events) event) :
    vibeAppReduce (reduceAll vibeAppModelInit events) event =
        (reduceAll vibeAppModelInit events, Effect.discardResult) ↔ event.type.IsChecked := by
  constructor
  · intro hdiscard
    by_contra hchecked
    have hnot := (@vibeAppReduce_unchecked (reduceAll vibeAppModelInit events) event h hchecked).1
    rw [hdiscard] at hnot
    exact hnot rfl
  · exact fun hchecked ↦ vibeAppReduce_of_stale hchecked hstale

/-- A result of the account before the last relink. -/
theorem vibeAppReduce_stale_iff_relink :
    vibeAppReduce (reduceAll vibeAppModelInit [⟨.userRelink, 0, 0, false⟩])
        ⟨.httpSuccess, 1, 1, false⟩ =
        (reduceAll vibeAppModelInit [⟨.userRelink, 0, 0, false⟩], Effect.discardResult) ↔
      AppEventType.httpSuccess.IsChecked :=
  vibeAppReduce_stale_iff [⟨.userRelink, 0, 0, false⟩] (Or.inr (Or.inl rfl)) (by decide)

/-- An old account's 401 unlinks the new one, and its failure ends the link flow. -/
theorem vibeAppReduce_stale_not_discarded :
    ¬ ∀ (events : List AppEvent) (event : AppEvent), event.type.IsResult →
      Stale (reduceAll vibeAppModelInit events) event →
      vibeAppReduce (reduceAll vibeAppModelInit events) event =
        (reduceAll vibeAppModelInit events, Effect.discardResult) := by
  intro h
  have hstale := h [⟨.userRelink, 0, 0, false⟩] ⟨.http401, 1, 1, false⟩
    (Or.inr (Or.inr (Or.inl rfl))) (by decide)
  exact absurd hstale (by decide)

/-! ### Cancelled operations -/

/-- The events that advance the generation. -/
def accountChanges (events : List AppEvent) : ℕ :=
  events.countP fun event ↦ event.type = .userRelink ∨ event.type = .http401

/-- The events that advance the configuration. -/
def timezoneChanges (events : List AppEvent) : ℕ :=
  events.countP fun event ↦ event.type = .timezoneChanged

/-- Events are reduced one after the other. -/
theorem reduceAll_append (model : AppModel) (events events' : List AppEvent) :
    reduceAll model (events ++ events') = reduceAll (reduceAll model events) events' :=
  List.foldl_append

/-- **One event** advances the generation and the configuration when it is one of those. -/
theorem vibeAppReduce_generation (model : AppModel) (event : AppEvent) :
    (vibeAppReduce model event).1.generation =
        model.generation + UInt32.ofNat (accountChanges [event]) ∧
      (vibeAppReduce model event).1.configRevision =
        model.configRevision + UInt32.ofNat (timezoneChanges [event]) := by
  obtain ⟨type, generation, configRevision, flag⟩ := event
  unfold vibeAppReduce
  cases type <;> dsimp only <;> (try split) <;>
    simp [accountChanges, timezoneChanges]

/-- **A run** advances them as often as it has such events. -/
theorem reduceAll_generation (model : AppModel) (events : List AppEvent) :
    (reduceAll model events).generation =
        model.generation + UInt32.ofNat (accountChanges events) ∧
      (reduceAll model events).configRevision =
        model.configRevision + UInt32.ofNat (timezoneChanges events) := by
  induction events generalizing model with
  | nil => exact ⟨(UInt32.add_zero _).symm, (UInt32.add_zero _).symm⟩
  | cons event events ih =>
    obtain ⟨hgeneration, hrevision⟩ := vibeAppReduce_generation model event
    obtain ⟨hgenerations, hrevisions⟩ := ih (vibeAppReduce model event).1
    have haccount : accountChanges (event :: events) =
        accountChanges [event] + accountChanges events := @List.countP_append _ _ [event] _
    have htimezone : timezoneChanges (event :: events) =
        timezoneChanges [event] + timezoneChanges events := @List.countP_append _ _ [event] _
    rw [haccount, htimezone, UInt32.ofNat_add, UInt32.ofNat_add, ← UInt32.add_assoc,
      ← UInt32.add_assoc, ← hgeneration, ← hrevision]
    exact ⟨hgenerations, hrevisions⟩

/-- A run that leaves no result of before it current. -/
def Outdates (events : List AppEvent) : Prop :=
  ¬ 2 ^ 32 ∣ accountChanges events ∨ ¬ 2 ^ 32 ∣ timezoneChanges events

/-- A revision comes back after 2 to the 32nd changes. -/
theorem add_ofNat_eq_self_iff {a : UInt32} {n : ℕ} : a = a + UInt32.ofNat n ↔ 2 ^ 32 ∣ n := by
  rw [← UInt32.toNat_inj, UInt32.toNat_add, UInt32.toNat_ofNat']
  have := a.toNat_lt
  omega

/-- **What is stale after a run.** -/
theorem stale_reduceAll_iff {model : AppModel} {events : List AppEvent} {event : AppEvent}
    (hgeneration : event.generation = model.generation)
    (hrevision : event.configRevision = model.configRevision) :
    Stale (reduceAll model events) event ↔ Outdates events := by
  obtain ⟨hgenerations, hrevisions⟩ := reduceAll_generation model events
  unfold Stale Outdates
  rw [hgenerations, hrevisions, hgeneration, hrevision, ne_eq, ne_eq, add_ofNat_eq_self_iff,
    add_ofNat_eq_self_iff]

/-- A result that is ignored: the lifecycle stays, and nothing is to be done. -/
def Ignored (model : AppModel) (event : AppEvent) : Prop :=
  (vibeAppReduce model event).1.lifecycle = model.lifecycle ∧
    ((vibeAppReduce model event).2 = Effect.none ∨
      (vibeAppReduce model event).2 = Effect.discardResult)

/-- When a result that arrives after `events` is ignored in the state `lifecycle`. -/
def AppEventType.Harmless (type : AppEventType) (lifecycle : AppState) (events : List AppEvent) :
    Prop :=
  type = .authSuccess ∧ Outdates events ∨
    type = .httpSuccess ∧ (Outdates events ∨ lifecycle = .dashboard) ∨
    type = .httpFailure ∧ lifecycle = .dashboard

/-- A result of an operation that was started in `model`. -/
theorem ignored_iff {model : AppModel} {events : List AppEvent} {result : AppEvent}
    (h : result.type.IsResult) (hgeneration : result.generation = model.generation)
    (hrevision : result.configRevision = model.configRevision) :
    Ignored (reduceAll model events) result ↔
      result.type.Harmless (reduceAll model events).lifecycle events := by
  have hstale := @stale_reduceAll_iff model events result hgeneration hrevision
  generalize reduceAll model events = current at hstale ⊢
  unfold Ignored AppEventType.Harmless vibeAppReduce
  rw [← hstale]
  rcases h with h | h | h | h <;> rw [h] <;> dsimp only
  · by_cases hs : Stale current result
    · rw [if_pos hs]
      simp [hs]
    · rw [if_neg hs]
      have hacts : Effect.persistAuth ||| Effect.fetchToday ≠ Effect.none ∧
          Effect.persistAuth ||| Effect.fetchToday ≠ Effect.discardResult := by decide
      simp [hs, hacts]
  · by_cases hs : Stale current result
    · rw [if_pos hs]
      simp [hs]
    · rw [if_neg hs]
      simp [hs, eq_comm]
  · have hacts : Effect.cancelNetwork ||| Effect.persistTombstone ||| Effect.invalidateCache ≠
        Effect.none ∧ Effect.cancelNetwork ||| Effect.persistTombstone ||| Effect.invalidateCache ≠
        Effect.discardResult := by decide
    simp [hacts]
  · simp [eq_comm]

/-- **Results that arrive after a cancellation**: which of them are ignored. -/
theorem cancelled_result_ignored_iff (before between after : List AppEvent)
    {cancel result : AppEvent} (hcancel : cancel.type = .userReset ∨ cancel.type = .powerSleep)
    (h : result.type.IsResult)
    (hgeneration : result.generation = (reduceAll vibeAppModelInit before).generation)
    (hrevision : result.configRevision = (reduceAll vibeAppModelInit before).configRevision) :
    Ignored (reduceAll vibeAppModelInit (before ++ (between ++ cancel :: after))) result ↔
      result.type.Harmless
        (reduceAll vibeAppModelInit (before ++ (between ++ cancel :: after))).lifecycle
        (between ++ after) := by
  have hevents : Outdates (between ++ cancel :: after) ↔ Outdates (between ++ after) := by
    unfold Outdates accountChanges timezoneChanges
    rcases hcancel with hc | hc <;> simp [List.countP_append, hc]
  rw [reduceAll_append, ignored_iff h hgeneration hrevision]
  unfold AppEventType.Harmless
  rw [hevents]

/-- A late result of the account that was relinked before the reset. -/
theorem cancelled_result_ignored_iff_relink :
    Ignored (reduceAll vibeAppModelInit
        ([] ++ ([⟨.userRelink, 0, 0, false⟩] ++ ⟨.userReset, 0, 0, false⟩ :: [])))
        ⟨.authSuccess, 1, 1, false⟩ ↔
      AppEventType.authSuccess.Harmless (reduceAll vibeAppModelInit
        ([] ++ ([⟨.userRelink, 0, 0, false⟩] ++ ⟨.userReset, 0, 0, false⟩ :: []))).lifecycle
        ([⟨.userRelink, 0, 0, false⟩] ++ []) :=
  cancelled_result_ignored_iff [] [⟨.userRelink, 0, 0, false⟩] [] (Or.inl rfl) (Or.inl rfl) rfl rfl

/-- A credential that arrives after the reset has started is persisted. -/
theorem cancelled_result_not_ignored :
    ¬ ∀ (before between after : List AppEvent) (cancel result : AppEvent),
      cancel.type = .userReset ∨ cancel.type = .powerSleep → result.type.IsResult →
      result.generation = (reduceAll vibeAppModelInit before).generation →
      result.configRevision = (reduceAll vibeAppModelInit before).configRevision →
      Ignored (reduceAll vibeAppModelInit (before ++ (between ++ cancel :: after))) result := by
  intro h
  have hlate := (h [] [] [] ⟨.userReset, 0, 0, false⟩ ⟨.authSuccess, 1, 1, false⟩ (Or.inl rfl)
    (Or.inl rfl) rfl rfl).2
  exact absurd hlate (by decide)

end VibeUsage
