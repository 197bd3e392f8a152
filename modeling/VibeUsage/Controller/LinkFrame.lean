import VibeUsage.Controller.Model

/-!
# What leaves a device code alone

`LinkKept` says that a code is polled when it was to be polled, or that it has been given up. Every
program of the controller does that, but for the two that ask the server: `request_device_code`
brings a code and `poll_device_code` says when to poll again.

It is `LinkPace` that follows those two.
-/

namespace VibeUsage

/-- The device code and its timer stay as they are, or the code is gone; the clock only advances. -/
structure LinkKept (c c' : Controller) : Prop where
  mono : c'.mono = c.mono
  readings : c.monoReadings ≤ c'.monoReadings
  link : (c'.deviceCode = c.deviceCode ∧ c'.linkIntervalSeconds = c.linkIntervalSeconds ∧
    c'.nextLinkPollUs = c.nextLinkPollUs) ∨ c'.deviceCode = .zero

instance instReflLinkKept : Std.Refl LinkKept := ⟨fun _ ↦ ⟨rfl, le_rfl, Or.inl ⟨rfl, rfl, rfl⟩⟩⟩

instance instIsTransLinkKept : IsTrans Controller LinkKept := ⟨fun _ _ _ h h' ↦ by
  refine ⟨h'.mono.trans h.mono, h.readings.trans h'.readings, ?_⟩
  -- A code that is gone stays gone, and one that stayed may have gone by then.
  rcases h'.link with ⟨hcode', hinterval', hnext'⟩ | hgone
  · rcases h.link with ⟨hcode, hinterval, hnext⟩ | hgone
    · exact Or.inl ⟨hcode'.trans hcode, hinterval'.trans hinterval, hnext'.trans hnext⟩
    · exact Or.inr (hcode'.trans hgone)
  · exact Or.inr hgone⟩

section Programs

variable {α : Type}

/-- A change of something else. -/
theorem linkKept_modify {f : Controller → Controller}
    (h : ∀ c, (f c).mono = c.mono ∧ (f c).monoReadings = c.monoReadings ∧
      (f c).deviceCode = c.deviceCode ∧ (f c).linkIntervalSeconds = c.linkIntervalSeconds ∧
      (f c).nextLinkPollUs = c.nextLinkPollUs) :
        Prog.Moves LinkKept (Prog.modify f : Ctl Unit) := by
  intro c
  obtain ⟨hmono, hreadings, hlink⟩ := h c
  exact ⟨hmono, hreadings.ge, Or.inl hlink⟩

/-- What is shown leaves a code alone. -/
theorem linkKept_publish (f : AppView → AppView) : Prog.Moves LinkKept (publish f) :=
  linkKept_modify fun _ ↦ ⟨rfl, rfl, rfl, rfl, rfl⟩

/-- The log leaves a code alone. -/
theorem linkKept_addLog (entry : LogEntry) : Prog.Moves LinkKept (addLog entry) :=
  linkKept_modify fun _ ↦ ⟨rfl, rfl, rfl, rfl, rfl⟩

/-- The client does not know the code that is polled. -/
theorem linkKept_call (p : Vibe α) : Prog.Moves LinkKept (call p) :=
  fun _ ↦ ⟨rfl, le_rfl, Or.inl ⟨rfl, rfl, rfl⟩⟩

/-- A usage request is made. -/
theorem linkKept_request (automatic : Bool) (p : Vibe UsageSnapshot) :
    Prog.Moves LinkKept (request automatic p) :=
  .bind (linkKept_modify fun _ ↦ ⟨rfl, rfl, rfl, rfl, rfl⟩) fun _ ↦ linkKept_call p

/-- The clock advances. -/
theorem linkKept_monotonicUs : Prog.Moves LinkKept monotonicUs :=
  fun _ ↦ ⟨rfl, Nat.le_succ _, Or.inl ⟨rfl, rfl, rfl⟩⟩

theorem linkKept_wallClock : Prog.Moves LinkKept wallClock :=
  fun _ ↦ ⟨rfl, le_rfl, Or.inl ⟨rfl, rfl, rfl⟩⟩

/-- The wall clock is asked whether it has been set. -/
theorem linkKept_systemTimeValid : Prog.Moves LinkKept systemTimeValid :=
  linkKept_wallClock.bind fun _ ↦ .ret _

theorem linkKept_vibeHasAuth : Prog.Moves LinkKept vibeHasAuth := fun c ↦ refl_of LinkKept c

/-- **A code is given up.** -/
theorem linkKept_clearPublicLink : Prog.Moves LinkKept clearPublicLink :=
  fun _ ↦ ⟨rfl, le_rfl, Or.inr rfl⟩

theorem linkKept_closeLlmPortal : Prog.Moves LinkKept closeLlmPortal :=
  linkKept_modify fun _ ↦ ⟨rfl, rfl, rfl, rfl, rfl⟩

/-- A reading of the clock, and a change with it. -/
theorem linkKept_timer {f : ℤ → Controller → Controller}
    (h : ∀ now c, (f now c).mono = c.mono ∧ (f now c).monoReadings = c.monoReadings ∧
      (f now c).deviceCode = c.deviceCode ∧ (f now c).linkIntervalSeconds = c.linkIntervalSeconds ∧
      (f now c).nextLinkPollUs = c.nextLinkPollUs) : Prog.Moves LinkKept (do
        let now ← monotonicUs
        Prog.modify (f now) : Ctl Unit) :=
  linkKept_monotonicUs.bind fun now ↦ linkKept_modify (h now)

/-- The portal has a timer of its own. -/
theorem linkKept_startLlmPortal : Prog.Moves LinkKept startLlmPortal := by
  refine .bind .get fun c ↦ ?_
  cases c.turn.portalStart with
  | some _ => exact .ret ()
  | none => exact linkKept_timer fun _ _ ↦ ⟨rfl, rfl, rfl, rfl, rfl⟩

theorem linkKept_updateClockFields : Prog.Moves LinkKept updateClockFields :=
  linkKept_systemTimeValid.bind fun _ ↦ linkKept_publish _

/-- Both snapshots are rebuilt and shown. -/
theorem linkKept_updateSnapshots : Prog.Moves LinkKept updateSnapshots := by
  refine .bind ((linkKept_call _).bind fun today ↦ ?_) fun _ ↦
    (linkKept_call _).bind fun sevenDay ↦ ?_
  · cases today with
    | ok today => exact linkKept_publish _
    | error _ => exact .ret ()
  · cases sevenDay with
    | ok sevenDay => exact linkKept_publish _
    | error _ => exact .ret ()

/-- The timer of the requests is another one. -/
theorem linkKept_scheduleRetry : Prog.Moves LinkKept scheduleRetry :=
  .bind .get fun _ ↦ linkKept_timer fun _ _ ↦ ⟨rfl, rfl, rfl, rfl, rfl⟩

/-- A failure is shown. -/
theorem linkKept_fail (f : Controller → AppView → AppView) : Prog.Moves LinkKept (do
    let c ← Prog.get
    publish (f c) : Ctl Unit) :=
  .bind .get fun _ ↦ linkKept_publish _

/-- The clock is set. -/
theorem linkKept_handleTimeSync : Prog.Moves LinkKept handleTimeSync := by
  have hready : Prog.Moves LinkKept afterTimeReady := by
    refine linkKept_updateClockFields.bind fun _ ↦ linkKept_vibeHasAuth.bind fun _ ↦
      (linkKept_publish _).bind fun _ ↦ linkKept_updateSnapshots.bind fun _ ↦
      linkKept_monotonicUs.bind fun _ ↦ .ite ?_ ?_
    · exact linkKept_modify fun _ ↦ ⟨rfl, rfl, rfl, rfl, rfl⟩
    · exact linkKept_modify fun _ ↦ ⟨rfl, rfl, rfl, rfl, rfl⟩
  refine (linkKept_publish _).bind fun _ ↦ .bind ?_ fun result ↦ ?_
  · exact linkKept_systemTimeValid.bind fun _ ↦ .bind .get fun _ ↦ .ret _
  · cases result with
    | none => exact hready
    | some error =>
      exact .bind .get fun _ ↦ (linkKept_publish _).bind fun _ ↦ linkKept_scheduleRetry

/-! ### Usage -/

/-- A pass is begun behind a request of today. -/
theorem linkKept_queueReconcile : Prog.Moves LinkKept queueReconcile := by
  refine (linkKept_call _).bind fun result ↦ ?_
  cases result with
  | ok => exact linkKept_timer fun _ _ ↦ ⟨rfl, rfl, rfl, rfl, rfl⟩
  | error error => exact linkKept_fail _

/-- A request of today has succeeded. -/
theorem linkKept_finishToday : Prog.Moves LinkKept finishToday := by
  refine linkKept_monotonicUs.bind fun _ ↦
    .bind (linkKept_modify fun _ ↦ ⟨rfl, rfl, rfl, rfl, rfl⟩) fun _ ↦ .bind .get fun _ ↦
    (linkKept_publish _).bind fun _ ↦ linkKept_updateSnapshots.bind fun _ ↦
    (linkKept_publish _).bind fun _ ↦ .bind .get fun c ↦ ?_
  dsimp only
  split
  · exact linkKept_updateClockFields
  · exact linkKept_queueReconcile.bind fun _ ↦ linkKept_updateClockFields

/-- The time of the next attempt is noted in the log. -/
theorem linkKept_logBackoff : Prog.Moves LinkKept logBackoff := by
  intro c
  refine ⟨rfl, le_rfl, Or.inl ?_⟩
  exact ⟨rfl, rfl, rfl⟩

/-- A request of today has failed; after a 401 there is no account, and a code is given up with it.
-/
theorem linkKept_failToday (manual : Bool) (error : EspErr) :
    Prog.Moves LinkKept (failToday manual error) := by
  refine .bind .get fun c ↦ (linkKept_publish _).bind fun _ ↦ .ite ?_ ?_
  · exact linkKept_clearPublicLink.bind fun _ ↦ linkKept_publish _
  · refine (linkKept_publish _).bind fun _ ↦ linkKept_scheduleRetry.bind fun _ ↦ .ite (.ret ()) ?_
    exact linkKept_logBackoff

/-- **A request of today.** -/
theorem linkKept_fetchToday (manual : Bool) : Prog.Moves LinkKept (fetchToday manual) := by
  refine .bind .get fun c ↦ linkKept_systemTimeValid.bind fun _ ↦ .ite (.ret ()) ?_
  refine linkKept_monotonicUs.bind fun now ↦ (linkKept_call _).bind fun remaining ↦ ?_
  cases remaining with
  | error error => exact .ret ()
  | ok remaining =>
    refine .ite ?_ (.ite (.ret ()) ?_)
    · refine .bind (linkKept_modify fun _ ↦ ⟨rfl, rfl, rfl, rfl, rfl⟩) fun _ ↦ linkKept_publish _
    · refine .bind (linkKept_modify fun _ ↦ ⟨rfl, rfl, rfl, rfl, rfl⟩) fun _ ↦
        (linkKept_publish _).bind fun _ ↦ (linkKept_request _ _).bind fun result ↦ ?_
      cases result with
      | ok snapshot => exact linkKept_finishToday
      | error error => exact linkKept_failToday manual error

/-- **A request of one day of a pass.** -/
theorem linkKept_reconcileOne : Prog.Moves LinkKept reconcileOne := by
  refine .bind .get fun c ↦ linkKept_systemTimeValid.bind fun _ ↦ .ite (.ret ()) ?_
  refine (linkKept_call _).bind fun remaining ↦ ?_
  cases remaining with
  | error error => exact .ret ()
  | ok remaining =>
    refine .ite ?_ ?_
    · exact linkKept_monotonicUs.bind fun _ ↦
        .bind (linkKept_modify fun _ ↦ ⟨rfl, rfl, rfl, rfl, rfl⟩) fun _ ↦ linkKept_publish _
    · refine (linkKept_publish _).bind fun _ ↦ (linkKept_request _ _).bind fun result ↦ ?_
      cases result with
      | ok snapshot =>
        refine .bind .get fun _ ↦ (linkKept_publish _).bind fun _ ↦
          linkKept_updateSnapshots.bind fun _ ↦ (linkKept_publish _).bind fun _ ↦
          .bind .get fun _ ↦ .ite ?_ ?_
        · exact linkKept_modify fun _ ↦ ⟨rfl, rfl, rfl, rfl, rfl⟩
        · exact linkKept_timer fun _ _ ↦ ⟨rfl, rfl, rfl, rfl, rfl⟩
      | error error =>
        exact .bind (linkKept_modify fun _ ↦ ⟨rfl, rfl, rfl, rfl, rfl⟩) fun _ ↦ .bind .get fun _ ↦
          (linkKept_publish _).bind fun _ ↦ linkKept_scheduleRetry.bind fun _ ↦ linkKept_logBackoff

/-- A pass is begun. -/
theorem linkKept_queuePass (now : ℤ) : Prog.Moves LinkKept (queuePass now) := by
  refine .bind (.bind .get fun _ ↦ .ite (.ret _) (linkKept_call _)) fun result ↦ ?_
  cases result with
  | ok => exact linkKept_modify fun _ ↦ ⟨rfl, rfl, rfl, rfl, rfl⟩
  | error error =>
    exact .bind .get fun _ ↦ (linkKept_publish _).bind fun _ ↦ linkKept_scheduleRetry

/-- Whether a pass is due is only asked. -/
theorem linkKept_passDue : Prog.Moves LinkKept passDue := by
  refine .bind .get fun c ↦ .ite (.ret _) (linkKept_systemTimeValid.bind fun _ ↦ .ite ?_ (.ret _))
  refine .bind .get fun c ↦ .ite (.ret _) ?_
  exact linkKept_systemTimeValid.bind fun _ ↦ linkKept_wallClock.bind fun _ ↦ .bind .get fun _ ↦
    .ret _

/-- The portal is closed when its time is over. -/
theorem linkKept_smartTick : Prog.Moves LinkKept smartTick := by
  refine .bind .get fun c ↦ .ite (.ret ()) (linkKept_monotonicUs.bind fun now ↦ .ite (.ret ()) ?_)
  exact linkKept_closeLlmPortal.bind fun _ ↦ linkKept_publish _

/-! ### Commands -/

/-- A code outlives the network it came over. -/
theorem linkKept_reconfigureWifi : Prog.Moves LinkKept reconfigureWifi := by
  refine linkKept_closeLlmPortal.bind fun _ ↦ (linkKept_call _).bind fun _ ↦
    .bind (linkKept_modify fun _ ↦ ⟨rfl, rfl, rfl, rfl, rfl⟩) fun _ ↦ .bind .get fun c ↦
    (linkKept_publish _).bind fun _ ↦ ?_
  cases c.turn.wifiStart with
  | none => exact .ret ()
  | some error => exact linkKept_publish _

/-- An account and a code are given up together. -/
theorem linkKept_unlinkAccount : Prog.Moves LinkKept unlinkAccount :=
  (linkKept_call _).bind fun _ ↦ linkKept_clearPublicLink.bind fun _ ↦
    (linkKept_publish _).bind fun _ ↦ .ret _

/-- A change of the timezone gives a code up. -/
theorem linkKept_restartVibeForTimezone : Prog.Moves LinkKept restartVibeForTimezone := by
  have hsave : Prog.Moves LinkKept saveAndRestart := by
    refine .bind .get fun _ ↦ (linkKept_call _).bind fun saved ↦ ?_
    cases saved with
    | ok =>
      exact .bind (linkKept_modify fun _ ↦ ⟨rfl, rfl, rfl, rfl, rfl⟩) fun _ ↦
        .bind .get fun _ ↦ linkKept_call _
    | error error => exact .ret _
  have hrebuild : Prog.Moves LinkKept rebuildToday := by
    refine linkKept_vibeHasAuth.bind fun _ ↦ (linkKept_publish _).bind fun _ ↦
      .bind (linkKept_modify fun _ ↦ ⟨rfl, rfl, rfl, rfl, rfl⟩) fun _ ↦ .bind .get fun _ ↦
      linkKept_systemTimeValid.bind fun _ ↦ .ite (.ret ()) ?_
    refine linkKept_monotonicUs.bind fun _ ↦ .ite ?_ ?_
    · exact linkKept_modify fun _ ↦ ⟨rfl, rfl, rfl, rfl, rfl⟩
    · exact linkKept_modify fun _ ↦ ⟨rfl, rfl, rfl, rfl, rfl⟩
  refine (linkKept_call _).bind fun _ ↦ linkKept_clearPublicLink.bind fun _ ↦
    .bind (linkKept_modify fun _ ↦ ⟨rfl, rfl, rfl, rfl, rfl⟩) fun _ ↦ hsave.bind fun result ↦
    .bind .get fun _ ↦ (linkKept_publish _).bind fun _ ↦ ?_
  cases result with
  | ok => exact hrebuild
  | error error => exact linkKept_publish _

/-- A refresh is asked for. -/
theorem linkKept_intentRefresh : Prog.Moves LinkKept intentRefresh := by
  refine (linkKept_addLog _).bind fun _ ↦ .bind .get fun c ↦ .ite ?_ ?_
  · exact linkKept_timer fun _ _ ↦ ⟨rfl, rfl, rfl, rfl, rfl⟩
  · exact linkKept_modify fun _ ↦ ⟨rfl, rfl, rfl, rfl, rfl⟩

/-- A pass is asked for. -/
theorem linkKept_intentReconcile : Prog.Moves LinkKept intentReconcile := by
  refine .bind .get fun c ↦ linkKept_systemTimeValid.bind fun _ ↦ .ite (.ret ()) ?_
  refine (linkKept_call _).bind fun result ↦ ?_
  cases result with
  | ok =>
    exact (linkKept_addLog _).bind fun _ ↦ linkKept_monotonicUs.bind fun _ ↦
      .bind (linkKept_modify fun _ ↦ ⟨rfl, rfl, rfl, rfl, rfl⟩) fun _ ↦ linkKept_publish _
  | error error => exact linkKept_fail _

/-- A relink gives the code up; another is asked for later. -/
theorem linkKept_intentRelink : Prog.Moves LinkKept intentRelink := by
  refine (linkKept_addLog _).bind fun _ ↦ linkKept_unlinkAccount.bind fun result ↦ ?_
  cases result with
  | ok => exact (linkKept_publish _).bind fun _ ↦ linkKept_timer fun _ _ ↦ ⟨rfl, rfl, rfl, rfl, rfl⟩
  | error error => exact linkKept_publish _

/-- The portal is asked for. -/
theorem linkKept_intentLlmConfig : Prog.Moves LinkKept intentLlmConfig :=
  (linkKept_publish _).bind fun _ ↦ .bind .get fun _ ↦
    .ite linkKept_startLlmPortal (.ite linkKept_reconfigureWifi (.ret ()))

/-- A factory reset gives nothing up by itself: it ends in a restart. -/
theorem linkKept_intentReset : Prog.Moves LinkKept intentReset := by
  refine (linkKept_publish _).bind fun _ ↦ linkKept_closeLlmPortal.bind fun _ ↦
    (linkKept_call _).bind fun result ↦ ?_
  cases result with
  | ok => exact linkKept_modify fun _ ↦ ⟨rfl, rfl, rfl, rfl, rfl⟩
  | error error => exact linkKept_fail _

/-- **An intent of the user.** -/
theorem linkKept_handleIntent (intent : AppIntent) : Prog.Moves LinkKept (handleIntent intent) := by
  refine .bind .get fun c ↦ .ite (.ret ()) ?_
  -- Relink, unlink and a change of the timezone give a code up; the others leave it alone.
  cases intent with
  | refresh => exact linkKept_intentRefresh
  | reconcile => exact linkKept_intentReconcile
  | startWifi => exact linkKept_reconfigureWifi
  | reconfigureWifi => exact linkKept_reconfigureWifi
  | relink => exact linkKept_intentRelink
  | unlink => exact linkKept_unlinkAccount.bind fun _ ↦ linkKept_publish _
  | toggleTimezone => exact (linkKept_addLog _).bind fun _ ↦ linkKept_restartVibeForTimezone
  | factoryReset => exact linkKept_intentReset
  | llmConfig => exact linkKept_intentLlmConfig
  | llmConfigClose => exact linkKept_closeLlmPortal.bind fun _ ↦ linkKept_publish _
  | other => exact .ret ()

/-- **An event of the network.** -/
theorem linkKept_handleWifiEvent (event : WifiEvent) :
    Prog.Moves LinkKept (handleWifiEvent event) := by
  have hoffline : Prog.Moves LinkKept (Prog.modify fun c ↦
      { c with online := false, timeSyncPending := false } : Ctl Unit) :=
    linkKept_modify fun _ ↦ ⟨rfl, rfl, rfl, rfl, rfl⟩
  refine .bind .get fun c ↦ .ite (.ret ()) ((linkKept_publish _).bind fun _ ↦ ?_)
  cases event with
  | scanning => exact linkKept_publish _
  | connecting => exact linkKept_publish _
  | gotIp =>
    refine (linkKept_addLog _).bind fun _ ↦
      .bind (linkKept_modify fun _ ↦ ⟨rfl, rfl, rfl, rfl, rfl⟩) fun _ ↦
      (linkKept_publish _).bind fun _ ↦ .ite linkKept_startLlmPortal (.ret ())
  | disconnected =>
    exact linkKept_closeLlmPortal.bind fun _ ↦ hoffline.bind fun _ ↦ (linkKept_call _).bind fun _ ↦
      linkKept_publish _
  | portalEnter =>
    exact hoffline.bind fun _ ↦ (linkKept_call _).bind fun _ ↦ linkKept_publish _
  | provisioningTimeout => exact linkKept_closeLlmPortal.bind fun _ ↦ linkKept_publish _
  | portalExit => exact linkKept_publish _

/-- The first command. -/
theorem linkKept_handleBoot : Prog.Moves LinkKept handleBoot := by
  have hwifi : Prog.Moves LinkKept bootWifi := by
    refine (linkKept_publish _).bind fun _ ↦ .bind .get fun c ↦ ?_
    cases c.turn.wifiStart with
    | none => exact .ret ()
    | some error => exact linkKept_publish _
  refine linkKept_vibeHasAuth.bind fun _ ↦ .bind .get fun _ ↦ (linkKept_publish _).bind fun _ ↦
    linkKept_updateClockFields.bind fun _ ↦ .bind .get fun c ↦ ?_
  dsimp only
  split
  · exact linkKept_updateSnapshots.bind fun _ ↦ hwifi
  · exact hwifi

/-- A shutdown gives a code up. -/
theorem linkKept_handleShutdown : Prog.Moves LinkKept handleShutdown :=
  linkKept_closeLlmPortal.bind fun _ ↦ .bind (linkKept_modify fun _ ↦ ⟨rfl, rfl, rfl, rfl, rfl⟩)
    fun _ ↦ (linkKept_call _).bind fun _ ↦ linkKept_clearPublicLink.bind fun _ ↦
    .bind (linkKept_modify fun _ ↦ ⟨rfl, rfl, rfl, rfl, rfl⟩) fun _ ↦ linkKept_publish _

/-- **No command polls a code.** -/
theorem linkKept_handleCommand (command : Command) :
    Prog.Moves LinkKept (handleCommand command) := by
  cases command with
  | boot => exact linkKept_handleBoot
  | wifiEvent event => exact linkKept_handleWifiEvent event
  | intent intent => exact linkKept_handleIntent intent
  | shutdown => exact linkKept_handleShutdown

end Programs

end VibeUsage
