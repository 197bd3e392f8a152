import VibeUsage.Controller.Model

/-!
# What the programs of the controller leave alone

Three relations between the start and the end of a program, each reflexive and transitive: `Quiet`
says that nothing is logged, no refresh and no synchronization is queued, and the clock only
advances; `Steady` that moreover no timer of a usage request is set; `Calm` that moreover no account
has been linked.

Most intents and events touch neither the timers nor the log, and that they do not is said once,
here, for each of the three. The programs that are not in this file are those that a result is
about.
-/

namespace VibeUsage

/-- Nothing is logged and nothing is queued. -/
structure Quiet (c c' : Controller) : Prop where
  log : c'.log = c.log
  mono : c'.mono = c.mono
  readings : c.monoReadings ≤ c'.monoReadings
  sync : c'.timeSyncPending = true → c.timeSyncPending = true
  manual : c'.manualRefreshPending = true → c.manualRefreshPending = true

/-- No usage request has come closer. -/
structure Steady (c c' : Controller) : Prop extends Quiet c c' where
  retry : c'.nextRetryUs = c.nextRetryUs
  refresh : c'.nextRefreshUs = c.nextRefreshUs
  active : c'.reconcileActive = true → c.reconcileActive = true
  code : c'.deviceCode = c.deviceCode
  shutdown : c'.shuttingDown = c.shuttingDown

/-- No account has been linked either. -/
structure Calm (c c' : Controller) : Prop extends Steady c c' where
  auth : c'.client.vibe.hasAuth = true → c.client.vibe.hasAuth = true

instance : Std.Refl Quiet := ⟨fun _ ↦ ⟨rfl, rfl, le_rfl, id, id⟩⟩

instance : IsTrans Controller Quiet := ⟨fun _ _ _ h h' ↦
  ⟨h'.log.trans h.log, h'.mono.trans h.mono, h.readings.trans h'.readings, h.sync ∘ h'.sync,
    h.manual ∘ h'.manual⟩⟩

instance : Std.Refl Steady := ⟨fun c ↦ ⟨refl_of Quiet c, rfl, rfl, id, rfl, rfl⟩⟩

instance : IsTrans Controller Steady := ⟨fun _ _ _ h h' ↦
  ⟨trans_of Quiet h.toQuiet h'.toQuiet, h'.retry.trans h.retry, h'.refresh.trans h.refresh,
    h.active ∘ h'.active, h'.code.trans h.code, h'.shutdown.trans h.shutdown⟩⟩

instance : Std.Refl Calm := ⟨fun c ↦ ⟨refl_of Steady c, id⟩⟩

instance : IsTrans Controller Calm := ⟨fun _ _ _ h h' ↦
  ⟨trans_of Steady h.toSteady h'.toSteady, h.auth ∘ h'.auth⟩⟩

/-! ### The client -/

/-- No account has been linked in the client. -/
def NoNewAuth (c c' : Client) : Prop := c'.vibe.hasAuth = true → c.vibe.hasAuth = true

instance : Std.Refl NoNewAuth := ⟨fun _ ↦ id⟩

instance : IsTrans Client NoNewAuth := ⟨fun _ _ _ h h' ↦ h ∘ h'⟩

section Client

variable {α : Type}

/-- The storage is not what an account is read from. -/
theorem noNewAuth_stored (p : Nvs α) : Prog.Moves NoNewAuth (stored p) := fun _ ↦ id

theorem noNewAuth_getVibe : Prog.Moves NoNewAuth getVibe := fun _ ↦ id

theorem noNewAuth_timeNow : Prog.Moves NoNewAuth timeNow := fun _ ↦ id

/-- An error is noted. -/
theorem noNewAuth_setError (error : Option VibeError) (httpStatus : Int) :
    Prog.Moves NoNewAuth (setError error httpStatus) := fun _ ↦ id

/-- The cache is changed. -/
theorem noNewAuth_setCache (f : VibeCache → VibeCache) : Prog.Moves NoNewAuth (setCache f) :=
  fun _ ↦ id

/-- A cancellation counts up, and that is all. -/
theorem noNewAuth_vibeCancel : Prog.Moves NoNewAuth vibeCancel := fun _ ↦ id

/-- The date is read from the clock. -/
theorem noNewAuth_currentDay : Prog.Moves NoNewAuth currentDay := by
  refine noNewAuth_timeNow.bind fun now ↦ noNewAuth_getVibe.bind fun g ↦ ?_
  cases localDay g.timezone now with
  | none => exact (noNewAuth_setError _ _).bind fun _ ↦ .fail _
  | some today => exact .ret _

/-- A snapshot is built. -/
theorem noNewAuth_vibeSnapshot (window : Window) : Prog.Moves NoNewAuth (vibeSnapshot window) := by
  refine noNewAuth_getVibe.bind fun g ↦ (Prog.Moves.check _).bind fun _ ↦
    noNewAuth_currentDay.bind fun today ↦ ?_
  cases vibeCacheBuildSnapshot g.cache today window with
  | error _ => exact .fail _
  | ok snapshot => exact .ret _

/-- The cache is written. -/
theorem noNewAuth_writeCacheNow (nowUtc : Int64) : Prog.Moves NoNewAuth (writeCacheNow nowUtc) :=
  noNewAuth_getVibe.bind fun _ ↦ (noNewAuth_stored _).bind fun _ _ ↦ id

/-- A pass is begun for the account that there is. -/
theorem noNewAuth_vibeBeginReconcile (includeToday : Bool) :
    Prog.Moves NoNewAuth (vibeBeginReconcile includeToday) := by
  refine noNewAuth_getVibe.bind fun _ ↦ (Prog.Moves.check _).bind fun _ ↦
    noNewAuth_currentDay.bind fun _ ↦ (noNewAuth_setCache _).bind fun _ ↦
    noNewAuth_getVibe.bind fun _ ↦ .bind (.attempt (.ite (.ret ()) ?_)) fun _ ↦
    (noNewAuth_setError _ _).bind fun _ ↦ .lift _
  exact noNewAuth_timeNow.bind noNewAuth_writeCacheNow

/-- A factory reset leaves the credential as it was, or forgets it. -/
theorem noNewAuth_intentFactoryReset : Prog.Moves NoNewAuth intentFactoryReset := by
  have hreset : Prog.Moves NoNewAuth vibeFactoryReset := by
    refine noNewAuth_getVibe.bind fun _ ↦ (Prog.Moves.check _).bind fun _ ↦
      .bind (fun _ ↦ id) fun _ ↦ noNewAuth_vibeCancel.bind fun _ ↦ (noNewAuth_stored _).bind fun _ ↦
      (noNewAuth_stored _).bind fun _ ↦ ?_
    -- Past the second write the whole context is zeroed.
    intro c hauth
    cases hauth
  exact noNewAuth_vibeCancel.bind fun _ ↦ hreset.bind fun _ ↦ (noNewAuth_stored _).bind fun _ ↦
    (noNewAuth_stored _).bind fun _ ↦ (noNewAuth_stored _).bind fun _ ↦ noNewAuth_stored _

/-- **An account that is unlinked** is gone, whether or not that could be saved. -/
theorem vibeUnlink_hasAuth (c : Client) : (vibeUnlink c).2.vibe.hasAuth = false := by
  have hrest (written : Except EspErr Unit) (finish : Except EspErr Unit → Vibe Unit)
      (hfinish : ∀ result, Prog.Moves NoNewAuth (finish result)) : Prog.Moves NoNewAuth (do
        let result ← (do
          Prog.lift written
          stored vibeStoreClearCache
          stored vibeStoreClearRetryNotBefore : Vibe Unit).attempt
        finish result : Vibe Unit) :=
    .bind (.attempt (.bind (.lift _) fun _ ↦ (noNewAuth_stored _).bind fun _ ↦
      noNewAuth_stored _)) hfinish
  -- The record in memory is unlinked before anything is written, so the outcome of the writes is
  -- open.
  rw [vibeUnlink, Prog.bind_of_ok (getVibe_apply c)]
  cases hinit : c.vibe.initialized with
  | false =>
    rw [Prog.check_of_neg (by simp), Prog.bind_of_error (Prog.fail_apply _ c)]
    show (c.vibe.initialized && _ && _ && _) = false
    rw [hinit]
    rfl
  | true =>
    rw [Prog.check_of_pos rfl]
    refine Bool.eq_false_iff.2 fun hauth ↦ ?_
    have hbefore := hrest _ _ (fun _ ↦ (noNewAuth_setError _ _).bind fun _ ↦ .lift _) _ hauth
    exact absurd hbefore (by simp [VibeContext.hasAuth, AuthRecord.unlinked])

end Client

/-! ### Programs that ask for nothing -/

section Calm

variable {α : Type}

/-- A change of what no timer and no account depends on. -/
theorem calm_modify {f : Controller → Controller}
    (h : ∀ c, f c = { c with
      view := (f c).view, llmDeadlineUs := (f c).llmDeadlineUs, online := (f c).online
      stopped := (f c).stopped, linkIntervalSeconds := (f c).linkIntervalSeconds
      nextLinkPollUs := (f c).nextLinkPollUs, turn := (f c).turn
      settings := (f c).settings }) : Prog.Moves Calm (Prog.modify f : Ctl Unit) := by
  intro c
  show Calm c (f c)
  rw [h c]
  exact ⟨⟨⟨rfl, rfl, le_rfl, id, id⟩, rfl, rfl, id, rfl, rfl⟩, id⟩

/-- What is shown sets no timer. -/
theorem calm_publish (f : AppView → AppView) : Prog.Moves Calm (publish f) :=
  calm_modify fun _ ↦ rfl

/-- A call of the client sets no timer of the controller. -/
theorem calm_call {p : Vibe α} (h : Prog.Moves NoNewAuth p) : Prog.Moves Calm (call p) := fun c ↦
  { refl_of Steady c with auth := h c.client }

/-- A call sets no timer, whatever becomes of the account. -/
theorem steady_call (p : Vibe α) : Prog.Moves Steady (call p) := fun _ ↦
  ⟨⟨rfl, rfl, le_rfl, id, id⟩, rfl, rfl, id, rfl, rfl⟩

/-- A reading of the monotonic clock. -/
theorem calm_monotonicUs : Prog.Moves Calm monotonicUs := fun c ↦
  { refl_of Calm c with readings := Nat.le_succ _ }

theorem calm_wallClock : Prog.Moves Calm wallClock := fun c ↦
  ⟨steady_call timeNow c, id⟩

/-- The wall clock is asked whether it has been set. -/
theorem calm_systemTimeValid : Prog.Moves Calm systemTimeValid :=
  calm_wallClock.bind fun _ ↦ .ret _

theorem calm_vibeHasAuth : Prog.Moves Calm vibeHasAuth := fun c ↦ refl_of Calm c

/-- The fields of the clock are shown. -/
theorem calm_updateClockFields : Prog.Moves Calm updateClockFields :=
  calm_systemTimeValid.bind fun _ ↦ calm_publish _

/-- Both snapshots are rebuilt and shown. -/
theorem calm_updateSnapshots : Prog.Moves Calm updateSnapshots := by
  refine .bind (.bind (calm_call (noNewAuth_vibeSnapshot _)) fun today ↦ ?_) fun _ ↦
    .bind (calm_call (noNewAuth_vibeSnapshot _)) fun sevenDay ↦ ?_
  · cases today with
    | ok today => exact calm_publish _
    | error _ => exact .ret ()
  · cases sevenDay with
    | ok sevenDay => exact calm_publish _
    | error _ => exact .ret ()

/-- The portal is closed. -/
theorem calm_closeLlmPortal : Prog.Moves Calm closeLlmPortal := calm_modify fun _ ↦ rfl

/-- The portal is opened, which sets the time when it closes. -/
theorem calm_startLlmPortal : Prog.Moves Calm startLlmPortal := by
  refine .bind .get fun c ↦ ?_
  cases c.turn.portalStart with
  | some _ => exact .ret ()
  | none => exact calm_monotonicUs.bind fun _ ↦ calm_modify fun _ ↦ rfl

/-- The network is set up again, and what was queued for it is dropped. -/
theorem calm_reconfigureWifi : Prog.Moves Calm reconfigureWifi := by
  refine calm_closeLlmPortal.bind fun _ ↦ (calm_call noNewAuth_vibeCancel).bind fun _ ↦
    .bind (.modify fun c ↦ ?_) fun _ ↦ .bind .get fun c ↦ (calm_publish _).bind fun _ ↦ ?_
  -- The queued synchronization is dropped, which the relation allows in this direction only.
  · exact ⟨{ refl_of Steady c with sync := fun h ↦ by cases h }, id⟩
  · cases c.turn.wifiStart with
    | none => exact .ret ()
    | some error => exact calm_publish _

/-- The portal is asked for. -/
theorem calm_intentLlmConfig : Prog.Moves Calm intentLlmConfig := by
  refine (calm_publish _).bind fun _ ↦ .bind .get fun c ↦ .ite calm_startLlmPortal ?_
  exact .ite calm_reconfigureWifi (.ret ())

/-- **A factory reset**, whether or not all of it could be erased. -/
theorem calm_intentReset : Prog.Moves Calm intentReset := by
  refine (calm_publish _).bind fun _ ↦ calm_closeLlmPortal.bind fun _ ↦
    (calm_call noNewAuth_intentFactoryReset).bind fun result ↦ ?_
  cases result with
  | ok => exact calm_modify fun _ ↦ rfl
  | error error => exact .bind .get fun _ ↦ calm_publish _

/-- The driver is started. -/
theorem calm_bootWifi : Prog.Moves Calm bootWifi := by
  refine (calm_publish _).bind fun _ ↦ .bind .get fun c ↦ ?_
  cases c.turn.wifiStart with
  | none => exact .ret ()
  | some error => exact calm_publish _

/-- The first command shows what a start has found. -/
theorem calm_handleBoot : Prog.Moves Calm handleBoot := by
  refine calm_vibeHasAuth.bind fun _ ↦ .bind .get fun _ ↦ (calm_publish _).bind fun _ ↦
    calm_updateClockFields.bind fun _ ↦ .bind .get fun c ↦ ?_
  dsimp only
  split
  · exact calm_updateSnapshots.bind fun _ ↦ calm_bootWifi
  · exact calm_bootWifi

/-- The portal is closed when its time is over. -/
theorem calm_smartTick : Prog.Moves Calm smartTick := by
  refine .bind .get fun c ↦ .ite (.ret ()) (calm_monotonicUs.bind fun now ↦ .ite (.ret ()) ?_)
  exact calm_closeLlmPortal.bind fun _ ↦ calm_publish _

/-- Whether the daily pass is due is read off the clock. -/
theorem calm_dailyReconciliationDue : Prog.Moves Calm dailyReconciliationDue :=
  calm_systemTimeValid.bind fun _ ↦ calm_wallClock.bind fun _ ↦ .bind .get fun _ ↦ .ret _

/-- Whether a pass is due is only asked. -/
theorem calm_passDue : Prog.Moves Calm passDue := by
  refine .bind .get fun c ↦ .ite (.ret _) (calm_systemTimeValid.bind fun timeValid ↦
    .ite ?_ (.ret _))
  exact .bind .get fun c ↦ .ite (.ret _) calm_dailyReconciliationDue

end Calm

/-! ### Programs that set timers -/

section Quiet

variable {α : Type}

/-- What is calm is quiet. -/
theorem quiet_of_calm {p : Ctl α} (h : Prog.Moves Calm p) : Prog.Moves Quiet p :=
  h.mono fun _ _ h ↦ h.toQuiet

/-- A change of what is neither queued nor logged. -/
theorem quiet_modify {f : Controller → Controller}
    (h : ∀ c, (f c).log = c.log ∧ (f c).mono = c.mono ∧ (f c).monoReadings = c.monoReadings ∧
      (f c).timeSyncPending = c.timeSyncPending ∧
      (f c).manualRefreshPending = c.manualRefreshPending) :
    Prog.Moves Quiet (Prog.modify f : Ctl Unit) := by
  intro c
  obtain ⟨hlog, hmono, hreadings, hsync, hmanual⟩ := h c
  refine ⟨hlog, hmono, hreadings.ge, ?_, ?_⟩
  · exact fun h ↦ hsync ▸ h
  · exact fun h ↦ hmanual ▸ h

/-- A call logs nothing of the controller. -/
theorem quiet_call (p : Vibe α) : Prog.Moves Quiet (call p) :=
  (steady_call p).mono fun _ _ h ↦ h.toQuiet

theorem quiet_publish (f : AppView → AppView) : Prog.Moves Quiet (publish f) :=
  quiet_of_calm (calm_publish f)

theorem quiet_monotonicUs : Prog.Moves Quiet monotonicUs := quiet_of_calm calm_monotonicUs

theorem quiet_systemTimeValid : Prog.Moves Quiet systemTimeValid :=
  quiet_of_calm calm_systemTimeValid

theorem quiet_vibeHasAuth : Prog.Moves Quiet vibeHasAuth := quiet_of_calm calm_vibeHasAuth

theorem quiet_updateClockFields : Prog.Moves Quiet updateClockFields :=
  quiet_of_calm calm_updateClockFields

theorem quiet_updateSnapshots : Prog.Moves Quiet updateSnapshots :=
  quiet_of_calm calm_updateSnapshots

/-- A code is given up, and a refresh that was queued with it. -/
theorem quiet_clearPublicLink : Prog.Moves Quiet clearPublicLink := fun _ ↦
  ⟨rfl, rfl, le_rfl, id, fun h ↦ by cases h⟩

/-- The time of the next attempt is set. -/
theorem quiet_scheduleRetry : Prog.Moves Quiet scheduleRetry :=
  .bind .get fun _ ↦ quiet_monotonicUs.bind fun _ ↦ quiet_modify fun _ ↦ ⟨rfl, rfl, rfl, rfl, rfl⟩

/-- The clock has been set, and usage is due now. -/
theorem quiet_afterTimeReady : Prog.Moves Quiet afterTimeReady := by
  refine quiet_updateClockFields.bind fun _ ↦ quiet_vibeHasAuth.bind fun _ ↦
    (quiet_publish _).bind fun _ ↦ quiet_updateSnapshots.bind fun _ ↦
    quiet_monotonicUs.bind fun now ↦ .ite ?_ ?_
  · exact quiet_modify fun _ ↦ ⟨rfl, rfl, rfl, rfl, rfl⟩
  · exact quiet_modify fun _ ↦ ⟨rfl, rfl, rfl, rfl, rfl⟩

/-- **A synchronization of the clock**, with either end. -/
theorem quiet_handleTimeSync : Prog.Moves Quiet handleTimeSync := by
  refine (quiet_publish _).bind fun _ ↦ .bind ?_ fun result ↦ ?_
  · exact quiet_systemTimeValid.bind fun _ ↦ .bind .get fun _ ↦ .ret _
  · cases result with
    | none => exact quiet_afterTimeReady
    | some error =>
      exact .bind .get fun _ ↦ (quiet_publish _).bind fun _ ↦ quiet_scheduleRetry

/-- A code is asked for, and kept or asked for again. -/
theorem quiet_requestLink : Prog.Moves Quiet requestLink := by
  refine quiet_clearPublicLink.bind fun _ ↦ (quiet_publish _).bind fun _ ↦ .bind .get fun c ↦
    (quiet_call _).bind fun result ↦ ?_
  cases result with
  | error error =>
    refine .bind .get fun _ ↦ (quiet_publish _).bind fun _ ↦ .bind ?_ fun _ ↦ quiet_scheduleRetry
    exact quiet_modify fun _ ↦ ⟨rfl, rfl, rfl, rfl, rfl⟩
  | ok code =>
    refine quiet_monotonicUs.bind fun _ ↦ quiet_monotonicUs.bind fun _ ↦ .bind ?_ fun _ ↦
      .bind .get fun _ ↦ quiet_publish _
    exact quiet_modify fun _ ↦ ⟨rfl, rfl, rfl, rfl, rfl⟩

/-- A link begins when there is a network and a date. -/
theorem quiet_startDeviceLink : Prog.Moves Quiet startDeviceLink :=
  .bind .get fun _ ↦ quiet_systemTimeValid.bind fun _ ↦ .ite (.ret ()) quiet_requestLink

/-- A pass is begun behind a request of today. -/
theorem quiet_queueReconcile : Prog.Moves Quiet queueReconcile := by
  refine (quiet_call _).bind fun result ↦ ?_
  cases result with
  | ok =>
    exact quiet_monotonicUs.bind fun _ ↦ quiet_modify fun _ ↦ ⟨rfl, rfl, rfl, rfl, rfl⟩
  | error error => exact .bind .get fun _ ↦ quiet_publish _

/-- A request of today has succeeded. -/
theorem quiet_finishToday : Prog.Moves Quiet finishToday := by
  refine quiet_monotonicUs.bind fun _ ↦ .bind (quiet_modify fun _ ↦ ⟨rfl, rfl, rfl, rfl, rfl⟩)
    fun _ ↦ .bind .get fun _ ↦ (quiet_publish _).bind fun _ ↦ quiet_updateSnapshots.bind fun _ ↦
    (quiet_publish _).bind fun _ ↦ .bind .get fun c ↦ ?_
  dsimp only
  split
  · exact quiet_updateClockFields
  · exact quiet_queueReconcile.bind fun _ ↦ quiet_updateClockFields

/-- A day of a pass has succeeded. -/
theorem quiet_finishReconcile : Prog.Moves Quiet finishReconcile := by
  refine .bind .get fun _ ↦ (quiet_publish _).bind fun _ ↦ quiet_updateSnapshots.bind fun _ ↦
    (quiet_publish _).bind fun _ ↦ .bind .get fun _ ↦ .ite ?_ (quiet_monotonicUs.bind fun _ ↦ ?_)
  · exact quiet_modify fun _ ↦ ⟨rfl, rfl, rfl, rfl, rfl⟩
  · exact quiet_modify fun _ ↦ ⟨rfl, rfl, rfl, rfl, rfl⟩

/-- A pass is begun. -/
theorem quiet_queuePass (now : ℤ) : Prog.Moves Quiet (queuePass now) := by
  refine .bind (.bind .get fun _ ↦ .ite (.ret _) (quiet_call _)) fun result ↦ ?_
  cases result with
  | ok => exact quiet_modify fun _ ↦ ⟨rfl, rfl, rfl, rfl, rfl⟩
  | error error => exact .bind .get fun _ ↦ (quiet_publish _).bind fun _ ↦ quiet_scheduleRetry

/-- The settings are saved and the client starts anew with them. -/
theorem quiet_saveAndRestart : Prog.Moves Quiet saveAndRestart := by
  refine .bind .get fun _ ↦ (quiet_call _).bind fun saved ↦ ?_
  cases saved with
  | ok =>
    exact .bind (quiet_modify fun _ ↦ ⟨rfl, rfl, rfl, rfl, rfl⟩) fun _ ↦ .bind .get fun _ ↦
      quiet_call _
  | error error => exact .ret _

/-- What is shown starts anew in the other timezone. -/
theorem quiet_rebuildToday : Prog.Moves Quiet rebuildToday := by
  refine quiet_vibeHasAuth.bind fun _ ↦ (quiet_publish _).bind fun _ ↦
    .bind (quiet_modify fun _ ↦ ⟨rfl, rfl, rfl, rfl, rfl⟩) fun _ ↦ .bind .get fun _ ↦
    quiet_systemTimeValid.bind fun _ ↦ .ite (.ret ()) (quiet_monotonicUs.bind fun _ ↦ .ite ?_ ?_)
  · exact quiet_modify fun _ ↦ ⟨rfl, rfl, rfl, rfl, rfl⟩
  · exact quiet_modify fun _ ↦ ⟨rfl, rfl, rfl, rfl, rfl⟩

/-- **The timezone is changed**, whether or not that could be saved. -/
theorem quiet_restartVibeForTimezone : Prog.Moves Quiet restartVibeForTimezone := by
  refine (quiet_call _).bind fun _ ↦ quiet_clearPublicLink.bind fun _ ↦
    .bind (quiet_modify fun _ ↦ ⟨rfl, rfl, rfl, rfl, rfl⟩) fun _ ↦
    quiet_saveAndRestart.bind fun result ↦ .bind .get fun _ ↦ (quiet_publish _).bind fun _ ↦ ?_
  cases result with
  | ok => exact quiet_rebuildToday
  | error error => exact quiet_publish _

/-- The account is given up. -/
theorem quiet_unlinkAccount : Prog.Moves Quiet unlinkAccount :=
  (quiet_call _).bind fun _ ↦ quiet_clearPublicLink.bind fun _ ↦ (quiet_publish _).bind fun _ ↦
    .ret _

end Quiet

end VibeUsage
