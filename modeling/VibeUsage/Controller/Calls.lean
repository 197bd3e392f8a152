import VibeUsage.Controller.Boot

/-!
# What the calls of the controller keep

The controller reaches the usage client, its storage and its clock through a dozen calls. A property
of the client that each of these calls keeps is kept by every turn of the controller, whatever
arrives and whatever is due (`holds_controllerTurn`); with what a start keeps, by every run of turns
and starts (`holds_afterAll`). A usage request is made by an account that is linked, after
`vibe_retry_remaining_seconds` has returned zero.

The assumptions are collected in `CallsKeep` and `StartsKeep`, so that a result about runs names
what it needs of the calls and nothing of the controller. `Deadline` and `Provenance` are the two
that use it.
-/

namespace VibeUsage

/-- Each call that the controller makes keeps `I`. -/
structure CallsKeep (I : Client → Prop) : Prop where
  reading : Prog.Leads I timeNow I
  snapshot : ∀ window, Prog.Leads I (vibeSnapshot window) I
  cancel : Prog.Leads I vibeCancel I
  remaining : Prog.Leads I vibeRetryRemainingSeconds I
  code : ∀ reply, Prog.Leads I (vibeRequestDeviceCode reply) I
  poll : ∀ reply, Prog.Leads I (vibePollDeviceCode reply) I
  pass : ∀ includeToday, Prog.Leads I (vibeBeginReconcile includeToday) I
  today : ∀ c, I c → c.vibe.hasAuth = true → (vibeRetryRemainingSeconds c).1 = .ok 0 →
    I (vibeFetchToday (vibeRetryRemainingSeconds c).2).2
  day : ∀ c, I c → c.vibe.hasAuth = true → (vibeRetryRemainingSeconds c).1 = .ok 0 →
    I (vibeReconcile (vibeRetryRemainingSeconds c).2).2
  unlink : Prog.Leads I vibeUnlink I
  save : ∀ config, Prog.Leads I (stored (deviceConfigSave config)) I
  init : ∀ c : Controller, I c.client → I (vibeInit c.vibeConfig c.client).2
  reset : Prog.Leads I intentFactoryReset I

/-- The property of the client, as one of the controller. -/
def OfClient (I : Client → Prop) (c : Controller) : Prop := I c.client

section Programs

open Prog (Leads)

variable {α : Type} {I : Client → Prop}

theorem holds_modify {f : Controller → Controller} (h : ∀ c, (f c).client = c.client) :
    Leads (OfClient I) (Prog.modify f : Ctl Unit) (OfClient I) := by
  intro c hc
  show I (f c).client
  rwa [h]

/-- What is shown is no part of the client. -/
theorem holds_publish (f : AppView → AppView) : Leads (OfClient I) (publish f) (OfClient I) :=
  holds_modify fun _ ↦ rfl

/-- The log is no part of the client. -/
theorem holds_addLog (entry : LogEntry) : Leads (OfClient I) (addLog entry) (OfClient I) :=
  holds_modify fun _ ↦ rfl

/-- A call keeps what its program keeps. -/
theorem holds_call {p : Vibe α} (hp : Leads I p I) : Leads (OfClient I) (call p) (OfClient I) :=
  fun c hc ↦ hp c.client hc

/-- The monotonic clock is no part of the client. -/
theorem holds_monotonicUs : Leads (OfClient I) monotonicUs (OfClient I) := fun _ ↦ id

theorem holds_vibeHasAuth : Leads (OfClient I) vibeHasAuth (OfClient I) := fun _ ↦ id

theorem holds_get : Leads (OfClient I) (Prog.get : Ctl Controller) (OfClient I) := fun _ ↦ id

/-- A reading of the clock, and a change with it. -/
theorem holds_timer {f : ℤ → Controller → Controller} (h : ∀ now c, (f now c).client = c.client) :
    Leads (OfClient I) (do
      let now ← monotonicUs
      Prog.modify (f now) : Ctl Unit) (OfClient I) :=
  holds_monotonicUs.bind fun now ↦ holds_modify (h now)

/-- A failure is shown. -/
theorem holds_fail (f : Controller → AppView → AppView) : Leads (OfClient I) (do
    let c ← Prog.get
    publish (f c) : Ctl Unit) (OfClient I) :=
  holds_get.bind fun _ ↦ holds_publish _

/-- The code is no part of the client. -/
theorem holds_clearPublicLink : Leads (OfClient I) clearPublicLink (OfClient I) :=
  holds_modify fun _ ↦ rfl

theorem holds_closeLlmPortal : Leads (OfClient I) closeLlmPortal (OfClient I) :=
  holds_modify fun _ ↦ rfl

/-- The portal is no part of the client. -/
theorem holds_startLlmPortal : Leads (OfClient I) startLlmPortal (OfClient I) := by
  refine holds_get.bind fun c ↦ ?_
  cases c.turn.portalStart with
  | some _ => exact .ret ()
  | none => exact holds_timer fun _ _ ↦ rfl

/-- The timer is no part of the client. -/
theorem holds_scheduleRetry : Leads (OfClient I) scheduleRetry (OfClient I) :=
  holds_get.bind fun _ ↦ holds_timer fun _ _ ↦ rfl

theorem holds_logBackoff : Leads (OfClient I) logBackoff (OfClient I) := holds_modify fun _ ↦ rfl

/-- The time of the next poll is set. -/
theorem holds_pollAgain (seconds : ℤ) : Leads (OfClient I) (pollAgain seconds) (OfClient I) :=
  holds_timer fun _ _ ↦ rfl

/-- A link has come to its end. -/
theorem holds_endLink (f : AppView → AppView) : Leads (OfClient I) (endLink f) (OfClient I) :=
  holds_get.bind fun _ ↦ (holds_addLog _).bind fun _ ↦ holds_clearPublicLink.bind fun _ ↦
    holds_publish f

/-- What is made of the answer to a poll; the account is already in the client then. -/
theorem holds_settlePoll (nowSeconds : ℤ) (result : Except EspErr PollStatus) :
    Leads (OfClient I) (settlePoll nowSeconds result) (OfClient I) := by
  cases result with
  | error error =>
    exact holds_get.bind fun _ ↦ (holds_publish _).bind fun _ ↦ holds_pollAgain _
  | ok status =>
    cases status with
    | pending => exact holds_get.bind fun _ ↦ holds_pollAgain _
    | slowDown seconds =>
      refine .bind (holds_modify fun _ ↦ rfl) fun _ ↦ holds_get.bind fun _ ↦
        (holds_pollAgain _).bind fun _ ↦ holds_publish _
    | success apiKey =>
      exact holds_get.bind fun _ ↦ (holds_endLink _).bind fun _ ↦ holds_timer fun _ _ ↦ rfl
    | denied => exact holds_get.bind fun _ ↦ holds_endLink _
    | expired => exact holds_get.bind fun _ ↦ holds_endLink _
    | alreadyDelivered => exact holds_get.bind fun _ ↦ holds_endLink _

/-! ### Programs that ask for no usage -/

/-- The wall clock is read by the client. -/
theorem holds_wallClock (h : CallsKeep I) : Leads (OfClient I) wallClock (OfClient I) :=
  fun c hc ↦ h.reading c.client hc

/-- The wall clock is asked whether it has been set. -/
theorem holds_systemTimeValid (h : CallsKeep I) : Leads (OfClient I) systemTimeValid (OfClient I) :=
  (holds_wallClock h).bind fun _ ↦ .ret _

theorem holds_updateClockFields (h : CallsKeep I) :
    Leads (OfClient I) updateClockFields (OfClient I) :=
  (holds_systemTimeValid h).bind fun _ ↦ holds_publish _

/-- Both snapshots are rebuilt and shown. -/
theorem holds_updateSnapshots (h : CallsKeep I) :
    Leads (OfClient I) updateSnapshots (OfClient I) := by
  refine .bind (.bind (holds_call (h.snapshot _)) fun today ↦ ?_) fun _ ↦
    .bind (holds_call (h.snapshot _)) fun sevenDay ↦ ?_
  · cases today with
    | ok today => exact holds_publish _
    | error _ => exact .ret ()
  · cases sevenDay with
    | ok sevenDay => exact holds_publish _
    | error _ => exact .ret ()

/-- The clock has been set. -/
theorem holds_afterTimeReady (h : CallsKeep I) :
    Leads (OfClient I) afterTimeReady (OfClient I) := by
  refine (holds_updateClockFields h).bind fun _ ↦ holds_vibeHasAuth.bind fun _ ↦
    (holds_publish _).bind fun _ ↦ (holds_updateSnapshots h).bind fun _ ↦
    holds_monotonicUs.bind fun _ ↦ .ite ?_ ?_
  · exact holds_modify fun _ ↦ rfl
  · exact holds_modify fun _ ↦ rfl

/-- The clock is set, or that fails. -/
theorem holds_handleTimeSync (h : CallsKeep I) :
    Leads (OfClient I) handleTimeSync (OfClient I) := by
  refine (holds_publish _).bind fun _ ↦ .bind (M := OfClient I) ?_ fun result ↦ ?_
  · exact (holds_systemTimeValid h).bind fun _ ↦ holds_get.bind fun _ ↦ .ret _
  · cases result with
    | none => exact holds_afterTimeReady h
    | some error =>
      exact holds_get.bind fun _ ↦ (holds_publish _).bind fun _ ↦ holds_scheduleRetry

/-- A code is asked for. -/
theorem holds_startDeviceLink (h : CallsKeep I) :
    Leads (OfClient I) startDeviceLink (OfClient I) := by
  refine holds_get.bind fun _ ↦ (holds_systemTimeValid h).bind fun _ ↦ .ite (.ret ()) ?_
  refine holds_clearPublicLink.bind fun _ ↦ (holds_publish _).bind fun _ ↦ holds_get.bind fun c ↦
    (holds_call (h.code _)).bind fun result ↦ ?_
  cases result with
  | error error =>
    refine holds_get.bind fun _ ↦ (holds_publish _).bind fun _ ↦
      .bind (holds_modify fun _ ↦ rfl) fun _ ↦ holds_scheduleRetry
  | ok code =>
    refine holds_monotonicUs.bind fun _ ↦ holds_monotonicUs.bind fun _ ↦
      .bind (holds_modify fun _ ↦ rfl) fun _ ↦ holds_get.bind fun _ ↦ holds_publish _

/-- A code is polled, which may link an account. -/
theorem holds_pollDeviceLink (h : CallsKeep I) :
    Leads (OfClient I) pollDeviceLink (OfClient I) := by
  refine holds_get.bind fun c ↦ .ite (.ret ()) (holds_monotonicUs.bind fun now ↦
    .ite (holds_endLink _) ?_)
  exact (holds_call (h.poll _)).bind fun result ↦ holds_settlePoll _ result

/-- A pass is begun behind a request of today. -/
theorem holds_queueReconcile (h : CallsKeep I) :
    Leads (OfClient I) queueReconcile (OfClient I) := by
  refine (holds_call (h.pass _)).bind fun result ↦ ?_
  cases result with
  | ok => exact holds_timer fun _ _ ↦ rfl
  | error error => exact holds_fail _

/-- A pass is begun. -/
theorem holds_queuePass (h : CallsKeep I) (now : ℤ) :
    Leads (OfClient I) (queuePass now) (OfClient I) := by
  refine .bind (holds_get.bind fun _ ↦ .ite (.ret _) (holds_call (h.pass _))) fun result ↦ ?_
  cases result with
  | ok => exact holds_modify fun _ ↦ rfl
  | error error =>
    exact holds_get.bind fun _ ↦ (holds_publish _).bind fun _ ↦ holds_scheduleRetry

/-- Whether a pass is due is only asked. -/
theorem holds_passDue (h : CallsKeep I) : Leads (OfClient I) passDue (OfClient I) := by
  refine holds_get.bind fun c ↦
    .ite (.ret _) ((holds_systemTimeValid h).bind fun _ ↦ .ite ?_ (.ret _))
  refine holds_get.bind fun c ↦ .ite (.ret _) ?_
  exact (holds_systemTimeValid h).bind fun _ ↦ (holds_wallClock h).bind fun _ ↦
    holds_get.bind fun _ ↦ .ret _

theorem holds_smartTick : Leads (OfClient I) smartTick (OfClient I) := by
  refine holds_get.bind fun c ↦ .ite (.ret ()) (holds_monotonicUs.bind fun now ↦ .ite (.ret ()) ?_)
  exact holds_closeLlmPortal.bind fun _ ↦ holds_publish _

/-! ### Requests -/

/-- A request of today has failed. -/
theorem holds_failToday (manual : Bool) (error : EspErr) :
    Leads (OfClient I) (failToday manual error) (OfClient I) := by
  refine holds_get.bind fun c ↦ (holds_publish _).bind fun _ ↦ .ite ?_ ?_
  · exact holds_clearPublicLink.bind fun _ ↦ holds_publish _
  · exact (holds_publish _).bind fun _ ↦ holds_scheduleRetry.bind fun _ ↦
      .ite (.ret ()) holds_logBackoff

/-- A request of today has succeeded. -/
theorem holds_finishToday (h : CallsKeep I) : Leads (OfClient I) finishToday (OfClient I) := by
  refine holds_monotonicUs.bind fun _ ↦ .bind (holds_modify fun _ ↦ rfl) fun _ ↦
    holds_get.bind fun _ ↦ (holds_publish _).bind fun _ ↦ (holds_updateSnapshots h).bind fun _ ↦
    (holds_publish _).bind fun _ ↦ holds_get.bind fun c ↦ ?_
  dsimp only
  split
  · exact holds_updateClockFields h
  · exact (holds_queueReconcile h).bind fun _ ↦ holds_updateClockFields h

/-- A day of a pass has succeeded. -/
theorem holds_finishReconcile (h : CallsKeep I) :
    Leads (OfClient I) finishReconcile (OfClient I) := by
  refine holds_get.bind fun _ ↦ (holds_publish _).bind fun _ ↦
    (holds_updateSnapshots h).bind fun _ ↦ (holds_publish _).bind fun _ ↦ holds_get.bind fun _ ↦
    .ite ?_ ?_
  · exact holds_modify fun _ ↦ rfl
  · exact holds_timer fun _ _ ↦ rfl

/-- A day of a pass has failed. -/
theorem holds_failReconcile (error : EspErr) :
    Leads (OfClient I) (failReconcile error) (OfClient I) :=
  .bind (holds_modify fun _ ↦ rfl) fun _ ↦ holds_get.bind fun _ ↦ (holds_publish _).bind fun _ ↦
    holds_scheduleRetry.bind fun _ ↦ holds_logBackoff

/-- A usage request, with what it is known to keep. -/
theorem holds_request (automatic : Bool) (p : Vibe UsageSnapshot) :
    Leads (fun c ↦ I (p c.client).2) (request automatic p) (OfClient I) := fun _ ↦ id

/-- Today is fetched, from a state in which that keeps the property. -/
theorem holds_syncToday (h : CallsKeep I) (manual : Bool) :
    Leads (fun c ↦ I (vibeFetchToday c.client).2) (syncToday manual) (OfClient I) := by
  refine .bind (M := fun c ↦ I (vibeFetchToday c.client).2) (fun _ ↦ id) fun _ ↦
    (holds_request _ _).bind fun result ↦ ?_
  cases result with
  | error error => exact holds_failToday manual error
  | ok => exact holds_finishToday h

/-- A day of a pass is fetched, from a state in which that keeps the property. -/
theorem holds_syncDay (h : CallsKeep I) :
    Leads (fun c ↦ I (vibeReconcile c.client).2) syncDay (OfClient I) := by
  refine .bind (M := fun c ↦ I (vibeReconcile c.client).2) (fun _ ↦ id) fun _ ↦
    (holds_request _ _).bind fun result ↦ ?_
  cases result with
  | error error => exact holds_failReconcile error
  | ok => exact holds_finishReconcile h

/-- A program that starts with the date goes on with the same account. -/
theorem holds_linked (h : CallsKeep I) {c : Controller} {f : Bool → Ctl Unit}
    (hf : ∀ valid, Leads (fun c' ↦ OfClient I c' ∧ c'.client.vibe = c.client.vibe) (f valid)
      (OfClient I)) (hc : OfClient I c) : OfClient I ((systemTimeValid >>= f) c).2 := by
  have hstart : Leads (fun c' ↦ c' = c) systemTimeValid
      fun c' ↦ OfClient I c' ∧ c'.client.vibe = c.client.vibe := by
    rintro c rfl
    exact ⟨holds_systemTimeValid h c hc, rfl⟩
  exact Leads.bind hstart hf c rfl

/-- **A request of today** is made with an account, once no time is left to wait. -/
theorem holds_fetchToday (h : CallsKeep I) (manual : Bool) :
    Leads (OfClient I) (fetchToday manual) (OfClient I) := by
  refine .get fun c hc ↦ holds_linked h (fun valid ↦ ?_) hc
  split
  · exact fun _ hkept ↦ hkept.1
  · rename_i hgo
    have hauth : c.client.vibe.hasAuth = true := by
      -- The guard has passed, so there is an account.
      by_contra hnone
      exact hgo (.inr (.inr hnone))
    refine .bind (M := fun c' ↦ OfClient I c' ∧ c'.client.vibe = c.client.vibe) (fun _ ↦ id)
      fun now c' hkept ↦ ?_
    obtain ⟨hc', hvibe⟩ := hkept
    have hkeep : I (vibeRetryRemainingSeconds c'.client).2 := h.remaining c'.client hc'
    -- Only a return of zero leads to the request, which `CallsKeep.today` asks for.
    rw [Prog.bind_of_ok (show call vibeRetryRemainingSeconds c' = (.ok
      (vibeRetryRemainingSeconds c'.client).1, _) from rfl)]
    cases hleft : (vibeRetryRemainingSeconds c'.client).1 with
    | error error => exact hkeep
    | ok remaining =>
      dsimp only
      split
      · exact Leads.bind (holds_modify fun _ ↦ rfl) (fun _ ↦ holds_publish _) _ hkeep
      · rename_i hzero
        split
        · exact hkeep
        · refine Leads.bind (M := fun c ↦ I (vibeFetchToday c.client).2) (fun _ ↦ id)
            (fun _ ↦ holds_syncToday h manual) _ (h.today c'.client hc' ?_ ?_)
          · rw [hvibe]
            exact hauth
          · rw [hleft, UInt32.le_zero_iff.1 (UInt32.not_lt.1 hzero)]

/-- **A request of one day of a pass** is made with an account, once no time is left to wait. -/
theorem holds_reconcileOne (h : CallsKeep I) :
    Leads (OfClient I) reconcileOne (OfClient I) := by
  refine .get fun c hc ↦ holds_linked h (fun valid ↦ ?_) hc
  split
  · exact fun _ hkept ↦ hkept.1
  · rename_i hgo
    have hauth : c.client.vibe.hasAuth = true := by
      by_contra hnone
      exact hgo (.inr (.inr (.inr hnone)))
    rintro c' ⟨hc', hvibe⟩
    have hkeep : I (vibeRetryRemainingSeconds c'.client).2 := h.remaining c'.client hc'
    rw [Prog.bind_of_ok (show call vibeRetryRemainingSeconds c' = (.ok
      (vibeRetryRemainingSeconds c'.client).1, _) from rfl)]
    cases hleft : (vibeRetryRemainingSeconds c'.client).1 with
    | error error => exact hkeep
    | ok remaining =>
      dsimp only
      split
      · refine Leads.bind holds_monotonicUs (fun now ↦ ?_) _ hkeep
        exact .bind (holds_modify fun _ ↦ rfl) fun _ ↦ holds_publish _
      · rename_i hzero
        refine holds_syncDay h _ (h.day c'.client hc' ?_ ?_)
        · rw [hvibe]
          exact hauth
        · rw [hleft, UInt32.le_zero_iff.1 (UInt32.not_lt.1 hzero)]

/-! ### What is due -/

/-- The deadlines of a turn. -/
theorem holds_runDeadlines (h : CallsKeep I) (now : ℤ) :
    Leads (OfClient I) (runDeadlines now) (OfClient I) := by
  refine holds_get.bind fun c ↦ .ite (holds_reconcileOne h) (.ite (holds_fetchToday h false)
    (.ite ?_ (.ret ())))
  refine .bind (holds_modify fun _ ↦ rfl) fun _ ↦ (holds_systemTimeValid h).bind fun _ ↦
    .ite (holds_handleTimeSync h) ?_
  exact .ite (holds_startDeviceLink h) (holds_fetchToday h false)

/-- The link, a refresh that is queued and a pass that is due come before the deadlines. -/
theorem holds_runUsage (h : CallsKeep I) (now : ℤ) :
    Leads (OfClient I) (runUsage now) (OfClient I) := by
  refine holds_get.bind fun c ↦ .ite (holds_pollDeviceLink h) (.ite ?_ ?_)
  · exact .bind (holds_modify fun _ ↦ rfl) fun _ ↦ holds_fetchToday h true
  · exact (holds_passDue h).bind fun _ ↦ .ite (holds_queuePass h now) (holds_runDeadlines h now)

/-- **What is due** in a turn. -/
theorem holds_runDueActions (h : CallsKeep I) :
    Leads (OfClient I) runDueActions (OfClient I) := by
  refine holds_get.bind fun c ↦ .ite (.ret ()) ?_
  refine holds_smartTick.bind fun _ ↦ holds_monotonicUs.bind fun now ↦ holds_get.bind fun c ↦
    .ite (.ret ()) (.ite ?_ (.ite (.ret ()) (holds_runUsage h now)))
  exact .bind (holds_modify fun _ ↦ rfl) fun _ ↦ holds_handleTimeSync h

/-! ### Commands -/

/-- The network is set up again, and what runs is cancelled. -/
theorem holds_reconfigureWifi (h : CallsKeep I) :
    Leads (OfClient I) reconfigureWifi (OfClient I) := by
  refine holds_closeLlmPortal.bind fun _ ↦ (holds_call h.cancel).bind fun _ ↦
    .bind (holds_modify fun _ ↦ rfl) fun _ ↦ holds_get.bind fun c ↦
    (holds_publish _).bind fun _ ↦ ?_
  cases c.turn.wifiStart with
  | none => exact .ret ()
  | some error => exact holds_publish _

/-- The account is given up. -/
theorem holds_unlinkAccount (h : CallsKeep I) :
    Leads (OfClient I) unlinkAccount (OfClient I) :=
  (holds_call h.unlink).bind fun _ ↦ holds_clearPublicLink.bind fun _ ↦
    (holds_publish _).bind fun _ ↦ .ret _

/-- What is shown starts anew in the other timezone. -/
theorem holds_rebuildToday (h : CallsKeep I) :
    Leads (OfClient I) rebuildToday (OfClient I) := by
  refine holds_vibeHasAuth.bind fun _ ↦ (holds_publish _).bind fun _ ↦
    .bind (holds_modify fun _ ↦ rfl) fun _ ↦ holds_get.bind fun _ ↦
    (holds_systemTimeValid h).bind fun _ ↦ .ite (.ret ()) ?_
  refine holds_monotonicUs.bind fun _ ↦ .ite ?_ ?_
  · exact holds_modify fun _ ↦ rfl
  · exact holds_modify fun _ ↦ rfl

/-- The timezone is changed, and the client starts anew when that could be saved. -/
theorem holds_restartVibeForTimezone (h : CallsKeep I) :
    Leads (OfClient I) restartVibeForTimezone (OfClient I) := by
  have hsave : Leads (OfClient I) saveAndRestart (OfClient I) := by
    refine holds_get.bind fun _ ↦ (holds_call (h.save _)).bind fun saved ↦ ?_
    cases saved with
    | ok => exact .bind (holds_modify fun _ ↦ rfl) fun _ ↦ .get fun c hc ↦ h.init c hc
    | error error => exact .ret _
  refine (holds_call h.cancel).bind fun _ ↦ holds_clearPublicLink.bind fun _ ↦
    .bind (holds_modify fun _ ↦ rfl) fun _ ↦ hsave.bind fun result ↦
    holds_get.bind fun _ ↦ (holds_publish _).bind fun _ ↦ ?_
  cases result with
  | ok => exact holds_rebuildToday h
  | error error => exact holds_publish _

/-- A refresh is asked for. -/
theorem holds_intentRefresh : Leads (OfClient I) intentRefresh (OfClient I) := by
  refine (holds_addLog _).bind fun _ ↦ holds_get.bind fun c ↦ .ite ?_ ?_
  · exact holds_timer fun _ _ ↦ rfl
  · exact holds_modify fun _ ↦ rfl

/-- A pass is asked for. -/
theorem holds_intentReconcile (h : CallsKeep I) :
    Leads (OfClient I) intentReconcile (OfClient I) := by
  refine holds_get.bind fun c ↦ (holds_systemTimeValid h).bind fun _ ↦ .ite (.ret ()) ?_
  refine (holds_call (h.pass _)).bind fun result ↦ ?_
  cases result with
  | ok =>
    exact (holds_addLog _).bind fun _ ↦ holds_monotonicUs.bind fun _ ↦
      .bind (holds_modify fun _ ↦ rfl) fun _ ↦ holds_publish _
  | error error => exact holds_fail _

/-- The account is given up for another link. -/
theorem holds_intentRelink (h : CallsKeep I) :
    Leads (OfClient I) intentRelink (OfClient I) := by
  refine (holds_addLog _).bind fun _ ↦ (holds_unlinkAccount h).bind fun result ↦ ?_
  cases result with
  | ok => exact (holds_publish _).bind fun _ ↦ holds_timer fun _ _ ↦ rfl
  | error error => exact holds_publish _

/-- A factory reset. -/
theorem holds_intentReset (h : CallsKeep I) :
    Leads (OfClient I) intentReset (OfClient I) := by
  refine (holds_publish _).bind fun _ ↦ holds_closeLlmPortal.bind fun _ ↦
    (holds_call h.reset).bind fun result ↦ ?_
  cases result with
  | ok => exact holds_modify fun _ ↦ rfl
  | error error => exact holds_fail _

/-- **An intent of the user.** -/
theorem holds_handleIntent (h : CallsKeep I) (intent : AppIntent) :
    Leads (OfClient I) (handleIntent intent) (OfClient I) := by
  refine holds_get.bind fun c ↦ .ite (.ret ()) ?_
  cases intent with
  | refresh => exact holds_intentRefresh
  | reconcile => exact holds_intentReconcile h
  | startWifi => exact holds_reconfigureWifi h
  | reconfigureWifi => exact holds_reconfigureWifi h
  | relink => exact holds_intentRelink h
  | unlink => exact (holds_unlinkAccount h).bind fun _ ↦ holds_publish _
  | toggleTimezone => exact (holds_addLog _).bind fun _ ↦ holds_restartVibeForTimezone h
  | factoryReset => exact holds_intentReset h
  | llmConfig =>
    exact (holds_publish _).bind fun _ ↦ holds_get.bind fun _ ↦
      .ite holds_startLlmPortal (.ite (holds_reconfigureWifi h) (.ret ()))
  | llmConfigClose => exact holds_closeLlmPortal.bind fun _ ↦ holds_publish _
  | other => exact .ret ()

/-- **An event of the network.** -/
theorem holds_handleWifiEvent (h : CallsKeep I) (event : WifiEvent) :
    Leads (OfClient I) (handleWifiEvent event) (OfClient I) := by
  have hoffline : Leads (OfClient I) (Prog.modify fun c ↦
      { c with online := false, timeSyncPending := false } : Ctl Unit) (OfClient I) :=
    holds_modify fun _ ↦ rfl
  refine holds_get.bind fun c ↦ .ite (.ret ()) ((holds_publish _).bind fun _ ↦ ?_)
  cases event with
  | scanning => exact holds_publish _
  | connecting => exact holds_publish _
  | gotIp =>
    refine (holds_addLog _).bind fun _ ↦ .bind (holds_modify fun _ ↦ rfl) fun _ ↦
      (holds_publish _).bind fun _ ↦ .ite holds_startLlmPortal (.ret ())
  | disconnected =>
    exact holds_closeLlmPortal.bind fun _ ↦ hoffline.bind fun _ ↦
      (holds_call h.cancel).bind fun _ ↦ holds_publish _
  | portalEnter =>
    exact hoffline.bind fun _ ↦ (holds_call h.cancel).bind fun _ ↦ holds_publish _
  | provisioningTimeout => exact holds_closeLlmPortal.bind fun _ ↦ holds_publish _
  | portalExit => exact holds_publish _

/-- The first command. -/
theorem holds_handleBoot (h : CallsKeep I) : Leads (OfClient I) handleBoot (OfClient I) := by
  have hwifi : Leads (OfClient I) bootWifi (OfClient I) := by
    refine (holds_publish _).bind fun _ ↦ holds_get.bind fun c ↦ ?_
    cases c.turn.wifiStart with
    | none => exact .ret ()
    | some error => exact holds_publish _
  refine holds_vibeHasAuth.bind fun _ ↦ holds_get.bind fun _ ↦ (holds_publish _).bind fun _ ↦
    (holds_updateClockFields h).bind fun _ ↦ holds_get.bind fun c ↦ ?_
  dsimp only
  split
  · exact (holds_updateSnapshots h).bind fun _ ↦ hwifi
  · exact hwifi

/-- A shutdown cancels what runs. -/
theorem holds_handleShutdown (h : CallsKeep I) :
    Leads (OfClient I) handleShutdown (OfClient I) :=
  holds_closeLlmPortal.bind fun _ ↦ .bind (holds_modify fun _ ↦ rfl) fun _ ↦
    (holds_call h.cancel).bind fun _ ↦ holds_clearPublicLink.bind fun _ ↦
    .bind (holds_modify fun _ ↦ rfl) fun _ ↦ holds_publish _

/-- **A command**, whatever it is. -/
theorem holds_handleCommand (h : CallsKeep I) (command : Command) :
    Leads (OfClient I) (handleCommand command) (OfClient I) := by
  cases command with
  | boot => exact holds_handleBoot h
  | wifiEvent event => exact holds_handleWifiEvent h event
  | intent intent => exact holds_handleIntent h intent
  | shutdown => exact holds_handleShutdown h

/-! ### Runs -/

/-- **A turn** keeps what every call keeps, and its exchange does. -/
theorem holds_controllerTurn (h : CallsKeep I) {turn : Turn}
    (hexchange : ∀ c, I c → I { c with exchange := turn.exchange }) :
    Leads (OfClient I) (controllerTurn turn) (OfClient I) := by
  have hdue : Leads (OfClient I) (do
      let c ← Prog.get
      if c.stopped then pure ()
      else do
        runDueActions
        updateClockFields : Ctl Unit) (OfClient I) :=
    holds_get.bind fun _ ↦ .ite (.ret ())
      ((holds_runDueActions h).bind fun _ ↦ holds_updateClockFields h)
  have hstart : Leads (OfClient I) (Prog.modify fun c ↦
      { c with turn, client := { c.client with exchange := turn.exchange } } : Ctl Unit)
      (OfClient I) := fun c hc ↦ hexchange c.client hc
  refine holds_get.bind fun c ↦ .ite (.ret ()) (hstart.bind fun _ ↦ ?_)
  cases turn.command with
  | none => exact hdue
  | some command => exact (holds_handleCommand h command).bind fun _ ↦ hdue

/-- What a start keeps: from the power-up to the call of `vibe_init` there is no context, which `J`
may say as well. -/
structure StartsKeep (I J : Client → Prop) : Prop where
  power : ∀ (c : Controller) boot, I c.client → J (c.powerOn boot).client
  weaken : ∀ c, J c → I c
  pending : Prog.Leads J (stored vibeStoreResetPending) J
  resume : Prog.Leads J vibeFactoryResetResumeLocal J
  init : ∀ c : Controller, J c.client → I (vibeInit c.vibeConfig c.client).2
  clearWifi : Prog.Leads I (stored wifiAdapterClearCredentials) I
  clearTodo : Prog.Leads I (stored smartTodoClear) I
  clearLlm : Prog.Leads I (stored llmSettingsClear) I
  complete : Prog.Leads I vibeFactoryResetComplete I

variable {J : Client → Prop}

/-- A call during a start. -/
theorem holds_startCall {p : Vibe α} (hp : Leads I p I) :
    Leads (OfClient I) (startCall p) (OfClient I) := fun c hc ↦ hp c.client hc

/-- A program that leaves the client alone. -/
theorem holds_aside {p : Start α} (hp : ∀ c, (p c).2.client = c.client) :
    Leads (OfClient I) p (OfClient I) := by
  intro c hc
  show I (p c).2.client
  rwa [hp]

/-- A condition of a start. -/
theorem holds_check {b : Prop} [Decidable b] (error : EspErr) :
    Leads (OfClient I) (Prog.check b error : Start Unit) (OfClient I) := by
  unfold Prog.check
  split
  · exact fun _ ↦ id
  · exact fun _ ↦ id

/-- **A start** keeps what its parts keep, as far as it comes. -/
theorem holds_appControllerInit (h : StartsKeep I J) (boot : BootInput) :
    Leads (OfClient J) (appControllerInit boot) (OfClient I) := by
  have hearly {β : Type} {p : Start β} (hp : Leads (OfClient J) p (OfClient J)) :
      Prog.Triple (OfClient J) p (fun _ ↦ OfClient J) fun _ ↦ OfClient I :=
    (Prog.Triple.of_leads hp).conseq (fun _ ↦ id) (fun _ _ ↦ id) fun _ c ↦ h.weaken c.client
  have hlate {β : Type} {p : Start β} (hp : Leads (OfClient I) p (OfClient I)) :
      Prog.Triple (OfClient I) p (fun _ ↦ OfClient I) fun _ ↦ OfClient I := .of_leads hp
  have hresume (pending : Bool) : Leads (OfClient J) (resumeReset pending) (OfClient J) := by
    cases pending with
    | false => exact fun _ ↦ id
    | true => exact holds_startCall h.resume
  refine .of_triple (.bind (hearly (holds_check _)) fun _ ↦
    .bind (hearly (holds_aside fun _ ↦ rfl)) fun _ ↦ .bind (hearly (holds_check _)) fun _ ↦
    .bind (hearly (holds_check _)) fun _ ↦ .bind (hearly (holds_startCall h.pending))
    fun pending ↦ .bind (hearly (hresume pending)) fun _ ↦
    .bind (hearly (holds_aside fun _ ↦ rfl)) fun _ ↦
    .bind (M := fun c₀ c ↦ OfClient J c ∧ c = c₀) (fun c hc ↦ ⟨hc, rfl⟩) fun c₀ ↦
    .bind (M := fun _ ↦ OfClient I) ?_ fun _ ↦ .bind (hlate (holds_check _)) fun _ ↦
    .bind (hlate (holds_check _)) fun _ ↦ ?_)
  · rintro c ⟨hc, rfl⟩
    have hinit : OfClient I (startCall (vibeInit c.vibeConfig) c).2 := h.init c hc
    rcases hrun : startCall (vibeInit c.vibeConfig) c with ⟨error | a, c'⟩
    · rwa [hrun] at hinit
    · rwa [hrun] at hinit
  · split
    · exact .bind (hlate (holds_startCall h.clearWifi)) fun _ ↦
        .bind (hlate (holds_startCall h.clearTodo)) fun _ ↦
        .bind (hlate (holds_startCall h.clearLlm)) fun _ ↦
        .bind (hlate (holds_startCall h.complete)) fun _ ↦ hlate (holds_aside fun _ ↦ rfl)
    · exact hlate (holds_aside fun _ ↦ rfl)

/-- **A start** from what the flash holds, whether or not it comes to its end. -/
theorem holds_boot (h : StartsKeep I J) {c : Controller} (boot : BootInput) (hc : OfClient I c) :
    OfClient I (Controller.boot boot c) := by
  have hend := holds_appControllerInit h boot _ (h.power c boot hc)
  unfold Controller.boot
  -- A start that fails leaves the controller where it came to.
  rcases hrun : appControllerInit boot (c.powerOn boot) with ⟨error | a, c'⟩
  · rwa [hrun] at hend
  · rwa [hrun] at hend

/-- **A run** of turns and starts keeps what every call and every start keeps. -/
theorem holds_afterAll (h : CallsKeep I) (h' : StartsKeep I J) {happenings : List Happening}
    (hexchange : ∀ turn, .turn turn ∈ happenings → ∀ c, I c →
      I { c with exchange := turn.exchange })
    {c : Controller} (hc : OfClient I c) : OfClient I (afterAll c happenings) := by
  induction happenings generalizing c with
  | nil => exact hc
  | cons happening happenings ih =>
    refine ih (fun turn hmem ↦ hexchange turn (List.mem_cons_of_mem _ hmem)) ?_
    cases happening with
    | turn turn => exact holds_controllerTurn h (hexchange turn (List.mem_cons_self ..)) c hc
    | boot boot => exact holds_boot h' boot hc

end Programs

end VibeUsage
