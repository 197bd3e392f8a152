import VibeUsage.Controller.Frame

/-!
# Backing off

After an automatic request has failed, `schedule_retry` sets the time of the next one and clears the
deadline of the periodic refresh, so that neither goes ahead of it. Two other ways to a request
remain. A pass of the last seven days that is active when the refresh fails goes on with its own
deadline, and the end of a link with a device code clears every deadline, the retry among them.

In a run in which no refresh fails while a pass is active, and no link ends while a retry is set,
every automatic request waits (`backoff_respected`). The invariant carried by the induction says of
each time that is waited for that it has passed, that the controller waits for it (`Waiting`), or
that there is no account to ask for (`Unlinked`).
-/

namespace VibeUsage

/-! ### The log -/

/-- The times that are waited for: those of the failures since the user last asked for a request or
the network was last there again. -/
def pendingTimes : List LogEntry → List ℤ
  | [] => []
  | .backedOff until_ :: log => until_ :: pendingTimes log
  | .asked :: _ => []
  | .reconnected :: _ => []
  | .requested _ _ :: log => pendingTimes log
  | .passActive :: log => pendingTimes log
  | .linkEnded _ :: log => pendingTimes log

/-- No automatic request was made before a time that was waited for. -/
def BackoffRespected : List LogEntry → Prop
  | [] => True
  | .requested true at_ :: log => (∀ time ∈ pendingTimes log, time ≤ at_) ∧ BackoffRespected log
  | _ :: log => BackoffRespected log

/-- Neither of the ways around a retry was open: no refresh failed while a pass was active, and no
link ended while a retry was set. -/
structure NoWayAround (log : List LogEntry) : Prop where
  pass : .passActive ∉ log
  link : .linkEnded true ∉ log

/-- What holds of a log held of the log before. -/
theorem NoWayAround.of_cons {entry : LogEntry} {log : List LogEntry}
    (h : NoWayAround (entry :: log)) : NoWayAround log :=
  ⟨fun hmem ↦ h.pass (List.mem_cons_of_mem _ hmem), fun hmem ↦ h.link (List.mem_cons_of_mem _ hmem)⟩

/-! ### The invariant -/

def Controller.lastReading (c : Controller) : ℤ := c.mono (c.monoReadings - 1)

/-- The time has come. -/
def Passed (c : Controller) (time : ℤ) : Prop := time ≤ c.lastReading

/-- Nothing is asked for before the retry, which is no earlier than the time. -/
structure Waiting (c : Controller) (time : ℤ) : Prop where
  retry : time ≤ c.nextRetryUs
  set : 0 < c.nextRetryUs
  refresh : c.nextRefreshUs = 0
  active : c.reconcileActive = false
  sync : c.timeSyncPending = false
  manual : c.manualRefreshPending = false

/-- There is no account, and nothing is due that could link one. -/
structure Unlinked (c : Controller) : Prop where
  auth : c.client.vibe.hasAuth = false
  code : c.deviceCode.deviceCode.bytes = []
  retry : c.nextRetryUs = 0
  active : c.reconcileActive = false
  sync : c.timeSyncPending = false

def Held (c : Controller) (time : ℤ) : Prop :=
  Passed c time ∨ Waiting c time ∨ Unlinked c ∨ c.shuttingDown = true

/-- The clock runs forward, and so far every request waited; `held` holds of each time that is
waited for now. -/
structure Guarded (held : Controller → ℤ → Prop) (c : Controller) : Prop where
  monotone : Monotone c.mono
  nonneg : 0 ≤ c.mono 0
  sound : NoWayAround c.log → BackoffRespected c.log ∧ ∀ time ∈ pendingTimes c.log, held c time

variable {held held' : Controller → ℤ → Prop} {c c' : Controller}

/-- What is known of every retry time may be weakened. -/
theorem Guarded.imp (h : Guarded held c) (hheld : ∀ time, held c time → held' c time) :
    Guarded held' c := by
  refine ⟨h.monotone, h.nonneg, fun hlog ↦ ?_⟩
  obtain ⟨hrespected, hpending⟩ := h.sound hlog
  exact ⟨hrespected, fun time htime ↦ hheld time (hpending time htime)⟩

/-- A quiet step keeps what is known of every retry time. -/
theorem Guarded.of_quiet (h : Guarded held c) (hquiet : Quiet c c')
    (hheld : ∀ time, held c time → held' c' time) : Guarded held' c' := by
  refine ⟨by rw [hquiet.mono]; exact h.monotone, by rw [hquiet.mono]; exact h.nonneg, ?_⟩
  rw [hquiet.log]
  intro hlog
  obtain ⟨hrespected, hpending⟩ := h.sound hlog
  exact ⟨hrespected, fun time htime ↦ hheld time (hpending time htime)⟩

/-- Another entry, when it neither adds nor tells of a time that is waited for. -/
theorem Guarded.log_cons (h : Guarded held c) {entry : LogEntry} (hlog : c'.log = entry :: c.log)
    (hmono : c'.mono = c.mono)
    (hnew : NoWayAround c'.log → BackoffRespected c.log →
      (∀ time ∈ pendingTimes c.log, held c time) →
      BackoffRespected c'.log ∧ ∀ time ∈ pendingTimes c'.log, held' c' time) :
    Guarded held' c' := by
  refine ⟨by rw [hmono]; exact h.monotone, by rw [hmono]; exact h.nonneg, fun hway ↦ ?_⟩
  have hway' := hway
  rw [hlog] at hway'
  obtain ⟨hrespected, hpending⟩ := h.sound hway'.of_cons
  exact hnew hway hrespected hpending

/-- A time that has passed stays passed. -/
theorem Passed.of_quiet {time : ℤ} (h : Passed c time) (hmono : Monotone c.mono)
    (hquiet : Quiet c c') : Passed c' time := by
  refine h.trans ?_
  unfold Controller.lastReading
  rw [hquiet.mono]
  exact hmono (Nat.sub_le_sub_right hquiet.readings 1)

/-- A time that is waited for is waited for after a steady step. -/
theorem Waiting.of_steady {time : ℤ} (h : Waiting c time) (hsteady : Steady c c') :
    Waiting c' time := by
  refine ⟨by rw [hsteady.retry]; exact h.retry, by rw [hsteady.retry]; exact h.set,
    by rw [hsteady.refresh]; exact h.refresh, ?_, ?_, ?_⟩
  · exact Bool.eq_false_iff.2 fun hactive ↦ by simpa [h.active] using hsteady.active hactive
  · exact Bool.eq_false_iff.2 fun hsync ↦ by simpa [h.sync] using hsteady.sync hsync
  · exact Bool.eq_false_iff.2 fun hmanual ↦ by simpa [h.manual] using hsteady.manual hmanual

/-- Without an account there is none after a calm step. -/
theorem Unlinked.of_calm (h : Unlinked c) (hcalm : Calm c c') : Unlinked c' := by
  refine ⟨?_, by rw [hcalm.code]; exact h.code, by rw [hcalm.retry]; exact h.retry, ?_, ?_⟩
  · exact Bool.eq_false_iff.2 fun hauth ↦ by simpa [h.auth] using hcalm.auth hauth
  · exact Bool.eq_false_iff.2 fun hactive ↦ by simpa [h.active] using hcalm.active hactive
  · exact Bool.eq_false_iff.2 fun hsync ↦ by simpa [h.sync] using hcalm.sync hsync

/-- A program that asks for nothing keeps the invariant. -/
theorem held_of_calm {α : Type} {p : Ctl α} (hp : Prog.Moves Calm p) :
    Prog.Leads (Guarded Held) p (Guarded Held) := by
  refine .of_moves hp fun c c' hcalm h ↦ h.of_quiet hcalm.toQuiet fun time hheld ↦ ?_
  rcases hheld with hpassed | hwaiting | hunlinked | hshutdown
  · exact .inl (hpassed.of_quiet h.monotone hcalm.toQuiet)
  · exact .inr (.inl (hwaiting.of_steady hcalm.toSteady))
  · exact .inr (.inr (.inl (hunlinked.of_calm hcalm)))
  · exact .inr (.inr (.inr (hcalm.shutdown.trans hshutdown)))

/-- Once every time has passed, a program may set any timer. -/
theorem passed_of_quiet {α : Type} {p : Ctl α} (hp : Prog.Moves Quiet p) :
    Prog.Leads (Guarded Passed) p (Guarded Passed) :=
  .of_moves hp fun _ _ hquiet h ↦ h.of_quiet hquiet fun _ hpassed ↦
    hpassed.of_quiet h.monotone hquiet

/-- A time that has passed need not be held. -/
theorem held_of_passed (h : Guarded Passed c) : Guarded Held c := h.imp fun _ ↦ .inl

/-! ### Requests -/

/-- A usage request may be made: every time has passed, and nothing is queued. -/
structure Ready (c : Controller) : Prop where
  guarded : Guarded Passed c
  sync : c.timeSyncPending = false
  manual : c.manualRefreshPending = false

/-- A quiet program leaves the controller ready. -/
theorem ready_of_quiet {α : Type} {p : Ctl α} (hp : Prog.Moves Quiet p) :
    Prog.Leads Ready p Ready := by
  refine .of_moves hp fun c c' hquiet h ↦ ⟨h.guarded.of_quiet hquiet fun _ hpassed ↦
    hpassed.of_quiet h.guarded.monotone hquiet, ?_, ?_⟩
  · exact Bool.eq_false_iff.2 fun hsync ↦ by simpa [h.sync] using hquiet.sync hsync
  · exact Bool.eq_false_iff.2 fun hmanual ↦ by simpa [h.manual] using hquiet.manual hmanual

/-- A request is made when every time has passed. -/
theorem ready_request (automatic : Bool) (p : Vibe UsageSnapshot) :
    Prog.Leads Ready (request automatic p) Ready := by
  refine .bind (fun c h ↦ ⟨h.guarded.log_cons rfl rfl ?_, h.sync, h.manual⟩) fun _ ↦
    ready_of_quiet (quiet_call p)
  intro _ hrespected hpending
  cases automatic with
  | true => exact ⟨⟨hpending, hrespected⟩, hpending⟩
  | false => exact ⟨hrespected, hpending⟩

/-- The delay is at least 48 seconds, whatever is drawn. -/
theorem retryDelaySeconds_pos (failureCount : UInt8) (random : UInt32) :
    0 < retryDelaySeconds failureCount random := by
  unfold retryDelaySeconds
  have hbase : (60 : ℤ) ≤ min (60 * 2 ^ min failureCount.toNat 5) 1800 := by
    refine le_min ?_ (by norm_num)
    have hpow : (1 : ℤ) ≤ 2 ^ min failureCount.toNat 5 := one_le_pow₀ (by norm_num)
    omega
  generalize min (60 * 2 ^ min failureCount.toNat 5 : ℤ) 1800 = base at hbase
  have hmod := Int.emod_nonneg (random.toNat : ℤ) (b := 2 * (base / 5) + 1) (by omega)
  dsimp only
  omega

/-- A retry is set, after everything that is waited for, and nothing else. -/
structure Scheduled (c : Controller) : Prop extends Ready c where
  retry : 0 < c.nextRetryUs
  refresh : c.nextRefreshUs = 0

/-- **A failure** sets a time that is still to come. -/
theorem ready_scheduleRetry : Prog.Leads Ready scheduleRetry Scheduled := by
  intro c h
  have hready := ready_of_quiet quiet_scheduleRetry c h
  have hnow : 0 ≤ c.mono c.monoReadings := h.guarded.nonneg.trans
    (h.guarded.monotone (Nat.zero_le _))
  refine ⟨hready, ?_, rfl⟩
  show 0 < c.mono c.monoReadings + (if c.client.vibe.lastHttpStatus = 429 then
      max (retryDelaySeconds c.failureCount c.turn.random)
        (c.client.vibe.lastRetryAfterSeconds.toNat : ℤ)
    else retryDelaySeconds c.failureCount c.turn.random) * 1000000
  have hdelay := retryDelaySeconds_pos c.failureCount c.turn.random
  split
  · have hmax := le_max_left (retryDelaySeconds c.failureCount c.turn.random)
      (c.client.vibe.lastRetryAfterSeconds.toNat : ℤ)
    omega
  · omega

/-- **A failure** is waited for from now on, unless a pass is active. -/
theorem held_logBackoff : Prog.Leads Scheduled logBackoff (Guarded Held) := by
  intro c h
  cases hactive : c.reconcileActive with
  | true =>
    have hlog : (logBackoff c).2.log = .passActive :: .backedOff c.nextRetryUs :: c.log := by
      show (if c.reconcileActive = true then _ else _) = _
      rw [if_pos hactive]
    refine ⟨h.guarded.monotone, h.guarded.nonneg, fun hway ↦ absurd ?_ hway.pass⟩
    rw [hlog]
    exact List.mem_cons_self
  | false =>
    have hlog : (logBackoff c).2.log = .backedOff c.nextRetryUs :: c.log := by
      show (if c.reconcileActive = true then _ else _) = _
      rw [if_neg (by simp [hactive])]
    refine h.guarded.log_cons hlog rfl fun _ hrespected hpending ↦ ?_
    rw [hlog]
    refine ⟨hrespected, fun time htime ↦ ?_⟩
    rcases List.mem_cons.1 htime with rfl | hold
    · exact .inr (.inl ⟨le_rfl, h.retry, h.refresh, hactive, h.sync, h.manual⟩)
    · exact .inl (hpending time hold)

/-- A request of today that fails. -/
theorem held_failToday (manual : Bool) (error : EspErr) :
    Prog.Leads Ready (failToday manual error) (Guarded Held) := by
  refine .get fun c h ↦ ?_
  refine Prog.Leads.bind (ready_of_quiet (quiet_publish _)) (fun _ ↦ ?_) c h
  split
  · exact (ready_of_quiet (quiet_clearPublicLink.bind fun _ ↦ quiet_publish _)).conseq
      (fun _ ↦ id) fun _ h ↦ held_of_passed h.guarded
  · refine .bind (ready_of_quiet (quiet_publish _)) fun _ ↦ .bind ready_scheduleRetry fun _ ↦ ?_
    split
    · exact fun _ h ↦ held_of_passed h.guarded
    · exact held_logBackoff

/-- A request of today, with either end. -/
theorem held_syncToday (manual : Bool) : Prog.Leads Ready (syncToday manual) (Guarded Held) := by
  refine .bind (ready_of_quiet (quiet_publish _)) fun _ ↦
    .bind (ready_request _ _) fun result ↦ ?_
  cases result with
  | error error => exact held_failToday manual error
  | ok snapshot =>
    exact (ready_of_quiet quiet_finishToday).conseq (fun _ ↦ id) fun _ h ↦ held_of_passed h.guarded

/-- **A request of today** is made when every time has passed, or not at all. -/
theorem held_fetchToday (manual : Bool) : Prog.Leads Ready (fetchToday manual) (Guarded Held) := by
  have hdone : ∀ c, Ready c → Guarded Held c := fun _ h ↦ held_of_passed h.guarded
  refine .get fun c h ↦ ?_
  refine Prog.Leads.bind (ready_of_quiet quiet_systemTimeValid) (fun timeValid ↦ ?_) c h
  split
  · exact hdone
  · refine .bind (ready_of_quiet quiet_monotonicUs) fun now ↦
      .bind (ready_of_quiet (quiet_call _)) fun remaining ↦ ?_
    cases remaining with
    | error _ => exact hdone
    | ok remaining =>
      dsimp only
      split
      · refine (ready_of_quiet (.bind ?_ fun _ ↦ quiet_publish _)).conseq (fun _ ↦ id) hdone
        exact quiet_modify fun _ ↦ ⟨rfl, rfl, rfl, rfl, rfl⟩
      · split
        · exact hdone
        · refine .bind (ready_of_quiet (quiet_modify fun _ ↦ ?_)) fun _ ↦ held_syncToday manual
          exact ⟨rfl, rfl, rfl, rfl, rfl⟩

/-- So is a request of one day of a pass. -/
theorem held_reconcileOne : Prog.Leads Ready reconcileOne (Guarded Held) := by
  have hdone : ∀ c, Ready c → Guarded Held c := fun _ h ↦ held_of_passed h.guarded
  refine .get fun c h ↦ ?_
  refine Prog.Leads.bind (ready_of_quiet quiet_systemTimeValid) (fun timeValid ↦ ?_) c h
  split
  · exact hdone
  · refine .bind (ready_of_quiet (quiet_call _)) fun remaining ↦ ?_
    cases remaining with
    | error _ => exact hdone
    | ok remaining =>
      dsimp only
      split
      · refine (ready_of_quiet (quiet_monotonicUs.bind fun _ ↦ .bind ?_ fun _ ↦
          quiet_publish _)).conseq (fun _ ↦ id) hdone
        exact quiet_modify fun _ ↦ ⟨rfl, rfl, rfl, rfl, rfl⟩
      · refine .bind (ready_of_quiet (quiet_publish _)) fun _ ↦
          .bind (ready_request _ _) fun result ↦ ?_
        cases result with
        | ok snapshot => exact (ready_of_quiet quiet_finishReconcile).conseq (fun _ ↦ id) hdone
        | error error =>
          refine .bind (ready_of_quiet (quiet_modify fun _ ↦ ⟨rfl, rfl, rfl, rfl, rfl⟩)) fun _ ↦
            .bind (ready_of_quiet .get) fun _ ↦ ?_
          exact .bind (ready_of_quiet (quiet_publish _)) fun _ ↦
            .bind ready_scheduleRetry fun _ ↦ held_logBackoff

/-! ### What is due -/

/-- A link with a device code is under way. -/
structure Linking (c : Controller) : Prop where
  guarded : Guarded Held c
  code : c.deviceCode.deviceCode.bytes ≠ []
  run : c.shuttingDown = false

/-- A steady step between an answer to a poll and what is made of it. -/
theorem linking_of_steady {α : Type} {p : Ctl α} (hp : Prog.Moves Steady p) :
    Prog.Leads Linking p Linking := by
  refine .of_moves hp fun c c' hsteady h ↦
    ⟨h.guarded.of_quiet hsteady.toQuiet fun time hheld ↦ ?_, ?_, ?_⟩
  · rcases hheld with hpassed | hwaiting | hunlinked | hshutdown
    · exact .inl (hpassed.of_quiet h.guarded.monotone hsteady.toQuiet)
    · exact .inr (.inl (hwaiting.of_steady hsteady))
    · exact absurd hunlinked.code h.code
    · rw [h.run] at hshutdown
      cases hshutdown
  · rw [hsteady.code]
    exact h.code
  · rw [hsteady.shutdown]
    exact h.run

/-- **The end of a link** clears every deadline, so that none may be waited for. -/
theorem passed_endLink (f : AppView → AppView) (h : Linking c) :
    Guarded Passed (endLink f c).2 := by
  have hlog : Guarded Passed (addLog (.linkEnded (decide (c.nextRetryUs ≠ 0))) c).2 := by
    refine h.guarded.log_cons rfl rfl fun hway hrespected hpending ↦
      ⟨hrespected, fun time htime ↦ ?_⟩
    rcases hpending time htime with hpassed | hwaiting | hunlinked | hshutdown
    · exact hpassed
    · refine absurd ?_ hway.link
      have hset : c.nextRetryUs ≠ 0 := hwaiting.set.ne'
      show LogEntry.linkEnded true ∈ LogEntry.linkEnded (decide (c.nextRetryUs ≠ 0)) :: c.log
      rw [decide_eq_true hset]
      exact List.mem_cons_self
    · exact absurd hunlinked.code h.code
    · rw [h.run] at hshutdown
      cases hshutdown
  exact passed_of_quiet (quiet_clearPublicLink.bind fun _ ↦ quiet_publish _) _ hlog

/-- The end of a link may leave the backoff, and is logged for that. -/
theorem held_endLink (f : AppView → AppView) : Prog.Leads Linking (endLink f) (Guarded Held) :=
  fun _ h ↦ held_of_passed (passed_endLink f h)

/-- What is calm is steady. -/
theorem steady_of_calm {α : Type} {p : Ctl α} (h : Prog.Moves Calm p) : Prog.Moves Steady p :=
  h.mono fun _ _ h ↦ h.toSteady

/-- The time of the next poll is no retry time. -/
theorem steady_pollAgain (seconds : ℤ) : Prog.Moves Steady (pollAgain seconds) :=
  steady_of_calm (calm_monotonicUs.bind fun _ ↦ calm_modify fun _ ↦ rfl)

/-- What is made of the answer to a poll. -/
theorem held_settlePoll (nowSeconds : ℤ) (answer : Except EspErr PollStatus) :
    Prog.Leads Linking (settlePoll nowSeconds answer) (Guarded Held) := by
  have hsteady : ∀ {p : Ctl Unit}, Prog.Moves Steady p → Prog.Leads Linking p (Guarded Held) :=
    fun hp ↦ (linking_of_steady hp).conseq (fun _ ↦ id) fun _ h ↦ h.guarded
  cases answer with
  | error error =>
    exact hsteady (.bind .get fun _ ↦ .bind (steady_of_calm (calm_publish _)) fun _ ↦
      steady_pollAgain _)
  | ok status =>
    cases status with
    | pending => exact hsteady (.bind .get fun _ ↦ steady_pollAgain _)
    | slowDown retryAfterSeconds =>
      exact hsteady (.bind (steady_of_calm (calm_modify fun _ ↦ rfl)) fun _ ↦ .bind .get fun _ ↦
        .bind (steady_pollAgain _) fun _ ↦ steady_of_calm (calm_publish _))
    | success apiKey =>
      refine .bind (linking_of_steady .get) fun _ ↦ .bind (fun _ h ↦ passed_endLink _ h) fun _ ↦ ?_
      refine (passed_of_quiet (quiet_monotonicUs.bind fun _ ↦ quiet_modify ?_)).conseq
        (fun _ ↦ id) fun _ ↦ held_of_passed
      exact fun _ ↦ ⟨rfl, rfl, rfl, rfl, rfl⟩
    | denied => exact .bind (linking_of_steady .get) fun _ ↦ held_endLink _
    | expired => exact .bind (linking_of_steady .get) fun _ ↦ held_endLink _
    | alreadyDelivered => exact .bind (linking_of_steady .get) fun _ ↦ held_endLink _

/-- A code is polled. -/
theorem held_pollDeviceLink (h : Guarded Held c) (hrun : c.shuttingDown = false) :
    Guarded Held (pollDeviceLink c).2 := by
  rw [pollDeviceLink, Prog.bind_of_ok (Prog.get_apply c)]
  split
  · exact h
  · rename_i hguard
    push Not at hguard
    refine Prog.Leads.bind (linking_of_steady (steady_of_calm calm_monotonicUs)) (fun now ↦ ?_) c
      ⟨h, hguard.1, hrun⟩
    dsimp only
    split
    · exact held_endLink _
    · exact .bind (linking_of_steady (steady_call _)) fun answer ↦ held_settlePoll _ answer

/-- The actions of the usage client start: the clock has been read, and no synchronization is
queued. -/
structure Due (now : ℤ) (c : Controller) : Prop where
  guarded : Guarded Held c
  reading : now ≤ c.lastReading
  run : c.shuttingDown = false
  sync : c.timeSyncPending = false

/-- When no time has to be waited for, all have passed. -/
theorem Due.passed {now : ℤ} (h : Due now c) (hwaiting : ∀ time, Waiting c time → Passed c time)
    (hunlinked : ¬ Unlinked c) : Guarded Passed c := by
  refine h.guarded.imp fun time hheld ↦ ?_
  rcases hheld with hpassed | hwait | hnone | hshutdown
  · exact hpassed
  · exact hwaiting time hwait
  · exact absurd hnone hunlinked
  · rw [h.run] at hshutdown
    cases hshutdown

/-- Without an account there is nothing to reconcile. -/
theorem quiet_reconcileOne (h : c.client.vibe.hasAuth = false) : Quiet c (reconcileOne c).2 := by
  obtain ⟨timeValid, hvalid⟩ := Prog.exists_ok systemTimeValid c
  have hguard : reconcileOne c = (.ok (), (systemTimeValid c).2) := by
    rw [reconcileOne, Prog.bind_of_ok (Prog.get_apply c), Prog.bind_of_ok hvalid,
      if_pos (by simp [h])]
    rfl
  rw [hguard]
  exact quiet_systemTimeValid c

/-- The retry is due, and so is everything that is waited for. -/
theorem held_retry (h : Guarded Passed c) (hsync : c.timeSyncPending = false)
    (hmanual : c.client.vibe.hasAuth = true → c.manualRefreshPending = false) :
    Guarded Held ((do
      Prog.modify fun c ↦ { c with nextRetryUs := 0 }
      let timeValid ← systemTimeValid
      if ¬ timeValid then handleTimeSync
      else if ¬ c.client.vibe.hasAuth ∨ c.requestCodeRetry then startDeviceLink
      else fetchToday false : Ctl Unit) c).2 := by
  -- A request needs an account, and with one there is no refresh left to make.
  let rest (d : Controller) : Prop :=
    Guarded Passed d ∧ (c.client.vibe.hasAuth = true → Ready d)
  have hquiet : ∀ {α : Type} {p : Ctl α}, Prog.Moves Quiet p → Prog.Leads rest p rest :=
    fun hp d hd ↦ ⟨passed_of_quiet hp d hd.1, fun hauth ↦ ready_of_quiet hp d (hd.2 hauth)⟩
  have hdone : ∀ {p : Ctl Unit}, Prog.Moves Quiet p → Prog.Leads rest p (Guarded Held) :=
    fun hp ↦ (hquiet hp).conseq (fun _ ↦ id) fun _ hd ↦ held_of_passed hd.1
  refine Prog.Leads.bind (hquiet (quiet_modify ?_)) (fun _ ↦ ?_) c
    ⟨h, fun hauth ↦ ⟨h, hsync, hmanual hauth⟩⟩
  · exact fun _ ↦ ⟨rfl, rfl, rfl, rfl, rfl⟩
  refine .bind (hquiet quiet_systemTimeValid) fun timeValid ↦ ?_
  split
  · exact hdone quiet_handleTimeSync
  · split
    · exact hdone quiet_startDeviceLink
    · rename_i hlink
      push Not at hlink
      exact fun d hd ↦ held_fetchToday false d (hd.2 hlink.1)

/-- **The deadlines** of a turn: each is due, or the retry time has passed. -/
theorem held_runDeadlines {now : ℤ} (h : Due now c)
    (hmanual : c.client.vibe.hasAuth = true → c.manualRefreshPending = false) :
    Guarded Held (runDeadlines now c).2 := by
  rw [runDeadlines, Prog.bind_of_ok (Prog.get_apply c)]
  split
  -- A pass is active: nobody waits, and there is an account or nothing happens.
  · rename_i hdue
    have hpassed := h.passed (fun time hwait ↦ absurd hdue.1 (by simp [hwait.active]))
      fun hnone ↦ absurd hdue.1 (by simp [hnone.active])
    cases hauth : c.client.vibe.hasAuth with
    | true => exact held_reconcileOne c ⟨hpassed, h.sync, hmanual hauth⟩
    | false =>
      exact held_of_passed (hpassed.of_quiet (quiet_reconcileOne hauth) fun _ hpassed' ↦
        hpassed'.of_quiet hpassed.monotone (quiet_reconcileOne hauth))
  · split
    -- The refresh is due: it would have been cleared by a failure.
    · rename_i hdue
      have hpassed := h.passed (fun time hwait ↦ absurd hdue.2.1 (by simp [hwait.refresh]))
        fun hnone ↦ absurd hdue.1 (by simp [hnone.auth])
      exact held_fetchToday false c ⟨hpassed, h.sync, hmanual hdue.1⟩
    · split
      -- The retry is due, and with it every time that is waited for.
      · rename_i hdue
        have hpassed := h.passed
          (fun time hwait ↦ (hwait.retry.trans hdue.2).trans h.reading)
          fun hnone ↦ absurd hdue.1 (by simp [hnone.retry])
        exact held_retry hpassed h.sync hmanual
      · exact h.guarded

/-- A pass is queued only when no retry is set. -/
theorem retry_of_passDue (h : (passDue c).1 = .ok true) :
    c.nextRetryUs = 0 ∧ c.client.vibe.hasAuth = true := by
  rw [passDue, Prog.bind_of_ok (Prog.get_apply c)] at h
  split at h
  · cases h
  · rename_i hguard
    push Not at hguard
    exact hguard.2

/-- What comes before the deadlines is due or asked for. -/
theorem held_runUsage {now : ℤ} (h : Due now c) : Guarded Held (runUsage now c).2 := by
  rw [runUsage, Prog.bind_of_ok (Prog.get_apply c)]
  split
  · exact held_pollDeviceLink h.guarded h.run
  · split
    -- A refresh is queued: nobody waits, and there is an account.
    · rename_i hmanual
      have hpassed := h.passed (fun time hwait ↦ absurd hmanual.1 (by simp [hwait.manual]))
        fun hnone ↦ absurd hmanual.2 (by simp [hnone.auth])
      have hquiet : Quiet c { c with manualRefreshPending := false } :=
        ⟨rfl, rfl, le_rfl, id, fun h ↦ by cases h⟩
      exact held_fetchToday true _ ⟨hpassed.of_quiet hquiet fun _ hpassed' ↦
        hpassed'.of_quiet hpassed.monotone hquiet, h.sync, rfl⟩
    · rename_i hmanual
      have hcalm := calm_passDue c
      obtain ⟨due, hdue⟩ := Prog.exists_ok passDue c
      rw [Prog.bind_of_ok hdue]
      cases due with
      | true =>
        obtain ⟨hretry, hauth⟩ := retry_of_passDue (congrArg Prod.fst hdue)
        have hpassed := h.passed (fun time hwait ↦ absurd hretry hwait.set.ne')
          fun hnone ↦ absurd hauth (by simp [hnone.auth])
        exact held_of_passed (passed_of_quiet (quiet_queuePass now) _
          (passed_of_quiet (quiet_of_calm calm_passDue) c hpassed))
      | false =>
        refine held_runDeadlines ⟨held_of_calm calm_passDue c h.guarded, ?_, ?_, ?_⟩ fun hauth ↦ ?_
        · exact Passed.of_quiet h.reading h.guarded.monotone hcalm.toQuiet
        · exact hcalm.shutdown.trans h.run
        · exact Bool.eq_false_iff.2 fun hsync ↦ by simpa [h.sync] using hcalm.sync hsync
        · refine Bool.eq_false_iff.2 fun hpending ↦
            hmanual ⟨hcalm.manual hpending, hcalm.auth hauth⟩

/-- What is due in a turn. -/
theorem held_runDueActions : Prog.Leads (Guarded Held) runDueActions (Guarded Held) := by
  refine .get fun c h ↦ ?_
  split
  · exact h
  · rename_i hrun
    have htick := calm_smartTick c
    have hguarded := held_of_calm calm_smartTick c h
    obtain ⟨u, hu⟩ := Prog.exists_ok smartTick c
    rw [Prog.bind_of_ok hu]
    generalize (smartTick c).2 = d at htick hguarded
    have hread : Quiet d (monotonicUs d).2 := quiet_monotonicUs d
    have hguarded' := held_of_calm calm_monotonicUs d hguarded
    rw [Prog.bind_of_ok (show monotonicUs d = (.ok (d.mono d.monoReadings), (monotonicUs d).2)
      from rfl), Prog.bind_of_ok (Prog.get_apply _)]
    split
    · exact hguarded'
    · split
      -- A synchronization is queued, and nobody waits.
      · rename_i hsync
        have hpassed : Guarded Passed (monotonicUs d).2 := by
          refine hguarded'.imp fun time hheld ↦ ?_
          rcases hheld with hpassed | hwait | hnone | hshutdown
          · exact hpassed
          · exact absurd hsync (by simp [hwait.sync])
          · exact absurd hsync (by simp [hnone.sync])
          · exact absurd (htick.shutdown.symm.trans hshutdown) hrun
        refine held_of_passed (passed_of_quiet (.bind (fun c ↦ ?_) fun _ ↦ quiet_handleTimeSync) _
          hpassed)
        exact ⟨rfl, rfl, le_rfl, fun h ↦ absurd h Bool.false_ne_true, id⟩
      · rename_i hsync
        split
        · exact hguarded'
        · refine held_runUsage ⟨hguarded', le_rfl, ?_, by simpa using hsync⟩
          exact htick.shutdown.trans (by simpa using hrun)

/-! ### Commands -/

/-- When the user asks for a request, or the network is there again, nothing is waited for. -/
theorem passed_addLog {entry : LogEntry} (hentry : entry = .asked ∨ entry = .reconnected) :
    Prog.Leads (Guarded Held) (addLog entry) (Guarded Passed) := by
  refine fun c h ↦ h.log_cons rfl rfl fun _ hrespected _ ↦ ?_
  rcases hentry with rfl | rfl
  · exact ⟨hrespected, fun _ hnone ↦ by cases hnone⟩
  · exact ⟨hrespected, fun _ hnone ↦ by cases hnone⟩

/-- What follows an intent that asks for a request may set any timer. -/
theorem held_asked {α : Type} {p : Ctl α} (hp : Prog.Moves Quiet p) :
    Prog.Leads (Guarded Held) (addLog .asked >>= fun _ ↦ p) (Guarded Held) :=
  .bind (passed_addLog (.inl rfl)) fun _ ↦
    (passed_of_quiet hp).conseq (fun _ ↦ id) fun _ ↦ held_of_passed

/-- A refresh that is asked for is logged. -/
theorem held_intentRefresh : Prog.Leads (Guarded Held) intentRefresh (Guarded Held) := by
  refine .bind (passed_addLog (.inl rfl)) fun _ ↦ .get fun c h ↦ ?_
  split
  · refine held_of_passed (passed_of_quiet (quiet_monotonicUs.bind fun _ ↦ quiet_modify ?_) c h)
    exact fun _ ↦ ⟨rfl, rfl, rfl, rfl, rfl⟩
  · exact held_of_passed ⟨h.monotone, h.nonneg, h.sound⟩

/-- A pass that is asked for is logged. -/
theorem held_intentReconcile : Prog.Leads (Guarded Held) intentReconcile (Guarded Held) := by
  refine .get fun c h ↦ ?_
  refine Prog.Leads.bind (held_of_calm calm_systemTimeValid) (fun timeValid ↦ ?_) c h
  split
  · exact fun _ ↦ id
  · refine .bind (held_of_calm (calm_call (noNewAuth_vibeBeginReconcile _))) fun result ↦ ?_
    cases result with
    | ok =>
      refine held_asked (quiet_monotonicUs.bind fun _ ↦ .bind (quiet_modify ?_) fun _ ↦
        quiet_publish _)
      exact fun _ ↦ ⟨rfl, rfl, rfl, rfl, rfl⟩
    | error error => exact held_of_calm (.bind .get fun _ ↦ calm_publish _)

/-- The account is given up for another. -/
theorem quiet_relink : Prog.Moves Quiet (do
    match ← unlinkAccount with
    | .error _ => publish fun view ↦ { view with lifecycle := .storageError }
    | .ok () => do
      publish fun view ↦ { view with lifecycle := .deviceLink }
      let now ← monotonicUs
      Prog.modify fun c ↦ { c with requestCodeRetry := true, nextRetryUs := now } : Ctl Unit) := by
  refine quiet_unlinkAccount.bind fun result ↦ ?_
  cases result with
  | error error => exact quiet_publish _
  | ok =>
    refine (quiet_publish _).bind fun _ ↦ quiet_monotonicUs.bind fun _ ↦ quiet_modify ?_
    exact fun _ ↦ ⟨rfl, rfl, rfl, rfl, rfl⟩

/-- The account is given up. -/
theorem held_intentUnlink : Prog.Leads (Guarded Held) intentUnlink (Guarded Held) := by
  intro c h
  have hquiet : Quiet c (intentUnlink c).2 :=
    (quiet_unlinkAccount.bind fun _ ↦ quiet_publish _ : Prog.Moves Quiet intentUnlink) c
  have hunlinked : c.timeSyncPending = false → Unlinked (intentUnlink c).2 := fun hsync ↦
    ⟨vibeUnlink_hasAuth c.client, rfl, rfl, rfl, hsync⟩
  refine h.of_quiet hquiet fun time hheld ↦ ?_
  rcases hheld with hpassed | hwait | hnone | hshutdown
  · exact .inl (hpassed.of_quiet h.monotone hquiet)
  · exact .inr (.inr (.inl (hunlinked hwait.sync)))
  · exact .inr (.inr (.inl (hunlinked hnone.sync)))
  · exact .inr (.inr (.inr hshutdown))

/-- **An intent of the user.** -/
theorem held_handleIntent (intent : AppIntent) :
    Prog.Leads (Guarded Held) (handleIntent intent) (Guarded Held) := by
  refine .get fun c h ↦ ?_
  split
  · exact h
  · cases intent with
    | refresh => exact held_intentRefresh c h
    | reconcile => exact held_intentReconcile c h
    | startWifi => exact held_of_calm calm_reconfigureWifi c h
    | reconfigureWifi => exact held_of_calm calm_reconfigureWifi c h
    | relink => exact held_asked quiet_relink c h
    | unlink => exact held_intentUnlink c h
    | toggleTimezone => exact held_asked quiet_restartVibeForTimezone c h
    | factoryReset => exact held_of_calm calm_intentReset c h
    | llmConfig => exact held_of_calm calm_intentLlmConfig c h
    | llmConfigClose =>
      exact held_of_calm (calm_closeLlmPortal.bind fun _ ↦ calm_publish _) c h
    | other => exact h

/-- **An event of the network.** -/
theorem held_handleWifiEvent (event : WifiEvent) :
    Prog.Leads (Guarded Held) (handleWifiEvent event) (Guarded Held) := by
  have hoffline : Prog.Moves Calm (Prog.modify fun c ↦
      { c with online := false, timeSyncPending := false } : Ctl Unit) := fun _ ↦
    ⟨⟨⟨rfl, rfl, le_rfl, fun h ↦ absurd h Bool.false_ne_true, id⟩, rfl, rfl, id, rfl, rfl⟩, id⟩
  refine .get fun c h ↦ ?_
  split
  · exact h
  · refine Prog.Leads.bind (held_of_calm (calm_publish _)) (fun _ ↦ ?_) c h
    cases event with
    | scanning => exact held_of_calm (calm_publish _)
    | connecting => exact held_of_calm (calm_publish _)
    | gotIp =>
      -- The network is there again, so no time is waited for any more.
      have hqueue : Prog.Leads (Guarded Passed) (Prog.modify fun c ↦
          { c with online := true, timeSyncPending := true } : Ctl Unit) (Guarded Passed) :=
        fun _ h ↦ ⟨h.monotone, h.nonneg, h.sound⟩
      refine .bind (passed_addLog (.inr rfl)) fun _ ↦ .bind hqueue fun _ ↦ ?_
      refine (passed_of_quiet ((quiet_publish _).bind fun _ ↦ .ite ?_ (.ret ()))).conseq
        (fun _ ↦ id) fun _ ↦ held_of_passed
      exact quiet_of_calm calm_startLlmPortal
    | disconnected =>
      exact held_of_calm (calm_closeLlmPortal.bind fun _ ↦ hoffline.bind fun _ ↦
        (calm_call noNewAuth_vibeCancel).bind fun _ ↦ calm_publish _)
    | portalEnter =>
      exact held_of_calm (hoffline.bind fun _ ↦ (calm_call noNewAuth_vibeCancel).bind fun _ ↦
        calm_publish _)
    | provisioningTimeout =>
      exact held_of_calm (calm_closeLlmPortal.bind fun _ ↦ calm_publish _)
    | portalExit => exact held_of_calm (calm_publish _)

/-- A shutdown. -/
theorem held_handleShutdown : Prog.Leads (Guarded Held) handleShutdown (Guarded Held) := by
  intro c h
  have hquiet : Quiet c (handleShutdown c).2 :=
    ⟨rfl, rfl, le_rfl, fun h ↦ absurd h Bool.false_ne_true, fun h ↦ absurd h Bool.false_ne_true⟩
  exact h.of_quiet hquiet fun _ _ ↦ .inr (.inr (.inr rfl))

/-- A command, whatever it is. -/
theorem held_handleCommand (command : Command) :
    Prog.Leads (Guarded Held) (handleCommand command) (Guarded Held) := by
  cases command with
  | boot => exact held_of_calm calm_handleBoot
  | wifiEvent event => exact held_handleWifiEvent event
  | intent intent => exact held_handleIntent intent
  | shutdown => exact held_handleShutdown

/-! ### Runs -/

/-- **One turn** of the loop keeps the invariant. -/
theorem held_controllerTurn (turn : Turn) :
    Prog.Leads (Guarded Held) (controllerTurn turn) (Guarded Held) := by
  have hstart : Prog.Moves Calm (Prog.modify fun c ↦
      { c with turn, client := { c.client with exchange := turn.exchange } } : Ctl Unit) := fun _ ↦
    ⟨⟨⟨rfl, rfl, le_rfl, id, id⟩, rfl, rfl, id, rfl, rfl⟩, id⟩
  have hdue : Prog.Leads (Guarded Held) (do
      let c ← Prog.get
      if c.stopped then pure ()
      else do
        runDueActions
        updateClockFields : Ctl Unit) (Guarded Held) := by
    refine .get fun c h ↦ ?_
    split
    · exact h
    · exact Prog.Leads.bind held_runDueActions
        (fun _ ↦ held_of_calm calm_updateClockFields) c h
  refine .get fun c h ↦ ?_
  split
  · exact h
  · refine Prog.Leads.bind (held_of_calm hstart) (fun _ ↦ ?_) c h
    cases turn.command with
    | none => exact hdue
    | some command => exact .bind (held_handleCommand command) fun _ ↦ hdue

/-- **Any number of turns.** -/
theorem held_afterTurns (turns : List Turn) (h : Guarded Held c) :
    Guarded Held (afterTurns c turns) := by
  induction turns generalizing c with
  | nil => exact h
  | cons turn turns ih => exact ih (held_controllerTurn turn c h)

/-- **Backoff is respected** by every run in which no refresh fails while a pass is active and no
link ends while a retry is set. -/
theorem backoff_respected (hlog : c.log = []) (hmono : Monotone c.mono) (hstart : 0 ≤ c.mono 0)
    (turns : List Turn) (hway : NoWayAround (afterTurns c turns).log) :
    BackoffRespected (afterTurns c turns).log := by
  have h : Guarded Held c := by
    refine ⟨hmono, hstart, fun _ ↦ ?_⟩
    rw [hlog]
    exact ⟨trivial, fun _ hnone ↦ by cases hnone⟩
  exact ((held_afterTurns turns h).sound hway).1

/-! ### Two runs -/

/-- An account is linked; nothing answers. -/
def linkedController : Controller :=
  { Controller.zero with
    client := { Client.zero with
      vibe := { VibeContext.zero with
        initialized := true
        bootstrapOrigin := .ofBytes (httpsScheme ++ ascii ['a', 'p', 'i'])
        configRevision := 1
        refreshSeconds := 900
        maxUsageBodyBytes := parserDefaultMaxBody
        maxUsageBuckets := parserDefaultMaxBuckets
        auth := ⟨true, false, 1, .ofBytes (httpsScheme ++ ascii ['a', 'p', 'i']), .ofBytes [0x6B]⟩
        cache := vibeCacheInit 1 1 .asiaShanghai }
      clock := fun _ ↦ 1784131200 }
    settings := ⟨1, 900, .asiaShanghai, .ofBytes (ascii ['0', '1', '2', '3'])⟩
    processZone := .asiaShanghai
    mono := fun reading ↦ if reading < 5 then 1000000 else 50000000 }

/-- The network is there; then nothing happens but the passing of time. -/
def quietTurns (n : ℕ) : List Turn :=
  { Turn.silent with command := some (.wifiEvent .gotIp), sntp := none } ::
    List.replicate n .silent

/-- The first request fails, and the second waits. -/
theorem linkedController_log : (afterTurns linkedController (quietTurns 2)).log =
    [.backedOff 146000000, .requested true 50000000, .backedOff 49000000,
      .requested true 1000000, .reconnected] := by
  decide +kernel

/-- Two turns in which nothing happens. -/
theorem backoff_respected_twice :
    BackoffRespected (afterTurns linkedController (quietTurns 2)).log := by
  have hmono : Monotone linkedController.mono := by
    intro reading reading' hle
    show (if reading < 5 then (1000000 : ℤ) else 50000000) ≤
      if reading' < 5 then 1000000 else 50000000
    split <;> split <;> omega
  have hway : NoWayAround (afterTurns linkedController (quietTurns 2)).log := by
    rw [linkedController_log]
    exact ⟨by decide, by decide⟩
  exact backoff_respected (c := linkedController) rfl hmono (by decide) (quietTurns 2) hway

/-- The server has named a time, 100 seconds from now, before which it is not to be asked again; a
pass had been interrupted. -/
def interruptedController : Controller :=
  { linkedController with
    client := { linkedController.client with
      vibe := { linkedController.client.vibe with
        retryNotBeforeUtc := 1784131300
        cache := { linkedController.client.vibe.cache with
          reconcileAnchorKey := 20260716, reconcilePendingMask := 0x7F } }
      clock := fun reading ↦
        if reading < 10 then 1784131200 else if reading < 13 then 1784131201 else 1784131300 }
    mono := fun reading ↦
      if reading < 5 then 1000000 else if reading < 7 then 1500000
      else if reading < 10 then 100600000 else 101100000 }

/-- **The refresh fails while the pass is active**: half a second later, 48 seconds too early, the
pass asks for its next day. -/
theorem backoff_not_respected :
    (afterTurns interruptedController (quietTurns 5)).log =
        [.backedOff 197100000, .requested true 101100000, .passActive, .backedOff 148600000,
          .requested true 100600000, .reconnected] ∧
      ¬ BackoffRespected (afterTurns interruptedController (quietTurns 5)).log := by
  have hlog : (afterTurns interruptedController (quietTurns 5)).log =
      [.backedOff 197100000, .requested true 101100000, .passActive, .backedOff 148600000,
        .requested true 100600000, .reconnected] := by
    decide +kernel
  refine ⟨hlog, ?_⟩
  rw [hlog]
  rintro ⟨hpending, -⟩
  exact absurd (hpending 148600000 List.mem_cons_self) (by decide)

end VibeUsage
