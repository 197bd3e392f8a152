import VibeUsage.Controller.LinkFrame

/-!
# The pace of a device link

When a device code is polled. The loop of the controller is repeated here with one addition, that it
says which code has come and which poll has been made; `watched_controllerTurn` says that it is the
loop of the model. What it says in a run is a list of `LinkEvent`s, the latest first, and
`LinkPaced` is about such a list only: every poll is of a code that has not expired, and keeps its
distance from the poll before it.

* `paces_pollDeviceLink` is a poll: it is made when its time has come, and its answer sets the next
  time (`pacing_settlePoll`).
* `paces_turn` is a turn of the loop, `paced_linkEvents` a run.
* `link_paced` is the result, for every run from a state without a code.
-/

namespace VibeUsage

/-! ### What happens to a link -/

inductive LinkEvent
  /-- The server has sent a code, with its interval and the monotonic second it expires at. -/
  | received (interval : UInt32) (deadline : ℤ)
  /-- A poll, with the clock's last reading before it and its result. -/
  | polled (at_ : ℤ) (result : Except EspErr PollStatus)

/-- What a result adds to the interval. -/
def intervalIncrement : Except EspErr PollStatus → ℕ
  | .ok (.slowDown retryAfterSeconds) => max retryAfterSeconds.toNat 5
  | _ => 0

/-- The server's interval, and what every poll of the code has added to it since. -/
def intervalInForce : List LinkEvent → ℕ
  | [] => 0
  | .received interval _ :: _ => interval.toNat
  | .polled _ result :: events => intervalInForce events + intervalIncrement result

/-- The second that the latest code expires at. -/
def linkDeadline : List LinkEvent → Option ℤ
  | [] => none
  | .received _ deadline :: _ => some deadline
  | .polled _ _ :: events => linkDeadline events

def isSlowDown : Except EspErr PollStatus → Bool
  | .ok (.slowDown _) => true
  | _ => false

/-- The polls of the latest code that were told to slow down. -/
def slowDowns : List LinkEvent → ℕ
  | [] => 0
  | .received _ _ :: _ => 0
  | .polled _ result :: events => slowDowns events + if isSlowDown result then 1 else 0

/-- The interval that the server sent with the latest code. -/
def serverInterval : List LinkEvent → ℕ
  | [] => 0
  | .received interval _ :: _ => interval.toNat
  | .polled _ _ :: events => serverInterval events

/-- No poll comes before this, in microseconds, after one with this result. -/
def PauseEnds (events : List LinkEvent) (at_ : ℤ) (result : Except EspErr PollStatus)
    (time : ℤ) : Prop :=
  at_ + intervalInForce events * 1000000 ≤ time ∧
    (result.isOk = false → at_ + 5000000 ≤ time)

/-- **The pace**: every poll is of a code that has not expired, and comes no sooner after the poll
before it of the same code than the interval then in force, nor five seconds after an error. -/
structure LinkPaced (events : List LinkEvent) : Prop where
  inTime : ∀ later at_ result earlier, events = later ++ .polled at_ result :: earlier →
    ∃ deadline, linkDeadline earlier = some deadline ∧ at_ < deadline * 1000000
  apart : ∀ later at' result' at_ result earlier,
    events = later ++ .polled at' result' :: .polled at_ result :: earlier →
    intervalInForce (.polled at_ result :: earlier) < 2 ^ 32 →
    PauseEnds (.polled at_ result :: earlier) at_ result at'

/-- **At least five seconds** for each time that the server asked for it. -/
theorem serverInterval_le (events : List LinkEvent) :
    serverInterval events + 5 * slowDowns events ≤ intervalInForce events := by
  induction events with
  | nil => exact le_rfl
  | cons event events ih =>
    cases event with
    | received interval deadline => exact le_rfl
    | polled at_ result =>
      have hincrement : (5 * if isSlowDown result then 1 else 0) ≤ intervalIncrement result := by
        unfold isSlowDown intervalIncrement
        split <;> simp
      simp only [serverInterval, slowDowns, intervalInForce]
      omega

/-! ### The loop, watched -/

/-- Nothing is said of the link. -/
def unseen (p : Ctl Unit) : Ctl (Option LinkEvent) := do
  p
  pure none

def watchedPollDeviceLink : Ctl (Option LinkEvent) := do
  let c ← Prog.get
  if c.deviceCode.deviceCode.bytes = [] ∨ ¬ c.online then pure none
  else do
    let now ← monotonicUs
    let nowSeconds := now / 1000000
    if nowSeconds ≥ c.deviceCode.monotonicDeadlineSeconds then
      unseen (endLink fun view ↦
        { view with lifecycle := .deviceLink, dataState := .linkRequired, reason := .auth })
    else do
      let result ← call (vibePollDeviceCode c.turn.poll)
      settlePoll nowSeconds result
      pure (some (.polled now result))

/-- A link starts without a code; what code there is afterwards has come from the server. -/
def watchedStartDeviceLink : Ctl (Option LinkEvent) := do
  let c ← Prog.get
  let timeValid ← systemTimeValid
  if ¬ c.online ∨ ¬ timeValid then pure none
  else do
    requestLink
    let c ← Prog.get
    pure (if c.deviceCode.deviceCode.bytes = [] then none
      else some (.received c.deviceCode.interval c.deviceCode.monotonicDeadlineSeconds))

def watchedRunDeadlines (now : ℤ) : Ctl (Option LinkEvent) := do
  let c ← Prog.get
  if c.reconcileActive ∧ c.nextReconcileUs > 0 ∧ now ≥ c.nextReconcileUs then unseen reconcileOne
  else if c.client.vibe.hasAuth ∧ c.nextRefreshUs > 0 ∧ now ≥ c.nextRefreshUs then
    unseen (fetchToday false)
  else if c.nextRetryUs > 0 ∧ now ≥ c.nextRetryUs then do
    Prog.modify fun c ↦ { c with nextRetryUs := 0 }
    let timeValid ← systemTimeValid
    if ¬ timeValid then unseen handleTimeSync
    else if ¬ c.client.vibe.hasAuth ∨ c.requestCodeRetry then watchedStartDeviceLink
    else unseen (fetchToday false)
  else pure none

def watchedRunUsage (now : ℤ) : Ctl (Option LinkEvent) := do
  let c ← Prog.get
  if c.deviceCode.deviceCode.bytes ≠ [] ∧ c.nextLinkPollUs > 0 ∧ now ≥ c.nextLinkPollUs then
    watchedPollDeviceLink
  else if c.manualRefreshPending ∧ c.client.vibe.hasAuth then do
    Prog.modify fun c ↦ { c with manualRefreshPending := false }
    unseen (fetchToday true)
  else do
    let due ← passDue
    if due then unseen (queuePass now) else watchedRunDeadlines now

def watchedRunDueActions : Ctl (Option LinkEvent) := do
  let c ← Prog.get
  if c.shuttingDown then pure none
  else do
    smartTick
    let now ← monotonicUs
    let c ← Prog.get
    if ¬ c.online then pure none
    else if c.timeSyncPending then do
      Prog.modify fun c ↦ { c with timeSyncPending := false }
      unseen handleTimeSync
    else if c.view.llmConfigOpen ∨ c.turn.todoSoon then pure none
    else watchedRunUsage now

def watchedTurn (turn : Turn) : Ctl (Option LinkEvent) := do
  let c ← Prog.get
  if c.stopped then pure none
  else do
    Prog.modify fun c ↦ { c with turn, client := { c.client with exchange := turn.exchange } }
    match turn.command with
    | some command => handleCommand command
    | none => pure ()
    let c ← Prog.get
    if c.stopped then pure none
    else do
      let event ← watchedRunDueActions
      updateClockFields
      pure event

/-- What the turns say of the link, the latest first. -/
def linkEvents (c : Controller) : List Turn → List LinkEvent
  | [] => []
  | turn :: turns =>
    match (watchedTurn turn c).1 with
    | .ok event => linkEvents (watchedTurn turn c).2 turns ++ event.toList
    | .error error => nomatch error

/-! ### The loop, unwatched -/

/-- A program that is not watched ends as it does. -/
theorem unseen_endsLike (p : Ctl Unit) : Prog.EndsLike (unseen p) p := .bind_pure p _

/-- Nothing ends as nothing. -/
theorem nothing_endsLike :
    Prog.EndsLike (pure none : Ctl (Option LinkEvent)) (pure () : Ctl Unit) := fun _ ↦ rfl

/-- The poll that is watched is the poll. -/
theorem watched_pollDeviceLink : Prog.EndsLike watchedPollDeviceLink pollDeviceLink := by
  refine .bind fun c ↦ .ite nothing_endsLike (.bind fun now ↦ .ite (unseen_endsLike _) ?_)
  exact .bind fun result ↦ .bind_pure _ _

/-- So is the request for a code. -/
theorem watched_startDeviceLink : Prog.EndsLike watchedStartDeviceLink startDeviceLink := by
  refine .bind fun c ↦ .bind fun timeValid ↦ .ite nothing_endsLike ?_
  intro s
  obtain ⟨a, ha⟩ := Prog.exists_ok requestLink s
  rw [Prog.bind_of_ok ha]
  rfl

/-- So are the deadlines. -/
theorem watched_runDeadlines (now : ℤ) :
    Prog.EndsLike (watchedRunDeadlines now) (runDeadlines now) := by
  refine .bind fun c ↦ .ite (unseen_endsLike _) (.ite (unseen_endsLike _)
    (.ite (.bind fun _ ↦ .bind fun timeValid ↦ .ite (unseen_endsLike _) ?_) ?_))
  · exact .ite watched_startDeviceLink (unseen_endsLike _)
  · exact nothing_endsLike

/-- So is what comes before them. -/
theorem watched_runUsage (now : ℤ) : Prog.EndsLike (watchedRunUsage now) (runUsage now) := by
  refine .bind fun c ↦ .ite watched_pollDeviceLink (.ite (.bind fun _ ↦ unseen_endsLike _) ?_)
  exact .bind fun due ↦ .ite (unseen_endsLike _) (watched_runDeadlines now)

/-- **What is watched is what runs.** -/
theorem watched_runDueActions : Prog.EndsLike watchedRunDueActions runDueActions := by
  refine .bind fun c ↦ .ite nothing_endsLike (.bind fun _ ↦ .bind fun now ↦ .bind fun c ↦ ?_)
  refine .ite nothing_endsLike (.ite (.bind fun _ ↦ unseen_endsLike _) ?_)
  exact .ite nothing_endsLike (watched_runUsage now)

/-- **The watched loop is the loop.** -/
theorem watched_controllerTurn (turn : Turn) :
    Prog.EndsLike (watchedTurn turn) (controllerTurn turn) := by
  have hrest : Prog.EndsLike (do
      let event ← watchedRunDueActions
      updateClockFields
      pure event : Ctl (Option LinkEvent)) (do
      runDueActions
      updateClockFields : Ctl Unit) := by
    refine Prog.EndsLike.trans (.bind fun event ↦ .bind_pure updateClockFields _) ?_
    exact watched_runDueActions.bind_left updateClockFields
  refine .bind fun c ↦ .ite nothing_endsLike (.bind fun _ ↦ ?_)
  cases turn.command with
  | some command => exact .bind fun _ ↦ .bind fun c ↦ .ite nothing_endsLike hrest
  | none => exact .bind fun c ↦ .ite nothing_endsLike hrest

/-! ### The invariant -/

/-- What the controller knows of its code. -/
structure LinkState (events : List LinkEvent) (c : Controller) : Prop where
  deadline : linkDeadline events = some c.deviceCode.monotonicDeadlineSeconds
  interval : intervalInForce events < 2 ^ 32 →
    c.linkIntervalSeconds.toNat = intervalInForce events
  /-- The next poll waits for the pause to end, or for the code to expire. -/
  next : ∀ at_ result earlier, events = .polled at_ result :: earlier →
    intervalInForce events < 2 ^ 32 → PauseEnds events at_ result c.nextLinkPollUs ∨
      c.deviceCode.monotonicDeadlineSeconds * 1000000 ≤ c.nextLinkPollUs

/-- The pace has been kept so far, and what code there is will keep it. -/
structure Pacing (events : List LinkEvent) (c : Controller) : Prop where
  mono : Monotone c.mono
  paced : LinkPaced events
  code : c.deviceCode.deviceCode.bytes ≠ [] → LinkState events c

variable {events : List LinkEvent} {c c' : Controller}

/-- What leaves a code alone leaves its pace alone. -/
theorem Pacing.of_linkKept (h : Pacing events c) (hkept : LinkKept c c') : Pacing events c' := by
  refine ⟨hkept.mono ▸ h.mono, h.paced, fun hcode ↦ ?_⟩
  rcases hkept.link with ⟨hsame, hinterval, hnext⟩ | hgone
  · rw [hsame] at hcode
    obtain ⟨hdeadline, hinterval', hnext'⟩ := h.code hcode
    refine ⟨hsame ▸ hdeadline, hinterval ▸ hinterval', ?_⟩
    rw [hsame, hnext]
    exact hnext'
  · rw [hgone] at hcode
    exact absurd rfl hcode

/-- A code that has come. -/
theorem LinkPaced.received (h : LinkPaced events) (interval : UInt32) (deadline : ℤ) :
    LinkPaced (.received interval deadline :: events) := by
  constructor
  · intro later at_ result earlier heq
    cases later with
    | nil => cases heq
    | cons event later => exact h.inTime later at_ result earlier (List.cons.inj heq).2
  · intro later at' result' at_ result earlier heq
    cases later with
    | nil => cases heq
    | cons event later => exact h.apart later at' result' at_ result earlier (List.cons.inj heq).2

/-- A poll in time, and after the pause. -/
theorem LinkPaced.polled (h : LinkPaced events) {now deadline : ℤ}
    {result : Except EspErr PollStatus} (hdeadline : linkDeadline events = some deadline)
    (htime : now < deadline * 1000000)
    (hpause : ∀ at_ result earlier, events = .polled at_ result :: earlier →
      intervalInForce events < 2 ^ 32 → PauseEnds events at_ result now) :
    LinkPaced (.polled now result :: events) := by
  constructor
  · intro later at_ result' earlier heq
    cases later with
    | nil =>
      obtain ⟨hevent, rfl⟩ := List.cons.inj heq
      obtain ⟨rfl, rfl⟩ := LinkEvent.polled.inj hevent
      exact ⟨deadline, hdeadline, htime⟩
    | cons event later => exact h.inTime later at_ result' earlier (List.cons.inj heq).2
  · intro later at' result' at_ result'' earlier heq
    cases later with
    | nil =>
      obtain ⟨hevent, rfl⟩ := List.cons.inj heq
      obtain ⟨rfl, rfl⟩ := LinkEvent.polled.inj hevent
      exact hpause at_ result'' earlier rfl
    | cons event later => exact h.apart later at' result' at_ result'' earlier (List.cons.inj heq).2

/-! ### The answer to a poll -/

/-- A poll has just been answered. -/
structure Polled (events : List LinkEvent) (now : ℤ) (result : Except EspErr PollStatus)
    (c : Controller) : Prop where
  mono : Monotone c.mono
  paced : LinkPaced (.polled now result :: events)
  deadline : linkDeadline events = some c.deviceCode.monotonicDeadlineSeconds
  interval : intervalInForce events < 2 ^ 32 →
    c.linkIntervalSeconds.toNat = intervalInForce events
  read : now ≤ c.mono c.monoReadings

/-- The seconds that a failure is waited for. -/
def pollWait (c : Controller) (nowSeconds : ℤ) : ℤ :=
  let wait : ℤ := max c.linkIntervalSeconds.toNat 5
  let wait := if c.client.vibe.lastHttpStatus = 429 then
    max wait c.client.vibe.lastRetryAfterSeconds.toNat else wait
  let remaining := c.deviceCode.monotonicDeadlineSeconds - nowSeconds
  if remaining > 0 ∧ wait > remaining then remaining else wait

/-- What an answer after which the code is polled again does to the interval, and the seconds until
then. -/
def pollWaits (c : Controller) (nowSeconds : ℤ) : Except EspErr PollStatus → Option (UInt32 × ℤ)
  | .error _ => some (c.linkIntervalSeconds, pollWait c nowSeconds)
  | .ok .pending => some (c.linkIntervalSeconds, c.linkIntervalSeconds.toNat)
  | .ok (.slowDown seconds) =>
    let interval := c.linkIntervalSeconds + max seconds 5
    some (interval, interval.toNat)
  | .ok _ => none

/-- The end of a link gives the code up. -/
theorem linkKept_endLink (f : AppView → AppView) : Prog.Moves LinkKept (endLink f) :=
  .bind .get fun _ ↦ (linkKept_addLog _).bind fun _ ↦ linkKept_clearPublicLink.bind fun _ ↦
    linkKept_publish _

/-- **Another poll is to come.** -/
theorem settlePoll_again {c : Controller} {nowSeconds : ℤ} {result : Except EspErr PollStatus}
    {interval : UInt32} {wait : ℤ} (h : pollWaits c nowSeconds result = some (interval, wait)) :
    ∃ view, (settlePoll nowSeconds result c).2 = { c with
      view
      linkIntervalSeconds := interval
      monoReadings := c.monoReadings + 1
      nextLinkPollUs := c.mono c.monoReadings + wait * 1000000 } := by
  unfold pollWaits at h
  split at h
  · obtain ⟨rfl, rfl⟩ := Prod.mk.inj (Option.some.inj h)
    exact ⟨_, rfl⟩
  · obtain ⟨rfl, rfl⟩ := Prod.mk.inj (Option.some.inj h)
    exact ⟨_, rfl⟩
  · obtain ⟨rfl, rfl⟩ := Prod.mk.inj (Option.some.inj h)
    exact ⟨_, rfl⟩
  · cases h

/-- **The link has come to its end.** -/
theorem settlePoll_end {c : Controller} {nowSeconds : ℤ} {result : Except EspErr PollStatus}
    (h : pollWaits c nowSeconds result = none) :
    (settlePoll nowSeconds result c).2.deviceCode = .zero ∧
      (settlePoll nowSeconds result c).2.mono = c.mono := by
  unfold pollWaits at h
  cases result with
  | error error => cases h
  | ok status =>
    cases status with
    | pending => cases h
    | slowDown seconds => cases h
    | success apiKey => exact ⟨rfl, rfl⟩
    | denied => exact ⟨rfl, rfl⟩
    | expired => exact ⟨rfl, rfl⟩
    | alreadyDelivered => exact ⟨rfl, rfl⟩

/-- A failure is waited for as long as the interval and five seconds, or until the code expires. -/
theorem le_pollWait (c : Controller) (nowSeconds : ℤ) :
    (5 ≤ pollWait c nowSeconds ∧ (c.linkIntervalSeconds.toNat : ℤ) ≤ pollWait c nowSeconds) ∨
      pollWait c nowSeconds = c.deviceCode.monotonicDeadlineSeconds - nowSeconds := by
  unfold pollWait
  dsimp only
  split
  · split
    · exact Or.inr rfl
    · exact Or.inl ⟨by omega, by omega⟩
  · split
    · exact Or.inr rfl
    · exact Or.inl ⟨by omega, by omega⟩

/-- The larger of two words. -/
theorem toNat_max (a b : UInt32) : (max a b).toNat = max a.toNat b.toNat := by
  show (if a ≤ b then b else a).toNat = max a.toNat b.toNat
  split
  · rename_i h
    exact (max_eq_right (UInt32.le_iff_toNat_le.1 h)).symm
  · rename_i h
    rw [UInt32.le_iff_toNat_le, not_le] at h
    exact (max_eq_left h.le).symm

/-- **The pause after a poll** is the interval, or ends with the code. -/
theorem pollWaits_pause {now : ℤ} {result : Except EspErr PollStatus}
    (h : Polled events now result c)
    {interval : UInt32} {wait : ℤ} (hwaits : pollWaits c (now / 1000000) result =
      some (interval, wait))
    (hfits : intervalInForce (.polled now result :: events) < 2 ^ 32) :
    interval.toNat = intervalInForce (.polled now result :: events) ∧
      (PauseEnds (.polled now result :: events) now result
          (c.mono c.monoReadings + wait * 1000000) ∨
        c.deviceCode.monotonicDeadlineSeconds * 1000000 ≤
          c.mono c.monoReadings + wait * 1000000) := by
  have hread := h.read
  unfold pollWaits at hwaits
  unfold PauseEnds
  rw [intervalInForce] at hfits ⊢
  have hinterval := h.interval (by omega)
  split at hwaits
  · rename_i error
    obtain ⟨rfl, rfl⟩ := Prod.mk.inj (Option.some.inj hwaits)
    have hzero : intervalIncrement (.error error) = 0 := rfl
    rw [hzero, Nat.add_zero]
    refine ⟨hinterval, ?_⟩
    have hwait := le_pollWait c (now / 1000000)
    generalize pollWait c (now / 1000000) = wait at hwait
    -- what is left of the code's life is counted from the whole second before the poll
    rcases hwait with ⟨hfive, hle⟩ | hclipped
    · exact Or.inl ⟨by omega, fun _ ↦ by omega⟩
    · exact Or.inr (by omega)
  · obtain ⟨rfl, rfl⟩ := Prod.mk.inj (Option.some.inj hwaits)
    have hzero : intervalIncrement (.ok .pending) = 0 := rfl
    rw [hzero, Nat.add_zero]
    exact ⟨hinterval, Or.inl ⟨by omega, fun h ↦ by cases h⟩⟩
  · rename_i seconds
    obtain ⟨rfl, rfl⟩ := Prod.mk.inj (Option.some.inj hwaits)
    have hincrement : intervalIncrement (.ok (.slowDown seconds)) = max seconds.toNat 5 := rfl
    rw [hincrement] at hfits ⊢
    have hmax : (max seconds 5).toNat = max seconds.toNat 5 := toNat_max seconds 5
    have hsum : (c.linkIntervalSeconds + max seconds 5).toNat =
        intervalInForce events + max seconds.toNat 5 := by
      rw [UInt32.toNat_add, hmax, hinterval, Nat.mod_eq_of_lt hfits]
    rw [hsum]
    exact ⟨rfl, Or.inl ⟨by push_cast; omega, fun h ↦ by cases h⟩⟩
  · cases hwaits

/-- **What is made of an answer** sets the time of the next poll as the pace asks. -/
theorem pacing_settlePoll {now : ℤ} {result : Except EspErr PollStatus}
    (h : Polled events now result c) :
    Pacing (.polled now result :: events) (settlePoll (now / 1000000) result c).2 := by
  cases hwaits : pollWaits c (now / 1000000) result with
  | none =>
    obtain ⟨hgone, hmono⟩ := settlePoll_end hwaits
    refine ⟨hmono ▸ h.mono, h.paced, fun hcode ↦ ?_⟩
    rw [hgone] at hcode
    exact absurd rfl hcode
  | some waits =>
    obtain ⟨interval, wait⟩ := waits
    obtain ⟨view, hsettled⟩ := settlePoll_again hwaits
    rw [hsettled]
    refine ⟨h.mono, h.paced, fun _ ↦ ⟨h.deadline, fun hfits ↦
      (pollWaits_pause h hwaits hfits).1, ?_⟩⟩
    intro at_ result' earlier heq hfits
    obtain ⟨hevent, rfl⟩ := List.cons.inj heq
    obtain ⟨rfl, rfl⟩ := LinkEvent.polled.inj hevent
    exact (pollWaits_pause h hwaits hfits).2

/-! ### The loop keeps the pace -/

/-- The program keeps the pace, with what it says of the link. -/
def Paces (events : List LinkEvent) (P : Controller → Prop) (p : Ctl (Option LinkEvent)) : Prop :=
  ∀ c, Pacing events c → P c → ∀ event c', p c = (.ok event, c') →
    Pacing (event.toList ++ events) c'

/-- Nothing keeps the pace. -/
theorem paces_nothing {P : Controller → Prop} : Paces events P (pure none) := by
  rintro c h - event c' ⟨⟩
  exact h

/-- What comes first leaves the code alone. -/
theorem Paces.bind {α : Type} {P : Controller → Prop} {p : Ctl α} {f : α → Ctl (Option LinkEvent)}
    (hp : Prog.Moves LinkKept p) (hf : ∀ a, Paces events (fun _ ↦ True) (f a)) :
    Paces events P (p >>= f) := by
  rintro c h - event c' hrun
  obtain ⟨a, c₁, hfirst, hrest⟩ := Prog.bind_eq_ok.1 hrun
  have hkept := hp c
  rw [hfirst] at hkept
  exact hf a c₁ (h.of_linkKept hkept) trivial event c' hrest

/-- So does what leaves a code alone. -/
theorem paces_unseen {P : Controller → Prop} {p : Ctl Unit} (hp : Prog.Moves LinkKept p) :
    Paces events P (unseen p) := Paces.bind hp fun _ ↦ paces_nothing

/-- Either branch. -/
theorem Paces.ite {P : Controller → Prop} {b : Prop} [Decidable b] {p q : Ctl (Option LinkEvent)}
    (hp : b → Paces events P p) (hq : ¬ b → Paces events P q) :
    Paces events P (if b then p else q) := by
  split
  · rename_i hb
    exact hp hb
  · rename_i hb
    exact hq hb

/-- The controller is read. -/
theorem Paces.get {P : Controller → Prop} {f : Controller → Ctl (Option LinkEvent)}
    (h : ∀ c, P c → Paces events (fun c' ↦ c' = c) (f c)) : Paces events P (Prog.get >>= f) :=
  fun c hc hP ↦ h c hP c hc rfl

/-- A stronger precondition. -/
theorem Paces.imp {P Q : Controller → Prop} {p : Ctl (Option LinkEvent)} (h : Paces events Q p)
    (hPQ : ∀ c, P c → Q c) : Paces events P p := fun c hc hP ↦ h c hc (hPQ c hP)

/-- **A poll** is made when its time has come. -/
theorem paces_pollDeviceLink : Paces events (fun c ↦ c.deviceCode.deviceCode.bytes ≠ [] ∧
    c.nextLinkPollUs ≤ c.mono c.monoReadings) watchedPollDeviceLink := by
  rintro c h ⟨hcode, hdue⟩ event c' hrun
  rw [watchedPollDeviceLink, Prog.bind_of_ok (Prog.get_apply c)] at hrun
  split at hrun
  · exact paces_nothing (P := fun _ ↦ True) c h trivial event c' hrun
  rw [Prog.bind_of_ok (show monotonicUs c = (.ok (c.mono c.monoReadings),
    { c with monoReadings := c.monoReadings + 1 }) from rfl)] at hrun
  have hread := h.of_linkKept (linkKept_monotonicUs c)
  split at hrun
  · exact paces_unseen (P := fun _ ↦ True) (linkKept_endLink _) _ hread trivial event c' hrun
  · rename_i hlive
    obtain ⟨result, c₂, hcall, hrun⟩ := Prog.bind_eq_ok.1 hrun
    obtain ⟨⟨⟩, c₃, hsettle, hrun⟩ := Prog.bind_eq_ok.1 hrun
    obtain ⟨hevent, rfl⟩ := Prod.mk.inj hrun
    obtain rfl := Except.ok.inj hevent
    obtain ⟨-, rfl⟩ := Prod.mk.inj hcall
    have hstate := h.code hcode
    have htime : c.mono c.monoReadings < c.deviceCode.monotonicDeadlineSeconds * 1000000 := by
      omega
    have hpolled : LinkPaced (.polled (c.mono c.monoReadings) result :: events) :=
      h.paced.polled hstate.deadline htime fun at_ result' earlier heq hfits ↦
        (hstate.next at_ result' earlier heq hfits).elim
          (fun hpause ↦ ⟨hpause.1.trans hdue, fun herror ↦ (hpause.2 herror).trans hdue⟩)
          fun hexpired ↦ absurd htime (not_lt.2 (hexpired.trans hdue))
    obtain rfl := congrArg Prod.snd hsettle
    exact pacing_settlePoll (Polled.mk hread.mono hpolled hstate.deadline hstate.interval
      (h.mono (Nat.le_succ _)))

/-- A code that comes starts with the server's interval. -/
theorem requestLink_code (mono : ℕ → ℤ) : Prog.Leads (fun c ↦ c.mono = mono) requestLink fun c ↦
    c.mono = mono ∧
      (c.deviceCode = .zero ∨ c.linkIntervalSeconds = c.deviceCode.interval) := by
  have hgone {α : Type} {p : Ctl α} (hp : Prog.Moves LinkKept p) :
      Prog.Leads (fun c ↦ c.mono = mono ∧ c.deviceCode = .zero) p
        fun c ↦ c.mono = mono ∧ c.deviceCode = .zero := by
    refine .of_moves hp fun c c' hkept ⟨hmono, hcode⟩ ↦ ⟨hkept.mono.trans hmono, ?_⟩
    rcases hkept.link with ⟨hsame, -⟩ | hgone
    · exact hsame.trans hcode
    · exact hgone
  have hclear : Prog.Leads (fun c ↦ c.mono = mono) clearPublicLink
      fun c ↦ c.mono = mono ∧ c.deviceCode = .zero := fun _ hmono ↦ ⟨hmono, rfl⟩
  refine hclear.bind fun _ ↦ (hgone (linkKept_publish _)).bind fun _ ↦ .get fun c hc ↦ ?_
  refine Prog.Leads.bind (Q := fun c ↦ c.mono = mono ∧ (c.deviceCode = .zero ∨
    c.linkIntervalSeconds = c.deviceCode.interval)) (hgone (linkKept_call _)) (fun result ↦ ?_) c hc
  cases result with
  | error error =>
    refine .conseq (hgone ?_) (fun _ ↦ id) fun _ h ↦ ⟨h.1, Or.inl h.2⟩
    exact .bind .get fun _ ↦ (linkKept_publish _).bind fun _ ↦
      .bind (linkKept_modify fun _ ↦ ⟨rfl, rfl, rfl, rfl, rfl⟩) fun _ ↦ linkKept_scheduleRetry
  | ok code => exact fun c' hc' ↦ ⟨hc'.1, Or.inr rfl⟩

/-- **A code comes** with its interval. -/
theorem paces_startDeviceLink {P : Controller → Prop} : Paces events P watchedStartDeviceLink := by
  refine .bind .get fun c ↦ .bind linkKept_systemTimeValid fun timeValid ↦
    .ite (fun _ ↦ paces_nothing) fun _ ↦ ?_
  rintro c h - event c' hrun
  obtain ⟨⟨⟩, c₁, hrequest, hrun⟩ := Prog.bind_eq_ok.1 hrun
  have hcode := requestLink_code c.mono c rfl
  rw [hrequest] at hcode
  obtain ⟨hmono, hcode⟩ := hcode
  obtain ⟨hevent, rfl⟩ := Prod.mk.inj hrun
  obtain rfl := Except.ok.inj hevent
  dsimp only at hmono hcode
  split
  · rename_i hnone
    exact ⟨hmono ▸ h.mono, h.paced, fun hsome ↦ absurd hnone hsome⟩
  · rename_i hsome
    refine ⟨hmono ▸ h.mono, h.paced.received _ _, fun _ ↦ ⟨rfl, fun _ ↦ ?_, ?_⟩⟩
    · rcases hcode with hzero | hinterval
      · rw [hzero] at hsome
        exact absurd rfl hsome
      · rw [hinterval]
        rfl
    · rintro at_ result earlier ⟨⟩

/-- The deadlines may ask for a code. -/
theorem paces_runDeadlines {P : Controller → Prop} (now : ℤ) :
    Paces events P (watchedRunDeadlines now) := by
  refine .bind .get fun c ↦ .ite (fun _ ↦ paces_unseen linkKept_reconcileOne) fun _ ↦
    .ite (fun _ ↦ paces_unseen (linkKept_fetchToday _)) fun _ ↦ .ite (fun _ ↦ ?_)
    fun _ ↦ paces_nothing
  refine .bind (linkKept_modify fun _ ↦ ⟨rfl, rfl, rfl, rfl, rfl⟩) fun _ ↦
    .bind linkKept_systemTimeValid fun timeValid ↦
    .ite (fun _ ↦ paces_unseen linkKept_handleTimeSync) fun _ ↦
    .ite (fun _ ↦ paces_startDeviceLink) fun _ ↦ paces_unseen (linkKept_fetchToday _)

/-- **A poll waits until it is due.** -/
theorem paces_runUsage (now : ℤ) :
    Paces events (fun c ↦ now ≤ c.mono c.monoReadings) (watchedRunUsage now) := by
  refine .get fun c hnow ↦ .ite (fun hdue ↦ ?_) fun _ ↦ .ite (fun _ ↦ ?_) fun _ ↦ ?_
  · refine paces_pollDeviceLink.imp ?_
    rintro _ rfl
    exact ⟨hdue.1, hdue.2.2.trans hnow⟩
  · exact .bind (linkKept_modify fun _ ↦ ⟨rfl, rfl, rfl, rfl, rfl⟩) fun _ ↦
      paces_unseen (linkKept_fetchToday _)
  · exact .bind linkKept_passDue fun due ↦ .ite (fun _ ↦ paces_unseen (linkKept_queuePass now))
      fun _ ↦ paces_runDeadlines now

/-- What is due in a turn. -/
theorem paces_runDueActions {P : Controller → Prop} : Paces events P watchedRunDueActions := by
  refine .bind .get fun c ↦ .ite (fun _ ↦ paces_nothing) fun _ ↦ .bind linkKept_smartTick fun _ ↦ ?_
  rintro c h - event c' hrun
  rw [Prog.bind_of_ok (show monotonicUs c = (.ok (c.mono c.monoReadings),
    { c with monoReadings := c.monoReadings + 1 }) from rfl)] at hrun
  have hread := h.of_linkKept (linkKept_monotonicUs c)
  have hnow : c.mono c.monoReadings ≤ c.mono (c.monoReadings + 1) := h.mono (Nat.le_succ _)
  refine Paces.get (P := fun c' ↦ c.mono c.monoReadings ≤ c'.mono c'.monoReadings) (fun c₁ hc₁ ↦
    .ite (fun _ ↦ paces_nothing) fun _ ↦ .ite (fun _ ↦ ?_) fun _ ↦ .ite (fun _ ↦ paces_nothing)
    fun _ ↦ (paces_runUsage _).imp fun _ heq ↦ heq ▸ hc₁) _ hread hnow event c' hrun
  exact .bind (linkKept_modify fun _ ↦ ⟨rfl, rfl, rfl, rfl, rfl⟩) fun _ ↦
    paces_unseen linkKept_handleTimeSync

/-- **A turn keeps the pace.** -/
theorem paces_turn {P : Controller → Prop} (turn : Turn) : Paces events P (watchedTurn turn) := by
  have hrest : Paces events (fun _ ↦ True) (do
      let c ← Prog.get
      if c.stopped then pure none
      else do
        let event ← watchedRunDueActions
        updateClockFields
        pure event : Ctl (Option LinkEvent)) := by
    refine .bind .get fun c ↦ .ite (fun _ ↦ paces_nothing) fun _ ↦ ?_
    rintro c h - event c' hrun
    obtain ⟨event', c₁, hactions, hrun⟩ := Prog.bind_eq_ok.1 hrun
    obtain ⟨⟨⟩, c₂, hclock, hrun⟩ := Prog.bind_eq_ok.1 hrun
    obtain ⟨hevent, rfl⟩ := Prod.mk.inj hrun
    obtain rfl := Except.ok.inj hevent
    have hkept := linkKept_updateClockFields c₁
    rw [hclock] at hkept
    exact (paces_runDueActions (P := fun _ ↦ True) c h trivial event' c₁ hactions).of_linkKept hkept
  refine .bind .get fun c ↦ .ite (fun _ ↦ paces_nothing) fun _ ↦
    .bind (linkKept_modify fun _ ↦ ⟨rfl, rfl, rfl, rfl, rfl⟩) fun _ ↦ ?_
  cases turn.command with
  | some command => exact .bind (linkKept_handleCommand command) fun _ ↦ hrest
  | none => exact hrest

/-- **A run keeps the pace.** -/
theorem paced_linkEvents (turns : List Turn) (h : Pacing events c) :
    LinkPaced (linkEvents c turns ++ events) := by
  induction turns generalizing c events with
  | nil => exact h.paced
  | cons turn turns ih =>
    rw [linkEvents]
    split
    · rename_i event hevent
      rw [List.append_assoc]
      exact ih (paces_turn (P := fun _ ↦ True) turn c h trivial event _ (Prod.ext hevent rfl))
    · rename_i error _
      exact nomatch error

/-- **The pace of polling**: in every run from a state without a code, whatever the server answers
and whatever else happens. -/
theorem link_paced (hcode : c.deviceCode.deviceCode.bytes = []) (hmono : Monotone c.mono)
    (turns : List Turn) : (∀ turn, Prog.EndsLike (watchedTurn turn) (controllerTurn turn)) ∧
      LinkPaced (linkEvents c turns) ∧
      ∀ events, serverInterval events + 5 * slowDowns events ≤ intervalInForce events := by
  have hstart : Pacing [] c := by
    refine ⟨hmono, ⟨fun later _ _ _ heq ↦ ?_, fun later _ _ _ _ _ heq ↦ ?_⟩,
      fun hsome ↦ absurd hcode hsome⟩
    · exact absurd heq.symm (by simp)
    · exact absurd heq.symm (by simp)
  have hrun := paced_linkEvents turns hstart
  rw [List.append_nil] at hrun
  exact ⟨watched_controllerTurn, hrun, serverInterval_le⟩

/-- A controller that is to ask for a code; its clock advances by four seconds from reading to
reading. -/
def linkingController : Controller :=
  { Controller.zero with
    client := { Client.zero with
      vibe := { VibeContext.zero with initialized := true }
      clock := fun _ ↦ 1784131200 }
    online := true
    requestCodeRetry := true
    nextRetryUs := 1
    mono := fun reading ↦ reading * 4000000 }

/-- A turn in which a poll would be answered so. -/
def pollTurn (result : Except (EspErr × Option VibeError) PollStatus) : Turn :=
  { Turn.silent with
    code := ⟨.ok (.ofBytes [0x6B], 60, 5), 200, 0⟩
    poll := ⟨result, 200, 0⟩ }

/-- A code comes, and is polled three times. -/
def linkingTurns : List Turn :=
  List.replicate 4 (pollTurn (.ok .pending)) ++
    List.replicate 3 (pollTurn (.ok (.slowDown 5))) ++
    List.replicate 8 (pollTurn (.error (.fail, none)))

/-- The pending poll, the one that is told to slow down, and the one that fails. -/
theorem link_paced_linking :
    linkEvents linkingController linkingTurns =
        [.polled 60000000 (.error .fail), .polled 40000000 (.ok (.slowDown 5)),
          .polled 24000000 (.ok .pending), .received 5 68] ∧
      LinkPaced (linkEvents linkingController linkingTurns) := by
  have hmono : Monotone linkingController.mono := by
    intro reading reading' hle
    show (reading : ℤ) * 4000000 ≤ (reading' : ℤ) * 4000000
    omega
  exact ⟨by rfl, (link_paced (c := linkingController) rfl hmono linkingTurns).2.1⟩

end VibeUsage
