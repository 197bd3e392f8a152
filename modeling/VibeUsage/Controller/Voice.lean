import VibeUsage.Lib.Machine

/-!
# A press for a voice request

The three flags of a voice request, `s_voice_pending`, `s_voice_held` and `s_voice_cancelled`, with
what sets and clears them: `app_controller_dispatch` and `app_controller_prepare_shutdown` on the
task of the display, `app_controller_voice_stop` on that of the buttons, and the controller. Every
load and every store is a step of its own, and the tasks take their steps in any order. What
`handle_voice` does before its last two stores only loads the flags.

Until a shutdown, `s_voice_pending` is set exactly while there is a request that was claimed, and
there is at most one (`consistent_of_run`).
-/

namespace VibeUsage.Voice

/-- An `app_intent_t`. -/
inductive Intent
  | refresh
  | reconcile
  | startWifi
  | reconfigureWifi
  | relink
  | unlink
  | toggleTimezone
  | cycleLanguage
  | cycleAlertVolume
  | factoryReset
  | todoVoiceStart
  | llmConfig
  | llmConfigClose
  | todoAck
  deriving DecidableEq, Repr

/-- The intents with which `app_controller_dispatch` cancels a voice request. -/
def Intent.cancels : Intent → Bool
  | .startWifi | .reconfigureWifi | .relink | .unlink | .toggleTimezone | .cycleAlertVolume
  | .factoryReset | .llmConfig | .llmConfigClose => true
  | _ => false

/-- A `command_t`. An intent carries the number of its dispatch, which the source does not have: it
tells the requests apart. -/
inductive Command
  | boot
  | wifiEvent
  | intent (intent : Intent) (number : ℕ)
  | shutdown
  deriving DecidableEq, Repr

/-- The task of the display, by what it does next. -/
inductive Ui
  | idle
  /-- The compare and exchange of `s_voice_pending`. -/
  | claim (number : ℕ)
  /-- `s_voice_held` is set. -/
  | hold (number : ℕ)
  /-- `s_voice_cancelled` is cleared. -/
  | clear (number : ℕ)
  /-- `s_voice_cancelled` is set, for an intent that cancels. -/
  | cancel (intent : Intent) (number : ℕ)
  /-- `s_voice_held` is cleared, for an intent that cancels. -/
  | drop (intent : Intent) (number : ℕ)
  /-- `xQueueSend` -/
  | send (intent : Intent) (number : ℕ)
  /-- `s_voice_pending` is cleared: the queue was full. -/
  | unclaim (number : ℕ)
  /-- `s_voice_held` is cleared: the queue was full. -/
  | unhold
  /-- `s_voice_cancelled` is set, for the shutdown. -/
  | cancelAll
  /-- `s_voice_held` is cleared, for the shutdown. -/
  | dropAll
  /-- The shutdown is sent as soon as there is room. -/
  | sendShutdown
  /-- `xEventGroupWaitBits` -/
  | awaitShutdown
  deriving DecidableEq, Repr

/-- The controller, by what it does next. -/
inductive Task
  | idle
  /-- `handle_voice`, up to the store that clears `s_voice_pending`. -/
  | voice (number : ℕ)
  /-- The store of `handle_voice` that clears `s_voice_held`. -/
  | release
  /-- A command that does not touch the flags. -/
  | other
  /-- `handle_shutdown` sets `shutting_down`. -/
  | shutdown
  /-- `handle_shutdown` clears `s_voice_pending`. -/
  | shutdownPending
  /-- `handle_shutdown` clears `s_voice_held`. -/
  | shutdownHeld
  deriving DecidableEq, Repr

/-- The flags, the queue and the tasks. -/
structure State where
  voicePending : Bool
  voiceHeld : Bool
  voiceCancelled : Bool
  shuttingDown : Bool
  queue : List Command
  ui : Ui
  task : Task
  /-- The dispatches so far. -/
  next : ℕ
  deriving DecidableEq, Repr

/-- A step of one of the tasks. -/
inductive Action
  /-- `app_controller_dispatch` is called, and loads `shutting_down`. -/
  | dispatch (intent : Intent)
  /-- `app_controller_prepare_shutdown` is called. -/
  | prepareShutdown
  /-- The task of the display goes on. -/
  | ui
  /-- The shutdown takes too long. -/
  | timeout
  /-- `app_controller_voice_stop` -/
  | voiceStop
  /-- Another task sends a command. -/
  | post
  /-- The controller takes a command. -/
  | receive
  /-- The controller goes on. -/
  | task
  deriving DecidableEq, Repr

/-- `APP_QUEUE_DEPTH` -/
def appQueueDepth : ℕ := 20

/-- After `app_controller_start`. -/
def State.started : State where
  voicePending := false
  voiceHeld := false
  voiceCancelled := false
  shuttingDown := false
  queue := [.boot]
  ui := .idle
  task := .idle
  next := 0

/-- What `app_controller_dispatch` does first with an intent. -/
def entry (intent : Intent) (number : ℕ) : Ui :=
  if intent = .todoVoiceStart then .claim number
  else if intent.cancels then .cancel intent number
  else .send intent number

/-- One step of the task of the display. -/
def uiStep (s : State) : Option State :=
  match s.ui with
  | .idle => none
  | .claim n =>
    if s.voicePending then some { s with ui := .idle }
    else some { s with voicePending := true, ui := .hold n }
  | .hold n => some { s with voiceHeld := true, ui := .clear n }
  | .clear n => some { s with voiceCancelled := false, ui := .send .todoVoiceStart n }
  | .cancel i n => some { s with voiceCancelled := true, ui := .drop i n }
  | .drop i n => some { s with voiceHeld := false, ui := .send i n }
  | .send i n =>
    if s.queue.length < appQueueDepth then
      some { s with queue := s.queue ++ [.intent i n], ui := .idle }
    else some { s with ui := if i = .todoVoiceStart then .unclaim n else .idle }
  | .unclaim _ => some { s with voicePending := false, ui := .unhold }
  | .unhold => some { s with voiceHeld := false, ui := .idle }
  | .cancelAll => some { s with voiceCancelled := true, ui := .dropAll }
  | .dropAll => some { s with voiceHeld := false, ui := .sendShutdown }
  | .sendShutdown =>
    if s.queue.length < appQueueDepth then
      some { s with queue := s.queue ++ [.shutdown], ui := .awaitShutdown }
    else none
  | .awaitShutdown => some { s with ui := .idle }

/-- One step of the controller. -/
def taskStep (s : State) : Option State :=
  match s.task with
  | .idle => none
  | .voice _ => some { s with voicePending := false, task := .release }
  | .release => some { s with voiceHeld := false, task := .idle }
  | .other => some { s with task := .idle }
  | .shutdown => some { s with shuttingDown := true, task := .shutdownPending }
  | .shutdownPending => some { s with voicePending := false, task := .shutdownHeld }
  | .shutdownHeld => some { s with voiceHeld := false, task := .idle }

/-- The controller when it takes a command: `handle_intent` returns at once during a shutdown. -/
def handling (shuttingDown : Bool) : Command → Task
  | .boot | .wifiEvent => .other
  | .intent i n =>
    if shuttingDown then .idle else if i = .todoVoiceStart then .voice n else .other
  | .shutdown => .shutdown

/-- One step. -/
def step (s : State) : Action → Option State
  | .dispatch i =>
    if s.ui ≠ .idle then none
    else if s.shuttingDown then some s
    else some { s with ui := entry i s.next, next := s.next + 1 }
  | .prepareShutdown => if s.ui ≠ .idle then none else some { s with ui := .cancelAll }
  | .ui => uiStep s
  | .timeout =>
    if s.ui = .sendShutdown ∨ s.ui = .awaitShutdown then some { s with ui := .idle } else none
  | .voiceStop => some { s with voiceHeld := false }
  | .post =>
    if s.queue.length < appQueueDepth then some { s with queue := s.queue ++ [.wifiEvent] }
    else some s
  | .receive =>
    match s.task, s.queue with
    | .idle, command :: rest =>
      some { s with queue := rest, task := handling s.shuttingDown command }
    | _, _ => none
  | .task => taskStep s

/-- A run of the tasks. -/
abbrev run : State → List Action → Option State := Machine.run step

/-- Neither a stop, nor a dispatch that cancels, nor a shutdown. -/
def Action.quiet : Action → Bool
  | .dispatch i => !i.cancels
  | .prepareShutdown | .voiceStop => false
  | _ => true

/-! ### Who holds the request -/

/-- The request that the display has claimed and not passed on. -/
def Ui.claims : Ui → List ℕ
  | .hold n | .clear n | .unclaim n => [n]
  | .cancel i n | .drop i n | .send i n => if i = .todoVoiceStart then [n] else []
  | _ => []

/-- The voice starts of a queue. -/
def starts (queue : List Command) : List ℕ :=
  queue.filterMap fun
    | .intent i n => if i = .todoVoiceStart then some n else none
    | _ => none

/-- The request that is handled. -/
def Task.handles : Task → List ℕ
  | .voice n => [n]
  | _ => []

/-- The dispatch that the display is in. -/
def Ui.dispatches : Ui → List ℕ
  | .claim n | .hold n | .clear n | .unclaim n | .cancel _ n | .drop _ n | .send _ n => [n]
  | _ => []

/-- The dispatches that have not reached the controller. -/
def State.numbers (s : State) : List ℕ := s.ui.dispatches ++ starts s.queue

/-- All claimed requests. -/
def State.claimed (s : State) : List ℕ := s.ui.claims ++ starts s.queue ++ s.task.handles

/-- What holds in every state: `s_voice_pending` says whether there is a claimed request, and there
is no second one. -/
structure Consistent (s : State) : Prop where
  /-- Until the shutdown. -/
  single : s.shuttingDown = false → s.claimed.length = if s.voicePending then 1 else 0
  /-- The numbers have been given. -/
  fresh : ∀ n ∈ s.numbers, n < s.next
  /-- Every dispatch has its own. -/
  nodup : s.numbers.Nodup
  /-- `handle_shutdown` sets `shutting_down` first. -/
  closing : s.task = .shutdownPending ∨ s.task = .shutdownHeld → s.shuttingDown = true

section

variable {s t : State} {n : ℕ} {i : Intent} {a : Action} {command : Command}
  {queue : List Command}

/-- The requests in a queue, part by part. -/
theorem starts_append (queue more : List Command) :
    starts (queue ++ more) = starts queue ++ starts more := List.filterMap_append

/-- The requests in a queue, command by command. -/
theorem starts_cons (command : Command) (queue : List Command) :
    starts (command :: queue) = starts [command] ++ starts queue :=
  starts_append [command] queue

/-- Only a voice intent is a request. -/
theorem starts_intent (i : Intent) (n : ℕ) :
    starts [.intent i n] = if i = .todoVoiceStart then [n] else [] := by
  cases i <;> rfl

/-- Another command adds none. -/
theorem starts_snoc_other (h : starts [command] = []) (queue : List Command) :
    starts (queue ++ [command]) = starts queue := by
  rw [starts_append, h, List.append_nil]

/-- A dispatch has claimed nothing when it begins. -/
theorem claims_entry (i : Intent) (n : ℕ) : (entry i n).claims = [] := by
  cases i <;> rfl

/-- It has its number. -/
theorem dispatches_entry (i : Intent) (n : ℕ) : (entry i n).dispatches = [n] := by
  cases i <;> rfl

/-- It does not begin by setting a flag. -/
theorem entry_ne_hold (i : Intent) (n m : ℕ) : entry i n ≠ .hold m := by
  unfold entry
  split_ifs <;> exact Ui.noConfusion

/-- The controller looks at a request before it releases it. -/
theorem handling_ne_release (shuttingDown : Bool) (command : Command) :
    handling shuttingDown command ≠ .release := by
  cases command with
  | intent i n =>
    rw [handling]
    split_ifs <;> exact Task.noConfusion
  | _ => exact Task.noConfusion

/-- Taking a command keeps the request that it starts. -/
theorem handles_handling (command : Command) :
    (handling false command).handles = starts [command] := by
  cases command with
  | intent i n => cases i <;> rfl
  | _ => rfl

/-- A command is no shutdown of the display. -/
theorem not_closing_handling (shuttingDown : Bool) (command : Command) :
    ¬(handling shuttingDown command = .shutdownPending ∨
      handling shuttingDown command = .shutdownHeld) := by
  cases shuttingDown <;> cases command with
  | intent i n => cases i <;> exact of_decide_eq_false rfl
  | _ => exact of_decide_eq_false rfl

/-! ### What a step does -/

/-- A dispatch goes from the display to the queue and from there to the controller, and a new one
has the next number. -/
theorem numbers_uiStep (h : uiStep s = some t) :
    t.numbers.Subperm s.numbers ∧ t.next = s.next := by
  obtain ⟨pending, held, cancelled, shutting, queue, ui, task, next⟩ := s
  have hdone : (starts queue).Subperm (ui.dispatches ++ starts queue) :=
    (List.sublist_append_right _ _).subperm
  cases ui with
  | idle => cases h
  | claim n =>
    dsimp only [uiStep] at h
    split at h
    · obtain rfl := Option.some.inj h
      exact ⟨hdone, rfl⟩
    · obtain rfl := Option.some.inj h
      exact ⟨List.Subperm.refl _, rfl⟩
  | hold n | clear n | cancel i n | drop i n =>
    obtain rfl := Option.some.inj h
    exact ⟨List.Subperm.refl _, rfl⟩
  | unclaim n | unhold | cancelAll | dropAll | awaitShutdown =>
    obtain rfl := Option.some.inj h
    exact ⟨hdone, rfl⟩
  | send i n =>
    dsimp only [uiStep] at h
    split at h
    · obtain rfl := Option.some.inj h
      refine ⟨?_, rfl⟩
      show (starts (queue ++ [.intent i n])).Subperm (n :: starts queue)
      rw [starts_append, starts_intent]
      split
      -- The number goes to the end of the queue.
      · exact List.perm_append_singleton n _ |>.subperm
      · rw [List.append_nil]
        exact hdone
    · obtain rfl := Option.some.inj h
      refine ⟨?_, rfl⟩
      dsimp only [State.numbers]
      split
      · exact List.Subperm.refl _
      · exact hdone
  | sendShutdown =>
    dsimp only [uiStep] at h
    split at h
    · obtain rfl := Option.some.inj h
      refine ⟨?_, rfl⟩
      show (starts (queue ++ [.shutdown])).Subperm (starts queue)
      rw [starts_snoc_other rfl]
    · cases h

/-- **A step** gives out the next number, or loses some. -/
theorem numbers_step (h : step s a = some t) :
    t.numbers.Subperm s.numbers ∧ t.next = s.next ∨
      t.numbers = s.next :: starts s.queue ∧ t.next = s.next + 1 := by
  have hdone : (starts s.queue).Subperm s.numbers := (List.sublist_append_right _ _).subperm
  cases a with
  | ui => exact Or.inl (numbers_uiStep h)
  | dispatch i =>
    rw [step] at h
    split at h
    · cases h
    split at h
    · obtain rfl := Option.some.inj h
      exact Or.inl ⟨List.Subperm.refl _, rfl⟩
    obtain rfl := Option.some.inj h
    -- Only a dispatch gives out a number.
    refine Or.inr ⟨?_, rfl⟩
    rw [State.numbers, dispatches_entry, List.singleton_append]
  | prepareShutdown =>
    rw [step] at h
    split at h
    · cases h
    obtain rfl := Option.some.inj h
    exact Or.inl ⟨hdone, rfl⟩
  | timeout =>
    rw [step] at h
    split at h
    · obtain rfl := Option.some.inj h
      exact Or.inl ⟨hdone, rfl⟩
    · cases h
  | voiceStop =>
    obtain rfl := Option.some.inj h
    exact Or.inl ⟨List.Subperm.refl _, rfl⟩
  | post =>
    rw [step] at h
    split at h
    · obtain rfl := Option.some.inj h
      refine Or.inl ⟨?_, rfl⟩
      rw [State.numbers, starts_snoc_other rfl]
      exact List.Subperm.refl _
    · obtain rfl := Option.some.inj h
      exact Or.inl ⟨List.Subperm.refl _, rfl⟩
  | receive =>
    rw [step] at h
    split at h
    · rename_i command rest htask hqueue
      obtain rfl := Option.some.inj h
      refine Or.inl ⟨?_, rfl⟩
      rw [State.numbers, State.numbers, hqueue, starts_cons]
      exact ((List.Sublist.refl _).append (List.sublist_append_right _ _)).subperm
    · cases h
  | task =>
    obtain ⟨pending, held, cancelled, shutting, queue, ui, task, next⟩ := s
    cases task with
    | idle => cases h
    | _ =>
      obtain rfl := Option.some.inj h
      exact Or.inl ⟨List.Subperm.refl _, rfl⟩

/-- The display leaves `shutting_down` and the controller alone. -/
theorem uiStep_frame (h : uiStep s = some t) :
    t.shuttingDown = s.shuttingDown ∧ t.task = s.task := by
  unfold uiStep at h
  split at h
  -- three steps have two outcomes each
  case h_2 | h_7 | h_12 => split at h <;> cases h <;> exact ⟨rfl, rfl⟩
  all_goals cases h
  all_goals exact ⟨rfl, rfl⟩

/-- The other tasks do, too. -/
theorem step_frame (h : step s a = some t) (htask : a ≠ .task) (hreceive : a ≠ .receive) :
    t.shuttingDown = s.shuttingDown ∧ t.task = s.task := by
  cases a with
  | ui => exact uiStep_frame h
  | task => exact absurd rfl htask
  | receive => exact absurd rfl hreceive
  | voiceStop =>
    cases h
    exact ⟨rfl, rfl⟩
  | dispatch i | prepareShutdown | timeout | post =>
    rw [step] at h
    split_ifs at h <;> cases h <;> exact ⟨rfl, rfl⟩

/-- `shutting_down` is never cleared. -/
theorem shuttingDown_step (h : step s a = some t) (hs : s.shuttingDown = true) :
    t.shuttingDown = true := by
  by_cases htask : a = .task
  · subst htask
    rw [step, taskStep] at h
    split at h <;> cases h <;> first | exact hs | rfl
  by_cases hreceive : a = .receive
  · subst hreceive
    rw [step] at h
    split at h
    · cases h
      exact hs
    · cases h
  · exact (step_frame h htask hreceive).1.trans hs

/-! ### One request at a time -/

/-- The numbers stay different and below the next. -/
theorem Consistent.of_numbers (hs : Consistent s)
    (hnumbers : t.numbers.Subperm s.numbers ∧ t.next = s.next ∨
      t.numbers = s.next :: starts s.queue ∧ t.next = s.next + 1)
    (hsingle : t.shuttingDown = false → t.claimed.length = if t.voicePending then 1 else 0)
    (hclosing : t.task = .shutdownPending ∨ t.task = .shutdownHeld → t.shuttingDown = true) :
    Consistent t := by
  rcases hnumbers with ⟨hsub, hnext⟩ | ⟨hnew, hnext⟩
  · obtain ⟨l, hperm, hsublist⟩ := hsub
    refine ⟨hsingle, fun n hn ↦ ?_, hperm.nodup_iff.1 (hs.nodup.sublist hsublist), hclosing⟩
    rw [hnext]
    exact hs.fresh n (hsublist.subset (hperm.mem_iff.2 hn))
  · have hqueue : ∀ n ∈ starts s.queue, n < s.next := fun n hn ↦
      hs.fresh n (List.mem_append_right _ hn)
    refine ⟨hsingle, fun n hn ↦ ?_, ?_, hclosing⟩
    · rw [hnew, List.mem_cons] at hn
      rw [hnext]
      rcases hn with rfl | hn
      · exact Nat.lt_succ_self _
      · exact Nat.lt_succ_of_lt (hqueue n hn)
    · rw [hnew]
      exact List.nodup_cons.2 ⟨fun hn ↦ lt_irrefl _ (hqueue _ hn),
        hs.nodup.sublist (List.sublist_append_right _ _)⟩

/-- **The flag counts the claims**, over a step of the display. -/
theorem single_uiStep (h : uiStep s = some t)
    (hs : s.claimed.length = if s.voicePending then 1 else 0) :
    t.claimed.length = if t.voicePending then 1 else 0 := by
  obtain ⟨pending, held, cancelled, shutting, queue, ui, task, next⟩ := s
  cases ui with
  | idle => cases h
  | claim n =>
    dsimp only [uiStep] at h
    split at h
    · obtain rfl := Option.some.inj h
      exact hs
    · rename_i hpending
      obtain rfl := Option.some.inj h
      rw [if_neg hpending] at hs
      show (n :: (starts queue ++ task.handles)).length = 1
      rw [List.length_cons]
      exact congrArg (· + 1) hs
  | hold n | clear n | cancel i n | drop i n | unhold | cancelAll | dropAll | awaitShutdown =>
    obtain rfl := Option.some.inj h
    exact hs
  | send i n =>
    -- The claim goes from the display to the queue, or stays when the queue is full.
    have hclaims : ((if i = .todoVoiceStart then [n] else []) ++ starts queue ++
        task.handles).length = if pending then 1 else 0 := hs
    dsimp only [uiStep] at h
    split at h
    · obtain rfl := Option.some.inj h
      rw [← hclaims]
      show (starts (queue ++ [.intent i n]) ++ task.handles).length = _
      rw [starts_append, starts_intent]
      simp only [List.length_append]
      omega
    · obtain rfl := Option.some.inj h
      by_cases hvoice : i = .todoVoiceStart
      · rw [if_pos hvoice] at hclaims ⊢
        exact hclaims
      · rw [if_neg hvoice] at hclaims ⊢
        exact hclaims
  | unclaim n =>
    obtain rfl := Option.some.inj h
    have hone : (n :: (starts queue ++ task.handles)).length = if pending then 1 else 0 := hs
    show (starts queue ++ task.handles).length = 0
    rw [List.length_cons] at hone
    split at hone <;> omega
  | sendShutdown =>
    dsimp only [uiStep] at h
    split at h
    · obtain rfl := Option.some.inj h
      rw [State.claimed, starts_snoc_other rfl]
      exact hs
    · cases h

/-- A step of the controller keeps the state consistent. -/
theorem consistent_taskStep (hs : Consistent s) (h : step s .task = some t) : Consistent t := by
  have hof := hs.of_numbers (numbers_step h)
  have hsingle := hs.single
  have hclosing := hs.closing
  obtain ⟨pending, held, cancelled, shutting, queue, ui, task, next⟩ := s
  cases task with
  | idle => cases h
  | voice n =>
    obtain rfl := Option.some.inj h
    refine hof (fun hshutting ↦ ?_) fun hnot ↦ absurd hnot (of_decide_eq_false rfl)
    have hone : (ui.claims ++ starts queue ++ [n]).length = if pending then 1 else 0 :=
      hsingle hshutting
    show (ui.claims ++ starts queue ++ []).length = 0
    rw [List.length_append, List.length_singleton] at hone
    rw [List.append_nil]
    split at hone <;> omega
  | release | other =>
    obtain rfl := Option.some.inj h
    exact hof hsingle fun hnot ↦ absurd hnot (of_decide_eq_false rfl)
  | shutdown =>
    obtain rfl := Option.some.inj h
    exact hof (fun hshutting ↦ Bool.noConfusion hshutting) fun _ ↦ rfl
  | shutdownPending =>
    obtain rfl := Option.some.inj h
    have hshut : shutting = true := hclosing (Or.inl rfl)
    exact hof (fun hshutting ↦ absurd hshutting (hshut ▸ Bool.noConfusion)) fun _ ↦ hshut
  | shutdownHeld =>
    obtain rfl := Option.some.inj h
    exact hof hsingle fun hnot ↦ absurd hnot (of_decide_eq_false rfl)

/-- The display has claimed nothing, before the step and after it. -/
theorem single_of_claims_nil (hs : s.claimed.length = if s.voicePending then 1 else 0)
    (hbefore : s.ui.claims = []) (hafter : t.ui.claims = [])
    (hsame : t.queue = s.queue ∧ t.task = s.task ∧ t.voicePending = s.voicePending) :
    t.claimed.length = if t.voicePending then 1 else 0 := by
  obtain ⟨hqueue, htask, hpending⟩ := hsame
  rw [State.claimed, hafter, hqueue, htask, hpending, ← hbefore]
  exact hs

/-- **One request at a time**, whatever the order of the steps. -/
theorem consistent_step (hs : Consistent s) (h : step s a = some t) : Consistent t := by
  -- The steps of the controller empty the queue or clear a flag, and are looked at apart.
  by_cases htask : a = .task
  · subst htask
    exact consistent_taskStep hs h
  have hof := hs.of_numbers (numbers_step h)
  by_cases hreceive : a = .receive
  · subst hreceive
    rw [step] at h
    split at h
    · rename_i command rest hidle hqueue
      obtain rfl := Option.some.inj h
      refine hof (fun hshutting ↦ ?_) fun hnot ↦ absurd hnot (not_closing_handling _ command)
      have hsingle := hs.single hshutting
      have hshut : s.shuttingDown = false := hshutting
      rw [State.claimed, hidle, hqueue, starts_cons] at hsingle
      rw [State.claimed, hshut, handles_handling, ← hsingle]
      simp only [List.length_append, Task.handles, List.length_nil]
      omega
    · cases h
  obtain ⟨hshut, htask'⟩ := step_frame h htask hreceive
  have hclosing : t.task = .shutdownPending ∨ t.task = .shutdownHeld → t.shuttingDown = true := by
    rw [hshut, htask']
    exact hs.closing
  -- Every other step leaves the shutdown alone, so only the claims have to be counted.
  refine hof (fun hshutting ↦ ?_) hclosing
  have hsingle := hs.single (hshut.symm.trans hshutting)
  cases a with
  | ui => exact single_uiStep h hsingle
  | task => exact absurd rfl htask
  | receive => exact absurd rfl hreceive
  | voiceStop =>
    obtain rfl := Option.some.inj h
    exact hsingle
  | dispatch i =>
    rw [step] at h
    split at h
    · cases h
    rename_i hidle
    have hui : s.ui = .idle := not_not.1 hidle
    split at h
    · obtain rfl := Option.some.inj h
      exact hsingle
    obtain rfl := Option.some.inj h
    exact single_of_claims_nil hsingle (by rw [hui]; rfl) (claims_entry i s.next) ⟨rfl, rfl, rfl⟩
  | prepareShutdown =>
    rw [step] at h
    split at h
    · cases h
    rename_i hidle
    have hui : s.ui = .idle := not_not.1 hidle
    obtain rfl := Option.some.inj h
    exact single_of_claims_nil hsingle (by rw [hui]; rfl) rfl ⟨rfl, rfl, rfl⟩
  | timeout =>
    rw [step] at h
    split at h
    · rename_i hwaits
      obtain rfl := Option.some.inj h
      have hclaims : s.ui.claims = [] := by rcases hwaits with hui | hui <;> rw [hui] <;> rfl
      exact single_of_claims_nil hsingle hclaims rfl ⟨rfl, rfl, rfl⟩
    · cases h
  | post =>
    rw [step] at h
    split at h
    · obtain rfl := Option.some.inj h
      rw [State.claimed, starts_snoc_other rfl]
      exact hsingle
    · obtain rfl := Option.some.inj h
      exact hsingle

/-- At the start nothing has been claimed. -/
theorem consistent_started : Consistent State.started where
  single _ := rfl
  fresh := by decide
  nodup := by decide
  closing := by decide

/-- **Every reachable state** is consistent. -/
theorem consistent_of_run {actions : List Action} (h : run .started actions = some s) :
    Consistent s :=
  Machine.run_invariant (fun _ _ _ (_ : True) hs hstep ↦ consistent_step hs hstep)
    (fun _ _ ↦ trivial) consistent_started h

end

end VibeUsage.Voice
