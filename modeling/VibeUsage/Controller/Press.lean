import VibeUsage.Controller.Voice

/-!
# What becomes of a press

A press for a voice request from the store of its `s_voice_held` to the beginning of its handling:
it waits on the task of the display or in the queue, and no other request is claimed meanwhile.

`handle_voice` releases `s_voice_pending` before it clears `s_voice_held`. A press that comes
between the two stores is accepted, and its `s_voice_held` is cleared with the old one
(`voiceStart_found_iff`).

* `Waits` is the press on its way, `Kept` its flags, `Lost` what becomes of them when they are
  cleared.
* `follows_step` is the step, whichever task makes it.
* `voiceStart_found_iff` is about every run after the press that has no stop, no cancelling intent
  and no shutdown: the flags are found exactly when no release was under way.
* `voiceStart_lost` is a run of two presses in which the second one is lost.
-/

namespace VibeUsage.Voice

section

variable {s t : State} {n : ℕ} {a : Action}

/-! ### A claimed request -/

/-- The request has reached its handling, or there will be none. -/
def Over (n : ℕ) (s : State) : Prop := n < s.next ∧ n ∉ s.numbers

/-- The request has been held, and the controller has not taken it. -/
structure Waits (n : ℕ) (s : State) : Prop where
  claimed : s.ui.claims = [n] ∧ starts s.queue = [] ∨ s.ui.claims = [] ∧ starts s.queue = [n]
  free : s.task.handles = []
  pending : s.voicePending = true
  held : s.ui ≠ .hold n

/-- A press that is over stays over. -/
theorem over_step (ho : Over n s) (h : step s a = some t) : Over n t := by
  obtain ⟨hlt, hnot⟩ := ho
  rcases numbers_step h with ⟨hsub, hnext⟩ | ⟨hnew, hnext⟩
  · exact ⟨hnext ▸ hlt, fun hn ↦ hnot (hsub.subset hn)⟩
  · refine ⟨hnext ▸ Nat.lt_succ_of_lt hlt, fun hn ↦ ?_⟩
    rw [hnew, List.mem_cons] at hn
    rcases hn with rfl | hn
    · exact lt_irrefl _ hlt
    · exact hnot (List.mem_append_right _ hn)

/-- The display ends a press, or leaves it waiting. -/
theorem over_or_waits_uiStep (hs : Consistent s) (hw : Waits n s) (h : uiStep s = some t) :
    Over n t ∨ Waits n t := by
  obtain ⟨hclaimed, hfree, hpending, hheld⟩ := hw
  have hfresh := hs.fresh
  obtain ⟨pending, held, cancelled, shutting, queue, ui, task, next⟩ := s
  -- One case for each line that the display may be at.
  cases ui with
  | idle => cases h
  | claim m =>
    dsimp only at hpending
    subst hpending
    obtain rfl := Option.some.inj h
    exact Or.inr ⟨hclaimed, hfree, rfl, nofun⟩
  | hold m =>
    rcases hclaimed with ⟨hm, -⟩ | ⟨hm, -⟩
    · obtain rfl := List.singleton_inj.1 hm
      exact absurd rfl hheld
    · cases hm
  | clear m | cancel i m | drop i m | unhold | cancelAll | dropAll | awaitShutdown =>
    obtain rfl := Option.some.inj h
    exact Or.inr ⟨hclaimed, hfree, hpending, nofun⟩
  | send i m =>
    have hclaims : (if i = .todoVoiceStart then [m] else []) = [n] ∧ starts queue = [] ∨
        (if i = .todoVoiceStart then [m] else []) = [] ∧ starts queue = [n] := hclaimed
    dsimp only [uiStep] at h
    split at h
    · obtain rfl := Option.some.inj h
      refine Or.inr ⟨Or.inr ⟨rfl, ?_⟩, hfree, hpending, nofun⟩
      show starts (queue ++ [.intent i m]) = [n]
      rw [starts_append, starts_intent]
      rcases hclaims with ⟨hm, hqueue⟩ | ⟨hm, hqueue⟩
      · rw [hm, hqueue, List.nil_append]
      · rw [hm, hqueue, List.append_nil]
    · obtain rfl := Option.some.inj h
      by_cases hvoice : i = .todoVoiceStart
      · rw [if_pos hvoice] at hclaims ⊢
        exact Or.inr ⟨hclaims, hfree, hpending, nofun⟩
      · rw [if_neg hvoice] at hclaims ⊢
        exact Or.inr ⟨hclaims, hfree, hpending, nofun⟩
  | unclaim m =>
    obtain rfl := Option.some.inj h
    rcases hclaimed with ⟨hm, hqueue⟩ | ⟨hm, -⟩
    · obtain rfl := List.singleton_inj.1 hm
      -- The queue was full, so the claim is given back and the press is over.
      refine Or.inl ⟨hfresh m List.mem_cons_self, fun hn ↦ ?_⟩
      have hn' : m ∈ starts queue := hn
      have hqueue' : starts queue = [] := hqueue
      rw [hqueue'] at hn'
      cases hn'
    · cases hm
  | sendShutdown =>
    dsimp only [uiStep] at h
    split at h
    · obtain rfl := Option.some.inj h
      refine Or.inr ⟨?_, hfree, hpending, nofun⟩
      dsimp only
      rw [starts_snoc_other rfl]
      exact hclaimed
    · cases h

/-- The request reaches the controller, or it goes on waiting. -/
theorem over_or_waits_step (hs : Consistent s) (hw : Waits n s) (h : step s a = some t) :
    t.shuttingDown = true ∨ Over n t ∨ Waits n t := by
  cases a with
  | ui => exact Or.inr (over_or_waits_uiStep hs hw h)
  | task =>
    obtain ⟨hclaimed, hfree, hpending, hheld⟩ := hw
    have hclosing := hs.closing
    obtain ⟨pending, held, cancelled, shutting, queue, ui, task, next⟩ := s
    cases task with
    | idle => cases h
    | voice m => cases hfree
    | release | other =>
      obtain rfl := Option.some.inj h
      exact Or.inr (Or.inr ⟨hclaimed, rfl, hpending, hheld⟩)
    | shutdown =>
      obtain rfl := Option.some.inj h
      exact Or.inl rfl
    | shutdownPending =>
      obtain rfl := Option.some.inj h
      exact Or.inl (hclosing (Or.inl rfl))
    | shutdownHeld =>
      obtain rfl := Option.some.inj h
      exact Or.inl (hclosing (Or.inr rfl))
  | receive =>
    rw [step] at h
    split at h
    · rename_i command rest hidle hqueue
      obtain rfl := Option.some.inj h
      by_cases hshut : s.shuttingDown = true
      · exact Or.inl hshut
      rw [Bool.not_eq_true] at hshut
      have hstarts : starts s.queue = starts [command] ++ starts rest := by
        rw [hqueue, starts_cons]
      have hhandles := handles_handling command
      rw [← hshut] at hhandles
      cases hcommand : starts [command] with
      | nil =>
        rw [hcommand] at hstarts hhandles
        refine Or.inr (Or.inr ⟨?_, hhandles, hw.pending, hw.held⟩)
        have hclaimed := hw.claimed
        rw [hstarts] at hclaimed
        exact hclaimed
      | cons m more =>
        -- it is the only voice start there is
        rcases hw.claimed with ⟨-, hnone⟩ | ⟨-, hone⟩
        · rw [hstarts, hcommand] at hnone
          cases hnone
        have hnodup := hs.nodup
        rw [State.numbers, hone] at hnodup
        have hlt : n < s.next := hs.fresh n
          (List.mem_append_right _ (hone ▸ List.mem_singleton_self n))
        rw [hone, hcommand] at hstarts
        obtain ⟨-, htail⟩ := List.cons.inj hstarts
        obtain ⟨-, hrest⟩ := List.append_eq_nil_iff.1 htail.symm
        refine Or.inr (Or.inl ⟨hlt, fun hn ↦ ?_⟩)
        have hn' : n ∈ s.ui.dispatches ++ starts rest := hn
        rw [hrest, List.append_nil] at hn'
        exact (List.nodup_append.1 hnodup).2.2 n hn' n (List.mem_singleton_self n) rfl
    · cases h
  | voiceStop =>
    obtain rfl := Option.some.inj h
    exact Or.inr (Or.inr ⟨hw.claimed, hw.free, hw.pending, hw.held⟩)
  | post =>
    rw [step] at h
    split at h
    · obtain rfl := Option.some.inj h
      refine Or.inr (Or.inr ⟨?_, hw.free, hw.pending, hw.held⟩)
      dsimp only
      rw [starts_snoc_other rfl]
      exact hw.claimed
    · obtain rfl := Option.some.inj h
      exact Or.inr (Or.inr hw)
  | dispatch i =>
    rw [step] at h
    split at h
    · cases h
    rename_i hidle
    have hui : s.ui = .idle := not_not.1 hidle
    split at h
    · obtain rfl := Option.some.inj h
      exact Or.inr (Or.inr hw)
    obtain rfl := Option.some.inj h
    have hclaimed := hw.claimed
    refine Or.inr (Or.inr ⟨?_, hw.free, hw.pending, ?_⟩)
    · dsimp only
      rw [hui] at hclaimed
      rw [claims_entry]
      exact hclaimed
    · exact entry_ne_hold i _ n
  | prepareShutdown =>
    rw [step] at h
    split at h
    · cases h
    rename_i hidle
    have hui : s.ui = .idle := not_not.1 hidle
    obtain rfl := Option.some.inj h
    have hclaimed := hw.claimed
    rw [hui] at hclaimed
    exact Or.inr (Or.inr ⟨hclaimed, hw.free, hw.pending, Ui.noConfusion⟩)
  | timeout =>
    rw [step] at h
    split at h
    · rename_i hwaits
      obtain rfl := Option.some.inj h
      have hclaims : s.ui.claims = [] := by rcases hwaits with hui | hui <;> rw [hui] <;> rfl
      have hclaimed := hw.claimed
      rw [hclaims] at hclaimed
      exact Or.inr (Or.inr ⟨hclaimed, hw.free, hw.pending, Ui.noConfusion⟩)
    · cases h

/-! ### Its flags -/

/-- The display is about to cancel a request. -/
def Ui.cancelling : Ui → Bool
  | .cancel _ _ | .drop _ _ | .unhold | .cancelAll | .dropAll => true
  | _ => false

/-- The flags of the press are there, and nothing is about to take them away. -/
structure Kept (n : ℕ) (s : State) : Prop where
  held : s.voiceHeld = true
  cancelled : s.ui = .clear n ∨ s.voiceCancelled = false
  task : s.task ≠ .release
  ui : s.ui.cancelling = false

/-- The press is no longer seen, or the controller is about to clear it. -/
def Lost (s : State) : Prop := s.task = .release ∨ s.voiceHeld = false

/-- While a press waits, the display does not touch its flags. -/
theorem kept_uiStep (hw : Waits n s) (hk : Kept n s) (h : uiStep s = some t) (hw' : Waits n t) :
    Kept n t := by
  obtain ⟨hheld, hcancelled, htask, hui⟩ := hk
  have hclaimed := hw.claimed
  have hpending := hw.pending
  have hnot := hw.held
  obtain ⟨pending, held, cancelled, shutting, queue, ui, task, next⟩ := s
  cases ui with
  | idle => cases h
  | claim m =>
    dsimp only at hpending
    subst hpending
    obtain rfl := Option.some.inj h
    exact ⟨hheld, Or.inr (hcancelled.resolve_left nofun), htask, rfl⟩
  | hold m =>
    rcases hclaimed with ⟨hm, -⟩ | ⟨hm, -⟩
    · obtain rfl := List.singleton_inj.1 hm
      exact absurd rfl hnot
    · cases hm
  | clear m =>
    obtain rfl := Option.some.inj h
    exact ⟨hheld, Or.inr rfl, htask, rfl⟩
  | cancel i m | drop i m | unhold | cancelAll | dropAll => cases hui
  | send i m =>
    have hcancelled' : cancelled = false := hcancelled.resolve_left nofun
    dsimp only [uiStep] at h
    split at h
    · obtain rfl := Option.some.inj h
      exact ⟨hheld, Or.inr hcancelled', htask, rfl⟩
    · obtain rfl := Option.some.inj h
      refine ⟨hheld, Or.inr hcancelled', htask, ?_⟩
      dsimp only
      split <;> rfl
  | unclaim m =>
    -- the request has not been sent
    obtain rfl := Option.some.inj h
    cases hw'.pending
  | sendShutdown =>
    dsimp only [uiStep] at h
    split at h
    · obtain rfl := Option.some.inj h
      exact ⟨hheld, Or.inr (hcancelled.resolve_left nofun), htask, rfl⟩
    · cases h
  | awaitShutdown =>
    obtain rfl := Option.some.inj h
    exact ⟨hheld, Or.inr (hcancelled.resolve_left nofun), htask, rfl⟩

/-- **No task** touches the flags of a press that waits, but for its release or a shutdown. -/
theorem kept_step (hs : Consistent s) (hw : Waits n s) (hk : Kept n s) (hquiet : a.quiet = true)
    (h : step s a = some t) (hshut : t.shuttingDown = false) (hw' : Waits n t) : Kept n t := by
  cases a with
  | ui => exact kept_uiStep hw hk h hw'
  | task =>
    obtain ⟨hheld, hcancelled, htask, hui⟩ := hk
    have hfree := hw.free
    have hclosing := hs.closing
    obtain ⟨pending, held, cancelled, shutting, queue, ui, task, next⟩ := s
    cases task with
    | idle => cases h
    | voice m => cases hfree
    | release => exact absurd rfl htask
    | other | shutdown | shutdownPending =>
      obtain rfl := Option.some.inj h
      exact ⟨hheld, hcancelled, nofun, hui⟩
    | shutdownHeld =>
      obtain rfl := Option.some.inj h
      exact absurd hshut (hclosing (Or.inr rfl) ▸ Bool.noConfusion)
  | receive =>
    rw [step] at h
    split at h
    · rename_i command rest hidle hqueue
      obtain rfl := Option.some.inj h
      exact ⟨hk.held, hk.cancelled, handling_ne_release _ command, hk.ui⟩
    · cases h
  | voiceStop | prepareShutdown => cases hquiet
  | dispatch i =>
    rw [step] at h
    split at h
    · cases h
    rename_i hidle
    have hui : s.ui = .idle := not_not.1 hidle
    split at h
    · obtain rfl := Option.some.inj h
      exact hk
    obtain rfl := Option.some.inj h
    refine ⟨hk.held, Or.inr (hk.cancelled.resolve_left fun hclear ↦ ?_), hk.task, ?_⟩
    · rw [hui] at hclear
      cases hclear
    · -- an intent that does not cancel
      have hcancels : i.cancels = false := Bool.not_eq_true' _ ▸ hquiet
      dsimp only
      cases i <;> first | rfl | cases hcancels
  | timeout =>
    rw [step] at h
    split at h
    · rename_i hwaits
      obtain rfl := Option.some.inj h
      refine ⟨hk.held, Or.inr (hk.cancelled.resolve_left fun hclear ↦ ?_), hk.task, rfl⟩
      rcases hwaits with hui | hui <;> rw [hui] at hclear <;> cases hclear
    · cases h
  | post =>
    rw [step] at h
    split at h <;> obtain rfl := Option.some.inj h
    · exact ⟨hk.held, hk.cancelled, hk.task, hk.ui⟩
    · exact hk

/-- A press that has been lost is not found again. -/
theorem lost_step (hw : Waits n s) (hl : Lost s) (h : step s a = some t) : Lost t := by
  by_cases htask : a = .task
  · subst htask
    rw [step, taskStep] at h
    split at h <;> rename_i hpc
    · cases h
    · have hfree := hw.free
      rw [hpc] at hfree
      cases hfree
    · cases h
      exact Or.inr rfl
    all_goals
      have hheld := hl.resolve_left fun hrelease ↦ by rw [hpc] at hrelease; cases hrelease
      cases h
      first | exact Or.inr hheld | exact Or.inr rfl
  by_cases hreceive : a = .receive
  · subst hreceive
    rw [step] at h
    split at h
    · rename_i hidle _
      cases h
      exact Or.inr (hl.resolve_left fun hrelease ↦ by rw [hidle] at hrelease; cases hrelease)
    · cases h
  obtain ⟨-, hsame⟩ := step_frame h htask hreceive
  rcases hl with hrelease | hheld
  · exact Or.inl (hsame.trans hrelease)
  refine Or.inr ?_
  cases a with
  | ui =>
    rw [step, uiStep] at h
    split at h <;> rename_i hpc
    case h_3 =>
      -- a second press is not held before this one is over
      rcases hw.claimed with ⟨hm, -⟩ | ⟨hm, -⟩
      · rw [hpc] at hm
        obtain rfl := List.singleton_inj.1 hm
        exact absurd hpc hw.held
      · rw [hpc] at hm
        cases hm
    case h_1 => cases h
    case h_2 | h_7 | h_12 => split at h <;> cases h <;> exact hheld
    all_goals
      cases h
      first | exact hheld | rfl
  | task => exact absurd rfl htask
  | receive => exact absurd rfl hreceive
  | voiceStop =>
    cases h
    rfl
  | dispatch i | prepareShutdown | timeout | post =>
    rw [step] at h
    split_ifs at h <;> cases h <;> exact hheld

/-! ### From the press to its handling -/

/-- The press of a request, and what comes of it: with the flags it set, or without them. -/
def Follows (n : ℕ) (seen : Bool) (s : State) : Prop :=
  Consistent s ∧ (s.shuttingDown = true ∨ Over n s ∨
    Waits n s ∧ if seen then Kept n s else Lost s)

/-- **A step** keeps what is known of the press. -/
theorem follows_step {seen : Bool} (hquiet : a.quiet = true) (hf : Follows n seen s)
    (h : step s a = some t) : Follows n seen t := by
  obtain ⟨hs, hphase⟩ := hf
  refine ⟨consistent_step hs h, ?_⟩
  rcases hphase with hshut | hover | ⟨hwaits, hflags⟩
  · exact Or.inl (shuttingDown_step h hshut)
  · exact Or.inr (Or.inl (over_step hover h))
  rcases over_or_waits_step hs hwaits h with hshut | hover | hwaits'
  · exact Or.inl hshut
  · exact Or.inr (Or.inl hover)
  cases hshut : t.shuttingDown with
  | true => exact Or.inl rfl
  | false =>
    refine Or.inr (Or.inr ⟨hwaits', ?_⟩)
    cases seen with
    | true => exact kept_step hs hwaits hflags hquiet h hshut hwaits'
    | false => exact lost_step hwaits hflags h

/-- The store of `s_voice_held`, by itself. -/
theorem follows_hold (hs : Consistent s) (hui : s.ui = .hold n) (h : step s .ui = some t) :
    Follows n (decide (s.task ≠ .release)) t := by
  refine ⟨consistent_step hs h, ?_⟩
  cases hshut : s.shuttingDown with
  | true => exact Or.inl (shuttingDown_step h hshut)
  | false =>
    have hsingle := hs.single hshut
    have hclaims : s.ui.claims = [n] := by
      rw [hui]
      rfl
    rw [State.claimed, hclaims, List.length_append, List.length_append,
      List.length_singleton] at hsingle
    have hpending : s.voicePending = true := by
      by_contra hnot
      rw [if_neg hnot] at hsingle
      omega
    rw [if_pos hpending] at hsingle
    have hqueue : starts s.queue = [] := List.eq_nil_of_length_eq_zero (by omega)
    have hfree : s.task.handles = [] := List.eq_nil_of_length_eq_zero (by omega)
    rw [step, uiStep, hui] at h
    obtain rfl := Option.some.inj h
    refine Or.inr (Or.inr ⟨⟨Or.inl ⟨rfl, hqueue⟩, hfree, hpending, Ui.noConfusion⟩, ?_⟩)
    by_cases htask : s.task = .release
    · rw [if_neg (by simp [htask])]
      exact Or.inl htask
    · rw [if_pos (by simp [htask])]
      exact ⟨rfl, Or.inl rfl, htask, rfl⟩

/-- The controller takes a voice start: it is the front of the queue, and there is no shutdown. -/
theorem receive_voice (h : step s .receive = some t) (ht : t.task = .voice n) :
    s.shuttingDown = false ∧ n ∈ starts s.queue ∧ s.task = .idle ∧ t.voiceHeld = s.voiceHeld ∧
      t.voiceCancelled = s.voiceCancelled := by
  rw [step] at h
  split at h
  · rename_i command rest hidle hqueue
    obtain rfl := Option.some.inj h
    dsimp only at ht
    cases hshut : s.shuttingDown with
    | true =>
      rw [hshut] at ht
      cases command <;> cases ht
    | false =>
      rw [hshut] at ht
      have hhandles := handles_handling command
      rw [ht] at hhandles
      refine ⟨rfl, ?_, hidle, rfl, rfl⟩
      rw [hqueue, starts_cons, ← hhandles]
      exact List.mem_append_left _ (List.mem_singleton_self n)
  · cases h

/-- **When a press is found.** A voice start that is sent and followed by no stop, no intent that
cancels and no shutdown finds its flags when its handling begins, unless its `s_voice_held` was set
between the last two stores of the handling before. Then it never does. -/
theorem voiceStart_found_iff {before after : List Action} {s u t : State} {n : ℕ}
    (hbefore : run .started before = some s) (hpress : s.ui = .hold n)
    (hafter : run s (.ui :: after) = some u) (hquiet : ∀ a ∈ after, a.quiet = true)
    (hbegins : step u .receive = some t) (hown : t.task = .voice n) :
    (t.voiceHeld = true ∧ t.voiceCancelled = false) ↔ s.task ≠ .release := by
  obtain ⟨v, hhold, hrest⟩ := Machine.run_cons.1 hafter
  have hfollows : Follows n (decide (s.task ≠ .release)) u :=
    Machine.run_invariant (fun _ _ _ ha hs hstep ↦ follows_step ha hs hstep) hquiet
      (follows_hold (consistent_of_run hbefore) hpress hhold) hrest
  obtain ⟨hshut, hmem, hidle, hheld, hcancelled⟩ := receive_voice hbegins hown
  obtain ⟨hu, hphase⟩ := hfollows
  rw [hheld, hcancelled]
  rcases hphase with hshut' | hover | ⟨hwaits, hflags⟩
  · rw [hshut] at hshut'
    cases hshut'
  · exact absurd (List.mem_append_right _ hmem) hover.2
  by_cases htask : s.task = .release
  · rw [if_neg (by simp [htask])] at hflags
    have hlost := hflags.resolve_left fun hrelease ↦ by
      rw [hidle] at hrelease
      cases hrelease
    simp [hlost, htask]
  · rw [if_pos (by simp [htask])] at hflags
    -- the display is behind the request: it is in the queue, and only there
    have hclear : u.ui ≠ .clear n := by
      intro hui
      rcases hwaits.claimed with ⟨-, hnone⟩ | ⟨hclaims, -⟩
      · rw [hnone] at hmem
        cases hmem
      · rw [hui] at hclaims
        cases hclaims
    exact iff_of_true ⟨hflags.held, hflags.cancelled.resolve_left hclear⟩ htask

/-- After the start of the controller: a voice request up to the last store of its handling. -/
def firstPress : List Action :=
  [.receive, .task, .dispatch .todoVoiceStart, .ui, .ui, .ui, .ui, .receive, .voiceStop, .task]

/-- A second press after that store. -/
theorem voiceStart_found_iff_second : ∃ s u t,
    run .started (firstPress ++ [.task, .dispatch .todoVoiceStart, .ui]) = some s ∧
      run s [.ui, .ui, .ui] = some u ∧ step u .receive = some t ∧ t.task = .voice 1 ∧
      t.voiceHeld = true ∧ t.voiceCancelled = false := by
  obtain ⟨s, u, t, hbefore, hpress, hafter, hbegins, hown, htask⟩ : ∃ s u t,
      run .started (firstPress ++ [.task, .dispatch .todoVoiceStart, .ui]) = some s ∧
        s.ui = .hold 1 ∧ run s [.ui, .ui, .ui] = some u ∧ step u .receive = some t ∧
        t.task = .voice 1 ∧ s.task ≠ .release := ⟨_, _, _, rfl, rfl, rfl, rfl, rfl, by decide⟩
  have hfound := (voiceStart_found_iff hbefore hpress hafter (by decide) hbegins hown).2 htask
  exact ⟨s, u, t, hbefore, hafter, hbegins, hown, hfound⟩

/-- **A press is lost**: the second one comes before that store. It is followed by nothing else. -/
theorem voiceStart_lost : ∃ s u t,
    run .started (firstPress ++ [.dispatch .todoVoiceStart, .ui]) = some s ∧ s.ui = .hold 1 ∧
      run s [.ui, .task, .ui, .ui] = some u ∧ step u .receive = some t ∧ t.task = .voice 1 ∧
      ¬(t.voiceHeld = true ∧ t.voiceCancelled = false) :=
  ⟨_, _, _, rfl, rfl, rfl, rfl, rfl, by decide⟩

end

end VibeUsage.Voice
