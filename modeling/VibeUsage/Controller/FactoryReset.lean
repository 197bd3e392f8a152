import VibeUsage.Client.Context
import VibeUsage.Storage.Erasing
import VibeUsage.Storage.Frame

/-!
# The factory reset

The storage half of `APP_INTENT_FACTORY_RESET`: the journal is set, the stores are erased one after
the other and the journal is cleared, up to the first failure; only then the device restarts.

`vibe_factory_reset` ends by clearing the context of the usage client, and it refuses to run when
that context is not initialized. So an attempt that fails after it cannot be repeated: the next one
stops before its first operation (`intentFactoryReset_retry_iff`). A failure inside
`vibe_factory_reset` leaves the context as it was, and a retry starts over.
-/

namespace VibeUsage

/-- The chain of `APP_INTENT_FACTORY_RESET`. It succeeds when `esp_restart` is reached. -/
def intentFactoryReset : Vibe Unit := do
  vibeCancel
  vibeFactoryReset
  stored smartTodoClear
  stored llmSettingsClear
  stored wifiAdapterClearCredentials
  vibeFactoryResetComplete

/-- Nothing is left of what a factory reset erases, the journal included. -/
structure Wiped (flash : Flash) : Prop where
  auth : ∀ key, flash.lookup .vibeAuth key = none
  cache : ∀ key, flash.lookup .vibeCache key = none
  cfg : ∀ key, flash.lookup .vibeCfg key = none
  retry : flash.lookup .vibeMeta .retry = none
  todo : ∀ key, flash.lookup .vibeTodo key = none
  llm : flash.lookup .vibeLlm .settings = none ∧ flash.lookup .vibeLlm .asrLang = none
  wifi : ∀ index,
    flash.lookup .wifi (.ssid index) = none ∧ flash.lookup .wifi (.password index) = none
  journal : flash.lookup .vibeMeta .reset = none

/-- The intent, while the operations of the storage fail as `faults` says. -/
def attemptReset (faults : ℕ → Fault) (c : Client) : Except EspErr Unit × Client :=
  intentFactoryReset { c with board := { c.board with tick := 0, faults } }

/-- The device after these attempts. -/
def afterAttempts (c : Client) (attempts : List (ℕ → Fault)) : Client :=
  attempts.foldl (fun c faults ↦ (attemptReset faults c).2) c

/-- The number of storage operations of `vibe_factory_reset`. -/
def factoryResetOperations : ℕ := 15

/-! ### One attempt -/

/-- A call of the store within a program of the client. -/
theorem stored_of_run {α : Type} {p : Nvs α} {c : Client} {result : Except EspErr α} {board : Board}
    (h : p c.board = (result, board)) : stored p c = (result, { c with board }) := by
  unfold stored
  rw [Prog.on_apply, h]

/-- The first two steps of an attempt, on a client that is initialized. -/
theorem vibeFactoryReset_run {c : Client} (h : c.vibe.initialized = true) :
    vibeFactoryReset c = (do
      stored vibeStoreBeginReset
      stored vibeStoreFinishReset
      setVibe fun _ ↦ .zero : Vibe Unit)
      { c with
        vibe := { c.vibe with cancelGeneration := c.vibe.cancelGeneration + 1 }
        history := .forgotten :: c.history } := by
  rw [vibeFactoryReset, Prog.bind_of_ok (getVibe_apply c), Prog.check_of_pos h]
  rfl

/-- **Without a context** nothing is erased. -/
theorem vibeFactoryReset_of_not_initialized {c : Client} (h : c.vibe.initialized = false) :
    vibeFactoryReset c = (.error .invalidState, c) := by
  rw [vibeFactoryReset, Prog.bind_of_ok (getVibe_apply c), Prog.check_of_neg (by simp [h])]
  rfl

/-- **A failure inside `vibe_factory_reset`** leaves the context initialized. -/
theorem vibeFactoryReset_refuses {c : Client} (h : c.vibe.initialized = true)
    (hpower : c.board.powered = true)
    (hfault : ∃ i < factoryResetOperations, c.board.faults (c.board.tick + i) ≠ .none) :
    ∃ error c', vibeFactoryReset c = (.error error, c') ∧ c'.vibe.initialized = true ∧
      Within (fun _ _ ↦ True) c.board c'.board := by
  rw [vibeFactoryReset_run h]
  generalize hd : ({ c with
    vibe := { c.vibe with cancelGeneration := c.vibe.cancelGeneration + 1 }
    history := .forgotten :: c.history } : Client) = d
  have hboard : d.board = c.board := by rw [← hd]
  have hinit : d.vibe.initialized = true := by rw [← hd]; exact h
  obtain ⟨i, hi, hfault⟩ := hfault
  rw [← hboard] at hpower hfault ⊢
  -- The fault is one of the first three operations, which set the mark, or of those behind it.
  by_cases hbegin : ∀ j < 3, d.board.faults (d.board.tick + j) = .none
  · have hrun := does_beginReset d.board hpower hbegin
    have hi3 : 3 ≤ i := by
      by_contra hlt
      exact hfault (hbegin i (by omega))
    generalize hb : ({ d.board with
      flash := (d.board.flash.create .vibeMeta).put .vibeMeta .reset (.u8 1)
      tick := d.board.tick + 3 } : Board) = b at hrun
    have hb12 : ∃ j < 12, b.faults (b.tick + j) ≠ .none := by
      refine ⟨i - 3, by unfold factoryResetOperations at hi; omega, ?_⟩
      rw [← hb]
      show d.board.faults (d.board.tick + 3 + (i - 3)) ≠ .none
      rwa [show d.board.tick + 3 + (i - 3) = d.board.tick + i by omega]
    obtain ⟨error, b', hfinish⟩ := refuses_finishReset b (by rw [← hb]; exact hpower) hb12
    have hwithin : Within (fun _ _ ↦ True) d.board _ := moves_beginReset trivial d.board
    have hwithin' : Within (fun _ _ ↦ True) b _ :=
      moves_finishReset (fun _ ↦ trivial) (fun _ ↦ trivial) (fun _ ↦ trivial) trivial b
    rw [hrun] at hwithin
    rw [hfinish] at hwithin'
    refine ⟨error, { d with board := b' }, ?_, hinit, trans_of _ hwithin hwithin'⟩
    rw [Prog.bind_of_ok (stored_of_run hrun)]
    exact Prog.bind_of_error (stored_of_run hfinish)
  · push Not at hbegin
    obtain ⟨error, b', hrun⟩ := refuses_beginReset d.board hpower hbegin
    have hwithin : Within (fun _ _ ↦ True) d.board _ := moves_beginReset trivial d.board
    rw [hrun] at hwithin
    refine ⟨error, { d with board := b' }, ?_, hinit, hwithin⟩
    exact Prog.bind_of_error (stored_of_run hrun)

/-- **Without a failure** in its operations, `vibe_factory_reset` erases what it is to erase and
clears the context. -/
theorem vibeFactoryReset_does {c : Client} (h : c.vibe.initialized = true)
    (hpower : c.board.powered = true)
    (hfault : ∀ i < factoryResetOperations, c.board.faults (c.board.tick + i) = .none) :
    vibeFactoryReset c = (.ok (), { c with
      vibe := .zero
      history := .forgotten :: c.history
      board := { c.board with
        flash := eraseLocal ((c.board.flash.create .vibeMeta).put .vibeMeta .reset (.u8 1))
        tick := c.board.tick + factoryResetOperations } }) := by
  have hrun := does_beginReset.seq does_finishReset c.board hpower hfault
  obtain ⟨u, b, hbegin, hfinish⟩ := Prog.bind_eq_ok.1 hrun
  rw [vibeFactoryReset_run h]
  generalize hd : ({ c with
    vibe := { c.vibe with cancelGeneration := c.vibe.cancelGeneration + 1 }
    history := .forgotten :: c.history } : Client) = d
  have hboard : d.board = c.board := by rw [← hd]
  rw [← hboard] at hbegin
  rw [Prog.bind_of_ok (stored_of_run hbegin), Prog.bind_of_ok (stored_of_run (by exact hfinish)),
    ← hd]
  rfl

/-! ### The retry -/

/-- The later steps leave the context alone. -/
theorem vibe_of_stored {α : Type} (p : Nvs α) :
    Prog.Moves (fun c c' : Client ↦ c'.vibe = c.vibe) (stored p) := fun _ ↦ rfl

instance : Std.Refl fun c c' : Client ↦ c'.vibe = c.vibe := ⟨fun _ ↦ rfl⟩

instance : IsTrans Client fun c c' ↦ c'.vibe = c.vibe := ⟨fun _ _ _ h h' ↦ h'.trans h⟩

/-- The calls of an attempt, in order. -/
theorem attemptReset_eq (faults : ℕ → Fault) (c : Client) :
    attemptReset faults c = (do
      vibeFactoryReset
      stored smartTodoClear
      stored llmSettingsClear
      stored wifiAdapterClearCredentials
      vibeFactoryResetComplete : Vibe Unit)
      { c with
        vibe := { c.vibe with cancelGeneration := c.vibe.cancelGeneration + 1 }
        board := { c.board with tick := 0, faults } } := rfl

/-- An attempt leaves the context initialized exactly when it fails inside `vibe_factory_reset`. -/
theorem attemptReset_initialized {faults : ℕ → Fault} {c : Client}
    (h : c.vibe.initialized = true) (hpower : c.board.powered = true) :
    (attemptReset faults c).2.vibe.initialized = true ↔
      ∃ i < factoryResetOperations, faults i ≠ .none := by
  rw [attemptReset_eq]
  generalize hd : ({ c with
    vibe := { c.vibe with cancelGeneration := c.vibe.cancelGeneration + 1 }
    board := { c.board with tick := 0, faults } } : Client) = d
  have hinit : d.vibe.initialized = true := by rw [← hd]; exact h
  have hon : d.board.powered = true := by rw [← hd]; exact hpower
  have hfaults : ∀ i, d.board.faults (d.board.tick + i) = faults i := by
    intro i
    rw [← hd]
    show faults (0 + i) = faults i
    rw [Nat.zero_add]
  by_cases hfault : ∃ i < factoryResetOperations, faults i ≠ .none
  · have hfault' : ∃ i < factoryResetOperations, d.board.faults (d.board.tick + i) ≠ .none := by
      simpa only [hfaults] using hfault
    obtain ⟨error, c', hrun, hc', -⟩ := vibeFactoryReset_refuses hinit hon hfault'
    rw [Prog.bind_of_error hrun]
    simp [hc', hfault]
  · have hnone : ∀ i < factoryResetOperations, d.board.faults (d.board.tick + i) = .none := by
      intro i hi
      rw [hfaults]
      by_contra h
      exact hfault ⟨i, hi, h⟩
    rw [Prog.bind_of_ok (vibeFactoryReset_does hinit hon hnone)]
    have hrest : Prog.Moves (fun c c' : Client ↦ c'.vibe = c.vibe) (do
        stored smartTodoClear
        stored llmSettingsClear
        stored wifiAdapterClearCredentials
        vibeFactoryResetComplete : Vibe Unit) :=
      (vibe_of_stored _).bind fun _ ↦ (vibe_of_stored _).bind fun _ ↦
        (vibe_of_stored _).bind fun _ ↦ vibe_of_stored _
    rw [hrest]
    simp [VibeContext.zero, hfault]

/-- A client that is not initialized stops before the first operation, and changes nothing. -/
theorem attemptReset_of_not_initialized (faults : ℕ → Fault) {c : Client}
    (h : c.vibe.initialized = false) :
    (attemptReset faults c).1 = .error .invalidState ∧
      (attemptReset faults c).2.vibe.initialized = false ∧
      (attemptReset faults c).2.board.flash = c.board.flash := by
  rw [attemptReset_eq]
  rw [Prog.bind_of_error (vibeFactoryReset_of_not_initialized (by exact h))]
  exact ⟨rfl, h, rfl⟩

/-! ### An attempt on a storage that works -/

/-- What an attempt that does not fail leaves of the flash. -/
def eraseEverything (flash : Flash) : Flash :=
  let flash := eraseLocal ((flash.create .vibeMeta).put .vibeMeta .reset (.u8 1))
  let flash := (flash.create .vibeTodo).eraseAll .vibeTodo
  let flash := ((flash.create .vibeLlm).erase .vibeLlm .settings).erase .vibeLlm .asrLang
  ((eraseCredentials flash).create .vibeMeta).erase .vibeMeta .reset

/-- Everything that is named is erased. -/
theorem wiped_eraseEverything (flash : Flash) : Wiped (eraseEverything flash) := by
  constructor
  all_goals simp [eraseEverything, eraseLocal, lookup_eraseCredentials]

/-- **An attempt that does not fail** erases everything, clears the journal and reaches the restart.
-/
theorem attemptReset_of_none {c : Client} (h : c.vibe.initialized = true)
    (hpower : c.board.powered = true) :
    (attemptReset (fun _ ↦ .none) c).1 = .ok () ∧
      (attemptReset (fun _ ↦ .none) c).2.board.flash = eraseEverything c.board.flash := by
  have hrest := does_smartTodoClear.seq (does_llmSettingsClear.seq
    (does_clearCredentials.seq does_completeReset))
  rw [attemptReset_eq]
  rw [Prog.bind_of_ok (vibeFactoryReset_does (by exact h) (by exact hpower) fun _ _ ↦ rfl)]
  generalize hd : ({ c with
    vibe := VibeContext.zero
    history := .forgotten :: c.history
    board := { c.board with
      flash := eraseLocal ((c.board.flash.create .vibeMeta).put .vibeMeta .reset (.u8 1))
      tick := 0 + factoryResetOperations
      faults := fun _ ↦ .none } } : Client) = d
  have hrun := hrest d.board (by rw [← hd]; exact hpower) fun i _ ↦ by rw [← hd]
  obtain ⟨u₁, b₁, htodo, hrun⟩ := Prog.bind_eq_ok.1 hrun
  obtain ⟨u₂, b₂, hllm, hrun⟩ := Prog.bind_eq_ok.1 hrun
  obtain ⟨u₃, b₃, hwifi, hcomplete⟩ := Prog.bind_eq_ok.1 hrun
  rw [Prog.bind_of_ok (stored_of_run htodo), Prog.bind_of_ok (stored_of_run (by exact hllm)),
    Prog.bind_of_ok (stored_of_run (by exact hwifi)), vibeFactoryResetComplete,
    stored_of_run (by exact hcomplete), ← hd]
  exact ⟨rfl, rfl⟩

/-! ### Any number of attempts -/

/-- What relates the boards of two states of the client. -/
def BoardWithin (touched : Entries) (c c' : Client) : Prop := Within touched c.board c'.board

instance {touched : Entries} : Std.Refl (BoardWithin touched) :=
  ⟨fun c ↦ refl_of (Within touched) c.board⟩

instance {touched : Entries} : IsTrans Client (BoardWithin touched) :=
  ⟨fun _ _ _ h h' ↦ trans_of (Within touched) h h'⟩

/-- A program of the store moves the board. -/
theorem moves_stored {touched : Entries} {α : Type} {p : Nvs α}
    (h : Prog.Moves (Within touched) p) : Prog.Moves (BoardWithin touched) (stored p) :=
  fun c ↦ h c.board

/-- A change of the context does not. -/
theorem moves_setVibe {touched : Entries} (f : VibeContext → VibeContext) :
    Prog.Moves (BoardWithin touched) (setVibe f) := fun c ↦ refl_of (Within touched) c.board

/-- Nor does a note. -/
theorem moves_note {touched : Entries} (contact : Contact) :
    Prog.Moves (BoardWithin touched) (note contact) := fun c ↦ refl_of (Within touched) c.board

/-- The power stays on. -/
theorem attemptReset_powered {faults : ℕ → Fault} {c : Client} (hpower : c.board.powered = true)
    (hcut : ∀ k, faults k ≠ .cut) : (attemptReset faults c).2.board.powered = true := by
  have hreset : Prog.Moves (BoardWithin fun _ _ ↦ True) vibeFactoryReset :=
    Prog.Moves.bind (fun c ↦ refl_of (Within _) c.board) fun g ↦
      (Prog.Moves.check _).bind fun _ ↦ (moves_note _).bind fun _ ↦
        (moves_setVibe _).bind fun _ ↦
        (moves_stored (moves_beginReset trivial)).bind fun _ ↦
        (moves_stored (moves_finishReset (fun _ ↦ trivial) (fun _ ↦ trivial) (fun _ ↦ trivial)
          trivial)).bind fun _ ↦ moves_setVibe _
  have hchain : Prog.Moves (BoardWithin fun _ _ ↦ True) intentFactoryReset :=
    (moves_setVibe _).bind fun _ ↦ hreset.bind fun _ ↦
      (moves_stored (moves_smartTodoClear fun _ ↦ trivial)).bind fun _ ↦
      (moves_stored (moves_llmSettingsClear trivial trivial)).bind fun _ ↦
      (moves_stored (moves_clearCredentials (fun _ ↦ trivial) fun _ ↦ trivial)).bind fun _ ↦
      moves_stored (moves_completeReset trivial)
  exact ((hchain { c with board := { c.board with tick := 0, faults } }).powered hcut).trans hpower

/-- The client is still initialized after attempts that all failed inside `vibe_factory_reset`, and
never again after one that did not. -/
theorem afterAttempts_initialized (attempts : List (ℕ → Fault)) :
    ∀ c : Client, c.board.powered = true → (∀ faults ∈ attempts, ∀ k, faults k ≠ .cut) →
      (afterAttempts c attempts).board.powered = true ∧
      ((afterAttempts c attempts).vibe.initialized = true ↔
        c.vibe.initialized = true ∧
          ∀ faults ∈ attempts, ∃ i < factoryResetOperations, faults i ≠ .none) := by
  induction attempts with
  | nil =>
    intro c hpower _
    exact ⟨hpower, by simp [afterAttempts]⟩
  | cons faults attempts ih =>
    intro c hpower hcut
    obtain ⟨hon, hstill⟩ := ih (attemptReset faults c).2
      (attemptReset_powered hpower (hcut faults List.mem_cons_self))
      fun later hlater ↦ hcut later (List.mem_cons_of_mem _ hlater)
    refine ⟨hon, hstill.trans ?_⟩
    rw [List.forall_mem_cons, ← and_assoc]
    refine and_congr_left fun _ ↦ ?_
    cases hinit : c.vibe.initialized with
    | true => simp [attemptReset_initialized hinit hpower]
    | false =>
      simp [(attemptReset_of_not_initialized faults hinit).2.1]

/-- **A failed factory reset can be retried** exactly when every attempt so far failed in one of the
operations of `vibe_factory_reset` itself. -/
theorem intentFactoryReset_retry_iff {c : Client} (hinit : c.vibe.initialized = true)
    (hpower : c.board.powered = true) {attempts : List (ℕ → Fault)}
    (hcut : ∀ faults ∈ attempts, ∀ k, faults k ≠ .cut) :
    ((attemptReset (fun _ ↦ .none) (afterAttempts c attempts)).1 = .ok () ∧
        Wiped (attemptReset (fun _ ↦ .none) (afterAttempts c attempts)).2.board.flash) ↔
      ∀ faults ∈ attempts, ∃ i < factoryResetOperations, faults i ≠ .none := by
  obtain ⟨hon, hstill⟩ := afterAttempts_initialized attempts c hpower hcut
  cases hnow : (afterAttempts c attempts).vibe.initialized with
  | true =>
    obtain ⟨hok, hflash⟩ := attemptReset_of_none hnow hon
    rw [hflash]
    exact iff_of_true ⟨hok, wiped_eraseEverything _⟩ (hstill.1 hnow).2
  | false =>
    obtain ⟨herror, -, -⟩ := attemptReset_of_not_initialized (fun _ ↦ .none) hnow
    refine iff_of_false ?_ fun hall ↦ ?_
    · rintro ⟨hok, -⟩
      rw [herror] at hok
      cases hok
    · rw [hstill.2 ⟨hinit, hall⟩] at hnow
      cases hnow

/-- A linked device, the journal not set. -/
def linkedClient : Client where
  board :=
    { flash := Flash.blank.put .vibeAuth .auth (.blob [1]), powered := true, tick := 0
      faults := fun _ ↦ .none }
  vibe := { VibeContext.zero with initialized := true }
  clock := fun _ ↦ 1784073600
  readings := 0
  exchange :=
    { pieces := [], error := none, status := 0, bodyError := none, retryAfterSeconds := 0
      cancels := 0, generation := id }
  history := []

/-- The first operation of `vibe_factory_reset` fails twice. -/
theorem intentFactoryReset_retry_iff_early :
    ((attemptReset (fun _ ↦ .none) (afterAttempts linkedClient
        [fun k ↦ if k = 0 then .fails else .none, fun k ↦ if k = 0 then .fails else .none])).1 =
          .ok () ∧
      Wiped (attemptReset (fun _ ↦ .none) (afterAttempts linkedClient
        [fun k ↦ if k = 0 then .fails else .none,
          fun k ↦ if k = 0 then .fails else .none])).2.board.flash) ↔
      ∀ faults ∈ [fun k ↦ if k = 0 then Fault.fails else .none,
        fun k ↦ if k = 0 then .fails else .none],
        ∃ i < factoryResetOperations, faults i ≠ .none := by
  refine intentFactoryReset_retry_iff rfl rfl ?_
  intro faults hfaults k
  have heq : faults = fun k ↦ if k = 0 then .fails else .none := by simpa using hfaults
  subst heq
  dsimp only
  split <;> decide

/-- **The TODO store fails once.** With a storage that works again the next attempt stops at once,
and the journal is still set. -/
theorem intentFactoryReset_not_retried :
    (attemptReset (fun k ↦ if k = 15 then .fails else .none) linkedClient).1 = .error .nvs ∧
      (attemptReset (fun _ ↦ .none)
        (afterAttempts linkedClient [fun k ↦ if k = 15 then .fails else .none])).1 =
          .error .invalidState ∧
      (attemptReset (fun _ ↦ .none)
        (afterAttempts linkedClient
          [fun k ↦ if k = 15 then .fails else .none])).2.board.flash.lookup .vibeMeta .reset =
        some (.u8 1) :=
  ⟨rfl, rfl, rfl⟩

end VibeUsage
