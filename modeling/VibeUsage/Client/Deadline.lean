import VibeUsage.Bounds
import VibeUsage.Client.Lasting

/-!
# The retry deadline

A refusal with status 429 names a time before which nothing is to be asked for. The client keeps the
latest such time in its context and in the flash, and `vibe_init` reads it back. On a storage that
works, and a wall clock that does not go backwards, a time that was named has passed, or it is still
kept in both places (`Withheld`); a request is made only once all of them have passed.

* `asking_performRequest` is the request, which is made when every time that was named has come.
* `withheld_putOffDeadline` is the refusal, `past_clearDeadline` the success that ends the wait.
* `withheld_fetchDay` is the call as a whole, and `withheld_vibeInit` the start.
The later of two times is kept, whatever the order in which they were named. `Controller.Deadline`
carries this to runs of the controller.
-/

namespace VibeUsage

/-! ### The history -/

/-- The times named since the account was last given up. -/
def waits : List Contact → List ℤ
  | [] => []
  | .toldToWait until_ :: history => until_ :: waits history
  | .forgotten :: _ => []
  | .requested _ :: history => waits history
  | .received _ _ _ :: history => waits history

/-- No request was made before a time that had been named. -/
def WaitsObeyed : List Contact → Prop
  | [] => True
  | .requested at_ :: history =>
    (∀ time ∈ waits history, time ≤ at_.toInt) ∧ WaitsObeyed history
  | _ :: history => WaitsObeyed history

/-! ### The storage -/

/-- No operation fails. -/
structure Working (b : Board) : Prop where
  powered : b.powered = true
  faults : ∀ k, b.faults k = .none

/-- A storage that works goes on working. -/
theorem Working.of_within {touched : Entries} {b b' : Board} (h : Working b)
    (hwithin : Within touched b b') : Working b' := by
  refine ⟨(hwithin.powered fun k ↦ by simp [h.faults k]).trans h.powered, fun k ↦ ?_⟩
  rw [hwithin.faults, h.faults]

/-- The deadline that `vibe_init` would load. -/
def storedRetry (flash : Flash) : Int64 :=
  match flash.lookup .vibeMeta .retry with
  | some (.i64 utcSeconds) => if utcSeconds < 0 then 0 else utcSeconds
  | _ => 0

/-- A deadline that is negative is not loaded. -/
theorem storedRetry_nonneg (flash : Flash) : 0 ≤ (storedRetry flash).toInt := by
  unfold storedRetry
  split
  · split
    · decide
    · rename_i hneg
      have hge : ¬ _ < (0 : Int64).toInt := mt Int64.lt_iff_toInt_lt.2 hneg
      simpa using hge
  · decide

/-- Every entry but that of the deadline. -/
def NotRetry : Entries := fun space key ↦ ¬ (space = .vibeMeta ∧ key = .retry)

/-- The deadline is in the namespace of the journal. -/
theorem notRetry_of_ne {space : Namespace} {key : NvsKey} (h : space ≠ .vibeMeta) :
    NotRetry space key := fun hretry ↦ h hretry.1

/-- What does not touch the deadline leaves it. -/
theorem storedRetry_of_within {b b' : Board} (h : Within NotRetry b b') :
    storedRetry b'.flash = storedRetry b.flash := by
  unfold storedRetry
  rw [h.lookup .vibeMeta .retry (not_not.2 ⟨rfl, rfl⟩)]

section Reading

variable {b : Board}

/-- An operation leaves a storage that works. -/
theorem Working.leaves (h : Working b) (flash : Flash) : Working (b.leaves flash) :=
  ⟨h.powered, h.faults⟩

/-- **An operation of a storage that works** does what it is for. -/
theorem operate_of_working (h : Working b) (effect torn : Flash → Flash) (error : EspErr) :
    operate effect torn error b = (.ok (), b.leaves (effect b.flash)) := by
  unfold operate
  rw [if_pos h.powered, h.faults]

/-- A namespace can be read when it is there. -/
theorem openReadOnly_of_working (h : Working b) (space : Namespace) :
    nvsOpenReadOnly space b =
      (if (b.flash space).isSome then .ok () else .error .nvsNotFound, b.leaves b.flash) := by
  rw [nvsOpenReadOnly, Prog.bind_of_ok (operate_of_working h id id .nvs),
    Prog.bind_of_ok (Prog.get_apply _)]
  show Prog.check ((b.flash space).isSome = true) _ _ = _
  split
  · rename_i hthere
    rw [Prog.check_of_pos hthere]
    rfl
  · rename_i hmissing
    rw [Prog.check_of_neg hmissing]
    rfl

/-- What a read of an entry reports. -/
def readI64 : Option NvsValue → Except EspErr Int64
  | some (.i64 value) => .ok value
  | some .torn => .error .nvs
  | some _ => .error .nvsTypeMismatch
  | none => .error .nvsNotFound

/-- What a read of any entry reports. -/
def readEntry : Option NvsValue → Except EspErr NvsValue
  | some .torn => .error .nvs
  | some value => .ok value
  | none => .error .nvsNotFound

/-- A number is read as it was written. -/
theorem getI64_of_working (h : Working b) (space : Namespace) (key : NvsKey) :
    nvsGetI64 space key b = (readI64 (b.flash.lookup space key), b.leaves b.flash) := by
  have hget : nvsGet space key b = (readEntry (b.flash.lookup space key), b.leaves b.flash) := by
    rw [nvsGet, Prog.bind_of_ok (operate_of_working h id id .nvs),
      Prog.bind_of_ok (Prog.get_apply _)]
    dsimp only [Board.leaves, id_eq]
    cases b.flash.lookup space key with
    | none => rfl
    | some value => cases value <;> rfl
  rw [nvsGetI64, Prog.bind_apply, hget]
  cases b.flash.lookup space key with
  | none => rfl
  | some value => cases value <;> rfl

end Reading

/-- **Loading the deadline** from a storage that works: a device without one loads zero, or an
error. -/
theorem loadRetryNotBefore_of_working {b : Board} (h : Working b) :
    (vibeStoreLoadRetryNotBefore b).1 = .ok (storedRetry b.flash) ∨
      (∃ error, (vibeStoreLoadRetryNotBefore b).1 = .error error) ∧ storedRetry b.flash = 0 := by
  have hopen : (nvsOpenReadOnly .vibeMeta).attempt b =
      (.ok (if (b.flash .vibeMeta).isSome then .ok () else .error .nvsNotFound),
        b.leaves b.flash) := by
    rw [Prog.attempt_apply, openReadOnly_of_working h]
  have hget : (nvsGetI64 .vibeMeta .retry).attempt (b.leaves b.flash) =
      (.ok (readI64 (b.flash.lookup .vibeMeta .retry)),
        (b.leaves b.flash).leaves b.flash) := by
    rw [Prog.attempt_apply, getI64_of_working (h.leaves b.flash)]
    rfl
  rw [vibeStoreLoadRetryNotBefore, Prog.bind_of_ok hopen]
  unfold storedRetry
  split
  · dsimp only
    rw [Prog.bind_of_ok hget]
    cases b.flash.lookup .vibeMeta .retry with
    | none => exact .inl rfl
    | some value =>
      cases value with
      | i64 utcSeconds =>
        show ((if utcSeconds < 0 then Prog.fail .invalidState else pure utcSeconds : Nvs Int64)
          _).1 = .ok (if utcSeconds < 0 then 0 else utcSeconds) ∨ (∃ error, ((if utcSeconds < 0 then
            Prog.fail .invalidState else pure utcSeconds : Nvs Int64) _).1 = .error error) ∧
            (if utcSeconds < 0 then 0 else utcSeconds) = 0
        split
        · exact .inr ⟨⟨_, rfl⟩, rfl⟩
        · exact .inl rfl
      | blob bytes => exact .inr ⟨⟨_, rfl⟩, rfl⟩
      | u8 value => exact .inr ⟨⟨_, rfl⟩, rfl⟩
      | str bytes => exact .inr ⟨⟨_, rfl⟩, rfl⟩
      | torn => exact .inr ⟨⟨_, rfl⟩, rfl⟩
  · rename_i hmissing
    refine .inl ?_
    have hnone : b.flash .vibeMeta = none := by simpa using hmissing
    simp [Flash.lookup, hnone]

/-! ### What leaves the deadline alone -/

/-- The deadline and the history stay as they are. -/
structure Mild (c c' : Client) : Prop where
  board : Within NotRetry c.board c'.board
  clock : c'.clock = c.clock
  readings : c.readings ≤ c'.readings
  retry : c'.vibe.retryNotBeforeUtc = c.vibe.retryNotBeforeUtc
  initialized : c'.vibe.initialized = c.vibe.initialized
  history : c'.history = c.history
  exchange : c'.exchange = c.exchange

instance : Std.Refl Mild :=
  ⟨fun c ↦ ⟨refl_of (Within NotRetry) c.board, rfl, le_rfl, rfl, rfl, rfl, rfl⟩⟩

instance : IsTrans Client Mild := ⟨fun _ _ _ h h' ↦
  ⟨trans_of (Within NotRetry) h.board h'.board, h'.clock.trans h.clock,
    h.readings.trans h'.readings, h'.retry.trans h.retry, h'.initialized.trans h.initialized,
    h'.history.trans h.history, h'.exchange.trans h.exchange⟩⟩

section Mild

open Prog (Moves)

/-- A program of the store that does not touch the deadline. -/
theorem mild_stored {α : Type} {p : Nvs α} (h : Moves (Within NotRetry) p) :
    Moves Mild (stored p) := fun c ↦ ⟨h c.board, rfl, le_rfl, rfl, rfl, rfl, rfl⟩

/-- A change of the context beside the deadline. -/
theorem mild_setVibe {f : VibeContext → VibeContext}
    (h : ∀ g, (f g).retryNotBeforeUtc = g.retryNotBeforeUtc ∧ (f g).initialized = g.initialized) :
    Moves Mild (setVibe f) := fun c ↦
  ⟨refl_of (Within NotRetry) c.board, rfl, le_rfl, (h c.vibe).1, (h c.vibe).2, rfl, rfl⟩

/-- What lasts is mild. -/
theorem mild_of_lasting {α : Type} {p : Vibe α} (h : Moves Lasting p) : Moves Mild p := by
  intro c
  have hlasting := h c
  exact ⟨hlasting.board.mono (fun _ _ ↦ False.elim), hlasting.clock, hlasting.readings,
    congrArg (·.retryNotBeforeUtc) hlasting.vibe, congrArg (·.initialized) hlasting.vibe,
    hlasting.history, hlasting.exchange⟩

theorem mild_getVibe : Moves Mild getVibe := mild_of_lasting lasting_getVibe

theorem mild_timeNow : Moves Mild timeNow := mild_of_lasting lasting_timeNow

theorem mild_setError (error : Option VibeError) (httpStatus : Int) :
    Moves Mild (setError error httpStatus) := mild_of_lasting (lasting_setError error httpStatus)

/-- The date is told. -/
theorem mild_currentDay : Moves Mild currentDay := mild_of_lasting lasting_currentDay

/-- The cache is not the deadline. -/
theorem mild_setCache (f : VibeCache → VibeCache) : Moves Mild (setCache f) :=
  mild_setVibe fun _ ↦ ⟨rfl, rfl⟩

/-- A cancellation is counted. -/
theorem mild_vibeCancel : Moves Mild vibeCancel := mild_setVibe fun _ ↦ ⟨rfl, rfl⟩

/-- A day is stored. -/
theorem mild_storeBody (parser : Parser) (status : Int) : Moves Mild (storeBody parser status) := by
  unfold storeBody
  dsimp only
  cases (vibeUsageParserFinish parser).error with
  | some error => exact (mild_setError _ _).bind fun _ ↦ .fail _
  | none =>
    refine mild_timeNow.bind fun fetchedAt ↦ mild_getVibe.bind fun g ↦
      (mild_setCache _).bind fun _ ↦ ?_
    cases (vibeCacheReplaceDay g.cache (vibeUsageParserFinish parser).candidate fetchedAt).1 with
    | some error => exact (mild_setError _ _).bind fun _ ↦ .fail _
    | none => exact .ret _

/-- The cache is written. -/
theorem mild_writeCacheNow (nowUtc : Int64) : Moves Mild (writeCacheNow nowUtc) :=
  mild_getVibe.bind fun g ↦ (mild_stored (moves_writeCache g.cache (notRetry_of_ne nofun))).bind
    fun _ ↦ mild_setVibe fun _ ↦ ⟨rfl, rfl⟩

/-- The cache is written when it is dirty. -/
theorem mild_checkpoint : Moves Mild checkpoint := by
  refine mild_timeNow.bind fun _ ↦ mild_getVibe.bind fun _ ↦ .ite ?_ (.ret ())
  exact (mild_setCache _).bind fun _ ↦ mild_writeCacheNow _

/-- A pass begins. -/
theorem mild_vibeBeginReconcile (includeToday : Bool) :
    Moves Mild (vibeBeginReconcile includeToday) := by
  refine mild_getVibe.bind fun _ ↦ (Moves.check _).bind fun _ ↦ mild_currentDay.bind fun _ ↦
    (mild_setCache _).bind fun _ ↦ mild_getVibe.bind fun _ ↦ .bind (.attempt (.ite (.ret ()) ?_))
    fun _ ↦ (mild_setError _ _).bind fun _ ↦ .lift _
  exact mild_timeNow.bind mild_writeCacheNow

/-- A pass has come to its end. -/
theorem mild_stampPass : Moves Mild stampPass := by
  refine mild_getVibe.bind fun _ ↦ .ite (mild_timeNow.bind fun _ ↦ mild_setCache _) (.ret ())

/-- An account is linked; what the last one had to wait for stays. -/
theorem mild_linkAccount (apiKey : CString) : Moves Mild (linkAccount apiKey) := by
  refine mild_getVibe.bind fun g ↦
    (mild_stored (moves_writeAuth _ (notRetry_of_ne nofun))).attempt.bind fun written ↦ ?_
  cases written with
  | error error => exact (mild_setError _ _).bind fun _ ↦ .fail _
  | ok =>
    refine .bind (mild_setVibe ?_) fun _ ↦ (mild_stored (moves_clearCache (notRetry_of_ne nofun)
      (notRetry_of_ne nofun))).attempt.bind fun _ ↦ .bind (mild_setVibe ?_) fun _ ↦
      mild_setError _ _
    · exact fun _ ↦ ⟨rfl, rfl⟩
    · exact fun _ ↦ ⟨rfl, rfl⟩

/-- The account is loaded. -/
theorem mild_loadAuth (config : VibeConfig) : Moves Mild (loadAuth config) := by
  refine (mild_stored moves_loadAuth).attempt.bind fun loaded ↦ ?_
  cases loaded with
  | ok auth => exact mild_setVibe fun _ ↦ ⟨rfl, rfl⟩
  | error error => exact mild_setVibe fun _ ↦ ⟨rfl, rfl⟩

/-- The cache is loaded. -/
theorem mild_loadCache : Moves Mild loadCache := by
  refine mild_getVibe.bind fun g ↦ .ite (mild_setVibe fun _ ↦ ⟨rfl, rfl⟩) ?_
  refine (mild_stored (moves_loadCache _ _ _)).attempt.bind fun loaded ↦ ?_
  cases loaded with
  | ok cache => exact mild_setVibe fun _ ↦ ⟨rfl, rfl⟩
  | error _ => exact mild_setVibe fun _ ↦ ⟨rfl, rfl⟩

end Mild

/-! ### The invariant -/

def Client.lastReading (c : Client) : Int64 := c.clock (c.readings - 1)

/-- The time has come. -/
def Client.Past (c : Client) (time : ℤ) : Prop := time ≤ c.lastReading.toInt

/-- No date can be told any more, so that nothing will be asked for. -/
def Client.EndOfTime (c : Client) : Prop := 2 ^ 63 - 2 ^ 32 ≤ c.lastReading.toInt

/-- The time is kept in the flash, and in the context when there is one. -/
structure Client.Keeps (c : Client) (time : ℤ) : Prop where
  flash : time ≤ (storedRetry c.board.flash).toInt
  context : c.vibe.initialized = true → time ≤ c.vibe.retryNotBeforeUtc.toInt

/-- The time is still waited for, or need not be. -/
def Client.Withheld (c : Client) (time : ℤ) : Prop := c.Past time ∨ c.EndOfTime ∨ c.Keeps time

/-- The time need not be waited for. -/
def Client.Open (c : Client) (time : ℤ) : Prop :=
  c.Past time ∨ c.EndOfTime ∨ c.vibe.initialized = false

/-- Every request so far waited; `ok` holds of every time that has been named. -/
structure Waits (ok : Client → ℤ → Prop) (c : Client) : Prop where
  working : Working c.board
  clock : ∀ i j, i ≤ j → (c.clock i).toInt ≤ (c.clock j).toInt
  retry : c.vibe.initialized = true →
    c.vibe.retryNotBeforeUtc.toInt ≤ (storedRetry c.board.flash).toInt
  obeyed : WaitsObeyed c.history
  told : ∀ time ∈ waits c.history, 0 < time ∧ ok c time

section Invariant

variable {ok ok' : Client → ℤ → Prop} {c c' : Client} {time : ℤ}

/-- What is known of every time may be weakened. -/
theorem Waits.imp (h : Waits ok c) (hok : ∀ time, 0 < time → ok c time → ok' c time) :
    Waits ok' c := by
  refine ⟨h.working, h.clock, h.retry, h.obeyed, fun time htime ↦ ?_⟩
  obtain ⟨hpos, hold⟩ := h.told time htime
  exact ⟨hpos, hok time hpos hold⟩

/-- The readings of the clock do not decrease. -/
theorem Waits.lastReading_le (h : Waits ok c) (hclock : c'.clock = c.clock)
    (hreadings : c.readings ≤ c'.readings) : c.lastReading.toInt ≤ c'.lastReading.toInt := by
  unfold Client.lastReading
  rw [hclock]
  exact h.clock _ _ (Nat.sub_le_sub_right hreadings 1)

/-- A mild step keeps what is known of every time, if it keeps it of each. -/
theorem Waits.of_mild (h : Waits ok c) (hmild : Mild c c')
    (hok : ∀ time, ok c time → ok' c' time) : Waits ok' c' := by
  refine ⟨h.working.of_within hmild.board, by rw [hmild.clock]; exact h.clock, ?_, ?_, ?_⟩
  · rw [hmild.initialized, hmild.retry, storedRetry_of_within hmild.board]
    exact h.retry
  · rw [hmild.history]
    exact h.obeyed
  · rw [hmild.history]
    intro time htime
    obtain ⟨hpos, hold⟩ := h.told time htime
    exact ⟨hpos, hok time hold⟩

/-- A time that has come stays past: the clock does not go backwards. -/
theorem Waits.past_of_mild (h : Waits ok c) (hmild : Mild c c') (hpast : c.Past time) :
    c'.Past time := hpast.trans (h.lastReading_le hmild.clock hmild.readings)

/-- So does the end of time. -/
theorem Waits.endOfTime_of_mild (h : Waits ok c) (hmild : Mild c c') (hend : c.EndOfTime) :
    c'.EndOfTime := hend.trans (h.lastReading_le hmild.clock hmild.readings)

/-- A time that is kept is kept after a mild step. -/
theorem Client.Keeps.of_mild (h : c.Keeps time) (hmild : Mild c c') : c'.Keeps time := by
  refine ⟨?_, ?_⟩
  · rw [storedRetry_of_within hmild.board]
    exact h.flash
  · rw [hmild.initialized, hmild.retry]
    exact h.context

/-- A program that leaves the deadline alone keeps the invariant. -/
theorem withheld_of_mild (h : Waits Client.Withheld c) (hmild : Mild c c') :
    Waits Client.Withheld c' := by
  refine h.of_mild hmild fun time hold ↦ ?_
  rcases hold with hpast | hend | hkept
  · exact .inl (h.past_of_mild hmild hpast)
  · exact .inr (.inl (h.endOfTime_of_mild hmild hend))
  · exact .inr (.inr (hkept.of_mild hmild))

/-- No time is waited for after a mild step, if none was. -/
theorem open_of_mild (h : Waits Client.Open c) (hmild : Mild c c') : Waits Client.Open c' := by
  refine h.of_mild hmild fun time hold ↦ ?_
  rcases hold with hpast | hend | hoff
  · exact .inl (h.past_of_mild hmild hpast)
  · exact .inr (.inl (h.endOfTime_of_mild hmild hend))
  · exact .inr (.inr (hmild.initialized.trans hoff))

/-- Every time has come, and the clock is set. -/
structure Asking (c : Client) : Prop where
  past : Waits Client.Past c
  set : timeMinValid.toInt ≤ c.lastReading.toInt
  running : c.vibe.initialized = true

/-- A mild step between the check and the request. -/
theorem Asking.of_mild (h : Asking c) (hmild : Mild c c') : Asking c' :=
  ⟨h.past.of_mild hmild fun _ hpast ↦ h.past.past_of_mild hmild hpast,
    h.set.trans (h.past.lastReading_le hmild.clock hmild.readings),
    hmild.initialized.trans h.running⟩

/-- What may ask now withholds what comes later. -/
theorem Asking.withheld (h : Asking c) : Waits Client.Withheld c :=
  h.past.imp fun _ _ hpast ↦ .inl hpast

/-- The deadline is cleared, or set to something smaller than the flash holds, once no time has to
be kept. -/
theorem Waits.reset {touched : Entries} (h : Waits ok c) (hboard : Within touched c.board c'.board)
    (hclock : c'.clock = c.clock) (hhistory : c'.history = c.history)
    (hretry : c'.vibe.retryNotBeforeUtc = 0) (hok : ∀ time, ok c time → ok' c' time) :
    Waits ok' c' := by
  refine ⟨h.working.of_within hboard, by rw [hclock]; exact h.clock, fun _ ↦ ?_, ?_, ?_⟩
  · rw [hretry]
    exact storedRetry_nonneg _
  · rw [hhistory]
    exact h.obeyed
  · rw [hhistory]
    intro time htime
    obtain ⟨hpos, hold⟩ := h.told time htime
    exact ⟨hpos, hok time hold⟩

end Invariant

/-! ### The date of a request -/

/-- **A date can be told** between 2024 and the end of time. -/
theorem localDay_eq_some {timezone : Timezone} {now : Int64} {today : Int32}
    (h : localDay timezone now = some today) :
    timeMinValid.toInt ≤ now.toInt ∧ now.toInt < 2 ^ 63 - 2 ^ 32 := by
  unfold localDay at h
  split at h
  · cases h
  · rename_i hset
    refine ⟨by simpa using mt Int64.lt_iff_toInt_lt.2 hset, ?_⟩
    by_contra hfar
    obtain ⟨error, herror⟩ := vibeDateFromEpoch_far timezone (not_lt.1 hfar)
    rw [herror] at h
    cases h

/-- The date is told by one reading of the clock. -/
theorem currentDay_eq (c : Client) :
    currentDay c = match localDay c.vibe.timezone (c.clock c.readings) with
      | none => (.error .invalidState, { c with
          readings := c.readings + 1
          vibe := { c.vibe with lastError := some .timeInvalid, lastHttpStatus := 0 } })
      | some today => (.ok today, { c with readings := c.readings + 1 }) := by
  rw [currentDay, Prog.bind_of_ok (timeNow_apply c), Prog.bind_of_ok (getVibe_apply _)]
  dsimp only
  cases localDay c.vibe.timezone (c.clock c.readings) with
  | none => rfl
  | some today => rfl

/-- A program that leaves the deadline alone, once nothing need be waited for. -/
theorem withheld_of_open {c : Client} (h : Waits Client.Open c)
    (hinit : c.vibe.initialized = true) :
    Waits Client.Withheld c := by
  refine h.imp fun time _ hold ↦ ?_
  rcases hold with hpast | hend | hoff
  · exact .inl hpast
  · exact .inr (.inl hend)
  · rw [hinit] at hoff
    cases hoff

/-- **A date is told** only before the end of time, so that what need not be waited for has come. -/
theorem asking_currentDay : Prog.Triple (fun c ↦ Waits Client.Open c ∧ c.vibe.initialized = true)
    currentDay (fun _ ↦ Asking) fun _ ↦ Waits Client.Withheld := by
  rintro c ⟨h, hinit⟩
  have hmild := mild_currentDay c
  rw [currentDay_eq] at hmild ⊢
  cases hday : localDay c.vibe.timezone (c.clock c.readings) with
  | none =>
    rw [hday] at hmild
    exact withheld_of_mild (withheld_of_open h hinit) hmild
  | some today =>
    rw [hday] at hmild
    obtain ⟨hset, hfar⟩ := localDay_eq_some hday
    refine ⟨(open_of_mild h hmild).imp fun time _ hold ↦ ?_, hset, hinit⟩
    rcases hold with hpast | hend | hoff
    · exact hpast
    · exact absurd (show 2 ^ 63 - 2 ^ 32 ≤ (c.clock c.readings).toInt from hend) (by omega)
    · rw [show c.vibe.initialized = false from hoff] at hinit
      cases hinit

/-! ### Fetching a day -/

/-- A mild program before the request. -/
theorem asking_of_mild {α : Type} {p : Vibe α} (hp : Prog.Moves Mild p) :
    Prog.Triple Asking p (fun _ ↦ Asking) fun _ ↦ Asking :=
  .of_moves hp fun _ _ hmild h ↦ h.of_mild hmild

/-- A mild program after the request. -/
theorem withheld_triple {α : Type} {p : Vibe α} (hp : Prog.Moves Mild p) :
    Prog.Triple (Waits Client.Withheld) p (fun _ ↦ Waits Client.Withheld)
      fun _ ↦ Waits Client.Withheld :=
  .of_moves hp fun _ _ hmild h ↦ withheld_of_mild h hmild

/-- A body names no time. -/
theorem waits_receipt (exchange : Exchange) (dateKey : Int32) (timezone : Timezone)
    (history : List Contact) :
    waits (exchange.receipt dateKey timezone ++ history) = waits history := by
  unfold Exchange.receipt
  split
  · rfl
  · rfl

/-- A body is no request. -/
theorem waitsObeyed_receipt {exchange : Exchange} {dateKey : Int32} {timezone : Timezone}
    {history : List Contact} :
    WaitsObeyed (exchange.receipt dateKey timezone ++ history) ↔ WaitsObeyed history := by
  unfold Exchange.receipt
  split
  · rfl
  · rfl

/-- **The request** is made when every time that was named has come. -/
theorem asking_performRequest (dateKey : Int32) (parser : Parser) :
    Prog.Triple Asking (performRequest dateKey parser) (fun _ ↦ Asking) fun _ ↦ Asking := by
  intro c h
  refine ⟨⟨h.past.working, h.past.clock, h.past.retry, waitsObeyed_receipt.2
    ⟨fun time htime ↦ (h.past.told time htime).2, h.past.obeyed⟩, ?_⟩, h.set, h.running⟩
  intro time htime
  change time ∈ waits (c.exchange.receipt dateKey c.vibe.timezone ++ _) at htime
  rw [waits_receipt] at htime
  exact h.past.told time htime

/-- The deadline is written to a storage that works. -/
theorem writeRetryNotBefore_of_working {b : Board} (h : Working b) {utcSeconds : Int64}
    (hpos : 0 < utcSeconds) :
    ∃ b', vibeStoreWriteRetryNotBefore utcSeconds b = (.ok (), b') ∧
      storedRetry b'.flash = utcSeconds := by
  refine ⟨((b.leaves (b.flash.create .vibeMeta)).leaves
    ((b.flash.create .vibeMeta).put .vibeMeta .retry (.i64 utcSeconds))).leaves
    ((b.flash.create .vibeMeta).put .vibeMeta .retry (.i64 utcSeconds)), ?_, ?_⟩
  · rw [vibeStoreWriteRetryNotBefore, Prog.check_of_pos hpos,
      Prog.bind_of_ok (Prog.pure_apply () b),
      nvsOpen, Prog.bind_of_ok (operate_of_working h _ _ _), nvsSet,
      Prog.bind_of_ok (operate_of_working (h.leaves _) _ _ _), nvsCommit,
      operate_of_working ((h.leaves _).leaves _)]
    rfl
  · have hge : ¬ utcSeconds < 0 := by
      rw [Int64.lt_iff_toInt_lt] at hpos ⊢
      omega
    unfold storedRetry
    simp [hge]

/-- The sum does not overflow before the end of time. -/
theorem toInt_add_ofNat {now : Int64} {seconds : UInt32} (h : 0 ≤ now.toInt)
    (h' : now.toInt < 2 ^ 63 - 2 ^ 32) :
    (now + Int64.ofNat seconds.toNat).toInt = now.toInt + seconds.toNat := by
  have hlt := seconds.toNat_lt
  rw [Int64.toInt_add, Int64.toInt_ofNat_of_lt (by omega)]
  exact Int.bmod_eq_of_le (by omega) (by omega)

/-- **The deadline is raised** in the context and in the flash. -/
theorem raiseDeadline_of_working {c : Client} (h : Working c.board) (nowUtc nextUtc : Int64)
    (hretry : c.vibe.retryNotBeforeUtc.toInt ≤ (storedRetry c.board.flash).toInt) :
    ∃ retry board, raiseDeadline nowUtc nextUtc c = (.ok (), { c with
        vibe := { c.vibe with retryNotBeforeUtc := retry }, board }) ∧
      Working board ∧ retry.toInt ≤ (storedRetry board.flash).toInt ∧
      (timeMinValid ≤ nowUtc → nextUtc.toInt ≤ retry.toInt) := by
  rw [raiseDeadline, Prog.bind_of_ok (getVibe_apply c)]
  split
  · refine ⟨nextUtc, _, rfl, ?_, ?_, fun _ ↦ le_rfl⟩
    · have hmoves : Prog.Moves (Within fun _ _ ↦ True) (vibeStoreWriteRetryNotBefore nextUtc) :=
        moves_writeRetryNotBefore nextUtc trivial
      exact h.of_within (hmoves c.board)
    · by_cases hpos : 0 < nextUtc
      · obtain ⟨b', hwrite, hstored⟩ := writeRetryNotBefore_of_working h hpos
        have hboard : (vibeStoreWriteRetryNotBefore nextUtc c.board).2 = b' := by rw [hwrite]
        show nextUtc.toInt ≤ (storedRetry (vibeStoreWriteRetryNotBefore nextUtc
          c.board).2.flash).toInt
        rw [hboard, hstored]
      · have hneg : nextUtc.toInt ≤ 0 := by simpa using mt Int64.lt_iff_toInt_lt.2 hpos
        exact hneg.trans (storedRetry_nonneg _)
  · rename_i hkeep
    refine ⟨c.vibe.retryNotBeforeUtc, c.board, rfl, h, hretry, fun hvalid ↦ ?_⟩
    have hle : ¬ c.vibe.retryNotBeforeUtc < nextUtc := fun hgt ↦ hkeep ⟨hvalid, hgt⟩
    rwa [Int64.lt_iff_toInt_lt, not_lt] at hle

/-- **A refusal** is kept from now on, and what was named before has come. -/
theorem withheld_putOffDeadline (status : Int) (retryAfterSeconds : UInt32) :
    Prog.Triple Asking (putOffDeadline status retryAfterSeconds) (fun _ ↦ Waits Client.Withheld)
      fun _ ↦ Waits Client.Withheld := by
  intro c h
  unfold putOffDeadline
  split
  · have hset : timeMinValid.toInt ≤ (c.clock c.readings).toInt :=
      h.set.trans (h.past.clock _ _ (Nat.sub_le _ _))
    have hset' : (1704067200 : ℤ) ≤ (c.clock c.readings).toInt := hset
    rw [Prog.bind_of_ok (timeNow_apply c), note, Prog.bind_of_ok (Prog.modify_apply _ _)]
    generalize hd : ({ c with
      readings := c.readings + 1
      history := .toldToWait ((c.clock c.readings).toInt + retryAfterSeconds.toNat) :: c.history } :
      Client) = d
    obtain ⟨retry, board, hrun, hworking, hstored, hraised⟩ :=
      raiseDeadline_of_working (c := d) (by rw [← hd]; exact h.past.working) (c.clock c.readings)
        (c.clock c.readings + Int64.ofNat retryAfterSeconds.toNat)
        (by rw [← hd]; exact h.past.retry h.running)
    rw [hrun, ← hd]
    refine ⟨hworking, h.past.clock, fun _ ↦ hstored, h.past.obeyed, fun time htime ↦ ?_⟩
    rcases List.mem_cons.1 htime with rfl | hold
    · refine ⟨by omega, ?_⟩
      by_cases hfar : (c.clock c.readings).toInt < 2 ^ 63 - 2 ^ 32
      · have hnext := hraised (Int64.le_iff_toInt_le.2 hset)
        rw [toInt_add_ofNat (by omega) hfar] at hnext
        exact .inr (.inr ⟨hnext.trans hstored, fun _ ↦ hnext⟩)
      · exact .inr (.inl (not_lt.1 hfar))
    · obtain ⟨hpos, hpast⟩ := h.past.told time hold
      exact ⟨hpos, .inl (hpast.trans (h.past.clock _ _ (Nat.sub_le _ _)))⟩
  · exact h.withheld

/-- The exchange of a call is what it is. -/
theorem keeps_putOffDeadline (status : Int) (retryAfterSeconds : UInt32) :
    Prog.Moves (Prog.Keeps Client.exchange) (putOffDeadline status retryAfterSeconds) := by
  refine .ite ?_ (.ret ())
  refine .bind (fun _ ↦ rfl) fun nowUtc ↦ .bind (fun _ ↦ rfl) fun _ ↦ ?_
  refine .bind (fun _ ↦ rfl) fun g ↦ .ite ?_ (.ret ())
  exact .bind (fun _ ↦ rfl) fun _ ↦ .bind (fun _ ↦ rfl) fun _ ↦ .ret ()

/-- What holds once the response is recorded: after a success there is nothing to wait for. -/
structure Answered (c : Client) : Prop where
  withheld : Waits Client.Withheld c
  asking : c.exchange.status = 200 → Asking c

/-- What is kept of a response, with the exchange that `getExchange` has read. -/
theorem answered_putOffDeadline (exchange : Exchange) :
    Prog.Triple (fun c ↦ Asking c ∧ c.exchange = exchange)
      (putOffDeadline exchange.status exchange.retryAfterSeconds) (fun _ ↦ Answered)
      fun _ ↦ Waits Client.Withheld := by
  rintro c ⟨h, hexchange⟩
  have hkeep := keeps_putOffDeadline exchange.status exchange.retryAfterSeconds c
  have hend := withheld_putOffDeadline exchange.status exchange.retryAfterSeconds c h
  by_cases hstatus : exchange.status = 200
  · have hother : ¬ (exchange.status = 429 ∧ exchange.retryAfterSeconds > 0) := by
      rw [hstatus]
      exact fun hno ↦ absurd hno.1 (by decide)
    rw [putOffDeadline, if_neg hother]
    exact ⟨h.withheld, fun _ ↦ h⟩
  · rcases hrun : putOffDeadline exchange.status exchange.retryAfterSeconds c with ⟨e | a, c'⟩
    · rwa [hrun] at hend
    · rw [hrun] at hkeep hend
      refine ⟨hend, fun hok ↦ absurd ?_ hstatus⟩
      rwa [← hexchange, ← show c'.exchange = c.exchange from hkeep]

/-- **The response is recorded**: a time that it names is kept from here on. -/
theorem answered_recordResponse :
    Prog.Triple Asking recordResponse (fun _ ↦ Answered) fun _ ↦ Waits Client.Withheld := by
  refine .bind (M := fun exchange c ↦ Asking c ∧ c.exchange = exchange) (fun c h ↦ ⟨h, rfl⟩)
    fun exchange ↦ .bind (M := fun _ c ↦ Asking c ∧ c.exchange = exchange) ?_ fun _ ↦
    answered_putOffDeadline exchange
  have hmild : Prog.Moves Mild (setVibe fun g ↦ { g with
      lastRetryAfterSeconds := exchange.retryAfterSeconds
      lastHttpStatus := exchange.status }) := mild_setVibe fun _ ↦ ⟨rfl, rfl⟩
  exact fun c h ↦ ⟨h.1.of_mild (hmild c), h.2⟩

/-! ### Giving the account up -/

/-- No time is kept in the context or in the history. -/
structure Cleared (c : Client) : Prop where
  waits : Waits (fun _ _ ↦ False) c
  retry : c.vibe.retryNotBeforeUtc = 0

/-- What has been cleared has come. -/
theorem Cleared.withheld {c : Client} (h : Cleared c) : Waits Client.Withheld c :=
  h.waits.imp fun _ _ ↦ False.elim

/-- A call of the store may erase the deadline as well. -/
theorem cleared_stored {α : Type} {p : Nvs α} (hp : Prog.Moves (Within fun _ _ ↦ True) p) :
    Prog.Triple Cleared (stored p) (fun _ ↦ Cleared) fun _ ↦ Cleared :=
  .of_moves (r := fun c c' ↦ Within (fun _ _ ↦ True) c.board c'.board ∧ c'.clock = c.clock ∧
      c'.history = c.history ∧ c'.vibe = c.vibe)
    (fun c ↦ ⟨hp c.board, rfl, rfl, rfl⟩) fun _ _ ⟨hboard, hclock, hhistory, hvibe⟩ h ↦
    have hretry := (congrArg VibeContext.retryNotBeforeUtc hvibe).trans h.retry
    ⟨h.waits.reset hboard hclock hhistory hretry fun _ ↦ id, hretry⟩

/-- A mild program after the deadline has been cleared. -/
theorem cleared_of_mild {α : Type} {p : Vibe α} (hp : Prog.Moves Mild p) :
    Prog.Triple Cleared p (fun _ ↦ Cleared) fun _ ↦ Cleared :=
  .of_moves hp fun _ _ hmild h ↦
    ⟨h.waits.of_mild hmild fun _ ↦ id, hmild.retry.trans h.retry⟩

/-- **Unlinking** forgets every time that was named. -/
theorem withheld_vibeUnlink : Prog.Triple (Waits Client.Withheld) vibeUnlink
    (fun _ ↦ Waits Client.Withheld) fun _ ↦ Waits Client.Withheld := by
  have hforget : Prog.Triple (Waits Client.Withheld) (note .forgotten)
      (fun _ ↦ Waits fun _ _ ↦ False) fun _ ↦ Waits Client.Withheld := fun c h ↦
    ⟨h.working, h.clock, h.retry, h.obeyed, fun time htime ↦ by cases htime⟩
  have hmild {α : Type} {p : Vibe α} (hp : Prog.Moves Mild p) :
      Prog.Triple (Waits fun _ _ ↦ False) p (fun _ ↦ Waits fun _ _ ↦ False) fun _ ↦
        Waits Client.Withheld :=
    (Prog.Triple.of_moves (Q := Waits fun _ _ ↦ False) hp fun _ _ hmild h ↦
      h.of_mild hmild fun _ ↦ id).conseq (fun _ ↦ id) (fun _ _ ↦ id)
      fun _ _ h ↦ h.imp fun _ _ ↦ False.elim
  have hdone {α : Type} {p : Vibe α}
      (hp : Prog.Triple Cleared p (fun _ ↦ Cleared) fun _ ↦ Cleared) :
      Prog.Triple Cleared p (fun _ ↦ Waits Client.Withheld) fun _ ↦ Waits Client.Withheld :=
    hp.conseq (fun _ ↦ id) (fun _ _ ↦ Cleared.withheld) fun _ _ ↦ Cleared.withheld
  refine .bind (withheld_triple mild_getVibe) fun g ↦ .bind (withheld_triple (.check _)) fun _ ↦
    .bind hforget fun _ ↦ .bind (hmild mild_vibeCancel) fun _ ↦
    .bind (hmild (mild_stored (moves_writeAuth _ (notRetry_of_ne (by simp)))).attempt) fun written ↦
    .bind (M := fun _ ↦ Cleared) (fun c h ↦ ⟨h.reset (refl_of (Within NotRetry) c.board) rfl rfl rfl
      fun _ ↦ id, rfl⟩) fun _ ↦ .bind (M := fun _ ↦ Cleared) (.attempt ?_) fun result ↦
    .bind ((cleared_of_mild (mild_setError _ _)).conseq (fun _ ↦ id) (fun _ _ ↦ id)
      fun _ _ ↦ Cleared.withheld) fun _ ↦ hdone (cleared_of_mild (.lift _))
  refine .bind (cleared_of_mild (.lift _)) fun _ ↦ .bind (cleared_stored
    (moves_clearCache trivial trivial)) fun _ ↦
    cleared_stored (moves_clearRetryNotBefore trivial)

/-! ### The end of a call -/

/-- **The outcome** of a request: only a success goes on, with nothing to wait for. -/
theorem asking_settleResponse (before : VibeContext) (parser : Parser) :
    Prog.Triple Answered (settleResponse before parser) (fun _ ↦ Asking)
      fun _ ↦ Waits Client.Withheld := by
  have hfail {α : Type} (error : Option VibeError) (status : Int) (e : EspErr) :
      Prog.Triple (Waits Client.Withheld) (do
        setError error status
        Prog.fail e : Vibe α) (fun _ _ ↦ False) fun _ ↦ Waits Client.Withheld :=
    .bind (withheld_triple (mild_setError _ _)) fun _ ↦
      .fail (R := fun _ ↦ Waits Client.Withheld)
  have hread : Prog.Triple Answered getVibe (fun _ ↦ Answered) fun _ ↦ Waits Client.Withheld :=
    fun _ ↦ id
  refine .bind hread fun g ↦ .bind (M := fun exchange c ↦ Answered c ∧ c.exchange = exchange)
    (fun c h ↦ ⟨h, rfl⟩) fun exchange ↦ ?_
  have hwithheld (c : Client) (h : Answered c ∧ c.exchange = exchange) : Waits Client.Withheld c :=
    h.1.withheld
  split
  · exact (hfail _ _ _).conseq hwithheld (fun _ _ ↦ False.elim) fun _ _ ↦ id
  split
  · refine .bind (M := fun _ ↦ Waits Client.Withheld)
      ((Prog.Triple.attempt withheld_vibeUnlink).conseq hwithheld (fun _ _ ↦ id) fun _ _ ↦ id)
      fun unlinked ↦ ?_
    cases unlinked with
    | ok => exact (hfail _ _ _).conseq (fun _ ↦ id) (fun _ _ ↦ False.elim) fun _ _ ↦ id
    | error e => exact (hfail _ _ _).conseq (fun _ ↦ id) (fun _ _ ↦ False.elim) fun _ _ ↦ id
  split
  · exact (hfail _ _ _).conseq hwithheld (fun _ _ ↦ False.elim) fun _ _ ↦ id
  · rename_i hok
    have hstatus : exchange.status = 200 := by
      by_contra hne
      exact hok (.inr hne)
    refine (asking_of_mild (mild_storeBody parser exchange.status)).conseq (fun c h ↦ ?_)
      (fun _ _ ↦ id) fun _ _ ↦ Asking.withheld
    exact h.1.asking (h.2 ▸ hstatus)

/-- **A success** ends the retry window. -/
theorem past_clearDeadline : Prog.Triple Asking clearDeadline (fun _ ↦ Waits Client.Withheld)
    fun _ ↦ Waits Client.Withheld := by
  intro c h
  have hpast (c' : Client) (h' : Waits Client.Past c') : Waits Client.Withheld c' :=
    h'.imp fun _ _ ↦ .inl
  rw [clearDeadline, Prog.bind_of_ok (getVibe_apply c)]
  split
  · have hboard : Within (fun _ _ ↦ True) c.board (vibeStoreClearRetryNotBefore c.board).2 :=
      moves_clearRetryNotBefore trivial c.board
    exact hpast _ (h.past.reset hboard rfl rfl rfl fun _ ↦ id)
  · exact h.withheld

/-- **One request**: made when no time is waited for, it leaves every time it was told withheld. -/
theorem withheld_fetchDay (dateKey : Int32) :
    Prog.Triple Asking (fetchDay dateKey) (fun _ ↦ Waits Client.Withheld)
      fun _ ↦ Waits Client.Withheld := by
  have hmild {α : Type} {p : Vibe α} (hp : Prog.Moves Mild p) :
      Prog.Triple Asking p (fun _ ↦ Asking) fun _ ↦ Waits Client.Withheld :=
    (asking_of_mild hp).conseq (fun _ ↦ id) (fun _ _ ↦ id) fun _ _ ↦ Asking.withheld
  exact .bind (hmild (mild_of_lasting (lasting_prepareDay dateKey))) fun parser ↦
    .bind (hmild mild_getVibe) fun before ↦
    .bind ((asking_performRequest dateKey parser).conseq (fun _ ↦ id) (fun _ _ ↦ id)
      fun _ _ ↦ Asking.withheld) fun parser ↦ .bind answered_recordResponse fun _ ↦
    .bind (asking_settleResponse before parser) fun _ ↦ past_clearDeadline

/-! ### The calls -/

/-- The client may be asked for a day. -/
structure Admitted (c : Client) : Prop where
  withheld : Waits Client.Withheld c
  free : Waits Client.Open c

/-- The start of a call: the date, on a client that has been started. -/
theorem withheld_call {f : Int32 → Vibe UsageSnapshot} (hf : ∀ today, Prog.Triple Asking (f today)
    (fun _ ↦ Waits Client.Withheld) fun _ ↦ Waits Client.Withheld) :
    Prog.Triple Admitted (do
      let g ← getVibe
      Prog.check g.initialized .invalidState
      let today ← currentDay
      f today) (fun _ ↦ Waits Client.Withheld) fun _ ↦ Waits Client.Withheld := by
  refine .bind (M := fun g c ↦ Admitted c ∧ c.vibe = g) (fun c h ↦ ⟨h, rfl⟩) fun g ↦
    .bind (M := fun _ c ↦ Waits Client.Open c ∧ c.vibe.initialized = true) (.check ?_ ?_) fun _ ↦
    .bind asking_currentDay hf
  · rintro hinit c ⟨h, rfl⟩
    exact ⟨h.free, hinit⟩
  · rintro - c ⟨h, -⟩
    exact h.withheld

/-- A request of today. -/
theorem withheld_vibeFetchToday : Prog.Triple Admitted vibeFetchToday
    (fun _ ↦ Waits Client.Withheld) fun _ ↦ Waits Client.Withheld :=
  withheld_call fun today ↦ .bind (withheld_fetchDay today) fun _ ↦
    .bind (withheld_triple (mild_setCache _)) fun _ ↦
    .bind (withheld_triple mild_checkpoint.attempt) fun written ↦
    withheld_triple (mild_of_lasting (lasting_reportStored .today written))

/-- One day of a pass. -/
theorem withheld_reconcileAge (today : Int32) (age : ℕ) :
    Prog.Triple Asking (reconcileAge today age) (fun _ ↦ Waits Client.Withheld)
      fun _ ↦ Waits Client.Withheld := by
  unfold reconcileAge
  cases dayBefore today age with
  | error _ => exact fun _ ↦ Asking.withheld
  | ok dateKey =>
    exact .bind (withheld_fetchDay dateKey) fun _ ↦
      .bind (withheld_triple (mild_setCache _)) fun _ ↦
      .bind (withheld_triple mild_stampPass) fun _ ↦
      .bind (withheld_triple (mild_setCache _)) fun _ ↦
      .bind (withheld_triple mild_timeNow) fun nowUtc ↦
      .bind (withheld_triple (mild_writeCacheNow nowUtc).attempt) fun written ↦
      withheld_triple (mild_of_lasting (lasting_reportStored .sevenDays written))

/-- A step of a pass. -/
theorem withheld_vibeReconcile : Prog.Triple Admitted vibeReconcile
    (fun _ ↦ Waits Client.Withheld) fun _ ↦ Waits Client.Withheld := by
  have hmild {α : Type} {p : Vibe α} (hp : Prog.Moves Mild p) :
      Prog.Triple Asking p (fun _ ↦ Waits Client.Withheld) fun _ ↦ Waits Client.Withheld :=
    (withheld_triple hp).conseq (fun _ ↦ Asking.withheld) (fun _ _ ↦ id) fun _ _ ↦ id
  have hkeep {α : Type} {p : Vibe α} (hp : Prog.Moves Mild p) :
      Prog.Triple Asking p (fun _ ↦ Asking) fun _ ↦ Waits Client.Withheld :=
    (asking_of_mild hp).conseq (fun _ ↦ id) (fun _ _ ↦ id) fun _ _ ↦ Asking.withheld
  refine withheld_call fun today ↦ .bind (hkeep (mild_setCache _)) fun _ ↦
    .bind (hkeep mild_getVibe) fun g ↦ ?_
  split
  · exact hmild ((mild_of_lasting (lasting_vibeSnapshot _)).bind fun _ ↦
      (mild_setError _ _).bind fun _ ↦ .ret _)
  · cases nextAge g.cache.reconcilePendingMask with
    | none => exact hmild (mild_of_lasting (lasting_vibeSnapshot _))
    | some age => exact withheld_reconcileAge today age

/-- A time that is still to come leaves some seconds. -/
theorem remaining_ne_zero {retry now : Int64} (h : retry ≠ now) :
    (Except.ok (if (retry - now).toUInt64 > 0xFFFFFFFF then 0xFFFFFFFF
      else (retry - now).toUInt64.toUInt32) : Except EspErr UInt32) ≠ .ok 0 := by
  have hne : (retry - now).toUInt64 ≠ 0 := by
    intro hzero
    have hback := congrArg UInt64.toInt64 hzero
    rw [Int64.toInt64_toUInt64] at hback
    exact h ((Int64.sub_eq_iff_eq_add.1 hback).trans (Int64.zero_add now))
  intro hok
  have hvalue := Except.ok.inj hok
  split at hvalue
  · exact absurd hvalue (by decide)
  · rename_i hsmall
    refine hne (UInt64.toNat_inj.1 ?_)
    have hnat := congrArg UInt32.toNat hvalue
    rw [UInt64.toNat_toUInt32] at hnat
    have hle : (retry - now).toUInt64.toNat ≤ 0xFFFFFFFF := by
      simpa using not_lt.1 hsmall
    rw [Nat.mod_eq_of_lt (by omega)] at hnat
    simpa using hnat

/-- **No time is left**, as far as `vibe_retry_remaining_seconds` says, once every time has come. -/
theorem admitted_vibeRetryRemainingSeconds {c : Client} (h : Waits Client.Withheld c)
    (hnow : (vibeRetryRemainingSeconds c).1 = .ok 0) :
    Admitted (vibeRetryRemainingSeconds c).2 := by
  have hmild := (mild_of_lasting lasting_vibeRetryRemainingSeconds) c
  refine ⟨withheld_of_mild h hmild, ?_⟩
  have hopen (c' : Client) (hmild : Mild c c')
      (hkept : ∀ time, 0 < time → c.Keeps time → c.vibe.initialized = true → c'.Past time) :
      Waits Client.Open c' := by
    refine ⟨(withheld_of_mild h hmild).working, (withheld_of_mild h hmild).clock,
      (withheld_of_mild h hmild).retry, (withheld_of_mild h hmild).obeyed, fun time htime ↦ ?_⟩
    rw [hmild.history] at htime
    obtain ⟨hpos, hpast | hend | hkeeps⟩ := h.told time htime
    · exact ⟨hpos, .inl (h.past_of_mild hmild hpast)⟩
    · exact ⟨hpos, .inr (.inl (h.endOfTime_of_mild hmild hend))⟩
    · refine ⟨hpos, ?_⟩
      cases hinit : c.vibe.initialized with
      | false => exact .inr (.inr (hmild.initialized.trans hinit))
      | true => exact .inl (hkept time hpos hkeeps hinit)
  rw [vibeRetryRemainingSeconds, Prog.bind_of_ok (getVibe_apply c)] at hnow hmild ⊢
  split at hnow
  · rename_i hnone
    rw [if_pos hnone] at hmild ⊢
    refine hopen _ hmild fun time hpos hkeeps hinit ↦ ?_
    rcases hnone with hoff | hzero
    · exact absurd hinit hoff
    · have hle := hkeeps.context hinit
      have hretry : c.vibe.retryNotBeforeUtc.toInt ≤ 0 := Int64.le_iff_toInt_le.1 hzero
      omega
  · rename_i hsome
    rw [if_neg hsome, Prog.bind_of_ok (timeNow_apply c)] at hmild ⊢
    rw [Prog.bind_of_ok (timeNow_apply c)] at hnow
    dsimp only at hnow hmild ⊢
    split at hnow
    · rename_i hcome
      rw [if_pos hcome] at hmild ⊢
      refine hopen _ hmild fun time _ hkeeps hinit ↦ ?_
      exact (hkeeps.context hinit).trans (Int64.le_iff_toInt_le.1 hcome)
    · rename_i hwait
      refine absurd hnow (remaining_ne_zero ?_)
      exact fun heq ↦ hwait (Int64.le_iff_toInt_le.2 (Int.le_of_eq (congrArg Int64.toInt heq)))

/-! ### Starting again -/

/-- The context holds the deadline that the flash holds. -/
structure Loaded (c : Client) : Prop where
  waits : Waits Client.Withheld c
  retry : c.vibe.retryNotBeforeUtc = storedRetry c.board.flash

/-- A mild step after the deadline has been loaded. -/
theorem Loaded.of_mild {c c' : Client} (h : Loaded c) (hmild : Mild c c') : Loaded c' := by
  refine ⟨withheld_of_mild h.waits hmild, ?_⟩
  rw [hmild.retry, h.retry, storedRetry_of_within hmild.board]

/-- A mild program after the deadline has been loaded. -/
theorem loaded_of_mild {α : Type} {p : Vibe α} (hp : Prog.Moves Mild p) :
    Prog.Triple Loaded p (fun _ ↦ Loaded) fun _ ↦ Waits Client.Withheld :=
  (Prog.Triple.of_moves (Q := Loaded) hp fun _ _ hmild h ↦ h.of_mild hmild).conseq (fun _ ↦ id)
    (fun _ _ ↦ id) fun _ _ ↦ Loaded.waits

/-- The deadline is set to what the flash holds. -/
theorem Waits.load {c c' : Client} (h : Waits Client.Withheld c)
    (hboard : Within NotRetry c.board c'.board) (hclock : c'.clock = c.clock)
    (hreadings : c'.readings = c.readings) (hhistory : c'.history = c.history)
    (hretry : c'.vibe.retryNotBeforeUtc = storedRetry c'.board.flash) : Loaded c' := by
  refine ⟨⟨h.working.of_within hboard, by rw [hclock]; exact h.clock, fun _ ↦ by rw [hretry], ?_,
    fun time htime ↦ ?_⟩, hretry⟩
  · rw [hhistory]
    exact h.obeyed
  rw [hhistory] at htime
  have hreading : c'.lastReading = c.lastReading := by
    unfold Client.lastReading
    rw [hclock, hreadings]
  obtain ⟨hpos, hpast | hend | hkeeps⟩ := h.told time htime
  · exact ⟨hpos, .inl (by rw [Client.Past, hreading]; exact hpast)⟩
  · exact ⟨hpos, .inr (.inl (by rw [Client.EndOfTime, hreading]; exact hend))⟩
  · have hflash : time ≤ (storedRetry c'.board.flash).toInt := by
      rw [storedRetry_of_within hboard]
      exact hkeeps.flash
    exact ⟨hpos, .inr (.inr ⟨hflash, fun _ ↦ by rw [hretry]; exact hflash⟩)⟩

/-- What a call of the store returns. -/
theorem attempt_stored {α : Type} {p : Nvs α} {c : Client} {result : Except EspErr α}
    (h : (p c.board).1 = result) : (stored p).attempt c = (.ok result, (stored p c).2) := by
  rw [Prog.attempt_apply, ← h]
  rfl

/-- **Loading the deadline** when the client starts. -/
theorem loaded_loadRetry :
    Prog.Triple (Waits Client.Withheld) loadRetry (fun _ ↦ Loaded) fun _ _ ↦ False := by
  intro c h
  have hboard : Within NotRetry c.board (vibeStoreLoadRetryNotBefore c.board).2 :=
    moves_loadRetryNotBefore c.board
  have hsame := storedRetry_of_within hboard
  rcases loadRetryNotBefore_of_working h.working with hok | ⟨⟨error, herror⟩, hzero⟩
  · rw [loadRetry, Prog.bind_of_ok (attempt_stored hok)]
    exact h.load hboard rfl rfl rfl hsame.symm
  · rw [loadRetry, Prog.bind_of_ok (attempt_stored herror)]
    exact h.load hboard rfl rfl rfl (hzero.symm.trans hsame.symm)

/-- The configuration is not the deadline. -/
theorem takeConfig_kept {config : VibeConfig} {g g' : VibeContext}
    (h : takeConfig config g = some g') :
    g'.retryNotBeforeUtc = g.retryNotBeforeUtc ∧ g'.initialized = g.initialized := by
  simp only [takeConfig, Option.bind_eq_bind, Option.bind_eq_some_iff] at h
  obtain ⟨bootstrapOrigin, -, clientName, -, hostname, -, h⟩ := h
  split at h
  · cases h
  · cases h
    exact ⟨rfl, rfl⟩

/-- **Starting** keeps every time that has not come. -/
theorem withheld_vibeInit (config : VibeConfig) : Prog.Triple (Waits Client.Withheld)
    (vibeInit config) (fun _ ↦ Waits Client.Withheld) fun _ ↦ Waits Client.Withheld := by
  refine .bind (M := fun g c ↦ Waits Client.Withheld c ∧ c.vibe = g) (fun c h ↦ ⟨h, rfl⟩)
    fun g ↦ ?_
  cases htake : takeConfig config g with
  | none =>
    refine .bind (M := fun _ ↦ Waits Client.Withheld) (fun c h ↦ ?_) fun _ ↦
      .fail (R := fun _ ↦ Waits Client.Withheld)
    refine h.1.reset (refl_of (Within NotRetry) c.board) rfl rfl rfl fun time hold ↦ ?_
    rcases hold with hpast | hend | hkeeps
    · exact .inl hpast
    · exact .inr (.inl hend)
    · exact .inr (.inr ⟨hkeeps.flash, fun hinit ↦ by cases hinit⟩)
  | some g' =>
    refine .bind (M := fun _ ↦ Waits Client.Withheld) ?_ fun _ ↦
      .bind (loaded_loadRetry.conseq (fun _ ↦ id) (fun _ _ ↦ id) fun _ _ ↦ False.elim) fun _ ↦
      .bind (loaded_of_mild (mild_loadAuth config)) fun _ ↦
      .bind (loaded_of_mild mild_loadCache) fun _ c h ↦ ?_
    · rintro c ⟨h, rfl⟩
      obtain ⟨hretry, hinit⟩ := takeConfig_kept htake
      exact withheld_of_mild h ⟨refl_of (Within NotRetry) c.board, rfl, le_rfl, hretry, hinit, rfl,
        rfl⟩
    · have hload : Loaded { c with vibe := { c.vibe with
          lastCacheWriteAt := newestCacheTimestamp c.vibe.cache, initialized := true } } :=
        h.waits.load (refl_of (Within NotRetry) c.board) rfl rfl rfl h.retry
      exact hload.waits

end VibeUsage
