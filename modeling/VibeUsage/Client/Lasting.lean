import VibeUsage.Client.Fetch
import VibeUsage.Storage.Frame

/-!
# What a call does besides

A call reads the clock, asks for memory and notes how it went. `Lasting` is what such steps leave of
a client: its storage, its account, its cache and its history as they were. The relations that the
larger results are about each contain it, so that these steps are followed once, here.

A step that lasts is `Still` for `Advance` and `Mild` for `Deadline`. Each of the two modules says
so once and then follows only the steps that do more.
-/

namespace VibeUsage

/-- The context without what the last call had to say of itself. -/
def VibeContext.lasting (g : VibeContext) : VibeContext :=
  { g with lastError := none, lastHttpStatus := 0, lastRetryAfterSeconds := 0 }

/-- Time has passed at most. -/
structure Lasting (c c' : Client) : Prop where
  board : Within (fun _ _ ↦ False) c.board c'.board
  clock : c'.clock = c.clock
  readings : c.readings ≤ c'.readings
  vibe : c'.vibe.lasting = c.vibe.lasting
  history : c'.history = c.history
  exchange : c'.exchange = c.exchange

instance instReflLasting : Std.Refl Lasting :=
  ⟨fun c ↦ ⟨refl_of (Within _) c.board, rfl, le_rfl, rfl, rfl, rfl⟩⟩

instance instIsTransLasting : IsTrans Client Lasting := ⟨fun _ _ _ h h' ↦
  ⟨trans_of (Within _) h.board h'.board, h'.clock.trans h.clock, h.readings.trans h'.readings,
    h'.vibe.trans h.vibe, h'.history.trans h.history, h'.exchange.trans h.exchange⟩⟩

open Prog (Moves)

theorem lasting_getVibe : Moves Lasting getVibe := fun c ↦ refl_of Lasting c

theorem lasting_getExchange : Moves Lasting getExchange := fun c ↦ refl_of Lasting c

/-- The number of readings is all that grows. -/
theorem lasting_timeNow : Moves Lasting timeNow := fun c ↦
  ⟨refl_of (Within _) c.board, rfl, Nat.le_succ _, rfl, rfl, rfl⟩

/-- A change of what the last call had to say of itself. -/
theorem lasting_setVibe {f : VibeContext → VibeContext} (h : ∀ g, (f g).lasting = g.lasting) :
    Moves Lasting (setVibe f) := fun c ↦
  ⟨refl_of (Within _) c.board, rfl, le_rfl, h c.vibe, rfl, rfl⟩

/-- An error is noted. -/
theorem lasting_setError (error : Option VibeError) (httpStatus : Int) :
    Moves Lasting (setError error httpStatus) := lasting_setVibe fun _ ↦ rfl

/-- Memory is asked for; that touches no entry of the flash. -/
theorem lasting_allocate : Moves Lasting allocate := fun c ↦
  ⟨moves_malloc c.board, rfl, le_rfl, rfl, rfl, rfl⟩

/-- The date is told, or cannot be told. -/
theorem lasting_currentDay : Moves Lasting currentDay := by
  refine lasting_timeNow.bind fun now ↦ lasting_getVibe.bind fun g ↦ ?_
  cases localDay g.timezone now with
  | none => exact (lasting_setError _ _).bind fun _ ↦ .fail _
  | some today => exact .ret _

/-- **A request is prepared**, or is refused before it is made. -/
theorem lasting_prepareDay (dateKey : Int32) : Moves Lasting (prepareDay dateKey) := by
  refine lasting_getVibe.bind fun g ↦ (Moves.check _).bind fun _ ↦
    .bind (lasting_setVibe ?_) fun _ ↦ ?_
  · exact fun _ ↦ rfl
  cases vibeDateApiBounds dateKey g.timezone with
  | error _ => exact .fail _
  | ok bounds =>
    refine (Moves.check _).bind fun _ ↦ (Moves.check _).bind fun _ ↦
      .bind (.attempt (lasting_allocate.bind fun _ ↦ lasting_allocate)) fun memory ↦ ?_
    cases memory with
    | error _ => exact (lasting_setError _ _).bind fun _ ↦ .fail _
    | ok => exact .ret _

/-- A snapshot is built of the cache as it is. -/
theorem lasting_vibeSnapshot (window : Window) : Moves Lasting (vibeSnapshot window) := by
  refine lasting_getVibe.bind fun g ↦ (Moves.check _).bind fun _ ↦
    lasting_currentDay.bind fun today ↦ ?_
  cases vibeCacheBuildSnapshot g.cache today window with
  | error _ => exact .fail _
  | ok snapshot => exact .ret _

/-- The end of a call that has written the cache, whichever way. -/
theorem lasting_reportStored (window : Window) (written : Except EspErr Unit) :
    Moves Lasting (reportStored window written) := by
  refine (lasting_vibeSnapshot window).bind fun _ ↦ ?_
  cases written with
  | error error => exact (lasting_setError _ _).bind fun _ ↦ .fail _
  | ok => exact (lasting_setError _ _).bind fun _ ↦ .ret _

/-- The time that is left is computed. -/
theorem lasting_vibeRetryRemainingSeconds : Moves Lasting vibeRetryRemainingSeconds := by
  refine lasting_getVibe.bind fun _ ↦
    .ite (.ret _) (lasting_timeNow.bind fun _ ↦ .ite (.ret _) (.ret _))

end VibeUsage
