import VibeUsage.Parser.Model
import VibeUsage.Storage.Store

/-!
# The context of the usage client

The state behind `vibe_client.c`, with what surrounds one of its calls: the storage, the wall clock,
and the one HTTP exchange that the call may make. The transport is represented by what it delivers
and reports, whatever that is.

The exchange is given with the context: the pieces in which the body comes, what the transport
reports, and what other tasks do meanwhile. The history is a record for the theorems and is read by
no function of the model.
-/

namespace VibeUsage

/-- A zeroed cache. -/
def VibeCache.zero : VibeCache where
  schemaVersion := 0
  sequence := 0
  generation := 0
  configRevision := 0
  metricId := 0
  timezone := .asiaShanghai
  sourceIds := .replicate sourceSlots .empty
  days := .replicate cacheDays .zero
  lastReconcileAt := 0
  reconcileAnchorKey := 0
  reconcilePendingMask := 0
  persisted := false

/-- A `vibe_context_t`. -/
structure VibeContext where
  initialized : Bool
  bootstrapOrigin : CString
  clientName : CString
  hostname : CString
  timezone : Timezone
  configRevision : UInt32
  refreshSeconds : UInt32
  maxUsageBodyBytes : ℕ
  maxUsageBuckets : UInt32
  cancelGeneration : UInt32
  lastError : Option VibeError
  lastHttpStatus : Int
  lastRetryAfterSeconds : UInt32
  retryNotBeforeUtc : Int64
  lastCacheWriteAt : Int64
  auth : AuthRecord
  cache : VibeCache
  deriving DecidableEq

/-- A zeroed context. -/
def VibeContext.zero : VibeContext where
  initialized := false
  bootstrapOrigin := .empty
  clientName := .empty
  hostname := .empty
  timezone := .asiaShanghai
  configRevision := 0
  refreshSeconds := 0
  maxUsageBodyBytes := 0
  maxUsageBuckets := 0
  cancelGeneration := 0
  lastError := none
  lastHttpStatus := 0
  lastRetryAfterSeconds := 0
  retryNotBeforeUtc := 0
  lastCacheWriteAt := 0
  auth := .zero
  cache := .zero

/-- What `vibe_http_request` does in one call, and what other tasks do while it runs. -/
structure Exchange where
  /-- The pieces of the body, in the order the callback gets them. -/
  pieces : List (List UInt8)
  /-- The value returned, `none` for `ESP_OK`. -/
  error : Option EspErr
  status : Int
  bodyError : Option VibeError
  retryAfterSeconds : UInt32
  /-- How often `vibe_cancel` is called meanwhile. -/
  cancels : UInt32
  /-- What becomes of the account generation meanwhile. -/
  generation : UInt32 → UInt32

/-- An entry of the history of a client. -/
inductive Contact
  /-- A usage request, the clock having last been read at this time. -/
  | requested (at_ : Int64)
  /-- A body that came in full, with the date and the timezone it was asked for. -/
  | received (dateKey : Int32) (timezone : Timezone) (body : List UInt8)
  /-- A refusal, with the time before which nothing is to be asked for. -/
  | toldToWait (until_ : ℤ)
  /-- The account is given up. -/
  | forgotten
deriving DecidableEq, Repr

/-- The context, with what surrounds a call. -/
structure Client where
  board : Board
  vibe : VibeContext
  /-- What `time(NULL)` returns, reading by reading. -/
  clock : ℕ → Int64
  /-- The number of readings so far. -/
  readings : ℕ
  exchange : Exchange
  /-- What the server has been asked, and has said, so far, the latest first. No code reads it. -/
  history : List Contact

/-- An exchange that fails before anything is received. -/
def Exchange.silent : Exchange where
  pieces := []
  error := some .fail
  status := 0
  bodyError := none
  retryAfterSeconds := 0
  cancels := 0
  generation := id

/-- A client that has not been started, on a board whose storage is empty and works. -/
def Client.zero : Client where
  board := { flash := .blank, powered := true, tick := 0, faults := fun _ ↦ .none }
  vibe := .zero
  clock := fun _ ↦ 0
  readings := 0
  exchange := .silent
  history := []

/-- A program over the client. -/
abbrev Vibe (α : Type) : Type := Prog Client EspErr α

/-- A call of the store. -/
def stored {α : Type} (p : Nvs α) : Vibe α :=
  Prog.on Client.board (fun board c ↦ { c with board }) p

def setVibe (f : VibeContext → VibeContext) : Vibe Unit :=
  Prog.modify fun c ↦ { c with vibe := f c.vibe }

def getVibe : Vibe VibeContext := fun c ↦ (.ok c.vibe, c)

/-- `time(NULL)` -/
def timeNow : Vibe Int64 := fun c ↦ (.ok (c.clock c.readings),
    { c with readings := c.readings + 1 })

@[simp] theorem getVibe_apply (c : Client) : getVibe c = (.ok c.vibe, c) := rfl

/-- The clock is read, and the next reading is another. -/
@[simp]
theorem timeNow_apply (c : Client) :
    timeNow c = (.ok (c.clock c.readings), { c with readings := c.readings + 1 }) := rfl

/-- `malloc` and `calloc` -/
def allocate : Vibe Unit := stored malloc

/-- Add to the history. -/
def note (contact : Contact) : Vibe Unit :=
  Prog.modify fun c ↦ { c with history := contact :: c.history }

def setError (error : Option VibeError) (httpStatus : Int) : Vibe Unit :=
  setVibe fun g ↦ { g with lastError := error, lastHttpStatus := httpStatus }

def vibeCancel : Vibe Unit :=
  setVibe fun g ↦ { g with cancelGeneration := g.cancelGeneration + 1 }

def VibeContext.hasAuth (g : VibeContext) : Bool :=
  g.initialized && g.auth.present && !g.auth.tombstone && !g.auth.apiKey.bytes.isEmpty

def VibeContext.nextAccountGeneration (g : VibeContext) : UInt32 :=
  if g.auth.generation + 1 = 0 then 1 else g.auth.generation + 1

/-! ### Starting -/

/-- A `vibe_config_t`. -/
structure VibeConfig where
  bootstrapOrigin : CString
  clientName : CString
  hostname : CString
  timezone : Timezone
  generation : UInt32
  configRevision : UInt32
  refreshSeconds : UInt32
  maxUsageBodyBytes : ℕ
  maxUsageBuckets : UInt32

/-- A copy into an array of `capacity` bytes. -/
def copyString (capacity : ℕ) (input : CString) : Option CString :=
  if input.bytes.length = 0 ∨ input.bytes.length ≥ capacity then none else some input

/-- `"https://"` -/
def httpsScheme : List UInt8 := ascii ['h', 't', 't', 'p', 's', ':', '/', '/']

/-- `/`, `?`, `#`, `@`, and what is not above a space. -/
def endsHost (c : UInt8) : Bool := c = 0x2F || c = 0x3F || c = 0x23 || c = 0x40 || decide (c ≤ 0x20)

/-- The origin without a slash at its end. -/
def normalizeOrigin (input : CString) : Option CString :=
  if input.bytes.length ≥ originBytes then none
  else
    let origin := if input.bytes.getLast? = some 0x2F then
      input.strncpy (input.bytes.length - 1) else input
    if origin.bytes.length < 9 ∨ origin.bytes.take 8 ≠ httpsScheme ∨
        (origin.bytes.drop 8).any endsHost then none
    else some origin

def newestCacheTimestamp (cache : VibeCache) : Int64 :=
  cache.days.toList.foldl
    (fun newest day ↦ if day.valid ∧ day.fetchedAt > newest then day.fetchedAt else newest)
    cache.lastReconcileAt

/-- `VIBE_PARSER_DEFAULT_MAX_BODY` and the other defaults stand for a zero. -/
def orDefault (value default : UInt32) : UInt32 := if value = 0 then default else value

/-- The first part of `vibe_init`: the arguments. -/
def takeConfig (config : VibeConfig) (g : VibeContext) : Option VibeContext := do
  let bootstrapOrigin ← normalizeOrigin config.bootstrapOrigin
  let clientName ← copyString 65 config.clientName
  let hostname ← copyString 65 config.hostname
  if ¬ config.timezone.Supported then none
  else
    some { g with
      bootstrapOrigin, clientName, hostname
      timezone := config.timezone
      configRevision := orDefault config.configRevision 1
      refreshSeconds := orDefault config.refreshSeconds 900
      maxUsageBodyBytes :=
        if config.maxUsageBodyBytes = 0 then parserDefaultMaxBody else config.maxUsageBodyBytes
      maxUsageBuckets := orDefault config.maxUsageBuckets parserDefaultMaxBuckets
      cancelGeneration := 1
      lastError := none }

/-- The record of a device that has no credential. -/
def AuthRecord.unlinked (generation : UInt32) : AuthRecord :=
  ⟨true, true, generation, .empty, .empty⟩

/-- The retry deadline, or none. -/
def loadRetry : Vibe Unit := do
  match ← (stored vibeStoreLoadRetryNotBefore).attempt with
  | .ok utcSeconds => setVibe fun g ↦ { g with retryNotBeforeUtc := utcSeconds }
  | .error _ => setVibe fun g ↦ { g with retryNotBeforeUtc := 0, lastError := some .storage }

/-- The credential; a device whose record cannot be read is not linked. -/
def loadAuth (config : VibeConfig) : Vibe Unit := do
  match ← (stored vibeStoreLoadAuth).attempt with
  | .ok auth =>
    setVibe fun g ↦ { g with auth := { auth with generation := orDefault auth.generation 1 } }
  | .error error =>
    setVibe fun g ↦ { g with
      auth := .unlinked (orDefault config.generation 1)
      lastError := if error = .nvsNotFound then g.lastError else some .storage }

/-- An empty cache of this account and configuration. -/
def VibeContext.emptyCache (g : VibeContext) : VibeCache :=
  vibeCacheInit g.auth.generation g.configRevision g.timezone

/-- The cache that was saved for this account and configuration, or an empty one. -/
def loadCache : Vibe Unit := do
  let g ← getVibe
  if g.auth.tombstone then setVibe fun g ↦ { g with cache := g.emptyCache }
  else
    match ← (stored (vibeStoreLoadCache g.auth g.configRevision g.timezone)).attempt with
    | .ok cache => setVibe fun g ↦ { g with cache }
    | .error _ => setVibe fun g ↦ { g with cache := g.emptyCache }

def vibeInit (config : VibeConfig) : Vibe Unit := do
  let g ← getVibe
  match takeConfig config g with
  | none =>
    setVibe fun _ ↦ { VibeContext.zero with lastError := some .invalidArgument }
    Prog.fail .invalidArg
  | some g =>
    setVibe fun _ ↦ g
    loadRetry
    loadAuth config
    loadCache
    setVibe fun g ↦
      { g with lastCacheWriteAt := newestCacheTimestamp g.cache, initialized := true }

/-! ### Unlinking and the factory reset -/

/-- The old account is no longer used, whether or not the tombstone could be saved. -/
def vibeUnlink : Vibe Unit := do
  let g ← getVibe
  Prog.check g.initialized .invalidState
  note .forgotten
  vibeCancel
  let tombstone := AuthRecord.unlinked g.nextAccountGeneration
  let written ← (stored (vibeStoreWriteAuth tombstone)).attempt
  setVibe fun g ↦
    { g with
      auth := tombstone
      cache := vibeCacheInit tombstone.generation g.configRevision g.timezone
      retryNotBeforeUtc := 0 }
  let result ← (do
    Prog.lift written
    stored vibeStoreClearCache
    stored vibeStoreClearRetryNotBefore : Vibe Unit).attempt
  setError (match result with
    | .ok () => none
    | .error _ => some .storage) g.lastHttpStatus
  Prog.lift result

def vibeFactoryReset : Vibe Unit := do
  let g ← getVibe
  Prog.check g.initialized .invalidState
  note .forgotten
  vibeCancel
  stored vibeStoreBeginReset
  stored vibeStoreFinishReset
  setVibe fun _ ↦ .zero

def vibeFactoryResetResumeLocal : Vibe Unit := do
  note .forgotten
  stored vibeStoreBeginReset
  stored vibeStoreFinishReset

def vibeFactoryResetComplete : Vibe Unit := stored vibeStoreCompleteReset

end VibeUsage
