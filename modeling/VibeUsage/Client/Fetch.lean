import VibeUsage.Client.Context
import VibeUsage.Parser.Feed

/-!
# Fetching a day

`fetch_day` and the three calls built on it: `vibe_fetch_today`, `vibe_begin_reconcile` and
`vibe_reconcile`. One call makes at most one request. A call that fails returns no snapshot; what it
has done to the context before stays done.

`fetch_day` is cut where its errors change what is known: `prepareDay` ends before the request,
`performRequest` is the request, `recordResponse` keeps what any response says, and
`settleResponse` decides what is made of it. What the pieces have in common is proved in `Lasting`,
`Advance` and `Deadline`.
-/

namespace VibeUsage

/-- The first second of 2024; the clock is not set before it. -/
def timeMinValid : Int64 := 1704067200

def getExchange : Vibe Exchange := fun c ↦ (.ok c.exchange, c)

def setCache (f : VibeCache → VibeCache) : Vibe Unit := setVibe fun g ↦
    { g with cache := f g.cache }

def VibeCache.markDirty (cache : VibeCache) : VibeCache :=
  if cache.persisted then { cache with sequence := cache.sequence + 1, persisted := false }
  else cache

def markCacheDirty : Vibe Unit := setCache VibeCache.markDirty

/-- The date of a reading of the clock, when it is set. -/
def localDay (timezone : Timezone) (now : Int64) : Option Int32 :=
  if now < timeMinValid then none
  else
    match vibeDateFromEpoch now timezone with
    | .error _ => none
    | .ok today => some today

def currentDay : Vibe Int32 := do
  let now ← timeNow
  let g ← getVibe
  match localDay g.timezone now with
  | none =>
    setError (some .timeInvalid) 0
    Prog.fail .invalidState
  | some today => pure today

/-! ### `fetch_day` -/

/-- `"/api/usage?from="`, `"&to="` and `"&tz="` -/
def usageUrlParts : List (List UInt8) :=
  [ascii ['/', 'a', 'p', 'i', '/', 'u', 's', 'a', 'g', 'e', '?', 'f', 'r', 'o', 'm', '='],
    ascii ['&', 't', 'o', '='], ascii ['&', 't', 'z', '=']]

/-- `"UTC"`, or `"Asia%2FShanghai"` for anything else -/
def timezoneParameter (timezone : Timezone) : List UInt8 :=
  if timezone = .utc then ascii ['U', 'T', 'C']
  else ascii ['A', 's', 'i', 'a', '%', '2', 'F', 'S', 'h', 'a', 'n', 'g', 'h', 'a', 'i']

/-- The length of the URL of a request. -/
def usageUrlLength (g : VibeContext) (start stop : List UInt8) : ℕ :=
  g.auth.origin.bytes.length + usageUrlParts.flatten.length + start.length + stop.length +
    (timezoneParameter g.timezone).length

/-- `"Bearer "` -/
def bearerPrefix : List UInt8 := ascii ['B', 'e', 'a', 'r', 'e', 'r', ' ']

/-- The parser for the day, once the URL and the header have been written and the memory is there.
-/
def prepareDay (dateKey : Int32) : Vibe Parser := do
  let g ← getVibe
  Prog.check g.hasAuth .invalidState
  setVibe fun g ↦ { g with lastRetryAfterSeconds := 0 }
  match vibeDateApiBounds dateKey g.timezone with
  | .error _ => Prog.fail .invalidArg
  | .ok (start, stop) =>
    Prog.check (usageUrlLength g start stop < 768) .invalidSize
    Prog.check (bearerPrefix.length + g.auth.apiKey.bytes.length < apiKeyBytes + 8)
      .invalidSize
    match ← (do allocate; allocate : Vibe Unit).attempt with
    | .error _ =>
      setError (some .noMemory) 0
      Prog.fail .noMem
    | .ok () =>
      pure (vibeUsageParserSetLimits (vibeUsageParserInit dateKey g.timezone) g.maxUsageBodyBytes
        g.maxUsageBuckets)

/-- What the history has of an exchange for this date: its body, when that came in full. -/
def Exchange.receipt (exchange : Exchange) (dateKey : Int32) (timezone : Timezone) :
    List Contact :=
  if exchange.status = 200 ∧ exchange.error = none then
    [.received dateKey timezone exchange.pieces.flatten]
  else []

/-- The request, and what other tasks do meanwhile. -/
def performRequest (dateKey : Int32) (parser : Parser) : Vibe Parser := fun c ↦
  (.ok (feedPieces parser c.exchange.pieces), { c with
    vibe := { c.vibe with
      cancelGeneration := c.vibe.cancelGeneration + c.exchange.cancels
      auth := { c.vibe.auth with
        generation := c.exchange.generation c.vibe.auth.generation } }
    history := c.exchange.receipt dateKey c.vibe.timezone ++
      .requested (c.clock (c.readings - 1)) :: c.history })

/-- The deadline is only ever put off. -/
def raiseDeadline (nowUtc nextUtc : Int64) : Vibe Unit := do
  let g ← getVibe
  if nowUtc ≥ timeMinValid ∧ nextUtc > g.retryNotBeforeUtc then do
    setVibe fun g ↦ { g with retryNotBeforeUtc := nextUtc }
    let _ ← (stored (vibeStoreWriteRetryNotBefore nextUtc)).attempt
    pure ()
  else pure ()

/-- The deadline of a refusal that names one. -/
def putOffDeadline (status : Int) (retryAfterSeconds : UInt32) : Vibe Unit :=
  if status = 429 ∧ retryAfterSeconds > 0 then do
    let nowUtc ← timeNow
    note (.toldToWait (nowUtc.toInt + retryAfterSeconds.toNat))
    raiseDeadline nowUtc (nowUtc + Int64.ofNat retryAfterSeconds.toNat)
  else pure ()

/-- What is kept of the response whatever it says. -/
def recordResponse : Vibe Unit := do
  let exchange ← getExchange
  setVibe fun g ↦ { g with
    lastRetryAfterSeconds := exchange.retryAfterSeconds
    lastHttpStatus := exchange.status }
  putOffDeadline exchange.status exchange.retryAfterSeconds

/-- The day of a body that the parser accepts. -/
def storeBody (parser : Parser) (status : Int) : Vibe Unit :=
  let finished := vibeUsageParserFinish parser
  match finished.error with
  | some error => do
    setError (some error) status
    Prog.fail .invalidResponse
  | none => do
    let fetchedAt ← timeNow
    let g ← getVibe
    let (error, cache) := vibeCacheReplaceDay g.cache finished.candidate fetchedAt
    setCache fun _ ↦ cache
    match error with
    | some error =>
      setError (some error) status
      Prog.fail .invalidResponse
    | none => pure ()

/-- What becomes of the response to a request made in the context `before`. -/
def settleResponse (before : VibeContext) (parser : Parser) : Vibe Unit := do
  let g ← getVibe
  let exchange ← getExchange
  if before.cancelGeneration ≠ g.cancelGeneration ∨
      before.auth.generation ≠ g.auth.generation then
    setError (some .cancelled) exchange.status
    Prog.fail .invalidState
  else if exchange.status = 401 then
    match ← vibeUnlink.attempt with
    | .ok () =>
      setError (some .httpStatus) exchange.status
      Prog.fail .invalidState
    | .error error =>
      setError (some .storage) exchange.status
      Prog.fail error
  else if exchange.error.isSome ∨ exchange.status ≠ 200 then
    setError (exchange.bodyError.or (some .httpStatus)) exchange.status
    Prog.fail (exchange.error.getD .invalidResponse)
  else storeBody parser exchange.status

/-- A success ends the retry window. -/
def clearDeadline : Vibe Unit := do
  let g ← getVibe
  if g.retryNotBeforeUtc ≠ 0 then do
    setVibe fun g ↦ { g with retryNotBeforeUtc := 0 }
    let _ ← (stored vibeStoreClearRetryNotBefore).attempt
    pure ()
  else pure ()

def fetchDay (dateKey : Int32) : Vibe Unit := do
  let parser ← prepareDay dateKey
  let before ← getVibe
  let parser ← performRequest dateKey parser
  recordResponse
  settleResponse before parser
  clearDeadline

/-! ### The calls -/

def writeCacheNow (nowUtc : Int64) : Vibe Unit := do
  let g ← getVibe
  let cache ← stored (vibeStoreWriteCache g.cache)
  setVibe fun g ↦ { g with cache, lastCacheWriteAt := nowUtc }

def vibeSnapshot (window : Window) : Vibe UsageSnapshot := do
  let g ← getVibe
  Prog.check g.initialized .invalidState
  let today ← currentDay
  match vibeCacheBuildSnapshot g.cache today window with
  | .error _ => Prog.fail .invalidResponse
  | .ok snapshot => pure snapshot

/-- Today has been fetched: a pass of another day is given up, one of today has today behind it. -/
def VibeCache.noteToday (cache : VibeCache) (today : Int32) : VibeCache :=
  if cache.reconcileAnchorKey ≠ today then
    { cache with reconcileAnchorKey := today, reconcilePendingMask := 0 }.markDirty
  else if cache.reconcilePendingMask &&& 1 ≠ 0 then
    { cache with reconcilePendingMask := cache.reconcilePendingMask &&& ~~~1 }.markDirty
  else cache

/-- The cache is written when it is not persisted, or an hour after the last time. -/
def checkpoint : Vibe Unit := do
  let nowUtc ← timeNow
  let g ← getVibe
  if ¬ g.cache.persisted ∨ g.lastCacheWriteAt ≤ 0 ∨ nowUtc - g.lastCacheWriteAt ≥ 3600 then do
    markCacheDirty
    writeCacheNow nowUtc
  else pure ()

/-- The end of a call that has fetched a day: the snapshot, then the outcome of the write. -/
def reportStored (window : Window) (written : Except EspErr Unit) : Vibe UsageSnapshot := do
  let snapshot ← vibeSnapshot window
  match written with
  | .error error =>
    setError (some .storage) 200
    Prog.fail error
  | .ok () =>
    setError none 200
    pure snapshot

def vibeFetchToday : Vibe UsageSnapshot := do
  let g ← getVibe
  Prog.check g.initialized .invalidState
  let today ← currentDay
  fetchDay today
  setCache (·.noteToday today)
  let written ← checkpoint.attempt
  reportStored .today written

/-- The days of a pass that starts now: today is left out when it is stored and not asked for. -/
def passMask (cache : VibeCache) (includeToday : Bool) (today : Int32) : UInt8 :=
  if includeToday ∨ vibeCacheFindDay cache today = none then 0x7F else 0x7E

def VibeCache.beginPass (cache : VibeCache) (includeToday : Bool) (today : Int32) : VibeCache :=
  if cache.reconcileAnchorKey ≠ today ∨
      cache.reconcilePendingMask ≠ passMask cache includeToday today then
    { cache with
      reconcileAnchorKey := today
      reconcilePendingMask := passMask cache includeToday today }.markDirty
  else cache

def vibeBeginReconcile (includeToday : Bool) : Vibe Unit := do
  let g ← getVibe
  Prog.check g.initialized .invalidState
  let today ← currentDay
  setCache (·.beginPass includeToday today)
  let g ← getVibe
  let written ← (if g.cache.persisted then pure () else do
    let nowUtc ← timeNow
    writeCacheNow nowUtc : Vibe Unit).attempt
  setError (match written with
    | .ok () => none
    | .error _ => some .storage) 0
  Prog.lift written

/-- A pass of another day goes on as one of today, without a word to the storage. -/
def VibeCache.anchorPass (cache : VibeCache) (today : Int32) : VibeCache :=
  if cache.reconcileAnchorKey ≠ today then
    { cache with
      reconcileAnchorKey := today
      reconcilePendingMask := passMask cache false today }
  else cache

/-- The age of the day that is fetched next. -/
def nextAge (mask : UInt8) : Option ℕ :=
  (List.range 7).find? fun age ↦ mask &&& 1 <<< UInt8.ofNat age ≠ 0

/-- The day of that age is behind the pass. -/
def VibeCache.dropAge (cache : VibeCache) (age : ℕ) : VibeCache :=
  { cache with
    reconcilePendingMask := cache.reconcilePendingMask &&& ~~~(1 <<< UInt8.ofNat age) }

/-- The time of the last pass, once it is over. -/
def stampPass : Vibe Unit := do
  let g ← getVibe
  if g.cache.reconcilePendingMask = 0 then do
    let nowUtc ← timeNow
    setCache fun cache ↦ { cache with lastReconcileAt := nowUtc }
  else pure ()

/-- A step of the pass: the day of the given age. -/
def reconcileAge (today : Int32) (age : ℕ) : Vibe UsageSnapshot :=
  match dayBefore today age with
  | .error _ => Prog.fail .invalidArg
  | .ok dateKey => do
    fetchDay dateKey
    setCache (·.dropAge age)
    stampPass
    markCacheDirty
    let nowUtc ← timeNow
    let written ← (writeCacheNow nowUtc).attempt
    reportStored .sevenDays written

def vibeReconcile : Vibe UsageSnapshot := do
  let g ← getVibe
  Prog.check g.initialized .invalidState
  let today ← currentDay
  setCache (·.anchorPass today)
  let g ← getVibe
  if g.cache.reconcilePendingMask = 0 then do
    let snapshot ← vibeSnapshot .sevenDays
    setError none 200
    pure snapshot
  else
    match nextAge g.cache.reconcilePendingMask with
    | none => vibeSnapshot .sevenDays
    | some age => reconcileAge today age

def VibeContext.reconcilePending (g : VibeContext) : Bool :=
  g.initialized && decide (g.cache.reconcilePendingMask ≠ 0)

/-- `vibe_retry_remaining_seconds` -/
def vibeRetryRemainingSeconds : Vibe UInt32 := do
  let g ← getVibe
  if ¬ g.initialized ∨ g.retryNotBeforeUtc ≤ 0 then pure 0
  else do
    let nowUtc ← timeNow
    if nowUtc ≥ g.retryNotBeforeUtc then pure 0
    else
      let remaining := (g.retryNotBeforeUtc - nowUtc).toUInt64
      pure (if remaining > 0xFFFFFFFF then 0xFFFFFFFF else remaining.toUInt32)

/-! ### Linking -/

/-- The success branch of `vibe_poll_device_code`, with the key that the server has delivered. The
old slots are erased if that can be done. -/
def linkAccount (apiKey : CString) : Vibe Unit := do
  let g ← getVibe
  let next : AuthRecord :=
    ⟨true, false, g.nextAccountGeneration, g.bootstrapOrigin, apiKey⟩
  match ← (stored (vibeStoreWriteAuth next)).attempt with
  | .error error =>
    setError (some .storage) 200
    Prog.fail error
  | .ok () =>
    setVibe fun g ↦ { g with auth := next }
    let _ ← (stored vibeStoreClearCache).attempt
    setVibe fun g ↦
      { g with cache := vibeCacheInit next.generation g.configRevision g.timezone }
    setError none 200

end VibeUsage
