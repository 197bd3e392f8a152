import VibeUsage.Storage.Auth

/-!
# The store of the usage component

`vibe_store.c`: the credential, the two cache slots, the reset journal and the retry deadline. A
call is the sequence of the operations it makes; where the C code keeps an error in a variable and
skips what follows, the sequence stops. Closing a handle and freeing memory leave no trace.

The wear, the size of the partition and the encryption of the storage are not represented: an
operation that fails for one of them fails. What a call leaves alone is in `Frame`, what it finds in
`CacheSlots` and `Auth`.
-/

namespace VibeUsage

/-- Go on when what was asked for is not there. -/
def ignoreNotFound (p : Nvs Unit) : Nvs Unit := do
  match ← p.attempt with
  | .error .nvsNotFound => pure ()
  | .error error => Prog.fail error
  | .ok () => pure ()

/-- The part of a call after `nvs_open`, which a namespace that is not there has nothing to do for.
-/
def ifFound (opened : Nvs Unit) (p : Nvs Unit) : Nvs Unit := do
  match ← opened.attempt with
  | .error .nvsNotFound => pure ()
  | .error error => Prog.fail error
  | .ok () => p

/-! ### The credential -/

def vibeStoreLoadAuth : Nvs AuthRecord := do
  nvsOpenReadOnly .vibeAuth
  let sized ← nvsGetBlob .vibeAuth .auth
  Prog.check (sized.length ≤ authBlobMaxBytes) .invalidSize
  malloc
  let blob ← nvsGetBlob .vibeAuth .auth
  Prog.lift (decodeAuth blob)

def vibeStoreWriteAuth (record : AuthRecord) : Nvs Unit := do
  malloc
  let blob ← Prog.lift (encodeAuth record)
  nvsOpen .vibeAuth
  nvsSet .vibeAuth .auth (.blob blob)
  nvsCommit

/-! ### The cache slots -/

def loadCacheKey (key : NvsKey) : Nvs VibeCache := do
  let sized ← nvsGetBlob .vibeCache key
  Prog.check (sized.length ≠ 0 ∧ sized.length ≤ cacheBlobMaxBytes) .invalidSize
  malloc
  let blob ← nvsGetBlob .vibeCache key
  -- The scratch copy that `vibe_cache_decode` allocates.
  malloc
  match decodeCacheInto blob with
  | .error _ => Prog.fail .invalidCrc
  | .ok cache => pure cache

/-- A slot that was read and belongs to this account and configuration. -/
def compatible (auth : AuthRecord) (configRevision : UInt32) (timezone : Timezone) :
    Except EspErr VibeCache → Option VibeCache
  | .error _ => none
  | .ok slot =>
    if slot.generation = auth.generation ∧ slot.configRevision = configRevision ∧
        slot.timezone = timezone ∧ slot.metricId = metricIdApiTotalV1 then some slot
    else none

/-- The second slot is selected when it is the only one, or its sequence is larger. -/
def selectSlot (first second : Option VibeCache) : Option VibeCache :=
  match second with
  | none => first
  | some slot =>
    match first with
    | none => some slot
    | some selected => if slot.sequence > selected.sequence then some slot else some selected

def vibeStoreLoadCache (auth : AuthRecord) (configRevision : UInt32) (timezone : Timezone) :
    Nvs VibeCache := do
  Prog.check (auth.present ∧ ¬ auth.tombstone) .invalidState
  nvsOpenReadOnly .vibeCache
  malloc
  let first ← (loadCacheKey .cacheA).attempt
  let second ← (loadCacheKey .cacheB).attempt
  match selectSlot (compatible auth configRevision timezone first)
      (compatible auth configRevision timezone second) with
  | some selected => pure selected
  | none =>
    match first, second with
    | .error _, .error _ => Prog.fail .notFound
    | _, _ => Prog.fail .invalidVersion

/-- The slot a cache is written to. -/
def slotKey (sequence : UInt32) : NvsKey := if sequence &&& 1 = 0 then .cacheA else .cacheB

/-- The caller's cache is changed by a call that succeeds only. -/
def vibeStoreWriteCache (cache : VibeCache) : Nvs VibeCache := do
  malloc
  malloc
  match vibeCacheEncode cache cacheBlobMaxBytes with
  | .error _ => Prog.fail .invalidSize
  | .ok blob =>
    nvsOpen .vibeCache
    nvsSet .vibeCache (slotKey cache.sequence) (.blob blob)
    nvsCommit
    let verified ← loadCacheKey (slotKey cache.sequence)
    Prog.check (verified.sequence = cache.sequence) .invalidResponse
    pure { cache with persisted := true }

/-- Both slots are erased, whatever becomes of the first; the later error is the one reported. -/
def vibeStoreClearCache : Nvs Unit :=
  ifFound (nvsOpen .vibeCache) do
    let first ← (ignoreNotFound (nvsEraseKey .vibeCache .cacheA)).attempt
    let second ← (ignoreNotFound (nvsEraseKey .vibeCache .cacheB)).attempt
    Prog.lift second
    Prog.lift first
    nvsCommit

/-! ### The retry deadline -/

/-- No deadline is zero. -/
def vibeStoreLoadRetryNotBefore : Nvs Int64 := do
  match ← (nvsOpenReadOnly .vibeMeta).attempt with
  | .error .nvsNotFound => pure 0
  | .error error => Prog.fail error
  | .ok () =>
    match ← (nvsGetI64 .vibeMeta .retry).attempt with
    | .error .nvsNotFound => pure 0
    | .error error => Prog.fail error
    | .ok utcSeconds => if utcSeconds < 0 then Prog.fail .invalidState else pure utcSeconds

def vibeStoreWriteRetryNotBefore (utcSeconds : Int64) : Nvs Unit := do
  Prog.check (0 < utcSeconds) .invalidArg
  nvsOpen .vibeMeta
  nvsSet .vibeMeta .retry (.i64 utcSeconds)
  nvsCommit

def vibeStoreClearRetryNotBefore : Nvs Unit :=
  ifFound (nvsOpen .vibeMeta) do
    ignoreNotFound (nvsEraseKey .vibeMeta .retry)
    nvsCommit

/-! ### The reset journal -/

def vibeStoreBeginReset : Nvs Unit := do
  nvsOpen .vibeMeta
  nvsSet .vibeMeta .reset (.u8 1)
  nvsCommit

def eraseNamespace (name : Namespace) : Nvs Unit :=
  ifFound (nvsOpen name) do
    nvsEraseAll name
    nvsCommit

def vibeStoreFinishReset : Nvs Unit := do
  eraseNamespace .vibeAuth
  eraseNamespace .vibeCache
  eraseNamespace .vibeCfg
  vibeStoreClearRetryNotBefore

def vibeStoreResetPending : Nvs Bool := do
  match ← (nvsOpenReadOnly .vibeMeta).attempt with
  | .error .nvsNotFound => pure false
  | .error error => Prog.fail error
  | .ok () =>
    match ← (nvsGetU8 .vibeMeta .reset).attempt with
    | .error .nvsNotFound => pure false
    | .error error => Prog.fail error
    | .ok value => pure (value = 1)

def vibeStoreCompleteReset : Nvs Unit :=
  ifFound (nvsOpen .vibeMeta) do
    ignoreNotFound (nvsEraseKey .vibeMeta .reset)
    nvsCommit

/-! ### The other stores of the device -/

/-- `smart_todo_clear` -/
def smartTodoClear : Nvs Unit := do
  nvsOpen .vibeTodo
  nvsEraseAll .vibeTodo
  nvsCommit

/-- Both keys are erased, whatever becomes of the first; the earlier error is the one reported. -/
def eraseBoth (space : Namespace) (first second : NvsKey) : Nvs Unit := do
  let firstError ← (ignoreNotFound (nvsEraseKey space first)).attempt
  let secondError ← (ignoreNotFound (nvsEraseKey space second)).attempt
  Prog.lift firstError
  Prog.lift secondError

/-- `llm_settings_clear` -/
def llmSettingsClear : Nvs Unit :=
  ifFound (nvsOpen .vibeLlm) do
    eraseBoth .vibeLlm .settings .asrLang
    nvsCommit

/-- One round of `SsidManager::SaveToNvs` on an empty list. -/
def eraseCredential (index : Fin maxWifiSsidCount) : Nvs Unit :=
  eraseBoth .wifi (.ssid index) (.password index)

/-- `wifi_adapter_clear_credentials`, which saves an empty list. -/
def wifiAdapterClearCredentials : Nvs Unit := do
  nvsOpen .wifi
  (List.finRange maxWifiSsidCount).forM eraseCredential
  nvsCommit

end VibeUsage
