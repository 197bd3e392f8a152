import VibeUsage.Storage.DeviceConfig

/-!
# What a call of the store leaves alone

A call changes the entries it names and no others, however it ends; without power it changes
nothing. `Within touched` is that relation between the board before and after, for the set of
entries that are named.

`moves_operate` is the one fact about the flash; a call is a sequence of operations, and its lemma
follows the sequence. Whether an operation is done, undone, torn or cut by the loss of power makes
no difference for the others.
-/

namespace VibeUsage

/-- An entry of the flash. -/
abbrev Entries : Type := Namespace → NvsKey → Prop

/-- What becomes of the board when only the entries of `touched` are changed. -/
structure Within (touched : Entries) (b b' : Board) : Prop where
  lookup : ∀ space key, ¬ touched space key → b'.flash.lookup space key = b.flash.lookup space key
  faults : b'.faults = b.faults
  powered : (∀ k, b.faults k ≠ .cut) → b'.powered = b.powered
  off : b.powered = false → b'.flash = b.flash ∧ b'.powered = false

variable {touched : Entries}

instance : Std.Refl (Within touched) :=
  ⟨fun _ ↦ ⟨fun _ _ _ ↦ rfl, rfl, fun _ ↦ rfl, fun h ↦ ⟨rfl, h⟩⟩⟩

instance : IsTrans Board (Within touched) := by
  refine ⟨fun b b' b'' h h' ↦ ⟨?_, h'.faults.trans h.faults, ?_, ?_⟩⟩
  · intro space key hkey
    rw [h'.lookup space key hkey, h.lookup space key hkey]
  · intro hcut
    rw [h'.powered (by rwa [h.faults]), h.powered hcut]
  · intro hoff
    obtain ⟨hflash, hpower⟩ := h.off hoff
    obtain ⟨hflash', hpower'⟩ := h'.off hpower
    exact ⟨hflash'.trans hflash, hpower'⟩

/-- A larger set of entries. -/
theorem Within.mono {touched' : Entries} (hsub : ∀ space key, touched space key →
    touched' space key)
    (b b' : Board) (h : Within touched b b') : Within touched' b b' :=
  ⟨fun space key hkey ↦ h.lookup space key (mt (hsub space key) hkey), h.faults, h.powered, h.off⟩

open Prog (Moves)

/-! ### The operations -/

/-- An effect that leaves the other entries alone. -/
def Spares (touched : Entries) (effect : Flash → Flash) : Prop :=
  ∀ flash space key, ¬ touched space key →
    (effect flash).lookup space key = flash.lookup space key

/-- The identity changes no entry. -/
theorem spares_id : Spares touched id := fun _ _ _ _ ↦ rfl

/-- **One operation of the flash**, whatever its fault does: done, undone, torn or cut, it keeps the
other entries. -/
theorem moves_operate {effect torn : Flash → Flash} {error : EspErr} (he : Spares touched effect)
    (ht : Spares touched torn) : Moves (Within touched) (operate effect torn error) := by
  intro b
  unfold operate
  split
  · rename_i hpower
    have hoff : b.powered ≠ false := by simp [hpower]
    -- A fault that tears leaves what the operation says of a torn write; only a cut takes the
    -- power.
    cases hfault : b.faults b.tick with
    | none => exact ⟨fun s k h ↦ he _ s k h, rfl, fun _ ↦ rfl, fun h ↦ absurd h hoff⟩
    | fails => exact ⟨fun _ _ _ ↦ rfl, rfl, fun _ ↦ rfl, fun h ↦ absurd h hoff⟩
    | lands => exact ⟨fun s k h ↦ he _ s k h, rfl, fun _ ↦ rfl, fun h ↦ absurd h hoff⟩
    | tears => exact ⟨fun s k h ↦ ht _ s k h, rfl, fun _ ↦ rfl, fun h ↦ absurd h hoff⟩
    | cut => exact ⟨fun _ _ _ ↦ rfl, rfl, fun h ↦ absurd hfault (h _), fun h ↦ absurd h hoff⟩
  · exact refl_of _ b

/-- An allocation touches no entry. -/
theorem moves_malloc : Moves (Within touched) malloc := moves_operate spares_id spares_id

theorem moves_commit : Moves (Within touched) nvsCommit := moves_operate spares_id spares_id

/-- A namespace that is created starts without entries. -/
theorem moves_open (space : Namespace) : Moves (Within touched) (nvsOpen space) :=
  moves_operate (fun flash _ _ _ ↦ flash.lookup_create ..) spares_id

/-- A namespace that is opened to be read is not created. -/
theorem moves_openReadOnly (space : Namespace) :
    Moves (Within touched) (nvsOpenReadOnly space) :=
  (moves_operate spares_id spares_id).bind fun _ ↦
    Moves.get.bind fun _ ↦ Moves.check _

/-- A value is read. -/
theorem moves_get (space : Namespace) (key : NvsKey) :
    Moves (Within touched) (nvsGet space key) := by
  refine (moves_operate spares_id spares_id).bind fun _ ↦ Moves.get.bind fun b ↦ ?_
  split
  · exact Moves.fail _
  · exact Moves.ret _
  · exact Moves.fail _

/-- A blob is read. -/
theorem moves_getBlob (space : Namespace) (key : NvsKey) :
    Moves (Within touched) (nvsGetBlob space key) := by
  refine (moves_get space key).bind fun value ↦ ?_
  split
  · exact Moves.ret _
  · exact Moves.fail _

theorem moves_getU8 (space : Namespace) (key : NvsKey) :
    Moves (Within touched) (nvsGetU8 space key) := by
  refine (moves_get space key).bind fun value ↦ ?_
  split
  · exact Moves.ret _
  · exact Moves.fail _

/-- A number of eight bytes is read. -/
theorem moves_getI64 (space : Namespace) (key : NvsKey) :
    Moves (Within touched) (nvsGetI64 space key) := by
  refine (moves_get space key).bind fun value ↦ ?_
  split
  · exact Moves.ret _
  · exact Moves.fail _

/-- A write touches the entry it names, also when it is torn. -/
theorem moves_set {space : Namespace} {key : NvsKey} (value : NvsValue)
    (h : touched space key) : Moves (Within touched) (nvsSet space key value) := by
  have hput : ∀ value, Spares touched (·.put space key value) := by
    intro value flash other key' hkey
    rw [Flash.lookup_put, if_neg]
    rintro ⟨rfl, rfl⟩
    exact hkey h
  exact moves_operate (hput value) (hput .torn)

/-- An erasure touches the entry it names; that there was none is no failure. -/
theorem moves_eraseKey {space : Namespace} {key : NvsKey} (h : touched space key) :
    Moves (Within touched) (ignoreNotFound (nvsEraseKey space key)) := by
  have herase : Spares touched (·.erase space key) := by
    intro flash other key' hkey
    rw [Flash.lookup_erase, if_neg]
    rintro ⟨rfl, rfl⟩
    exact hkey h
  refine Moves.bind (Moves.attempt (Moves.get.bind fun _ ↦
    (moves_operate herase spares_id).bind fun _ ↦ Moves.check _))
    fun outcome ↦ ?_
  split
  · exact Moves.ret _
  · exact Moves.fail _
  · exact Moves.ret _

/-- A namespace is emptied, so all of its entries must be among the touched ones. -/
theorem moves_eraseAll {space : Namespace} (h : ∀ key, touched space key) :
    Moves (Within touched) (nvsEraseAll space) := by
  refine moves_operate (fun flash other key hkey ↦ ?_) spares_id
  rw [Flash.lookup_eraseAll, if_neg]
  rintro rfl
  exact hkey (h key)

/-- A program in a namespace that may not be there. -/
theorem moves_ifFound (space : Namespace) {p : Nvs Unit} (hp : Moves (Within touched) p) :
    Moves (Within touched) (ifFound (nvsOpen space) p) := by
  refine (moves_open space).attempt.bind fun outcome ↦ ?_
  split
  · exact Moves.ret _
  · exact Moves.fail _
  · exact hp

/-! ### The calls of a factory reset -/

/-- The journal of a reset is written. -/
theorem moves_beginReset (h : touched .vibeMeta .reset) :
    Moves (Within touched) vibeStoreBeginReset :=
  (moves_open _).bind fun _ ↦ (moves_set _ h).bind fun _ ↦ moves_commit

/-- One of the namespaces of a reset is emptied. -/
theorem moves_eraseNamespace {name : Namespace} (h : ∀ key, touched name key) :
    Moves (Within touched) (eraseNamespace name) :=
  moves_ifFound _ ((moves_eraseAll h).bind fun _ ↦ moves_commit)

/-- The deadline is forgotten. -/
theorem moves_clearRetryNotBefore (h : touched .vibeMeta .retry) :
    Moves (Within touched) vibeStoreClearRetryNotBefore :=
  moves_ifFound _ ((moves_eraseKey h).bind fun _ ↦ moves_commit)

/-- **The local part of a reset** touches the account, the cache, the settings and the deadline. -/
theorem moves_finishReset (hauth : ∀ key, touched .vibeAuth key)
    (hcache : ∀ key, touched .vibeCache key) (hcfg : ∀ key, touched .vibeCfg key)
    (hretry : touched .vibeMeta .retry) : Moves (Within touched) vibeStoreFinishReset :=
  (moves_eraseNamespace hauth).bind fun _ ↦ (moves_eraseNamespace hcache).bind fun _ ↦
    (moves_eraseNamespace hcfg).bind fun _ ↦ moves_clearRetryNotBefore hretry

/-- The TODO list is erased. -/
theorem moves_smartTodoClear (h : ∀ key, touched .vibeTodo key) :
    Moves (Within touched) smartTodoClear :=
  (moves_open _).bind fun _ ↦ (moves_eraseAll h).bind fun _ ↦ moves_commit

/-- Both keys are erased, also when the first could not be. -/
theorem moves_eraseBoth {space : Namespace} {first second : NvsKey} (h : touched space first)
    (h' : touched space second) : Moves (Within touched) (eraseBoth space first second) :=
  (moves_eraseKey h).attempt.bind fun _ ↦ (moves_eraseKey h').attempt.bind fun _ ↦
    (Moves.lift _).bind fun _ ↦ Moves.lift _

/-- The settings of the language model are erased. -/
theorem moves_llmSettingsClear (hsettings : touched .vibeLlm .settings)
    (hlang : touched .vibeLlm .asrLang) : Moves (Within touched) llmSettingsClear :=
  moves_ifFound _ ((moves_eraseBoth hsettings hlang).bind fun _ ↦ moves_commit)

/-- The networks are erased, one after the other. -/
theorem moves_clearCredentials (hssid : ∀ index, touched .wifi (.ssid index))
    (hpassword : ∀ index, touched .wifi (.password index)) :
    Moves (Within touched) wifiAdapterClearCredentials := by
  have hrounds : ∀ indices : List (Fin maxWifiSsidCount),
      Moves (Within touched) (indices.forM eraseCredential) := by
    intro indices
    induction indices with
    | nil => exact Moves.ret _
    | cons index indices ih =>
      exact (moves_eraseBoth (hssid index) (hpassword index)).bind fun _ ↦ ih
  exact (moves_open _).bind fun _ ↦ (hrounds _).bind fun _ ↦ moves_commit

/-- The journal of a reset is taken back. -/
theorem moves_completeReset (h : touched .vibeMeta .reset) :
    Moves (Within touched) vibeStoreCompleteReset :=
  moves_ifFound _ ((moves_eraseKey h).bind fun _ ↦ moves_commit)

/-! ### The other calls -/

/-- A start reads the account and changes nothing. -/
theorem moves_loadAuth : Moves (Within touched) vibeStoreLoadAuth :=
  (moves_openReadOnly _).bind fun _ ↦ (moves_getBlob _ _).bind fun _ ↦ (Moves.check _).bind fun _ ↦
    moves_malloc.bind fun _ ↦ (moves_getBlob _ _).bind fun _ ↦ Moves.lift _

/-- A credential is written. -/
theorem moves_writeAuth (record : AuthRecord) (h : touched .vibeAuth .auth) :
    Moves (Within touched) (vibeStoreWriteAuth record) :=
  moves_malloc.bind fun _ ↦ (Moves.lift _).bind fun _ ↦ (moves_open _).bind fun _ ↦
    (moves_set _ h).bind fun _ ↦ moves_commit

/-- A slot of the cache is read. -/
theorem moves_loadCacheKey (key : NvsKey) : Moves (Within touched) (loadCacheKey key) := by
  refine (moves_getBlob _ _).bind fun _ ↦ (Moves.check _).bind fun _ ↦ moves_malloc.bind fun _ ↦
    (moves_getBlob _ _).bind fun blob ↦ moves_malloc.bind fun _ ↦ ?_
  cases decodeCacheInto blob with
  | error _ => exact Moves.fail _
  | ok cache => exact Moves.ret _

/-- A start reads both slots of the cache and changes nothing. -/
theorem moves_loadCache (auth : AuthRecord) (configRevision : UInt32) (timezone : Timezone) :
    Moves (Within touched) (vibeStoreLoadCache auth configRevision timezone) := by
  refine (Moves.check _).bind fun _ ↦ (moves_openReadOnly _).bind fun _ ↦ moves_malloc.bind fun _ ↦
    (moves_loadCacheKey _).attempt.bind fun first ↦
    (moves_loadCacheKey _).attempt.bind fun second ↦ ?_
  split
  · exact Moves.ret _
  · split
    · exact Moves.fail _
    · exact Moves.fail _

/-- **A cache is written** into the slot of its sequence number, and the other slot stays. -/
theorem moves_writeCache (cache : VibeCache) (h : touched .vibeCache (slotKey cache.sequence)) :
    Moves (Within touched) (vibeStoreWriteCache cache) := by
  refine moves_malloc.bind fun _ ↦ moves_malloc.bind fun _ ↦ ?_
  cases vibeCacheEncode cache cacheBlobMaxBytes with
  | error _ => exact Moves.fail _
  | ok blob =>
    exact (moves_open _).bind fun _ ↦ (moves_set _ h).bind fun _ ↦ moves_commit.bind fun _ ↦
      (moves_loadCacheKey _).bind fun _ ↦ (Moves.check _).bind fun _ ↦ Moves.ret _

/-- Both slots of the cache are erased. -/
theorem moves_clearCache (hfirst : touched .vibeCache .cacheA)
    (hsecond : touched .vibeCache .cacheB) :
    Moves (Within touched) vibeStoreClearCache :=
  moves_ifFound _ ((moves_eraseKey hfirst).attempt.bind fun _ ↦
    (moves_eraseKey hsecond).attempt.bind fun _ ↦ (Moves.lift _).bind fun _ ↦
    (Moves.lift _).bind fun _ ↦ moves_commit)

/-- A start reads the deadline and changes nothing. -/
theorem moves_loadRetryNotBefore : Moves (Within touched) vibeStoreLoadRetryNotBefore := by
  -- A namespace that is not there counts as no deadline; a deadline that is negative does not.
  refine (moves_openReadOnly _).attempt.bind fun opened ↦ ?_
  split
  · exact Moves.ret _
  · exact Moves.fail _
  · refine (moves_getI64 _ _).attempt.bind fun value ↦ ?_
    split
    · exact Moves.ret _
    · exact Moves.fail _
    · split
      · exact Moves.fail _
      · exact Moves.ret _

/-- A deadline is written. -/
theorem moves_writeRetryNotBefore (utcSeconds : Int64) (h : touched .vibeMeta .retry) :
    Moves (Within touched) (vibeStoreWriteRetryNotBefore utcSeconds) :=
  (Moves.check _).bind fun _ ↦ (moves_open _).bind fun _ ↦ (moves_set _ h).bind fun _ ↦ moves_commit

/-- A start looks for the journal of a reset and changes nothing. -/
theorem moves_resetPending : Moves (Within touched) vibeStoreResetPending := by
  refine (moves_openReadOnly _).attempt.bind fun opened ↦ ?_
  split
  · exact Moves.ret _
  · exact Moves.fail _
  · refine (moves_getU8 _ _).attempt.bind fun value ↦ ?_
    split
    · exact Moves.ret _
    · exact Moves.fail _
    · exact Moves.ret _

/-- The settings are written. -/
theorem moves_deviceConfigSave (config : DeviceConfig) (h : touched .vibeCfg .settings) :
    Moves (Within touched) (deviceConfigSave config) :=
  (Moves.check _).bind fun _ ↦ (moves_open _).bind fun _ ↦ (moves_set _ h).bind fun _ ↦ moves_commit

end VibeUsage
