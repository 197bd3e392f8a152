import VibeUsage.Client.Deadline

/-!
# The two cache slots

What the two slots of the flash hold, as a function of the flash; what `vibe_store_load_cache` finds
when nothing fails (`loadCache_of_working`); and what a call of `vibe_store_write_cache` can leave,
whatever fails in it (`writeCache_spec`): the slot of the sequence number as it was, holding the new
cache, or torn, and every other entry as it was.

`Owner` is an account and a configuration; a slot counts for the owner only when it was written for
that owner. The two slots are written in turn, by the parity of the sequence number, so a write
never touches the slot of the number before.
-/

namespace VibeUsage

/-! ### What the slots hold -/

/-- The blob under a key. -/
def Flash.blob (flash : Flash) (space : Namespace) (key : NvsKey) : Option (List UInt8) :=
  match flash.lookup space key with
  | some (.blob bytes) => some bytes
  | _ => none

/-- The cache in a slot that can be read and decoded. -/
def slotCache (flash : Flash) (key : NvsKey) : Option VibeCache :=
  (flash.blob .vibeCache key).bind fun bytes ↦
    if bytes.length ≠ 0 ∧ bytes.length ≤ cacheBlobMaxBytes then (decodeCacheInto bytes).toOption
    else none

/-- The account and the configuration that a cache is for. -/
structure Owner where
  generation : UInt32
  configRevision : UInt32
  timezone : Timezone
  deriving DecidableEq

/-- The cache is for this account and configuration. -/
def Owner.Owns (owner : Owner) (cache : VibeCache) : Prop :=
  cache.generation = owner.generation ∧ cache.configRevision = owner.configRevision ∧
    cache.timezone = owner.timezone ∧ cache.metricId = metricIdApiTotalV1

instance (owner : Owner) (cache : VibeCache) : Decidable (owner.Owns cache) :=
  inferInstanceAs (Decidable (_ ∧ _ ∧ _ ∧ _))

/-- The cache in a slot, if it is the owner's. -/
def Owner.slot (owner : Owner) (flash : Flash) (key : NvsKey) : Option VibeCache :=
  (slotCache flash key).filter fun cache ↦ owner.Owns cache

/-- The owner's newest cache. -/
def Owner.newest (owner : Owner) (flash : Flash) : Option VibeCache :=
  selectSlot (owner.slot flash .cacheA) (owner.slot flash .cacheB)

section Reading

variable {owner : Owner} {flash flash' : Flash} {key : NvsKey} {cache : VibeCache}

/-- A slot of the owner. -/
theorem Owner.slot_eq_some :
    owner.slot flash key = some cache ↔ slotCache flash key = some cache ∧ owner.Owns cache := by
  unfold Owner.slot
  rw [Option.filter_eq_some_iff]
  simp

/-- A slot depends on its own entry. -/
theorem slotCache_congr (h : flash'.lookup .vibeCache key = flash.lookup .vibeCache key) :
    slotCache flash' key = slotCache flash key := by
  unfold slotCache Flash.blob
  rw [h]

/-- So does a slot of the owner. -/
theorem Owner.slot_congr (h : flash'.lookup .vibeCache key = flash.lookup .vibeCache key) :
    owner.slot flash' key = owner.slot flash key := by
  unfold Owner.slot
  rw [slotCache_congr h]

/-- **A torn slot** holds no cache. -/
theorem slotCache_torn (h : flash.lookup .vibeCache key = some .torn) :
    slotCache flash key = none := by
  unfold slotCache Flash.blob
  rw [h]
  rfl

/-- A slot that holds the blob of a valid cache. -/
theorem slotCache_blobOf (hvalid : validateCache cache = true)
    (h : flash.lookup .vibeCache key = some (.blob (blobOf cache))) :
    slotCache flash key = some { cache with persisted := true } := by
  have hmax : cacheBlobMaxBytes = 4096 := rfl
  have hsize := length_blobBody cache 0
  have hlength := length_blobOf cache
  unfold slotCache Flash.blob
  rw [h]
  show (if _ then _ else none) = _
  rw [if_pos ⟨by omega, by omega⟩, decodeCacheInto_blobOf hvalid]
  rfl

/-- The newest cache is in one of the slots, and no cache of the owner is newer. -/
theorem Owner.newest_eq_some (h : owner.newest flash = some cache) :
    (owner.slot flash .cacheA = some cache ∨ owner.slot flash .cacheB = some cache) ∧
      (∀ first, owner.slot flash .cacheA = some first → first.sequence ≤ cache.sequence) ∧
      ∀ second, owner.slot flash .cacheB = some second → second.sequence ≤ cache.sequence := by
  unfold Owner.newest selectSlot at h
  cases hfirst : owner.slot flash .cacheA with
  | none =>
    rw [hfirst] at h
    cases hsecond : owner.slot flash .cacheB with
    | none =>
      rw [hsecond] at h
      cases h
    | some second =>
      rw [hsecond] at h
      cases h
      simp
  | some first =>
    rw [hfirst] at h
    cases hsecond : owner.slot flash .cacheB with
    | none =>
      rw [hsecond] at h
      cases h
      simp
    | some second =>
      rw [hsecond] at h
      dsimp only at h
      split at h
      · rename_i hgt
        cases h
        simp [UInt32.le_of_lt hgt]
      · rename_i hle
        cases h
        simp [UInt32.not_lt.1 hle]

/-- With a cache in one of the slots there is a newest one. -/
theorem Owner.exists_newest (h : ∃ key, (key = .cacheA ∨ key = .cacheB) ∧
    owner.slot flash key = some cache) : ∃ newest, owner.newest flash = some newest := by
  obtain ⟨key, hkey, hslot⟩ := h
  unfold Owner.newest selectSlot
  rcases hkey with rfl | rfl
  · rw [hslot]
    cases owner.slot flash .cacheB with
    | none => exact ⟨cache, rfl⟩
    | some second =>
      dsimp only
      split
      · exact ⟨second, rfl⟩
      · exact ⟨cache, rfl⟩
  · rw [hslot]
    cases owner.slot flash .cacheA with
    | none => exact ⟨cache, rfl⟩
    | some first =>
      dsimp only
      split
      · exact ⟨cache, rfl⟩
      · exact ⟨first, rfl⟩

/-- There are two slots. -/
theorem slotKey_cases (sequence : UInt32) :
    slotKey sequence = .cacheA ∨ slotKey sequence = .cacheB := by
  unfold slotKey
  split
  · exact .inl rfl
  · exact .inr rfl

/-- Consecutive sequence numbers take turns. -/
theorem slotKey_succ (sequence : UInt32) : slotKey (sequence + 1) ≠ slotKey sequence := by
  have hbit (n : UInt32) : n &&& 1 = 0 ↔ n.toNat % 2 = 0 := by
    rw [← UInt32.toNat_inj, UInt32.toNat_and]
    show n.toNat &&& 1 = 0 ↔ _
    rw [Nat.and_one_is_mod]
  have hnext : (sequence + 1).toNat % 2 = (sequence.toNat + 1) % 2 := by
    rw [UInt32.toNat_add]
    show (sequence.toNat + 1) % 2 ^ 32 % 2 = _
    omega
  unfold slotKey
  rw [ite_congr (propext (hbit _)) (fun _ ↦ rfl) fun _ ↦ rfl,
    ite_congr (propext (hbit sequence)) (fun _ ↦ rfl) fun _ ↦ rfl, hnext]
  split
  · rw [if_neg (by omega)]
    decide
  · rw [if_pos (by omega)]
    decide

end Reading

/-! ### Loading from a storage that works -/

section Working

variable {b : Board}

/-- A blob is read as it is. -/
theorem getBlob_of_working (h : Working b) (space : Namespace) (key : NvsKey) :
    ∃ result, nvsGetBlob space key b = (result, b.leaves b.flash) ∧
      result.toOption = b.flash.blob space key := by
  have hget : nvsGet space key b = (readEntry (b.flash.lookup space key), b.leaves b.flash) := by
    rw [nvsGet, Prog.bind_of_ok (operate_of_working h id id .nvs),
      Prog.bind_of_ok (Prog.get_apply _)]
    dsimp only [Board.leaves, id_eq]
    cases b.flash.lookup space key with
    | none => rfl
    | some value => cases value <;> rfl
  unfold Flash.blob
  rw [nvsGetBlob, Prog.bind_apply, hget]
  cases b.flash.lookup space key with
  | none => exact ⟨_, rfl, rfl⟩
  | some value =>
    cases value with
    | blob bytes => exact ⟨_, rfl, rfl⟩
    | u8 value => exact ⟨_, rfl, rfl⟩
    | i64 value => exact ⟨_, rfl, rfl⟩
    | str bytes => exact ⟨_, rfl, rfl⟩
    | torn => exact ⟨_, rfl, rfl⟩

/-- Memory is there. -/
theorem malloc_of_working (h : Working b) : malloc b = (.ok (), b.leaves b.flash) :=
  operate_of_working h id id .noMem

/-- A slot is read as what it holds. -/
theorem loadCacheKey_of_working (h : Working b) (key : NvsKey) :
    (loadCacheKey key b).1.toOption = slotCache b.flash key := by
  obtain ⟨result, hget, hvalue⟩ := getBlob_of_working h .vibeCache key
  obtain ⟨again, hget', hvalue'⟩ :=
    getBlob_of_working ((h.leaves b.flash).leaves b.flash) .vibeCache key
  simp only [Board.leaves_flash] at hget' hvalue'
  unfold slotCache
  rw [← hvalue]
  rw [← hvalue] at hvalue'
  cases result with
  | error error =>
    rw [loadCacheKey, Prog.bind_of_error hget]
    rfl
  | ok bytes =>
    cases again with
    | error error => cases hvalue'
    | ok other =>
      obtain rfl : other = bytes := Option.some.inj hvalue'
      rw [loadCacheKey, Prog.bind_of_ok hget]
      show _ = if _ then _ else none
      split
      · rename_i hsize
        rw [Prog.check_of_pos hsize, Prog.bind_of_ok (Prog.pure_apply () _),
          Prog.bind_of_ok (malloc_of_working (h.leaves _))]
        simp only [Board.leaves_flash]
        rw [Prog.bind_of_ok hget',
          Prog.bind_of_ok (malloc_of_working (((h.leaves _).leaves _).leaves _))]
        cases decodeCacheInto other with
        | error error => rfl
        | ok cache => rfl
      · rename_i hsize
        rw [Prog.check_of_neg hsize]
        rfl

/-- What `compatible` keeps of a slot is the owner's cache in it. -/
theorem compatible_eq {auth : AuthRecord} {configRevision : UInt32} {timezone : Timezone}
    {read : Except EspErr VibeCache} {flash : Flash} {key : NvsKey}
    (h : read.toOption = slotCache flash key) :
    compatible auth configRevision timezone read =
      Owner.slot ⟨auth.generation, configRevision, timezone⟩ flash key := by
  unfold Owner.slot
  rw [← h]
  cases read with
  | error error => rfl
  | ok cache =>
    show (if _ then some cache else none) = Option.filter _ (some cache)
    rw [Option.filter_some]
    refine ite_congr (propext ?_) (fun _ ↦ rfl) fun _ ↦ rfl
    rw [decide_eq_true_iff]
    rfl

/-- **Loading the cache** finds the owner's newest one. -/
theorem loadCache_of_working (h : Working b) {auth : AuthRecord} (hpresent : auth.present = true)
    (hlinked : auth.tombstone = false) (configRevision : UInt32) (timezone : Timezone) :
    (vibeStoreLoadCache auth configRevision timezone b).1.toOption =
      Owner.newest ⟨auth.generation, configRevision, timezone⟩ b.flash := by
  have hguard : auth.present = true ∧ ¬ auth.tombstone = true := ⟨hpresent, by simp [hlinked]⟩
  rw [vibeStoreLoadCache, Prog.check_of_pos hguard, Prog.bind_of_ok (Prog.pure_apply () b),
    Prog.bind_apply, openReadOnly_of_working h]
  cases hthere : (b.flash .vibeCache).isSome with
  | false =>
    -- The namespace was never written.
    have hnone : b.flash .vibeCache = none := by simpa using hthere
    have hslot (key : NvsKey) : slotCache b.flash key = none := by
      unfold slotCache Flash.blob Flash.lookup
      rw [hnone]
      rfl
    simp [Owner.newest, Owner.slot, hslot, selectSlot, Except.toOption]
  | true =>
    have hkeep (key : NvsKey) : Prog.Moves (Within fun _ _ ↦ False) (loadCacheKey key) :=
      moves_loadCacheKey key
    -- Reading one slot leaves the other one as it is.
    have h₁ := (h.leaves b.flash).leaves b.flash
    have hfirst := loadCacheKey_of_working h₁ .cacheA
    have hwithin := hkeep .cacheA ((b.leaves b.flash).leaves b.flash)
    rw [if_pos rfl]
    dsimp only
    rw [Prog.bind_of_ok (malloc_of_working (h.leaves b.flash))]
    simp only [Board.leaves_flash]
    rcases hrun : loadCacheKey .cacheA ((b.leaves b.flash).leaves b.flash) with ⟨first, b₁⟩
    rw [hrun] at hfirst hwithin
    have hsecond := loadCacheKey_of_working (h₁.of_within hwithin) .cacheB
    rw [slotCache_congr (hwithin.lookup .vibeCache .cacheB id)] at hsecond
    rcases hrun' : loadCacheKey .cacheB b₁ with ⟨second, b₂⟩
    rw [hrun'] at hsecond
    rw [Prog.bind_of_ok (Prog.attempt_of_run hrun), Prog.bind_of_ok (Prog.attempt_of_run hrun')]
    rw [Board.leaves_flash] at hfirst hsecond
    rw [compatible_eq hfirst, compatible_eq hsecond]
    show _ = selectSlot (Owner.slot _ b.flash .cacheA) (Owner.slot _ b.flash .cacheB)
    cases selectSlot (Owner.slot _ b.flash .cacheA) (Owner.slot _ b.flash .cacheB) with
    | some selected => rfl
    | none =>
      cases first with
      | error error =>
        cases second with
        | error error => rfl
        | ok cache => rfl
      | ok cache => rfl

end Working

/-! ### Writing, whatever fails -/

/-- Only a valid cache is encoded, as its blob. -/
theorem vibeCacheEncode_eq_ok {cache : VibeCache} {blob : List UInt8}
    (h : vibeCacheEncode cache cacheBlobMaxBytes = .ok blob) :
    validateCache cache = true ∧ blob = blobOf cache := by
  have hvalid : validateCache cache = true := by
    by_contra hinvalid
    unfold vibeCacheEncode at h
    split at h
    · cases h
    · cases h
  rw [vibeCacheEncode_eq hvalid] at h
  exact ⟨hvalid, (Except.ok.inj h).symm⟩

/-- What a call of `vibe_store_write_cache` can leave in the slot it writes to. -/
inductive SlotAfter (cache : VibeCache) (b b' : Board) : Prop
  | unchanged (h : b'.flash.lookup .vibeCache (slotKey cache.sequence) =
      b.flash.lookup .vibeCache (slotKey cache.sequence))
  | written (valid : validateCache cache = true)
      (h : b'.flash.lookup .vibeCache (slotKey cache.sequence) = some (.blob (blobOf cache)))
  | torn (fault : ∃ k, b.faults k = .tears)
      (h : b'.flash.lookup .vibeCache (slotKey cache.sequence) = some .torn)

/-- One operation that writes to an entry. -/
theorem nvsSet_spec (space : Namespace) (key : NvsKey) (value : NvsValue) (b : Board) :
    Prog.Ends (fun _ b' ↦ b'.flash.lookup space key = some value)
      (fun _ b' ↦ b'.flash.lookup space key = b.flash.lookup space key ∨
        b'.flash.lookup space key = some value ∨
        (∃ k, b.faults k = .tears) ∧ b'.flash.lookup space key = some .torn)
      (nvsSet space key value b) := by
  unfold nvsSet operate
  split
  · split
    · simp [Prog.Ends]
    · exact .inl rfl
    · exact .inr (.inl (by simp))
    · rename_i htears
      exact .inr (.inr ⟨⟨b.tick, htears⟩, by simp⟩)
    · exact .inl rfl
  · exact .inl rfl

/-- **A call of `vibe_store_write_cache`** that succeeds has stored the cache; one that fails has
stored it, has left the slot alone, or has torn it. -/
theorem writeCache_spec (cache : VibeCache) (b : Board) :
    Prog.Ends (fun cache' b' ↦ cache' = { cache with persisted := true } ∧
        validateCache cache = true ∧
        b'.flash.lookup .vibeCache (slotKey cache.sequence) = some (.blob (blobOf cache)))
      (fun _ b' ↦ SlotAfter cache b b') (vibeStoreWriteCache cache b) := by
  generalize hkey : slotKey cache.sequence = key
  -- the entry and the faults, as long as nothing is written
  have hsame : Prog.Triple
      (fun b' ↦ b'.flash.lookup .vibeCache key = b.flash.lookup .vibeCache key ∧
        b'.faults = b.faults) (vibeStoreWriteCache cache)
      (fun cache' b' ↦ cache' = { cache with persisted := true } ∧ validateCache cache = true ∧
        b'.flash.lookup .vibeCache key = some (.blob (blobOf cache)))
      fun _ b' ↦ SlotAfter cache b b' := by
    have hquiet {α : Type} {p : Nvs α}
        (hp : Prog.Moves (Within fun space _ ↦ space ≠ .vibeCache) p) :
        Prog.Triple (fun b' ↦ b'.flash.lookup .vibeCache key = b.flash.lookup .vibeCache key ∧
          b'.faults = b.faults) p
          (fun _ b' ↦ b'.flash.lookup .vibeCache key = b.flash.lookup .vibeCache key ∧
            b'.faults = b.faults)
          fun _ b' ↦ SlotAfter cache b b' :=
      (Prog.Triple.of_moves (Q := fun b' ↦ b'.flash.lookup .vibeCache key =
        b.flash.lookup .vibeCache key ∧ b'.faults = b.faults) hp fun b₁ b₂ hwithin h ↦
        ⟨(hwithin.lookup .vibeCache key (by simp)).trans h.1, hwithin.faults.trans h.2⟩).conseq
        (fun _ ↦ id) (fun _ _ ↦ id) fun _ _ h ↦ .unchanged (hkey ▸ h.1)
    refine .bind (hquiet moves_malloc) fun _ ↦ .bind (hquiet moves_malloc) fun _ ↦ ?_
    cases hencode : vibeCacheEncode cache cacheBlobMaxBytes with
    | error error => exact fun b' h ↦ .unchanged (hkey ▸ h.1)
    | ok blob =>
      obtain ⟨hvalid, rfl⟩ := vibeCacheEncode_eq_ok hencode
      have hdone {α : Type} {p : Nvs α} (hp : Prog.Moves (Within fun _ _ ↦ False) p) :
          Prog.Triple (fun b' ↦ b'.flash.lookup .vibeCache key = some (.blob (blobOf cache))) p
            (fun _ b' ↦ b'.flash.lookup .vibeCache key = some (.blob (blobOf cache)))
            fun _ b' ↦ SlotAfter cache b b' :=
        (Prog.Triple.of_moves (Q := fun b' ↦ b'.flash.lookup .vibeCache key =
          some (.blob (blobOf cache))) hp fun b₁ b₂ hwithin h ↦
          (hwithin.lookup .vibeCache key id).trans h).conseq
          (fun _ ↦ id) (fun _ _ ↦ id) fun _ _ h ↦ .written hvalid (hkey ▸ h)
      rw [hkey]
      refine .bind (hquiet (moves_open _)) fun _ ↦
        .bind (M := fun _ b' ↦ b'.flash.lookup .vibeCache key = some (.blob (blobOf cache)))
          (fun b₁ h ↦ ?_) fun _ ↦ .bind (hdone moves_commit) fun _ ↦
        .bind (hdone (moves_loadCacheKey key)) fun verified ↦ .bind (hdone (.check _)) fun _ ↦
        fun b' h ↦ ⟨rfl, hvalid, h⟩
      have hset := nvsSet_spec .vibeCache key (.blob (blobOf cache)) b₁
      rcases hrun : nvsSet .vibeCache key (.blob (blobOf cache)) b₁ with ⟨error | _, b₂⟩
      · rw [hrun] at hset
        rcases hset with hold | hnew | ⟨⟨k, htears⟩, htorn⟩
        · exact .unchanged (hkey ▸ hold.trans h.1)
        · exact .written hvalid (hkey ▸ hnew)
        · exact .torn ⟨k, by rw [← h.2]; exact htears⟩ (hkey ▸ htorn)
      · rw [hrun] at hset
        exact hset
  exact hsame b ⟨rfl, rfl⟩

end VibeUsage
