import VibeUsage.Cache.Valid

/-!
# The blob of a cache

`vibe_cache_encode` writes a header, the dictionary as counted strings, the eight slots as records
of fixed size and a checksum, and patches the length it knows only then. `vibe_cache_decode` reads
them back in the same order, with checks of its own, and validates the result; a cache that was
valid before comes back as it was, marked as persisted.

The fields are read and written by the combinators of `Lib/Codec`, one `Decodes` fact for each field
in the order of the blob (`decodes_fields`). What is refused leaves the caller's cache as it was,
since the decoder works on a copy.
-/

namespace VibeUsage

open Codec (Decoder Writer Decodes check readBytes readU8 readU32 readU64 repeatN fromU32)

/-! ### The checksum -/

def crcBit (crc : UInt32) : UInt32 := (crc >>> 1) ^^^ (0xEDB88320 &&& -(crc &&& 1))

def crcByte (crc : UInt32) (byte : UInt8) : UInt32 := crcBit^[8] (crc ^^^ byte.toUInt32)

def vibeCrc32 (data : List UInt8) : UInt32 := ~~~data.foldl crcByte 0xFFFFFFFF

/-! ### Encoding -/

/-- `"VUC1"` -/
def cacheMagic : List UInt8 := ascii ['V', 'U', 'C', '1']

/-- The word a `vibe_timezone_t` is. -/
def Timezone.code : Timezone → UInt32
  | .asiaShanghai => 0
  | .utc => 1
  | .other code => code

def encodeId (id : CString) : List UInt8 :=
  let length := id.boundedStrlen sourceIdBytes
  Codec.u8 (UInt8.ofNat length) ++ id.bytes.take length

def slotFlags (slot : DailySlot) : UInt8 :=
  (if slot.valid then 1 else 0) ||| (if slot.hasAnyData then 2 else 0) |||
    (if slot.sourcesCollapsed then 4 else 0)

def encodeSlot (slot : DailySlot) : List UInt8 :=
  Codec.u8 (slotFlags slot) ++ (Codec.u32 slot.dateKey.toUInt32 ++
    (Codec.u64 slot.fetchedAt.toUInt64 ++
    (Codec.u64 slot.totalTokens ++ slot.sourceTokens.toList.flatMap Codec.u64)))

/-- The fields before the length word. -/
def blobStart (cache : VibeCache) : List UInt8 := cacheMagic ++ Codec.u32 cache.schemaVersion

/-- The fields after the length word. -/
def blobRest (cache : VibeCache) : List UInt8 :=
  Codec.u32 cache.sequence ++ (Codec.u32 cache.generation ++ (Codec.u32 cache.configRevision ++
    (Codec.u32 cache.metricId ++ (Codec.u8 cache.timezone.code.toUInt8 ++
    (Codec.u64 cache.lastReconcileAt.toUInt64 ++ (Codec.u32 cache.reconcileAnchorKey.toUInt32 ++
    (Codec.u8 cache.reconcilePendingMask ++ (cache.sourceIds.toList.flatMap encodeId ++
      cache.days.toList.flatMap encodeSlot))))))))

/-- The fields in the order they are written, with zero for the length. A write that does not fit
fails the call, whichever field it is, so the fields can be grouped. -/
def blobFields (cache : VibeCache) : List (List UInt8) :=
  [blobStart cache, Codec.u32 0, blobRest cache]

/-- The bytes `vibe_cache_encode` writes to a buffer of `outputSize` bytes. Ids have passed
`validate_cache` when their lengths are checked once more, so that error has no case here. -/
def vibeCacheEncode (cache : VibeCache) (outputSize : ℕ) : Except VibeError (List UInt8) :=
  if outputSize > cacheBlobMaxBytes ∨ outputSize < 64 then .error .invalidArgument
  else if ¬ validateCache cache then .error .schema
  else
    match (blobFields cache).foldlM Writer.write ⟨outputSize, []⟩ with
    | none => .error .bufferTooSmall
    | some writer =>
      if writer.data.length + 4 > writer.size then .error .bufferTooSmall
      else
        let totalLength := UInt32.ofNat (writer.data.length + 4)
        let data := writer.data.take 8 ++ Codec.u32 totalLength ++ writer.data.drop 12
        match Writer.write { writer with data } (Codec.u32 (vibeCrc32 data)) with
        | none => .error .bufferTooSmall
        | some writer => .ok writer.data

/-! ### Decoding -/

/-- `INT64_MAX` -/
def int64Max : UInt64 := 0x7FFFFFFFFFFFFFFF

/-- A counted string. What follows a NUL among its bytes is not part of the string. -/
def decodeId : Decoder VibeError CString := do
  let length ← readU8 .schema
  check (length.toNat < sourceIdBytes) .schema
  let bytes ← readBytes length.toNat .schema
  return CString.ofBytes bytes

/-- A slot. The sum is checked as the tokens are read; every failure of a slot is the same. -/
def decodeSlot : Decoder VibeError DailySlot := do
  let flags ← readU8 .schema
  check (flags &&& ~~~7 = 0) .schema
  let dateKey ← readU32 .schema
  let fetchedAt ← readU64 .schema
  check (fetchedAt ≤ int64Max) .schema
  let totalTokens ← readU64 .schema
  let sourceTokens ← repeatN (readU64 .schema) sourceSlots
  check (sumTokens sourceTokens.toList ≠ none) .schema
  check (flags &&& 1 ≠ 0 → sumTokens sourceTokens.toList = some totalTokens) .schema
  return {
    dateKey := dateKey.toInt32
    fetchedAt := fetchedAt.toInt64
    totalTokens
    sourceTokens
    valid := decide (flags &&& 1 ≠ 0)
    hasAnyData := decide (flags &&& 2 ≠ 0)
    sourcesCollapsed := decide (flags &&& 4 ≠ 0) }

/-- The fields of the blob, which is `inputSize` bytes long. -/
def decodeFields (inputSize : ℕ) : Decoder VibeError VibeCache := do
  let magic ← readBytes 4 .schema
  check (magic = cacheMagic) .schema
  let schemaVersion ← readU32 .schema
  let encodedLength ← readU32 .schema
  check (encodedLength.toNat = inputSize) .schema
  check (schemaVersion = cacheSchemaVersion) .version
  let sequence ← readU32 .schema
  let generation ← readU32 .schema
  let configRevision ← readU32 .schema
  let metricId ← readU32 .schema
  let timezone ← readU8 .schema
  let lastReconcileAt ← readU64 .schema
  check (metricId = metricIdApiTotalV1 ∧ timezone ≤ 1) .version
  check (lastReconcileAt ≤ int64Max) .schema
  let reconcileAnchorKey ← readU32 .schema
  let reconcilePendingMask ← readU8 .schema
  let sourceIds ← repeatN decodeId sourceSlots
  check (sourceIds[otherIndex] = otherSourceId) .schema
  let days ← repeatN decodeSlot cacheDays
  return {
    schemaVersion, sequence, generation, configRevision, metricId
    timezone := if timezone = 0 then .asiaShanghai else .utc
    sourceIds, days
    lastReconcileAt := lastReconcileAt.toInt64
    reconcileAnchorKey := reconcileAnchorKey.toInt32
    reconcilePendingMask
    persisted := false }

def decodeCacheInto (input : List UInt8) : Except VibeError VibeCache :=
  if input.length < 64 ∨ input.length > cacheBlobMaxBytes then .error .invalidArgument
  else
    let body := input.take (input.length - 4)
    if vibeCrc32 body ≠ fromU32 (input.drop (input.length - 4)) then .error .crc
    else
      match (decodeFields input.length).run body with
      | .error error => .error error
      | .ok (decoded, rest) =>
        if rest ≠ [] then .error .schema
        else if ¬ validateCache decoded then .error .schema
        else .ok { decoded with persisted := true }

/-- The result with the caller's cache; the scratch copy may not be allocated. -/
def vibeCacheDecode (allocated : Bool) (input : List UInt8) (cache : VibeCache) :
    Option VibeError × VibeCache :=
  if ¬ allocated then (some .noMemory, cache)
  else
    match decodeCacheInto input with
    | .error error => (some error, cache)
    | .ok decoded => (none, decoded)

/-! ### The fields come back -/

/-- An id is read back. -/
theorem decodes_id {id : CString} (h : id.bytes.length < sourceIdBytes) :
    Decodes decodeId (encodeId id) id := by
  have hlen : id.boundedStrlen sourceIdBytes = id.bytes.length := Nat.min_eq_left (Nat.le_of_lt h)
  have hmax : sourceIdBytes = 48 := rfl
  have hbyte : (UInt8.ofNat id.bytes.length).toNat = id.bytes.length := by
    rw [UInt8.toNat_ofNat']
    exact Nat.mod_eq_of_lt (by omega)
  unfold encodeId decodeId
  dsimp only
  rw [hlen, List.take_length]
  refine (Decodes.u8 _ _).bind (Decodes.check_bind (by rwa [hbyte]) ?_)
  refine (Decodes.bytes id.bytes hbyte.symm _).bind_nil (Decodes.pure_of_eq ?_)
  exact CString.ofBytes_bytes_self id

/-- **The flags of a slot** are read back, and no other bit is set. -/
theorem slotFlags_spec (slot : DailySlot) :
    slotFlags slot &&& ~~~7 = 0 ∧ (slotFlags slot &&& 1 ≠ 0 ↔ slot.valid = true) ∧
      (slotFlags slot &&& 2 ≠ 0 ↔ slot.hasAnyData = true) ∧
      (slotFlags slot &&& 4 ≠ 0 ↔ slot.sourcesCollapsed = true) := by
  unfold slotFlags
  cases slot.valid <;> cases slot.hasAnyData <;> cases slot.sourcesCollapsed <;> decide

/-- A count that is not negative survives the cast. -/
theorem toUInt64_le_int64Max {n : Int64} (h : 0 ≤ n) : n.toUInt64 ≤ int64Max := by
  have hpos : 0 ≤ n.toInt := Int64.le_iff_toInt_le.1 h
  have hlt := Int64.toInt_lt n
  have hnat : n.toUInt64.toNat = n.toInt.toNat := by
    rw [Int64.toNat_toUInt64_of_le h]
    rfl
  have hmax : int64Max.toNat = 2 ^ 63 - 1 := rfl
  rw [UInt64.le_iff_toNat_le, hnat, hmax]
  omega

/-- A slot is read back. -/
theorem decodes_slot {slot : DailySlot} (hfetched : 0 ≤ slot.fetchedAt)
    (hsum : sumTokens slot.sourceTokens.toList = some slot.totalTokens) :
    Decodes decodeSlot (encodeSlot slot) slot := by
  obtain ⟨hflags, hvalid, hany, hcollapsed⟩ := slotFlags_spec slot
  unfold encodeSlot decodeSlot
  refine (Decodes.u8 _ _).bind (Decodes.check_bind hflags ?_)
  refine (Decodes.u32 _ _).bind ((Decodes.u64 _ _).bind ?_)
  refine Decodes.check_bind (toUInt64_le_int64Max hfetched) ((Decodes.u64 _ _).bind ?_)
  refine (Decodes.repeatN fun i ↦ Decodes.u64 _ _).bind_nil ?_
  refine Decodes.check_bind (by rw [hsum]; exact Option.some_ne_none _) ?_
  refine Decodes.check_bind (fun _ ↦ hsum) (Decodes.pure_of_eq ?_)
  cases slot
  simp only [hvalid, hany, hcollapsed, Int32.toInt32_toUInt32, Int64.toInt64_toUInt64,
    Bool.decide_eq_true]

/-- The tokens of a slot of a valid cache sum to its total. -/
theorem VibeCache.Valid.sumTokens_eq {cache : VibeCache} (h : cache.Valid) (day : Fin cacheDays) :
    sumTokens cache.days[day].sourceTokens.toList = some cache.days[day].totalTokens := by
  rw [sumTokens_eq_some, sum_toList_map]
  exact h.tokens_sum day

/-- A time in a valid cache is not negative. -/
theorem VibeCache.Valid.fetchedAt_nonneg {cache : VibeCache} (h : cache.Valid)
    (day : Fin cacheDays) : 0 ≤ cache.days[day].fetchedAt := by
  cases hday : cache.days[day].valid with
  | true => exact Int64.le_of_lt (h.day_fetched day hday)
  | false =>
    rw [h.day_unused day hday]
    decide

/-- The bytes before the checksum, with the length they are given. -/
def blobBody (cache : VibeCache) (length : UInt32) : List UInt8 :=
  blobStart cache ++ (Codec.u32 length ++ blobRest cache)

/-- **The fields of a valid cache are read back.** -/
theorem decodes_fields {cache : VibeCache} (h : cache.Valid) {inputSize : ℕ} {length : UInt32}
    (hlength : length.toNat = inputSize) :
    Decodes (decodeFields inputSize) (blobBody cache length) { cache with persisted := false } := by
  have hheader := h.header
  unfold validHeader at hheader
  rw [decide_eq_true_eq] at hheader
  obtain ⟨hschema, -, hmetric, htimezone, hreconcile, -, -, -⟩ := hheader
  have hzone : cache.timezone.code.toUInt8 ≤ 1 ∧
      (if cache.timezone.code.toUInt8 = 0 then Timezone.asiaShanghai else .utc) =
        cache.timezone := by
    rcases htimezone with hzone | hzone <;> rw [hzone] <;> decide
  unfold blobBody blobStart blobRest decodeFields
  rw [List.append_assoc]
  refine (Decodes.bytes cacheMagic rfl _).bind (Decodes.check_bind rfl ?_)
  refine (Decodes.u32 _ _).bind ((Decodes.u32 _ _).bind (Decodes.check_bind hlength ?_))
  refine Decodes.check_bind hschema ((Decodes.u32 _ _).bind ((Decodes.u32 _ _).bind ?_))
  refine (Decodes.u32 _ _).bind ((Decodes.u32 _ _).bind ((Decodes.u8 _ _).bind ?_))
  refine (Decodes.u64 _ _).bind (Decodes.check_bind ⟨hmetric, hzone.1⟩ ?_)
  refine Decodes.check_bind (toUInt64_le_int64Max hreconcile) ((Decodes.u32 _ _).bind ?_)
  refine (Decodes.u8 _ _).bind ?_
  refine (Decodes.repeatN fun i ↦ decodes_id (h.id_length i)).bind ?_
  refine Decodes.check_bind h.id_other ?_
  refine (Decodes.repeatN fun i ↦
    decodes_slot (h.fetchedAt_nonneg i) (h.sumTokens_eq i)).bind_nil (Decodes.pure_of_eq ?_)
  rw [hzone.2, Int32.toInt32_toUInt32, Int64.toInt64_toUInt64]

/-! ### The size of a blob -/

/-- An id takes 49 bytes at most. -/
theorem length_encodeId_le (id : CString) : (encodeId id).length ≤ 49 := by
  have hmax : sourceIdBytes = 48 := rfl
  unfold encodeId CString.boundedStrlen
  rw [List.length_append, List.length_take, Codec.length_u8]
  omega

/-- A slot takes 213 bytes. -/
theorem length_encodeSlot (slot : DailySlot) : (encodeSlot slot).length = 213 := by
  have htokens : (slot.sourceTokens.toList.flatMap Codec.u64).length = 24 * 8 := by
    rw [List.length_flatMap]
    simp only [Codec.length_u64, List.map_const', List.sum_replicate, Vector.length_toList]
    rfl
  unfold encodeSlot
  simp only [List.length_append, Codec.length_u8, Codec.length_u32, Codec.length_u64, htokens]

/-- A blob fits its buffer, whatever the ids. -/
theorem length_blobBody (cache : VibeCache) (length : UInt32) :
    64 ≤ (blobBody cache length).length ∧ (blobBody cache length).length ≤ 2922 := by
  have hids : (cache.sourceIds.toList.flatMap encodeId).length ≤ 24 * 49 := by
    rw [List.length_flatMap]
    calc (cache.sourceIds.toList.map fun id ↦ (encodeId id).length).sum
        ≤ (cache.sourceIds.toList.map fun id ↦ (encodeId id).length).length • 49 := by
          refine List.sum_le_card_nsmul _ _ fun n hn ↦ ?_
          obtain ⟨id, -, rfl⟩ := List.mem_map.1 hn
          exact length_encodeId_le id
      _ = 24 * 49 := by rw [List.length_map, Vector.length_toList]; rfl
  have hdays : (cache.days.toList.flatMap encodeSlot).length = 8 * 213 := by
    rw [List.length_flatMap]
    simp only [length_encodeSlot, List.map_const', List.sum_replicate, Vector.length_toList]
    rfl
  have hmagic : cacheMagic.length = 4 := rfl
  unfold blobBody blobStart blobRest
  simp only [List.length_append, Codec.length_u8, Codec.length_u32, Codec.length_u64, hmagic, hdays]
  omega

/-- The length word is patched between the fields around it. -/
theorem patch_length (cache : VibeCache) (length : UInt32) :
    (blobBody cache 0).take 8 ++ Codec.u32 length ++ (blobBody cache 0).drop 12 =
      blobBody cache length := by
  have hstart : (blobStart cache).length = 8 := by
    unfold blobStart
    rw [List.length_append, Codec.length_u32]
    rfl
  have htake : (blobBody cache 0).take 8 = blobStart cache := List.take_left' hstart
  have hdrop : (blobBody cache 0).drop 12 = blobRest cache := by
    have h12 : (blobStart cache ++ Codec.u32 0).length = 12 := by
      rw [List.length_append, hstart, Codec.length_u32]
    unfold blobBody
    rw [← List.append_assoc]
    exact List.drop_left' h12
  rw [htake, hdrop, List.append_assoc]
  rfl

/-! ### The round trip -/

/-- The blob of a cache: the fields, and the checksum. -/
def blobOf (cache : VibeCache) : List UInt8 :=
  let body := blobBody cache (UInt32.ofNat ((blobBody cache 0).length + 4))
  body ++ Codec.u32 (vibeCrc32 body)

/-- The length word does not change the length. -/
theorem length_blobBody_eq (cache : VibeCache) (length : UInt32) :
    (blobBody cache length).length = (blobBody cache 0).length := by
  unfold blobBody
  simp

/-- The checksum takes four bytes. -/
theorem length_blobOf (cache : VibeCache) :
    (blobOf cache).length = (blobBody cache 0).length + 4 := by
  unfold blobOf
  rw [List.length_append, Codec.length_u32, length_blobBody_eq]

/-- **Encoding a valid cache succeeds.** -/
theorem vibeCacheEncode_eq {cache : VibeCache} (h : validateCache cache = true) :
    vibeCacheEncode cache cacheBlobMaxBytes = .ok (blobOf cache) := by
  have hmax : cacheBlobMaxBytes = 4096 := rfl
  obtain ⟨-, hsize⟩ := length_blobBody cache 0
  have hflat : (blobFields cache).flatten = blobBody cache 0 := by
    unfold blobFields blobBody
    simp
  have hwrite : (blobFields cache).foldlM Writer.write ⟨cacheBlobMaxBytes, []⟩ =
      some ⟨cacheBlobMaxBytes, blobBody cache 0⟩ := by
    rw [Codec.foldlM_write]
    · rw [hflat, List.nil_append]
    · rw [hflat, List.length_nil]
      show 0 + (blobBody cache 0).length ≤ cacheBlobMaxBytes
      omega
  unfold vibeCacheEncode
  rw [if_neg (by rw [hmax]; decide), if_neg (not_not.2 h), hwrite]
  dsimp only
  rw [if_neg (by omega), patch_length]
  have hfield : Writer.write
      ⟨cacheBlobMaxBytes, blobBody cache (UInt32.ofNat ((blobBody cache 0).length + 4))⟩
      (Codec.u32 (vibeCrc32 (blobBody cache (UInt32.ofNat ((blobBody cache 0).length + 4))))) =
      some ⟨cacheBlobMaxBytes, blobOf cache⟩ := by
    refine if_neg ?_
    show ¬ 4 > cacheBlobMaxBytes - (blobBody cache _).length
    rw [length_blobBody_eq]
    omega
  rw [hfield]

/-- **Decoding the blob of a valid cache succeeds.** -/
theorem decodeCacheInto_blobOf {cache : VibeCache} (h : validateCache cache = true) :
    decodeCacheInto (blobOf cache) = .ok { cache with persisted := true } := by
  have hmax : cacheBlobMaxBytes = 4096 := rfl
  obtain ⟨hlow, hhigh⟩ := length_blobBody cache 0
  have hlen := length_blobOf cache
  generalize hword : UInt32.ofNat ((blobBody cache 0).length + 4) = word
  have hwordNat : word.toNat = (blobOf cache).length := by
    rw [hlen, ← hword, UInt32.toNat_ofNat']
    exact Nat.mod_eq_of_lt (by omega)
  have hbody : (blobOf cache).take ((blobOf cache).length - 4) = blobBody cache word := by
    rw [hlen, Nat.add_sub_cancel, ← length_blobBody_eq cache word, ← hword]
    exact List.take_left
  have hcrc : (blobOf cache).drop ((blobOf cache).length - 4) =
      Codec.u32 (vibeCrc32 (blobBody cache word)) := by
    rw [hlen, Nat.add_sub_cancel, ← length_blobBody_eq cache word, ← hword]
    exact List.drop_left
  have hfields := (decodes_fields (validateCache_iff.1 h) hwordNat).run_self
  have hvalid : validateCache { cache with persisted := false } = true := h
  unfold decodeCacheInto
  rw [if_neg (by omega)]
  dsimp only
  rw [hbody, hcrc, Codec.fromU32_u32, if_neg (not_not.2 rfl), hfields]
  dsimp only
  rw [if_neg (not_not.2 rfl), if_neg (not_not.2 hvalid)]

/-- A call that fails leaves the caller's cache as it is. -/
theorem vibeCacheDecode_unchanged {allocated : Bool} {input : List UInt8} {cache : VibeCache}
    (h : (vibeCacheDecode allocated input cache).1 ≠ none) :
    (vibeCacheDecode allocated input cache).2 = cache := by
  unfold vibeCacheDecode at h ⊢
  split
  · rfl
  · rename_i hallocated
    rw [if_neg hallocated] at h
    cases hinto : decodeCacheInto input with
    | error error => rfl
    | ok decoded =>
      rw [hinto] at h
      exact absurd rfl h

/-- **The round trip**: a valid cache is encoded, and decoding the bytes gives it back, marked as
persisted; bytes that are refused change nothing. -/
theorem cache_round_trip :
    (∀ cache : VibeCache, validateCache cache = true →
      ∃ written, vibeCacheEncode cache cacheBlobMaxBytes = .ok written ∧
        written.length ≤ cacheBlobMaxBytes ∧
        ∀ old, vibeCacheDecode true written old = (none, { cache with persisted := true })) ∧
    ∀ allocated input cache, (vibeCacheDecode allocated input cache).1 ≠ none →
      (vibeCacheDecode allocated input cache).2 = cache := by
  refine ⟨?_, fun allocated input cache ↦ vibeCacheDecode_unchanged⟩
  intro cache hcache
  refine ⟨blobOf cache, vibeCacheEncode_eq hcache, ?_, ?_⟩
  · have hmax : cacheBlobMaxBytes = 4096 := rfl
    have hsize := length_blobBody cache 0
    rw [length_blobOf]
    omega
  · intro old
    unfold vibeCacheDecode
    rw [decodeCacheInto_blobOf hcache, if_neg (by decide)]

/-- A cache with one day. -/
theorem cache_round_trip_oneDay :
    ∃ written, vibeCacheEncode oneDay cacheBlobMaxBytes = .ok written ∧
      written.length ≤ cacheBlobMaxBytes ∧
      ∀ old, vibeCacheDecode true written old = (none, { oneDay with persisted := true }) :=
  cache_round_trip.1 oneDay (by decide +kernel)

end VibeUsage
