import VibeUsage.Cache.Codec

/-!
# How canonical the blob is

The decoder refuses unknown flags, data in unused slots and bytes that are left over, so a blob that
it accepts is the one the encoder writes for the cache, but for the strings of the dictionary: one
with a NUL inside is read up to the NUL, and is written without the rest.

* `blobOf_eq_iff` says which of the accepted blobs are the blob of their cache.
* `vibeCacheEncode_decoded_iff` says the same of encoding what has been decoded.
No other freedom is left to the bytes: a length that is too short or too long, a flag with a spare
bit, a zero slot with a number in it are all refused.
-/

namespace VibeUsage

open Codec (Decoder Reads check readBytes readU8 readU32 readU64 repeatN)

/-! ### The strings of a blob -/

/-- `n` counted strings. -/
def countedStrings : ℕ → List UInt8 → List (List UInt8)
  | 0, _ => []
  | _ + 1, [] => []
  | n + 1, length :: bytes =>
    bytes.take length.toNat :: countedStrings n (bytes.drop length.toNat)

/-- The strings of the dictionary in a blob, which start after the fields of fixed size. -/
def blobIds (input : List UInt8) : List (List UInt8) := countedStrings sourceSlots (input.drop 42)

/-- A counted string. -/
def IsCounted (chunk text : List UInt8) : Prop :=
  text.length < sourceIdBytes ∧ chunk = Codec.u8 (UInt8.ofNat text.length) ++ text

/-- A length fits its byte. -/
theorem toNat_ofNat_length {text : List UInt8} (h : text.length < sourceIdBytes) :
    (UInt8.ofNat text.length).toNat = text.length := by
  have hmax : sourceIdBytes = 48 := rfl
  rw [UInt8.toNat_ofNat']
  exact Nat.mod_eq_of_lt (by omega)

/-- **The strings of the dictionary** are where they are looked for. -/
theorem countedStrings_flatten {chunks texts : List (List UInt8)}
    (h : List.Forall₂ IsCounted chunks texts) (rest : List UInt8) {n : ℕ}
    (hn : texts.length = n) : countedStrings n (chunks.flatten ++ rest) = texts := by
  subst hn
  induction h with
  | nil => rfl
  | @cons chunk text chunks texts hchunk _ ih =>
    obtain ⟨hlen, rfl⟩ := hchunk
    have hbyte := toNat_ofNat_length hlen
    show (text ++ chunks.flatten ++ rest).take _ ::
      countedStrings texts.length ((text ++ chunks.flatten ++ rest).drop _) = _
    rw [hbyte, List.append_assoc, List.take_left, List.drop_left, ih]

/-! ### What the decoder reads -/

/-- A string of the dictionary is read up to its first NUL. -/
def ReadAsId (chunk : List UInt8) (id : CString) : Prop :=
  ∃ text, IsCounted chunk text ∧ id = CString.ofBytes text

/-- An id is read of its length and its bytes. -/
theorem reads_id : Reads decodeId ReadAsId := by
  unfold decodeId
  refine (Reads.u8 _).bind fun b length hb ↦ Reads.check_bind fun hlen ↦ ?_
  refine (Reads.bytes _ _).bind fun b' text htext ↦ Reads.pure ?_
  obtain ⟨rfl, htext⟩ := htext
  refine ⟨b', ⟨by rw [htext]; exact hlen, ?_⟩, rfl⟩
  rw [hb, List.append_nil, htext, UInt8.ofNat_toNat]

/-- The flags are those of the slot that is read. -/
theorem slotFlags_of_decoded {flags : UInt8} {slot : DailySlot} (h : flags &&& ~~~7 = 0)
    (hvalid : slot.valid = decide (flags &&& 1 ≠ 0))
    (hany : slot.hasAnyData = decide (flags &&& 2 ≠ 0))
    (hcollapsed : slot.sourcesCollapsed = decide (flags &&& 4 ≠ 0)) : slotFlags slot = flags := by
  have hall : ∀ flags : UInt8, flags &&& ~~~7 = 0 →
      (if flags &&& 1 ≠ 0 then (1 : UInt8) else 0) ||| (if flags &&& 2 ≠ 0 then 2 else 0) |||
        (if flags &&& 4 ≠ 0 then 4 else 0) = flags := by decide +kernel
  unfold slotFlags
  simp only [hvalid, hany, hcollapsed, decide_eq_true_eq]
  exact hall flags h

/-- A slot is read of its own form only. -/
theorem reads_slot : Reads decodeSlot fun b slot ↦ b = encodeSlot slot := by
  unfold decodeSlot
  refine (Reads.u8 _).bind fun b₁ flags h₁ ↦ Reads.check_bind fun hflags ↦ ?_
  refine (Reads.u32 _).bind fun b₂ dateKey h₂ ↦ (Reads.u64 _).bind fun b₃ fetchedAt h₃ ↦ ?_
  refine Reads.check_bind fun _ ↦ (Reads.u64 _).bind fun b₄ totalTokens h₄ ↦ ?_
  refine (Reads.repeatN_eq (Reads.u64 _) _).bind fun b₅ sourceTokens h₅ ↦ ?_
  refine Reads.check_bind fun _ ↦ Reads.check_bind fun _ ↦ Reads.pure ?_
  unfold encodeSlot
  rw [slotFlags_of_decoded hflags rfl rfl rfl, h₁, h₂, h₃, h₄, h₅, List.append_nil,
    UInt32.toUInt32_toInt32, UInt64.toUInt64_toInt64]

/-- The fields of fixed size at the start, with a length. -/
def blobHeader (cache : VibeCache) (length : UInt32) : List UInt8 :=
  blobStart cache ++ (Codec.u32 length ++ (Codec.u32 cache.sequence ++
    (Codec.u32 cache.generation ++ (Codec.u32 cache.configRevision ++
    (Codec.u32 cache.metricId ++ (Codec.u8 cache.timezone.code.toUInt8 ++
    (Codec.u64 cache.lastReconcileAt.toUInt64 ++ (Codec.u32 cache.reconcileAnchorKey.toUInt32 ++
    Codec.u8 cache.reconcilePendingMask))))))))

/-- The dictionary begins at offset 42. -/
theorem length_blobHeader (cache : VibeCache) (length : UInt32) :
    (blobHeader cache length).length = 42 := by
  have hmagic : cacheMagic.length = 4 := rfl
  unfold blobHeader blobStart
  simp only [List.length_append, Codec.length_u8, Codec.length_u32, Codec.length_u64, hmagic]

/-- The parts of a blob. -/
theorem blobBody_eq (cache : VibeCache) (length : UInt32) :
    blobBody cache length = blobHeader cache length ++
      (cache.sourceIds.toList.flatMap encodeId ++ cache.days.toList.flatMap encodeSlot) := by
  unfold blobBody blobRest blobHeader
  simp only [List.append_assoc]

/-- What the fields of a blob were read from. -/
structure ReadFrom (inputSize : ℕ) (body : List UInt8) (cache : VibeCache)
    (chunks : List (List UInt8)) (length : UInt32) : Prop where
  length_eq : length.toNat = inputSize
  ids : List.Forall₂ ReadAsId chunks cache.sourceIds.toList
  body_eq : body = blobHeader cache length ++
    (chunks.flatten ++ cache.days.toList.flatMap encodeSlot)

/-- **A blob is read** of its parts. -/
theorem reads_fields (inputSize : ℕ) : Reads (decodeFields inputSize) fun body cache ↦
    ∃ chunks length, ReadFrom inputSize body cache chunks length := by
  have hzone : ∀ zone : UInt8, zone ≤ 1 →
      (if zone = 0 then Timezone.asiaShanghai else .utc).code.toUInt8 = zone := by decide +kernel
  unfold decodeFields
  refine (Reads.bytes _ _).bind fun b₁ magic h₁ ↦ Reads.check_bind fun hmagic ↦ ?_
  refine (Reads.u32 _).bind fun b₂ schema h₂ ↦ (Reads.u32 _).bind fun b₃ length h₃ ↦ ?_
  refine Reads.check_bind fun hlength ↦ Reads.check_bind fun _ ↦ ?_
  refine (Reads.u32 _).bind fun b₄ sequence h₄ ↦ (Reads.u32 _).bind fun b₅ generation h₅ ↦ ?_
  refine (Reads.u32 _).bind fun b₆ revision h₆ ↦ (Reads.u32 _).bind fun b₇ metric h₇ ↦ ?_
  refine (Reads.u8 _).bind fun b₈ zone h₈ ↦ (Reads.u64 _).bind fun b₉ reconciled h₉ ↦ ?_
  refine Reads.check_bind fun hversion ↦ Reads.check_bind fun _ ↦ ?_
  refine (Reads.u32 _).bind fun b₁₀ anchor h₁₀ ↦ (Reads.u8 _).bind fun b₁₁ mask h₁₁ ↦ ?_
  refine (Reads.repeatN reads_id _).bind fun b₁₂ ids h₁₂ ↦ Reads.check_bind fun _ ↦ ?_
  refine (Reads.repeatN_eq reads_slot _).bind fun b₁₃ days h₁₃ ↦ Reads.pure ?_
  obtain ⟨chunks, hchunks, rfl⟩ := h₁₂
  refine ⟨chunks, length, hlength, hchunks, ?_⟩
  unfold blobHeader blobStart
  rw [h₁.1, hmagic, h₂, h₃, h₄, h₅, h₆, h₇, h₈, h₉, h₁₀, h₁₁, h₁₃]
  simp only [List.append_assoc, List.append_nil, UInt32.toUInt32_toInt32, UInt64.toUInt64_toInt64,
    hzone zone hversion.2]

/-! ### What is written again -/

/-- The strings that ids were read from. -/
theorem exists_texts {chunks : List (List UInt8)} {ids : List CString}
    (h : List.Forall₂ ReadAsId chunks ids) :
    ∃ texts, List.Forall₂ IsCounted chunks texts ∧ ids = texts.map CString.ofBytes := by
  induction h with
  | nil => exact ⟨[], .nil, rfl⟩
  | cons hid _ ih =>
    obtain ⟨text, hcounted, rfl⟩ := hid
    obtain ⟨texts, htexts, rfl⟩ := ih
    exact ⟨text :: texts, .cons hcounted htexts, rfl⟩

/-- An id is written with its length. -/
theorem encodeId_eq {id : CString} (h : id.bytes.length < sourceIdBytes) :
    encodeId id = Codec.u8 (UInt8.ofNat id.bytes.length) ++ id.bytes := by
  have hlen : id.boundedStrlen sourceIdBytes = id.bytes.length := Nat.min_eq_left (Nat.le_of_lt h)
  unfold encodeId
  dsimp only
  rw [hlen, List.take_length]

/-- Strings without a NUL are written as they were read. -/
theorem flatten_eq_of_noNul {chunks texts : List (List UInt8)}
    (h : List.Forall₂ IsCounted chunks texts) (hnul : ∀ text ∈ texts, 0 ∉ text) :
    chunks.flatten = (texts.map CString.ofBytes).flatMap encodeId := by
  induction h with
  | nil => rfl
  | @cons chunk text chunks texts hchunk _ ih =>
    obtain ⟨hlen, rfl⟩ := hchunk
    have hbytes : (CString.ofBytes text).bytes = text :=
      CString.ofBytes_bytes_of_noNul (hnul text List.mem_cons_self)
    rw [List.flatten_cons, List.map_cons, List.flatMap_cons,
      ih fun text' h ↦ hnul text' (List.mem_cons_of_mem _ h),
      encodeId_eq (by rw [hbytes]; exact hlen), hbytes]

/-- The strings of a blob that was written are the ids. -/
theorem blobIds_blobOf {cache : VibeCache} (h : cache.Valid) :
    blobIds (blobOf cache) = cache.sourceIds.toList.map CString.bytes := by
  have hcounted : List.Forall₂ IsCounted (cache.sourceIds.toList.map encodeId)
      (cache.sourceIds.toList.map CString.bytes) := by
    rw [List.forall₂_map_left_iff, List.forall₂_map_right_iff, List.forall₂_same]
    intro id hid
    obtain ⟨i, hi, rfl⟩ := List.mem_iff_getElem.1 hid
    rw [Vector.length_toList] at hi
    have hlen := h.id_length ⟨i, hi⟩
    rw [Vector.getElem_toList]
    exact ⟨hlen, encodeId_eq hlen⟩
  have hdrop : ∀ length rest, (blobBody cache length ++ rest).drop 42 =
      (cache.sourceIds.toList.map encodeId).flatten ++
        (cache.days.toList.flatMap encodeSlot ++ rest) := by
    intro length rest
    rw [blobBody_eq, List.append_assoc, List.append_assoc,
      List.drop_left' (length_blobHeader cache length), List.flatMap_def]
  have hslots : (cache.sourceIds.toList.map CString.bytes).length = sourceSlots := by
    rw [List.length_map, Vector.length_toList]
  unfold blobIds blobOf
  dsimp only
  rw [hdrop]
  exact countedStrings_flatten hcounted _ hslots

/-- What an accepted blob is made of. -/
theorem exists_readFrom {input : List UInt8} {cache : VibeCache}
    (h : decodeCacheInto input = .ok cache) : validateCache cache = true ∧
      ∃ body chunks length, input = body ++ Codec.u32 (vibeCrc32 body) ∧
        ReadFrom input.length body cache chunks length := by
  unfold decodeCacheInto at h
  split at h
  · cases h
  rename_i hsize
  dsimp only at h
  split at h
  · cases h
  rename_i hcrc
  rw [not_not] at hcrc
  split at h
  · cases h
  rename_i decoded rest hrun
  split at h
  · cases h
  rename_i hrest
  split at h
  · cases h
  rename_i hvalid
  obtain rfl := Except.ok.inj h
  obtain ⟨body, hbody, chunks, length, hread⟩ := reads_fields input.length _ _ _ hrun
  rw [not_not.1 hrest, List.append_nil] at hbody
  refine ⟨not_not.1 hvalid, body, chunks, length, ?_,
    hread.length_eq, hread.ids, hread.body_eq⟩
  rw [← hbody, hcrc, Codec.u32_fromU32 (by rw [List.length_drop]; omega), List.take_append_drop]

/-- **An accepted blob is the blob of the cache**, when no string in it has a NUL inside. -/
theorem blobOf_eq_iff {input : List UInt8} {cache : VibeCache}
    (h : decodeCacheInto input = .ok cache) :
    blobOf cache = input ↔ ∀ text ∈ blobIds input, 0 ∉ text := by
  obtain ⟨hvalid, body, chunks, length, hinput, hread⟩ := exists_readFrom h
  constructor
  · rintro rfl text htext
    rw [blobIds_blobOf (validateCache_iff.1 hvalid)] at htext
    obtain ⟨id, -, rfl⟩ := List.mem_map.1 htext
    exact id.noNul
  · intro hnul
    obtain ⟨texts, htexts, hids⟩ := exists_texts hread.ids
    have hslots : texts.length = sourceSlots := by
      have hlen := congrArg List.length hids
      rw [Vector.length_toList, List.length_map] at hlen
      exact hlen.symm
    have hblobIds : blobIds input = texts := by
      unfold blobIds
      rw [hinput, hread.body_eq, List.append_assoc, List.append_assoc,
        List.drop_left' (length_blobHeader cache length)]
      exact countedStrings_flatten htexts _ hslots
    rw [hblobIds] at hnul
    have hbody : body = blobBody cache length := by
      rw [hread.body_eq, blobBody_eq, hids, flatten_eq_of_noNul htexts hnul]
    have hword : UInt32.ofNat ((blobBody cache 0).length + 4) = length := by
      have hlen := congrArg List.length hinput
      rw [List.length_append, Codec.length_u32, hbody, length_blobBody_eq,
        ← hread.length_eq] at hlen
      rw [← hlen, UInt32.ofNat_toNat]
    unfold blobOf
    dsimp only
    rw [hword, ← hbody, ← hinput]

/-- **How canonical the format is.** A blob that is accepted is written again byte for byte exactly
when no counted string of its dictionary has a NUL inside. -/
theorem vibeCacheEncode_decoded_iff {allocated : Bool} {input : List UInt8} {old cache : VibeCache}
    (h : vibeCacheDecode allocated input old = (none, cache)) :
    vibeCacheEncode cache cacheBlobMaxBytes = .ok input ↔ ∀ text ∈ blobIds input, 0 ∉ text := by
  have hinto : decodeCacheInto input = .ok cache := by
    unfold vibeCacheDecode at h
    split at h
    · cases (Prod.mk.inj h).1
    · split at h
      · cases (Prod.mk.inj h).1
      · rename_i decoded hdecoded
        rw [hdecoded, (Prod.mk.inj h).2]
  obtain ⟨hvalid, -⟩ := exists_readFrom hinto
  rw [vibeCacheEncode_eq hvalid, Except.ok.injEq]
  exact blobOf_eq_iff hinto

/-- The blob of a cache with three days and two ids besides `__other__`. -/
theorem vibeCacheEncode_decoded_iff_threeDays :
    (threeDays.days.toList.countP (·.valid) = 3 ∧
      threeDays.sourceIds.toList.countP (fun id ↦ id.bytes ≠ []) = 3) ∧
    vibeCacheEncode { threeDays with persisted := true } cacheBlobMaxBytes =
      .ok (blobOf threeDays) := by
  have hvalid : validateCache threeDays = true := by decide +kernel
  have hdecode : vibeCacheDecode true (blobOf threeDays) threeDays =
      (none, { threeDays with persisted := true }) := by
    unfold vibeCacheDecode
    rw [if_neg (by decide), decodeCacheInto_blobOf hvalid]
  refine ⟨by decide +kernel, (vibeCacheEncode_decoded_iff hdecode).2 fun text htext ↦ ?_⟩
  rw [blobIds_blobOf (validateCache_iff.1 hvalid)] at htext
  obtain ⟨id, -, rfl⟩ := List.mem_map.1 htext
  exact id.noNul

/-- A new cache. -/
def newCache : VibeCache := vibeCacheInit 1 1 .utc

/-- The blob of a new cache, but for a NUL in the first string of its dictionary. -/
def nulBlob : List UInt8 :=
  let body := blobHeader newCache 1784 ++ ([1, 0] ++
    (newCache.sourceIds.toList.tail.flatMap encodeId ++ newCache.days.toList.flatMap encodeSlot))
  body ++ Codec.u32 (vibeCrc32 body)

/-- The blob with a NUL inside is accepted, and is not what is written again. -/
theorem format_not_canonical : ¬ ∀ allocated input old cache,
    vibeCacheDecode allocated input old = (none, cache) →
      vibeCacheEncode cache cacheBlobMaxBytes = .ok input := by
  have hinto : decodeCacheInto nulBlob = .ok { newCache with persisted := true } := by
    decide +kernel
  have hvalid : validateCache { newCache with persisted := true } = true := by decide +kernel
  intro h
  have hencode := h true nulBlob newCache { newCache with persisted := true } (by
    unfold vibeCacheDecode
    rw [if_neg (by decide), hinto])
  rw [vibeCacheEncode_eq hvalid, Except.ok.injEq] at hencode
  have hnul := (blobOf_eq_iff hinto).1 hencode
  exact absurd (hnul [0] (by decide +kernel)) (by decide)

end VibeUsage
