import VibeUsage.Storage.Auth

/-!
# The credential record in the caller's memory

`decode_auth` writes to a record that is already there. It writes only when every check has passed,
and then never beyond an array of the record: what it copies is shorter than the array, which has
been zeroed, so that each of the two strings ends where its bytes end.

`authRecord_codec` has both directions: what `encode_auth` accepts comes back, and whatever bytes
are read, the record is left alone, or it has a generation and two strings that end in their arrays.
-/

namespace VibeUsage

open Codec (fromU16 fromU32)

/-- A `vibe_auth_record_t` as it lies in memory. -/
structure AuthMemory where
  present : Bool
  tombstone : Bool
  generation : UInt32
  origin : Vector UInt8 originBytes
  apiKey : Vector UInt8 apiKeyBytes

namespace AuthMemory

/-- `memset(record, 0, sizeof(*record))` -/
def zero : AuthMemory where
  present := false
  tombstone := false
  generation := 0
  origin := Vector.replicate originBytes 0
  apiKey := Vector.replicate apiKeyBytes 0

/-- The record whose strings end at the first zero byte. -/
def record (memory : AuthMemory) : AuthRecord where
  present := memory.present
  tombstone := memory.tombstone
  generation := memory.generation
  origin := CString.ofBytes memory.origin.toList
  apiKey := CString.ofBytes memory.apiKey.toList

end AuthMemory

/-- `memcpy` to the start of an array, `none` where it would store beyond the end. -/
def memcpy {n : ℕ} (array : Vector UInt8 n) (data : List UInt8) : Option (Vector UInt8 n) :=
  if h : data.length ≤ n then
    some ⟨(data ++ array.toList.drop data.length).toArray, by simp; omega⟩
  else none

/-- `decode_auth`: what it returns, and what the record is afterwards. -/
def decodeAuthTo (input : List UInt8) (memory : AuthMemory) :
    Option (Option EspErr × AuthMemory) :=
  if input.length < 21 ∨ input.length > authBlobMaxBytes ∨ bytesAt input 0 4 ≠ authMagic then
    some (some .invalidArg, memory)
  else if fromU32 (bytesAt input 4 4) ≠ schemaVersion then some (some .invalidVersion, memory)
  else if vibeCrc32 (input.take (input.length - 4)) ≠
      fromU32 (bytesAt input (input.length - 4) 4) then some (some .invalidCrc, memory)
  else
    let tombstone := decide (input.getD 12 0 ≠ 0)
    let originLength := (fromU16 (bytesAt input 13 2)).toNat
    let keyLength := (fromU16 (bytesAt input 15 2)).toNat
    if ¬ lengthsFit tombstone originLength keyLength ∨
        17 + originLength + keyLength + 4 ≠ input.length ∨ fromU32 (bytesAt input 8 4) = 0 then
      some (some .invalidSize, memory)
    else do
      let memory : AuthMemory := { AuthMemory.zero with
        present := true
        tombstone
        generation := fromU32 (bytesAt input 8 4) }
      let origin ← memcpy memory.origin (bytesAt input 17 originLength)
      let apiKey ← memcpy memory.apiKey (bytesAt input (17 + originLength) keyLength)
      some (none, { memory with origin, apiKey })

/-! ### What is stored -/

/-- Copied to a zeroed array, the bytes are followed by zeros. -/
theorem memcpy_replicate {n : ℕ} {data : List UInt8} (h : data.length ≤ n) :
    ∃ array, memcpy (Vector.replicate n 0) data = some array ∧
      array.toList = data ++ List.replicate (n - data.length) 0 := by
  unfold memcpy
  rw [dif_pos h]
  refine ⟨_, rfl, ?_⟩
  rw [Vector.toList_mk, List.toList_toArray, Vector.toList_replicate, List.drop_replicate]

/-- As a string, an array ends at the zeros it is padded with. -/
theorem ofBytes_append_replicate (data : List UInt8) {n : ℕ} :
    CString.ofBytes (data ++ List.replicate n 0) = CString.ofBytes data := by
  refine CString.ext ?_
  rw [CString.ofBytes_bytes, CString.ofBytes_bytes]
  induction data with
  | nil =>
    cases n with
    | zero => rfl
    | succ n => rfl
  | cons b data ih =>
    rw [List.cons_append, List.takeWhile_cons, List.takeWhile_cons, ih]

/-- Bytes inside the input. -/
theorem length_bytesAt {input : List UInt8} {offset n : ℕ} (h : offset + n ≤ input.length) :
    (bytesAt input offset n).length = n := by
  unfold bytesAt
  rw [List.length_take, List.length_drop]
  omega

/-- What a record must be for `decode_auth` to accept it, and where its strings lie. -/
structure AuthLayout (input : List UInt8) (tombstone : Bool) (originLength keyLength : ℕ) :
    Prop where
  originLength_eq : originLength = (fromU16 (bytesAt input 13 2)).toNat
  keyLength_eq : keyLength = (fromU16 (bytesAt input 15 2)).toNat
  fit : lengthsFit tombstone originLength keyLength
  size : 17 + originLength + keyLength + 4 = input.length

/-- What `decode_auth` leaves in the record that it has accepted. -/
structure AuthMemory.Filled (memory : AuthMemory) (input : List UInt8)
    (originLength keyLength : ℕ) : Prop where
  present : memory.present = true
  generation : memory.generation ≠ 0
  origin : memory.origin.toList =
    bytesAt input 17 originLength ++ List.replicate (originBytes - originLength) 0
  apiKey : memory.apiKey.toList =
    bytesAt input (17 + originLength) keyLength ++ List.replicate (apiKeyBytes - keyLength) 0

/-- A rejected record is not written to, and no store is beyond an array. -/
theorem decodeAuthTo_of_error {input : List UInt8} {error : EspErr} (memory : AuthMemory)
    (h : decodeAuth input = .error error) :
    decodeAuthTo input memory = some (some error, memory) := by
  unfold decodeAuth at h
  unfold decodeAuthTo
  split at h
  · rename_i hguard
    rw [if_pos hguard, Except.error.inj h]
  rename_i hguard
  rw [if_neg hguard]
  split at h
  · rename_i hversion
    rw [if_pos hversion, Except.error.inj h]
  rename_i hversion
  rw [if_neg hversion]
  split at h
  · rename_i hcrc
    rw [if_pos hcrc, Except.error.inj h]
  rename_i hcrc
  rw [if_neg hcrc]
  dsimp only at h ⊢
  split at h
  · rename_i hsize
    rw [if_pos hsize, Except.error.inj h]
  · cases h

/-- An accepted record is filled, and holds what was decoded. -/
theorem decodeAuthTo_of_ok {input : List UInt8} {decoded : AuthRecord} (memory : AuthMemory)
    (h : decodeAuth input = .ok decoded) :
    ∃ after originLength keyLength, decodeAuthTo input memory = some (none, after) ∧
      after.record = decoded ∧ AuthLayout input after.tombstone originLength keyLength ∧
      after.Filled input originLength keyLength := by
  unfold decodeAuth at h
  unfold decodeAuthTo
  split at h
  · cases h
  rename_i hguard
  rw [if_neg hguard]
  split at h
  · cases h
  rename_i hversion
  rw [if_neg hversion]
  split at h
  · cases h
  rename_i hcrc
  rw [if_neg hcrc]
  dsimp only at h ⊢
  split at h
  · cases h
  rename_i hsize
  rw [if_neg hsize]
  obtain ⟨hfit, hsize⟩ := not_or.1 hsize
  obtain ⟨htotal, hgeneration⟩ := not_or.1 hsize
  rw [not_not] at hfit htotal
  -- Both ranges lie in the input, before the checksum, and each is shorter than its array.
  have horiginLength : (bytesAt input 17 (fromU16 (bytesAt input 13 2)).toNat).length = _ :=
    length_bytesAt (by omega)
  have hkeyLength : (bytesAt input (17 + (fromU16 (bytesAt input 13 2)).toNat)
      (fromU16 (bytesAt input 15 2)).toNat).length = _ := length_bytesAt (by omega)
  obtain ⟨origin, horigin, horiginBytes⟩ := memcpy_replicate
    (horiginLength.trans_le (Nat.le_of_lt hfit.1))
  obtain ⟨apiKey, hkey, hkeyBytes⟩ := memcpy_replicate
    (hkeyLength.trans_le (Nat.le_of_lt hfit.2.1))
  rw [horiginLength] at horiginBytes
  rw [hkeyLength] at hkeyBytes
  refine ⟨_, _, _, by rw [AuthMemory.zero, horigin, hkey]; rfl, ?_, ⟨rfl, rfl, hfit, htotal⟩,
    ⟨rfl, hgeneration, horiginBytes, hkeyBytes⟩⟩
  rw [← Except.ok.inj h]
  unfold AuthMemory.record
  rw [horiginBytes, hkeyBytes, ofBytes_append_replicate, ofBytes_append_replicate]

/-! ### The codec -/

/-- A tombstone has neither string. -/
theorem AuthMemory.Filled.empty_of_tombstone {memory : AuthMemory} {input : List UInt8}
    {originLength keyLength : ℕ} (hfilled : memory.Filled input originLength keyLength)
    (hlayout : AuthLayout input memory.tombstone originLength keyLength)
    (h : memory.tombstone = true) :
    memory.record.origin = .empty ∧ memory.record.apiKey = .empty := by
  obtain ⟨rfl, rfl⟩ := hlayout.fit.2.2.1 h
  unfold AuthMemory.record
  rw [hfilled.origin, hfilled.apiKey, ofBytes_append_replicate, ofBytes_append_replicate]
  exact ⟨CString.ext rfl, CString.ext rfl⟩

/-- **What `encode_auth` accepts comes back, and whatever bytes are read, the record is either left
alone or has a generation and two strings that lie apart in the bytes and end in their arrays.** -/
theorem authRecord_codec :
    (∀ record blob memory, encodeAuth record = .ok blob →
      ∃ after, decodeAuthTo blob memory = some (none, after) ∧
        after.record = { record with present := true }) ∧
    ∀ input memory,
      (∃ error, decodeAuthTo input memory = some (some error, memory)) ∨
      ∃ after originLength keyLength, decodeAuthTo input memory = some (none, after) ∧
        AuthLayout input after.tombstone originLength keyLength ∧
        after.Filled input originLength keyLength ∧
        (after.tombstone = true → after.record.origin = .empty ∧ after.record.apiKey = .empty) ∧
        (after.tombstone = false → originLength ≠ 0 ∧ keyLength ≠ 0) := by
  constructor
  · intro record blob memory h
    obtain ⟨after, -, -, hdecode, hrecord, -⟩ :=
      decodeAuthTo_of_ok memory (decodeAuth_of_encodeAuth h)
    exact ⟨after, hdecode, hrecord⟩
  · intro input memory
    cases hdecode : decodeAuth input with
    | error error => exact .inl ⟨error, decodeAuthTo_of_error memory hdecode⟩
    | ok decoded =>
      obtain ⟨after, originLength, keyLength, hafter, -, hlayout, hfilled⟩ :=
        decodeAuthTo_of_ok memory hdecode
      exact .inr ⟨after, originLength, keyLength, hafter, hlayout, hfilled,
        hfilled.empty_of_tombstone hlayout, hlayout.fit.2.2.2⟩

/-- A linked account. -/
def linkedRecord : AuthRecord where
  present := true
  tombstone := false
  generation := 7
  origin := .ofBytes (ascii ['h', 't', 't', 'p', 's', ':', '/', '/', 'a', 'p', 'i'])
  apiKey := .ofBytes (ascii ['k', 'e', 'y', '1'])

/-- A credential comes back, and an unlinked account stays unlinked. -/
theorem authRecord_codec_linked :
    (∃ blob after, encodeAuth linkedRecord = .ok blob ∧
      decodeAuthTo blob .zero = some (none, after) ∧ after.record = linkedRecord) ∧
    ∃ blob after, encodeAuth { AuthRecord.zero with tombstone := true, generation := 7 } =
        .ok blob ∧
      decodeAuthTo blob .zero = some (none, after) ∧
      after.record = { AuthRecord.zero with present := true, tombstone := true, generation :=
        7 } := by
  have hlinked : encodeAuth linkedRecord = .ok _ :=
    encodeAuth_eq_ok.2 ⟨⟨by decide, by decide⟩, rfl⟩
  have hunlinked : encodeAuth { AuthRecord.zero with tombstone := true, generation := 7 } =
      .ok _ := encodeAuth_eq_ok.2 ⟨⟨by decide, by decide⟩, rfl⟩
  obtain ⟨after, hdecode, hrecord⟩ := authRecord_codec.1 _ _ .zero hlinked
  obtain ⟨after', hdecode', hrecord'⟩ := authRecord_codec.1 _ _ .zero hunlinked
  exact ⟨⟨_, after, hlinked, hdecode, hrecord⟩, _, after', hunlinked, hdecode', hrecord'⟩

end VibeUsage
