import VibeUsage.Cache.Codec
import VibeUsage.Storage.Nvs

/-!
# The credential record

`encode_auth` and `decode_auth` of `vibe_store.c`: a record that is encoded at all comes back as it
was. A tombstone has no credential, anything else has both its origin and its key, and the
generation is never zero.

`AuthRecord.Storable` is what `encode_auth` asks for, and `decodeAuth_of_encodeAuth` the round trip.
The other direction, from bytes to a record, is in `AuthMemory`, where the record is one that the
caller has.
-/

namespace VibeUsage

open Codec (fromU16 fromU32)

/-- `VIBE_ORIGIN_BYTES` -/
def originBytes : ℕ := 256

/-- `VIBE_API_KEY_BYTES` -/
def apiKeyBytes : ℕ := 512

/-- `AUTH_BLOB_MAX_BYTES` -/
def authBlobMaxBytes : ℕ := 2048

/-- A `vibe_auth_record_t`. -/
structure AuthRecord where
  present : Bool
  tombstone : Bool
  generation : UInt32
  origin : CString
  apiKey : CString
  deriving DecidableEq

/-- A zeroed record. -/
def AuthRecord.zero : AuthRecord := ⟨false, false, 0, .empty, .empty⟩

/-- `"VUA1"` -/
def authMagic : List UInt8 := ascii ['V', 'U', 'A', '1']

/-- What the lengths of the two strings must be to the tombstone. -/
def lengthsFit (tombstone : Bool) (originLength keyLength : ℕ) : Prop :=
  originLength < originBytes ∧ keyLength < apiKeyBytes ∧
    (tombstone = true → originLength = 0 ∧ keyLength = 0) ∧
    (tombstone = false → originLength ≠ 0 ∧ keyLength ≠ 0)

instance (tombstone : Bool) (originLength keyLength : ℕ) :
    Decidable (lengthsFit tombstone originLength keyLength) :=
  inferInstanceAs (Decidable (_ ∧ _ ∧ _ ∧ _))

/-- The fields before the checksum. -/
def authBody (record : AuthRecord) : List UInt8 :=
  authMagic ++ (Codec.u32 schemaVersion ++ (Codec.u32 record.generation ++
    (Codec.u8 (if record.tombstone then 1 else 0) ++
    (Codec.u16 (UInt16.ofNat record.origin.bytes.length) ++
    (Codec.u16 (UInt16.ofNat record.apiKey.bytes.length) ++
    (record.origin.bytes ++ record.apiKey.bytes))))))

/-- The bytes `encode_auth` writes to a buffer of `AUTH_BLOB_MAX_BYTES`, which any record that
passes its checks fits. -/
def encodeAuth (record : AuthRecord) : Except EspErr (List UInt8) :=
  let originLength := record.origin.boundedStrlen originBytes
  let keyLength := record.apiKey.boundedStrlen apiKeyBytes
  if ¬ lengthsFit record.tombstone originLength keyLength ∨ record.generation = 0 then
    .error .invalidSize
  else if 21 + originLength + keyLength > authBlobMaxBytes then .error .invalidSize
  else .ok (authBody record ++ Codec.u32 (vibeCrc32 (authBody record)))

/-- The `n` bytes at an offset. -/
def bytesAt (input : List UInt8) (offset n : ℕ) : List UInt8 := (input.drop offset).take n

def decodeAuth (input : List UInt8) : Except EspErr AuthRecord :=
  if input.length < 21 ∨ input.length > authBlobMaxBytes ∨ bytesAt input 0 4 ≠ authMagic then
    .error .invalidArg
  else if fromU32 (bytesAt input 4 4) ≠ schemaVersion then .error .invalidVersion
  else if vibeCrc32 (input.take (input.length - 4)) ≠
      fromU32 (bytesAt input (input.length - 4) 4) then .error .invalidCrc
  else
    let tombstone := decide (input.getD 12 0 ≠ 0)
    let originLength := (fromU16 (bytesAt input 13 2)).toNat
    let keyLength := (fromU16 (bytesAt input 15 2)).toNat
    if ¬ lengthsFit tombstone originLength keyLength ∨
        17 + originLength + keyLength + 4 ≠ input.length ∨ fromU32 (bytesAt input 8 4) = 0 then
      .error .invalidSize
    else
      .ok {
        present := true
        tombstone
        generation := fromU32 (bytesAt input 8 4)
        origin := CString.ofBytes (bytesAt input 17 originLength)
        apiKey := CString.ofBytes (bytesAt input (17 + originLength) keyLength) }

/-! ### The round trip -/

/-- What a record must be for `encode_auth` to accept it, over the whole strings. -/
structure AuthRecord.Storable (record : AuthRecord) : Prop where
  lengths : lengthsFit record.tombstone record.origin.bytes.length record.apiKey.bytes.length
  generation : record.generation ≠ 0

/-- The length of a record before its checksum. -/
theorem length_authBody (record : AuthRecord) :
    (authBody record).length = 17 + record.origin.bytes.length + record.apiKey.bytes.length := by
  have hmagic : authMagic.length = 4 := rfl
  unfold authBody
  simp only [List.length_append, Codec.length_u8, Codec.length_u16, Codec.length_u32, hmagic]
  omega

/-- A length that is below its capacity is the length of the whole string. -/
theorem boundedStrlen_lt_iff {s : CString} {capacity : ℕ} :
    s.boundedStrlen capacity < capacity ↔ s.bytes.length < capacity := by
  unfold CString.boundedStrlen
  omega

/-- The length of a text that fits. -/
theorem boundedStrlen_of_lt {s : CString} {capacity : ℕ} (h : s.bytes.length < capacity) :
    s.boundedStrlen capacity = s.bytes.length := Nat.min_eq_left (Nat.le_of_lt h)

/-- A record is encoded exactly when it is storable. -/
theorem encodeAuth_eq_ok {record : AuthRecord} {blob : List UInt8} :
    encodeAuth record = .ok blob ↔
      record.Storable ∧ blob = authBody record ++ Codec.u32 (vibeCrc32 (authBody record)) := by
  have hfit : lengthsFit record.tombstone (record.origin.boundedStrlen originBytes)
      (record.apiKey.boundedStrlen apiKeyBytes) ↔
      lengthsFit record.tombstone record.origin.bytes.length record.apiKey.bytes.length := by
    unfold lengthsFit
    rw [boundedStrlen_lt_iff, boundedStrlen_lt_iff]
    constructor
    · rintro ⟨horigin, hkey, h⟩
      rw [boundedStrlen_of_lt horigin, boundedStrlen_of_lt hkey] at h
      exact ⟨horigin, hkey, h⟩
    · rintro ⟨horigin, hkey, h⟩
      rw [boundedStrlen_of_lt horigin, boundedStrlen_of_lt hkey]
      exact ⟨horigin, hkey, h⟩
  have hsize : ¬ 21 + record.origin.boundedStrlen originBytes +
      record.apiKey.boundedStrlen apiKeyBytes > authBlobMaxBytes := by
    unfold CString.boundedStrlen originBytes apiKeyBytes authBlobMaxBytes
    omega
  unfold encodeAuth
  simp only [hfit]
  rw [if_neg hsize]
  by_cases h : lengthsFit record.tombstone record.origin.bytes.length record.apiKey.bytes.length ∧
      record.generation ≠ 0
  · rw [if_neg (by tauto), Except.ok.injEq]
    exact ⟨fun hblob ↦ ⟨⟨h.1, h.2⟩, hblob.symm⟩, fun hblob ↦ hblob.2.symm⟩
  · rw [if_pos (by tauto)]
    constructor
    · intro hblob
      cases hblob
    · intro hblob
      exact absurd ⟨hblob.1.lengths, hblob.1.generation⟩ h

/-- **A stored record is read back.** -/
theorem decodeAuth_of_encodeAuth {record : AuthRecord} {blob : List UInt8}
    (h : encodeAuth record = .ok blob) : decodeAuth blob = .ok { record with present := true } := by
  obtain ⟨hstorable, rfl⟩ := encodeAuth_eq_ok.1 h
  obtain ⟨hlengths, hgeneration⟩ := hstorable
  have hlen := length_authBody record
  generalize hcrc : Codec.u32 (vibeCrc32 (authBody record)) = crc
  have hcrcLength : crc.length = 4 := by rw [← hcrc]; rfl
  have hinput : (authBody record ++ crc).length =
      21 + record.origin.bytes.length + record.apiKey.bytes.length := by
    rw [List.length_append, hlen, hcrcLength]
    omega
  obtain ⟨horigin, hkey, hwhich⟩ := hlengths
  have hsmall : originBytes = 256 := rfl
  have hsmall' : apiKeyBytes = 512 := rfl
  have hmaxBlob : authBlobMaxBytes = 2048 := rfl
  -- The checksum is split off first; every field then lies in what is left.
  have hbody : (authBody record ++ crc).take ((authBody record ++ crc).length - 4) =
      authBody record := by
    rw [List.length_append, hcrcLength, Nat.add_sub_cancel]
    exact List.take_left
  have hlast : bytesAt (authBody record ++ crc) ((authBody record ++ crc).length - 4) 4 = crc := by
    unfold bytesAt
    rw [List.length_append, hcrcLength, Nat.add_sub_cancel, List.drop_left]
    exact List.take_of_length_le (Nat.le_of_eq hcrcLength)
  have hrest : ∀ offset n, bytesAt (authBody record ++ crc) (17 + offset) n =
      bytesAt (record.origin.bytes ++ (record.apiKey.bytes ++ crc)) offset n := by
    intro offset n
    unfold bytesAt
    rw [← List.drop_drop, ← List.append_assoc]
    rfl
  have hwords : bytesAt (authBody record ++ crc) 0 4 = authMagic ∧
      bytesAt (authBody record ++ crc) 4 4 = Codec.u32 schemaVersion ∧
      bytesAt (authBody record ++ crc) 8 4 = Codec.u32 record.generation ∧
      (authBody record ++ crc).getD 12 0 = (if record.tombstone then 1 else 0) ∧
      bytesAt (authBody record ++ crc) 13 2 = Codec.u16 (UInt16.ofNat record.origin.bytes.length) ∧
      bytesAt (authBody record ++ crc) 15 2 = Codec.u16 (UInt16.ofNat record.apiKey.bytes.length) :=
    ⟨rfl, rfl, rfl, rfl, rfl, rfl⟩
  obtain ⟨hmagic, hversion, hgen, htomb, hoLength, hkLength⟩ := hwords
  have hoNat : (UInt16.ofNat record.origin.bytes.length).toNat = record.origin.bytes.length := by
    rw [UInt16.toNat_ofNat']
    exact Nat.mod_eq_of_lt (by omega)
  have hkNat : (UInt16.ofNat record.apiKey.bytes.length).toNat = record.apiKey.bytes.length := by
    rw [UInt16.toNat_ofNat']
    exact Nat.mod_eq_of_lt (by omega)
  have htombstone : decide ((if record.tombstone then (1 : UInt8) else 0) ≠ 0) =
      record.tombstone := by
    cases record.tombstone <;> decide
  unfold decodeAuth
  rw [hmagic, hversion, hbody, hlast, ← hcrc, Codec.fromU32_u32, Codec.fromU32_u32, hcrc, hgen,
    htomb, hoLength, hkLength, Codec.fromU16_u16, Codec.fromU16_u16, Codec.fromU32_u32, hoNat,
    hkNat, htombstone]
  -- The refusals of the decoder, one for each condition of `Storable`.
  have hfit : lengthsFit record.tombstone record.origin.bytes.length record.apiKey.bytes.length :=
    ⟨horigin, hkey, hwhich⟩
  rw [if_neg (by simp only [ne_eq, not_true_eq_false, or_false]; omega), if_neg (not_not.2 rfl),
    if_neg (not_not.2 rfl)]
  dsimp only
  rw [if_neg (by
    rintro (h | h | h)
    · exact h hfit
    · omega
    · exact hgeneration h)]
  have horiginBytes : bytesAt (authBody record ++ crc) 17 record.origin.bytes.length =
      record.origin.bytes := by
    rw [← Nat.add_zero 17, hrest]
    exact List.take_left
  have hkeyBytes : bytesAt (authBody record ++ crc) (17 + record.origin.bytes.length)
      record.apiKey.bytes.length = record.apiKey.bytes := by
    rw [hrest]
    unfold bytesAt
    rw [List.drop_left]
    exact List.take_left
  rw [horiginBytes, hkeyBytes, CString.ofBytes_bytes_self, CString.ofBytes_bytes_self]

end VibeUsage
