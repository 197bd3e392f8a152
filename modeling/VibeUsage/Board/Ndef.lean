import VibeUsage.Lib.Tlv

/-!
# NDEF records

`components/board_services/board_ndef.c`: what the tag is to hold is written through a `Writer`,
which drops everything from the first piece that does not fit. A builder reports whether all of it
did, and how much was written (`Built`). The one that frames a message for the tag is
`board_ndef_type2`; a Type 2 reader finds the message in what it accepts.

The reader is in `Lib/Ndef` and `Lib/Tlv`, and knows nothing of the builders. The two meet in
`readLength_tlvLength`, for lengths of one byte and of three, and in
`readMessage_of_boardNdefType2`, which leaves open what stands behind the message.
-/

namespace VibeUsage

/-- `writer_t`, with the bytes written so far for `out` and `length`. -/
structure Writer where
  capacity : ℕ
  out : List UInt8
  valid : Bool

namespace Writer

/-- `{out, capacity, 0, true}`. -/
def init (capacity : ℕ) : Writer := { capacity := capacity, out := [], valid := true }

/-- `append` of `board_ndef.c`. -/
def append (w : Writer) (data : List UInt8) : Writer :=
  if w.valid = false ∨ w.capacity - w.out.length < data.length then { w with valid := false }
  else { w with out := w.out ++ data }

def byte (w : Writer) (b : UInt8) : Writer := w.append [b]

def be16 (w : Writer) (n : UInt16) : Writer := (w.byte (n >>> 8).toUInt8).byte (n &&& 255).toUInt8

/-- What is `written` when `data` is appended piece by piece to an empty writer. -/
def Holds (w : Writer) (data : List UInt8) : Prop :=
  w.valid = decide (data.length ≤ w.capacity) ∧ (w.valid = true → w.out = data)

/-- A new writer holds nothing. -/
theorem holds_init (capacity : ℕ) : (init capacity).Holds [] :=
  ⟨(decide_eq_true (Nat.zero_le _)).symm, fun _ ↦ rfl⟩

/-- The buffer stays the same. -/
@[simp]
theorem capacity_append (w : Writer) (data : List UInt8) :
    (w.append data).capacity = w.capacity := by
  unfold append
  split <;> rfl

/-- A piece that does not fit spoils the whole. -/
theorem Holds.append {w : Writer} {data : List UInt8} (h : w.Holds data) (more : List UInt8) :
    (w.append more).Holds (data ++ more) := by
  obtain ⟨hvalid, hout⟩ := h
  by_cases hfit : data.length ≤ w.capacity
  · rw [decide_eq_true hfit] at hvalid
    unfold Writer.append Holds
    rw [hvalid, hout hvalid]
    by_cases hmore : w.capacity - data.length < more.length
    · rw [if_pos (.inr hmore)]
      have hbig : ¬ (data ++ more).length ≤ w.capacity := by
        rw [List.length_append]
        omega
      exact ⟨(decide_eq_false hbig).symm, fun hno ↦ by cases hno⟩
    · rw [if_neg (by simp [hmore])]
      have hsmall : (data ++ more).length ≤ w.capacity := by
        rw [List.length_append]
        omega
      exact ⟨(decide_eq_true hsmall).symm, fun _ ↦ rfl⟩
  · rw [decide_eq_false hfit] at hvalid
    unfold Writer.append Holds
    rw [if_pos (.inl hvalid)]
    have hbig : ¬ (data ++ more).length ≤ w.capacity := by
      rw [List.length_append]
      omega
    exact ⟨(decide_eq_false hbig).symm, fun hno ↦ by cases hno⟩

/-- A byte is appended. -/
theorem Holds.byte {w : Writer} {data : List UInt8} (h : w.Holds data) (b : UInt8) :
    (w.byte b).Holds (data ++ [b]) := h.append [b]

@[simp] theorem capacity_byte (w : Writer) (b : UInt8) : (w.byte b).capacity = w.capacity :=
  capacity_append w [b]

/-- Two bytes are appended, the high one first. -/
theorem Holds.be16 {w : Writer} {data : List UInt8} (h : w.Holds data) (n : UInt16) :
    (w.be16 n).Holds (data ++ [(n >>> 8).toUInt8, (n &&& 255).toUInt8]) := by
  have htwo := (h.byte (n >>> 8).toUInt8).byte (n &&& 255).toUInt8
  rwa [List.append_assoc] at htwo

@[simp] theorem capacity_be16 (w : Writer) (n : UInt16) : (w.be16 n).capacity = w.capacity := by
  rw [Writer.be16, capacity_byte, capacity_byte]

end Writer

/-- What a builder leaves: its result, `*written`, and the bytes it stored at the start of `out`. -/
structure Built where
  ok : Bool
  written : ℕ
  stored : List UInt8

/-- `false` before anything is stored, with `*written` zero. -/
def Built.refused : Built := ⟨false, 0, []⟩

/-- `if (w.valid) *written = w.length; return w.valid;` -/
def Writer.built (w : Writer) : Built where
  ok := w.valid
  written := if w.valid then w.out.length else 0
  stored := w.out

/-- The bytes that a caller may use. -/
def Built.data (b : Built) : List UInt8 := b.stored.take b.written

/-- What a caller gets who looks at the result first. -/
def Built.accepted (b : Built) : Option (List UInt8) := if b.ok then some b.data else none

/-- Everything is written, or nothing. -/
theorem Writer.Holds.accepted {w : Writer} {data : List UInt8} (h : w.Holds data) :
    w.built.accepted = if data.length ≤ w.capacity then some data else none := by
  obtain ⟨hvalid, hout⟩ := h
  unfold Built.accepted Built.data Writer.built
  dsimp only
  by_cases hfit : data.length ≤ w.capacity
  · rw [decide_eq_true hfit] at hvalid
    rw [if_pos hvalid, if_pos hvalid, if_pos hfit, List.take_length, hout hvalid]
  · rw [decide_eq_false hfit] at hvalid
    rw [if_neg (by simp [hvalid]), if_neg hfit]

/-- `board_ndef_type2` -/
def boardNdefType2To (message : List UInt8) (capacity : ℕ) : Built :=
  if message = [] ∨ 65535 < message.length then .refused
  else
    let w := (Writer.init capacity).byte 3
    let w := if message.length ≤ 254 then w.byte (UInt8.ofNat message.length)
      else (w.byte 255).be16 (UInt16.ofNat message.length)
    ((w.append message).byte 0xfe).built

/-- The message as a block of a Type 2 tag. -/
def boardNdefType2 (message : List UInt8) (capacity : ℕ) : Option (List UInt8) :=
  (boardNdefType2To message capacity).accepted

/-- The length of a message as a tag has it. -/
def tlvLength (n : ℕ) : List UInt8 :=
  if n ≤ 254 then [UInt8.ofNat n]
  else [255, (UInt16.ofNat n >>> 8).toUInt8, (UInt16.ofNat n &&& 255).toUInt8]

/-- **A length is read back**, in its short and in its long form. -/
theorem readLength_tlvLength {n : ℕ} (hn : n ≤ 65535) (rest : List UInt8) :
    Tlv.readLength (tlvLength n ++ rest) = some (n, rest) := by
  unfold tlvLength
  split
  · rename_i hsmall
    have hvalue : (UInt8.ofNat n).toNat = n := by
      rw [UInt8.toNat_ofNat']
      omega
    have hne : UInt8.ofNat n ≠ 0xFF := by
      intro heq
      have := congrArg UInt8.toNat heq
      rw [hvalue] at this
      simp only [UInt8.reduceToNat] at this
      omega
    rw [List.singleton_append, Tlv.readLength_short hne, hvalue]
  · have hhigh : (UInt16.ofNat n >>> 8).toUInt8.toNat = n / 256 := by
      have hbits : (8 : UInt16).toNat % 16 = 8 := rfl
      rw [UInt16.toNat_toUInt8, UInt16.toNat_shiftRight, UInt16.toNat_ofNat', hbits,
        Nat.shiftRight_eq_div_pow]
      omega
    have hlow : (UInt16.ofNat n &&& 255).toUInt8.toNat = n % 256 := by
      rw [UInt16.toNat_toUInt8, UInt16.toNat_and, UInt16.toNat_ofNat']
      have hmask : (255 : UInt16).toNat = 2 ^ 8 - 1 := rfl
      rw [hmask, Nat.and_two_pow_sub_one_eq_mod]
      omega
    show Tlv.readLength (0xFF :: _ :: _ :: rest) = _
    rw [Tlv.readLength_long, hhigh, hlow, Nat.div_add_mod']

/-- What the tag is to hold: type 3, the length, the message and the terminator. -/
theorem boardNdefType2_eq (message : List UInt8) (capacity : ℕ) :
    boardNdefType2 message capacity =
      if message = [] ∨ 65535 < message.length then none
      else if (3 :: tlvLength message.length ++ message ++ [0xfe]).length ≤ capacity then
        some (3 :: tlvLength message.length ++ message ++ [0xfe])
      else none := by
  unfold boardNdefType2 boardNdefType2To
  split
  · rfl
  · have hthree := (Writer.holds_init capacity).byte 3
    by_cases hsmall : message.length ≤ 254
    · have hall := ((hthree.byte (UInt8.ofNat message.length)).append message).byte 0xfe
      dsimp only
      rw [tlvLength, if_pos hsmall, if_pos hsmall, hall.accepted]
      simp only [Writer.capacity_byte, Writer.capacity_append]
      rfl
    · have hall := (((hthree.byte 255).be16 (UInt16.ofNat message.length)).append message).byte 0xfe
      dsimp only
      rw [tlvLength, if_neg hsmall, if_neg hsmall, hall.accepted]
      simp only [Writer.capacity_byte, Writer.capacity_append, Writer.capacity_be16]
      rfl

/-- **A reader of the tag finds the message that was accepted**, whatever follows it. -/
theorem readMessage_of_boardNdefType2 {message tlv : List UInt8} {capacity : ℕ}
    (h : boardNdefType2 message capacity = some tlv) (rest : List UInt8) :
    Tlv.readMessage (tlv ++ rest) = some message := by
  rw [boardNdefType2_eq] at h
  split at h
  · cases h
  · rename_i haccepted
    have hlen : message.length ≤ 65535 := by
      by_contra hlong
      exact haccepted (.inr (by omega))
    split at h
    · obtain rfl := Option.some.inj h
      have hread := readLength_tlvLength hlen (message ++ ([0xfe] ++ rest))
      have hfound := Tlv.readMessage_of_readLength hread (by simp)
      rw [List.take_left] at hfound
      rw [← hfound]
      simp
    · cases h

/-- What is accepted fits the buffer. -/
theorem length_of_boardNdefType2 {message tlv : List UInt8} {capacity : ℕ}
    (h : boardNdefType2 message capacity = some tlv) : tlv.length ≤ capacity := by
  rw [boardNdefType2_eq] at h
  split at h
  · cases h
  · split at h
    · obtain rfl := Option.some.inj h
      assumption
    · cases h

end VibeUsage
