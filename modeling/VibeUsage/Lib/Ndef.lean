import VibeUsage.Lib.CString

/-!
# What a reader finds in an NDEF message

An NDEF message is a sequence of records. A record has a byte of flags, the lengths of its type,
payload and identifier, and then these. The first record of a message is flagged as the beginning
and the last as the end, and nothing follows it. A record of a short form has one byte for the
length of its payload, any other four.

A payload may again be a sequence of fields with their lengths: the attributes of Wi-Fi Simple
Configuration have two bytes for the number of the attribute and two for the length. And the payload
of a URI record starts with a byte that stands for the start of the URI.
-/

namespace Ndef

/-- The first `n` bytes, when there are that many, and the rest. -/
def splitFront (n : ℕ) (data : List UInt8) : Option (List UInt8 × List UInt8) :=
  if n ≤ data.length then some (data.take n, data.drop n) else none

/-- A part of known length is split off. -/
theorem splitFront_append {front rest : List UInt8} {n : ℕ} (h : n = front.length) :
    splitFront n (front ++ rest) = some (front, rest) := by
  rw [h, splitFront, if_pos (by simp), List.take_left, List.drop_left]

/-- The number that bytes are, the most significant first. -/
def bigEndian (bytes : List UInt8) : ℕ := bytes.foldl (fun n byte ↦ n * 256 + byte.toNat) 0

/-! ### Records -/

structure Record where
  /-- The Type Name Format, the low three bits of the flags. -/
  format : UInt8
  type : List UInt8
  id : List UInt8
  payload : List UInt8
  deriving DecidableEq, Repr

/-- Message Begin -/
def mb : UInt8 := 0x80

/-- Message End -/
def me : UInt8 := 0x40

/-- Chunk Flag -/
def cf : UInt8 := 0x20

/-- Short Record -/
def sr : UInt8 := 0x10

/-- Identifier Length is present -/
def il : UInt8 := 0x08

/-- A record that is not a chunk, with its flags, and what follows it. -/
def readRecord : List UInt8 → Option (UInt8 × Record × List UInt8)
  | flags :: typeLength :: data =>
    if flags &&& cf ≠ 0 then none
    else do
      let (payloadLength, data) ← splitFront (if flags &&& sr ≠ 0 then 1 else 4) data
      let (idLength, data) ← splitFront (if flags &&& il ≠ 0 then 1 else 0) data
      let (type, data) ← splitFront typeLength.toNat data
      let (id, data) ← splitFront (bigEndian idLength) data
      let (payload, data) ← splitFront (bigEndian payloadLength) data
      some (flags, ⟨flags &&& 7, type, id, payload⟩, data)
  | _ => none

/-- The records from one that is the first of the message or is not; `fuel` bounds their number. -/
def readRecords : ℕ → Bool → List UInt8 → Option (List Record)
  | 0, _, _ => none
  | fuel + 1, first, data => do
    let (flags, record, rest) ← readRecord data
    if decide (flags &&& mb ≠ 0) ≠ first then none
    else if flags &&& me ≠ 0 then
      if rest = [] then some [record] else none
    else do
      let records ← readRecords fuel false rest
      some (record :: records)

/-- The records of a message: every record has two bytes at least. -/
def readMessage (data : List UInt8) : Option (List Record) := readRecords data.length true data

/-- A short record without an identifier. -/
def shortRecord (flags : UInt8) (type payload : List UInt8) : List UInt8 :=
  flags :: UInt8.ofNat type.length :: UInt8.ofNat payload.length :: (type ++ payload)

/-- **A short record is read back.** -/
theorem readRecord_shortRecord (flags : UInt8) {type payload : List UInt8}
    (hflags : flags &&& cf = 0 ∧ flags &&& sr ≠ 0 ∧ flags &&& il = 0)
    (htype : type.length < 256) (hpayload : payload.length < 256) (rest : List UInt8) :
    readRecord (shortRecord flags type payload ++ rest) =
      some (flags, ⟨flags &&& 7, type, [], payload⟩, rest) := by
  obtain ⟨hcf, hsr, hil⟩ := hflags
  have htypeNat : (UInt8.ofNat type.length).toNat = type.length := by
    rw [UInt8.toNat_ofNat']
    omega
  have hpayloadNat : bigEndian [UInt8.ofNat payload.length] = payload.length := by
    show 0 * 256 + (UInt8.ofNat payload.length).toNat = payload.length
    rw [UInt8.toNat_ofNat']
    omega
  have hlength : splitFront 1 ([UInt8.ofNat payload.length] ++ (type ++ payload ++ rest)) =
      some ([UInt8.ofNat payload.length], type ++ payload ++ rest) := splitFront_append rfl
  have hnoId : splitFront 0 (type ++ payload ++ rest) = some ([], type ++ payload ++ rest) := rfl
  have hnoId' : splitFront (bigEndian []) (payload ++ rest) = some ([], payload ++ rest) := rfl
  show readRecord (flags :: UInt8.ofNat type.length ::
    ([UInt8.ofNat payload.length] ++ (type ++ payload ++ rest))) = _
  rw [readRecord, if_neg (not_not.2 hcf), if_pos hsr, if_neg (not_not.2 hil), hlength]
  simp only [Option.bind_eq_bind, Option.bind_some]
  rw [hnoId]
  simp only [Option.bind_some]
  rw [List.append_assoc, htypeNat, splitFront_append rfl]
  simp only [Option.bind_some]
  rw [hnoId', hpayloadNat]
  simp only [Option.bind_some]
  rw [splitFront_append rfl]
  rfl

section

variable {data rest : List UInt8} {flags : UInt8} {record : Record} {first : Bool}

/-- The last record, with nothing after it. -/
theorem readRecords_last (fuel : ℕ) (hmb : decide (flags &&& mb ≠ 0) = first)
    (hme : flags &&& me ≠ 0) (h : readRecord data = some (flags, record, [])) :
    readRecords (fuel + 1) first data = some [record] := by
  rw [readRecords, h]
  simp only [Option.bind_eq_bind, Option.bind_some]
  rw [if_neg (not_not.2 hmb), if_pos hme, if_pos trivial]

/-- A record before others. -/
theorem readRecords_cons (fuel : ℕ) (hmb : decide (flags &&& mb ≠ 0) = first)
    (hme : flags &&& me = 0) (h : readRecord data = some (flags, record, rest)) :
    readRecords (fuel + 1) first data = (readRecords fuel false rest).map (List.cons record) := by
  rw [readRecords, h]
  simp only [Option.bind_eq_bind, Option.bind_some]
  rw [if_neg (not_not.2 hmb), if_neg (not_not.2 hme)]
  cases readRecords fuel false rest with
  | none => rfl
  | some records => rfl

end

/-! ### URIs -/

/-- `http://www.`, `https://www.`, `http://` and `https://`, by the byte that stands for them. -/
def uriPrefix (code : UInt8) : Option (List UInt8) :=
  if code = 0 then some []
  else if code = 1 then some (ascii ['h', 't', 't', 'p', ':', '/', '/', 'w', 'w', 'w', '.'])
  else if code = 2 then some (ascii ['h', 't', 't', 'p', 's', ':', '/', '/', 'w', 'w', 'w', '.'])
  else if code = 3 then some (ascii ['h', 't', 't', 'p', ':', '/', '/'])
  else if code = 4 then some (ascii ['h', 't', 't', 'p', 's', ':', '/', '/'])
  else none

/-- The URI of a record of the well-known type `U`. -/
def Record.uri (record : Record) : Option (List UInt8) :=
  match record.payload with
  | code :: rest =>
    if record.format = 1 ∧ record.type = ascii ['U'] then (uriPrefix code).map (· ++ rest) else none
  | [] => none

end Ndef

namespace Wsc

/-- The attributes of Wi-Fi Simple Configuration, each with its number. -/
def readAttributes : List UInt8 → Option (List (ℕ × List UInt8))
  | [] => some []
  | idHigh :: idLow :: high :: low :: data =>
    if high.toNat * 256 + low.toNat ≤ data.length then
      (readAttributes (data.drop (high.toNat * 256 + low.toNat))).map
        (List.cons (idHigh.toNat * 256 + idLow.toNat, data.take (high.toNat * 256 + low.toNat)))
    else none
  | _ => none
termination_by data => data.length
decreasing_by
  simp only [List.length_drop, List.length_cons]
  omega

/-- A number of 16 bits. -/
def be16 (n : ℕ) : List UInt8 := [UInt8.ofNat (n / 256), UInt8.ofNat n]

/-- An attribute with the length of its value. -/
def encodeAttribute (id : ℕ) (value : List UInt8) : List UInt8 :=
    be16 id ++ (be16 value.length ++ value)

/-- Two bytes, the high one first. -/
theorem toNat_be16 {n : ℕ} (h : n < 65536) :
    (UInt8.ofNat (n / 256)).toNat * 256 + (UInt8.ofNat n).toNat = n := by
  rw [UInt8.toNat_ofNat', UInt8.toNat_ofNat']
  omega

/-- An attribute is read back, and the others after it. -/
theorem readAttributes_attribute {id : ℕ} {value : List UInt8} (hid : id < 65536)
    (hvalue : value.length < 65536) (rest : List UInt8) :
    readAttributes (encodeAttribute id value ++ rest) =
      (readAttributes rest).map (List.cons (id, value)) := by
  show readAttributes (UInt8.ofNat (id / 256) :: UInt8.ofNat id ::
    UInt8.ofNat (value.length / 256) :: UInt8.ofNat value.length :: (value ++ rest)) = _
  rw [readAttributes, toNat_be16 hid, toNat_be16 hvalue, if_pos (by simp), List.take_left,
    List.drop_left]

/-- Attributes one after the other. -/
def encodeAttributes (fields : List (ℕ × List UInt8)) : List UInt8 :=
  fields.flatMap fun field ↦ encodeAttribute field.1 field.2

/-- **Attributes are read back**, when their numbers and lengths are of 16 bits. -/
theorem readAttributes_encodeAttributes {fields : List (ℕ × List UInt8)}
    (h : ∀ field ∈ fields, field.1 < 65536 ∧ field.2.length < 65536) :
    readAttributes (encodeAttributes fields) = some fields := by
  induction fields with
  | nil => rw [encodeAttributes, List.flatMap_nil, readAttributes]
  | cons field fields ih =>
    obtain ⟨hid, hvalue⟩ := h field List.mem_cons_self
    have hrest := ih fun other hother ↦ h other (List.mem_cons_of_mem _ hother)
    rw [encodeAttributes] at hrest
    rw [encodeAttributes, List.flatMap_cons, readAttributes_attribute hid hvalue, hrest]
    rfl

/-- An attribute has four bytes before its value. -/
theorem length_encodeAttribute (id : ℕ) (value : List UInt8) :
    (encodeAttribute id value).length = 4 + value.length := by
  simp only [encodeAttribute, be16, List.length_append, List.length_cons, List.length_nil]
  omega

end Wsc
