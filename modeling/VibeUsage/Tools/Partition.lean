import VibeUsage.Lib.Md5
import VibeUsage.Lib.Python.Text

/-!
# Partition tables

`parse_partition_table` and `verify_partition_contract` of `tools/verify_firmware.py`. An error is
the text that it is formatted from.

A table is read entry by entry, up to the MD5 marker or the first place that is free. A board has a
list of the partitions that must be there as they are, and regions that no other partition may meet.
-/

namespace VibeUsage

open Python (PyStr py)

/-- What the tools raise. -/
inductive ToolError
  | valueError (format : String)
  | unicodeDecodeError
  | unicodeEncodeError
  | osError
deriving DecidableEq

def PARTITION_TABLE_OFFSET : ℕ := 0x8000
def PARTITION_TABLE_SIZE : ℕ := 0xC00
def FACTORY_OFFSET : ℕ := 0x10000
def FACTORY_SIZE : ℕ := 0x300000
def CARDID_OFFSET : ℕ := 0x356000
def CARDID_SIZE : ℕ := 0x4000
def RECOVERY_OFFSET : ℕ := 0x700000
def RECOVERY_SIZE : ℕ := 0x100000

/-- `BoardSpec`. -/
structure BoardSpec where
  name : PyStr
  chip : PyStr
  flashSizeText : PyStr
  flashSize : ℕ
  appName : PyStr
  mergedName : PyStr
  isProtected : Bool
deriving DecidableEq

/-- `Partition`. -/
structure Partition where
  kind : ℕ
  subtype : ℕ
  offset : ℕ
  size : ℕ
  label : PyStr
deriving DecidableEq

def Partition.end (p : Partition) : ℕ := p.offset + p.size

/-- `int.from_bytes(data, "little")`. -/
def fromLittle (data : List UInt8) : ℕ := data.foldr (fun b n ↦ b.toNat + 256 * n) 0

/-- `data[start:stop]`. -/
def byteSlice (data : List UInt8) (start stop : ℕ) : List UInt8 := (data.take stop).drop start

/-- `label_raw.split(b"\0", 1)[0]`. -/
def beforeNul (data : List UInt8) : List UInt8 := data.takeWhile (· ≠ 0)

/-- The entry at `cursor`, unpacked as `<HBBII16sI`. -/
def parseEntry (raw : List UInt8) (cursor : ℕ) : Except ToolError Partition :=
  match Python.decodeAscii (beforeNul (byteSlice raw (cursor + 12) (cursor + 28))) with
  | none => .error .unicodeDecodeError
  | some label =>
    let offset := fromLittle (byteSlice raw (cursor + 4) (cursor + 8))
    let size := fromLittle (byteSlice raw (cursor + 8) (cursor + 12))
    if label = [] ∨ size = 0 ∨ offset < 0x9000 then
      .error (.valueError "invalid partition bounds for \x7b!r\x7d")
    else
      .ok { kind := fromLittle (byteSlice raw (cursor + 2) (cursor + 3)),
            subtype := fromLittle (byteSlice raw (cursor + 3) (cursor + 4)),
            offset := offset, size := size, label := label }

/-- The loop of `parse_partition_table` over the places that are left. -/
def parseEntries (raw : List UInt8) : List ℕ → Except ToolError (List Partition × Bool)
  | [] => .ok ([], false)
  | cursor :: cursors =>
    let magic := fromLittle (byteSlice raw cursor (cursor + 2))
    if magic = 0xFFFF then .ok ([], false)
    else if magic = 0xEBEB then
      if byteSlice raw (cursor + 16) (cursor + 32) ≠ Md5.digest (raw.take cursor) then
        .error (.valueError "partition table MD5 marker does not match")
      else .ok ([], true)
    else if magic ≠ 0x50AA then
      .error (.valueError "invalid partition entry at table offset 0x\x7b:x\x7d")
    else do
      let partition ← parseEntry raw cursor
      let (partitions, foundMd5) ← parseEntries raw cursors
      return (partition :: partitions, foundMd5)

/-- `parse_partition_table`. -/
def parsePartitionTable (raw : List UInt8) : Except ToolError (List Partition × Bool) :=
  if raw.length < PARTITION_TABLE_SIZE then .error (.valueError "partition table is truncated")
  else do
    let (partitions, foundMd5) ← parseEntries raw ((List.range 96).map (32 * ·))
    if partitions = [] then .error (.valueError "partition table is empty")
    else return (partitions, foundMd5)

/-- `_require_partition`; the last of two partitions with one label is the one in `by_label`. -/
def requirePartition (partitions : List Partition) (expected : Partition) : Except ToolError Unit :=
  if partitions.reverse.find? (fun item ↦ item.label = expected.label) ≠ some expected then
    .error (.valueError "partition \x7b!r\x7d must remain \x7b\x7d, got \x7b\x7d")
  else .ok ()

/-- `left.end > right.offset` for neighbours. -/
def neighboursOverlap : List Partition → Bool
  | left :: right :: rest => decide (left.end > right.offset) || neighboursOverlap (right :: rest)
  | _ => false

/-- `item.offset < start + size and start < item.end`. -/
def Partition.meets (item : Partition) (start size : ℕ) : Prop :=
  item.offset < start + size ∧ start < item.end

instance decidableMeets (item : Partition) (start size : ℕ) : Decidable (item.meets start size) :=
  inferInstanceAs (Decidable (_ ∧ _))

/-- `raise ValueError` unless `condition` holds. -/
def require (condition : Prop) [Decidable condition] (format : String) : Except ToolError Unit :=
  if condition then .ok () else .error (.valueError format)

/-- The last loop of `verify_partition_contract`. -/
def spares (item : Partition) : Except ToolError Unit := do
  require (item.label ≠ py "cardid" → ¬ item.meets CARDID_OFFSET CARDID_SIZE)
    "partition \x7b!r\x7d overlaps protected cardid"
  require (item.label ≠ py "recovery" → ¬ item.meets RECOVERY_OFFSET RECOVERY_SIZE)
    "partition \x7b!r\x7d overlaps permanent Recovery"

/-- `verify_partition_contract`. -/
def verifyPartitionContract (partitions : List Partition) (foundMd5 : Bool) (spec : BoardSpec) :
    Except ToolError Unit := do
  require (foundMd5 = true) "partition table has no MD5 marker"
  let labels := partitions.map (·.label)
  require (labels.dedup.length = partitions.length) "partition labels must be unique"
  requirePartition partitions ⟨0, 0, FACTORY_OFFSET, FACTORY_SIZE, py "factory"⟩
  requirePartition partitions ⟨1, 2, 0x9000, 0x6000, py "nvs"⟩
  requirePartition partitions ⟨1, 1, 0xF000, 0x1000, py "phy_init"⟩
  requirePartition partitions ⟨1, 0x40, 0x310000, 0x20000, py "voicebuf"⟩
  if spec.isProtected then
    requirePartition partitions ⟨1, 2, CARDID_OFFSET, CARDID_SIZE, py "cardid"⟩
    requirePartition partitions ⟨0, 0x20, RECOVERY_OFFSET, RECOVERY_SIZE, py "recovery"⟩
  else
    let known := [py "nvs", py "phy_init", py "factory", py "voicebuf"]
    require ((∀ label ∈ labels, label ∈ known) ∧ ∀ label ∈ known, label ∈ labels)
      "NOTE4 partition table contains an unexpected partition"
  let ordered := partitions.insertionSort fun a b ↦ a.offset ≤ b.offset
  require (∀ item ∈ ordered, item.end ≤ spec.flashSize)
    "partition \x7b!r\x7d exceeds physical flash"
  require (neighboursOverlap ordered = false) "partitions \x7b!r\x7d and \x7b!r\x7d overlap"
  if spec.isProtected then
    partitions.forM spares

end VibeUsage
