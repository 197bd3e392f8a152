import VibeUsage.Lib.Python.Value
import VibeUsage.Tools.Partition

/-!
# Verifying a build

`verify_build` of `tools/verify_firmware.py` and the plan it accepts. Only the application is held
to the size of its partition: the bootloader and the partition table may be as long as they like
(`verifyBuild_ok`), so what `esptool` writes for them may run into what follows.

The files of a build are their bytes, and the names in a plan are those of the source. What
`verify_build` raises is kept with its text.
-/

namespace VibeUsage

open Python (PyStr PyValue Json py)

/-- The keys of `SPECS`. -/
inductive FirmwareBoard
  | passport
  | note4

/-- `SPECS`. -/
def SPECS : FirmwareBoard → BoardSpec
  | .passport =>
    { name := py "FoloToy AI Passport", chip := py "esp32c3", flashSizeText := py "8MB",
      flashSize := 8 * 1024 * 1024, appName := py "vibe_usage_ai_passport.bin",
      mergedName := py "FoloToy-AI-Passport-full.bin", isProtected := true }
  | .note4 =>
    { name := py "ZECTRIX NOTE4 BLACK-WHITE", chip := py "esp32s3", flashSizeText := py "16MB",
      flashSize := 16 * 1024 * 1024, appName := py "vibe_usage_zectrix.bin",
      mergedName := py "vibe-usage-note4-black-white-full.bin", isProtected := false }

/-- `RECOVERY_BOOT_MARKER`. -/
def RECOVERY_BOOT_MARKER : List UInt8 :=
  (py "UP held: booting permanent recovery").map fun c ↦ UInt8.ofNat c.val

/-- The files under the build directory, by their path from it. -/
abbrev BuildDir : Type := PyStr → Option (List UInt8)

def BuildDir.isFile (dir : BuildDir) (path : PyStr) : Prop := (dir path).isSome

instance decidableIsFile (dir : BuildDir) (path : PyStr) : Decidable (dir.isFile path) :=
  inferInstanceAs (Decidable (_ = _))

/-- `path.read_bytes()`. -/
def BuildDir.readBytes (dir : BuildDir) (path : PyStr) : Except ToolError (List UInt8) :=
  match dir path with
  | none => .error .osError
  | some data => .ok data

/-- `path.read_text(encoding="utf-8")`. -/
def BuildDir.readText (dir : BuildDir) (path : PyStr) : Except ToolError PyStr := do
  let data ← dir.readBytes path
  match Python.decodeUtf8 data with
  | none => .error .unicodeDecodeError
  | some text => .ok (Python.universalNewlines text)

/-- `_read_json`. -/
def readJson (json : Json) (dir : BuildDir) (path : PyStr) :
    Except ToolError (List (PyStr × PyValue)) := do
  let text ← match dir.readText path with
    | .error .osError => .error (.valueError "cannot read \x7b\x7d: \x7b\x7d")
    | other => other
  match json.loads text with
  | none => .error (.valueError "cannot read \x7b\x7d: \x7b\x7d")
  | some (.dict entries) => .ok entries
  | some _ => .error (.valueError "\x7b\x7d must contain a JSON object")

/-- A `dict` from offsets to names, in the order of insertion. -/
abbrev FlashFiles : Type := List (ℤ × PyStr)

/-- The loop of `_flash_files`. -/
def flashFilesFrom : FlashFiles → List (PyStr × PyValue) → Except ToolError FlashFiles
  | result, [] => .ok result
  | result, (rawOffset, .str rawName) :: rest =>
    match Python.int0 rawOffset with
    | none => .error (.valueError "invalid flash offset \x7b!r\x7d")
    | some offset =>
      if offset ∈ result.map Prod.fst then .error
        (.valueError "duplicate flash offset 0x\x7b:x\x7d")
      else flashFilesFrom (result ++ [(offset, rawName)]) rest
  | _, _ :: _ => .error (.valueError "flasher_args.json has invalid flash_files values")

/-- `_flash_files`. -/
def flashFiles (metadata : List (PyStr × PyValue)) : Except ToolError FlashFiles :=
  match PyValue.get (py "flash_files") metadata with
  | some (.dict raw) => flashFilesFrom [] raw
  | _ => .error (.valueError "flasher_args.json has no flash_files object")

/-- `merged[offset : offset + length]`, with Python's reading of a negative place. -/
def pySlice (data : List UInt8) (start stop : ℤ) : List UInt8 :=
  let place (n : ℤ) : ℕ := (if n < 0 then n + data.length else n).toNat
  byteSlice data (place start) (place stop)

/-- The loop of `verify_merged`. -/
def mergedMatches (merged : List UInt8) (dir : BuildDir) : FlashFiles → Except ToolError Unit
  | [] => .ok ()
  | (offset, relativeName) :: rest => do
    let image ← dir.readBytes relativeName
    require (pySlice merged offset (offset + image.length) = image)
      "\x7b\x7d differs at merged offset 0x\x7b:x\x7d"
    mergedMatches merged dir rest

/-- `verify_merged`. -/
def verifyMerged (merged : List UInt8) (dir : BuildDir) (files : FlashFiles) (spec : BoardSpec) :
    Except ToolError Unit := do
  require (merged.length ≤ spec.flashSize) "merged image exceeds \x7b\x7d flash"
  require (spec.isProtected = true → merged.length ≤ CARDID_OFFSET)
    "merged image reaches protected cardid; even 0xff bytes could erase it"
  mergedMatches merged dir files

/-- What `flash_plan` says of a build. -/
structure FlashPlan where
  spec : BoardSpec
  segments : FlashFiles
deriving DecidableEq

/-- `flash_plan`. -/
def flashPlan (spec : BoardSpec) (files : FlashFiles) : FlashPlan :=
  { spec := spec, segments := files.insertionSort fun a b ↦ a.1 ≤ b.1 }

def protectedRegion (name offset size : String) : PyValue :=
  .dict [(py "name", .str (py name)), (py "offset", .str (py offset)), (py "size", .str (py size)),
    (py "policy", .str (py "must-not-write"))]

/-- The `dict` that `flash_plan` returns. -/
def FlashPlan.toPy (plan : FlashPlan) : PyValue :=
  .dict [(py "schemaVersion", .int 1), (py "board", .str plan.spec.name),
    (py "chip", .str plan.spec.chip), (py "flashSize", .str plan.spec.flashSizeText),
    (py "warning",
      .str (py "Never use erase-flash. Verify the exact board and port before writing.")),
    (py "writeFlashArgs",
      .list [.str (py "--flash_mode"), .str (py "dio"), .str (py "--flash_freq"), .str (py "80m"),
        .str (py "--flash_size"), .str plan.spec.flashSizeText]),
    (py "segments",
      .list (plan.segments.map fun (offset, name) ↦
        .dict [(py "offset", .str (py "0x" ++ Python.hex offset)), (py "file", .str name)])),
    (py "protectedRegions",
      .list (if plan.spec.isProtected then
        [protectedRegion "cardid" "0x356000" "0x4000",
          protectedRegion "permanent-recovery" "0x700000" "0x100000"]
      else []))]

/-- `verify_flash_plan`. -/
def verifyFlashPlan (json : Json) (dir : BuildDir) (path : PyStr) (expected : FlashPlan) :
    Except ToolError Unit := do
  let actual ← readJson json dir path
  require (PyValue.eq (.dict actual) expected.toPy = true)
    "\x7b\x7d does not match the verified firmware layout"

/-- `line.split("=", 1)` of a line with `=` in it. -/
def splitAtEquals (line : PyStr) : PyStr × PyStr :=
  (line.takeWhile fun c ↦ decide (c.val ≠ 0x3D),
    (line.dropWhile fun c ↦ decide (c.val ≠ 0x3D)).tail)

/-- `values` of `verify_sdkconfig`, the latest first. -/
def sdkconfigValues (lines : List PyStr) : List (PyStr × PyStr) :=
  ((lines.filter fun line ↦ (py "CONFIG_").isPrefixOf line &&
    line.any fun c ↦ decide (c.val = 0x3D)).map splitAtEquals).reverse

/-- `verify_sdkconfig`. -/
def verifySdkconfig (dir : BuildDir) (path : PyStr) (spec : BoardSpec) : Except ToolError Unit := do
  let text ← dir.readText path
  let values := sdkconfigValues (Python.splitlines text)
  let quoted (text : PyStr) : PyStr := py "\"" ++ text ++ py "\""
  require (values.lookup (py "CONFIG_IDF_TARGET") = some (quoted spec.chip))
    "sdkconfig must set \x7b\x7d=\x7b\x7d"
  require (values.lookup (py "CONFIG_ESPTOOLPY_FLASHSIZE") = some (quoted spec.flashSizeText))
    "sdkconfig must set \x7b\x7d=\x7b\x7d"
  require (values.lookup (py "CONFIG_APP_REPRODUCIBLE_BUILD") = some (py "y"))
    "sdkconfig must set \x7b\x7d=\x7b\x7d"
  require (values.lookup (py "CONFIG_BT_ENABLED") = none) "sdkconfig must keep Bluetooth disabled"
  if spec.name = py "ZECTRIX NOTE4 BLACK-WHITE" then
    require (values.lookup (py "CONFIG_SPIRAM") = some (py "y") ∧
        values.lookup (py "CONFIG_SPIRAM_MODE_OCT") = some (py "y"))
      "NOTE4 sdkconfig must enable octal PSRAM"
  else
    require (values.lookup (py "CONFIG_SPIRAM") = none) "Passport sdkconfig must not enable PSRAM"

/-! ### The whole check -/

/-- A check of a file that need not be there. -/
def ifIsFile (dir : BuildDir) (path : PyStr) (check : Except ToolError Unit) :
    Except ToolError Unit :=
  if dir.isFile path then check else .ok ()

/-- `value.get(key) == text`, for a value that must be a `dict`. -/
def dictHas (value : Option PyValue) (key text : PyStr) : Bool :=
  match value with
  | some (.dict entries) => (PyValue.get key entries).any fun found ↦ PyValue.eq found (.str text)
  | _ => false

/-- `expected` of `verify_build`. -/
def expectedFiles (spec : BoardSpec) : FlashFiles :=
  [(0, py "bootloader/bootloader.bin"),
    (PARTITION_TABLE_OFFSET, py "partition_table/partition-table.bin"),
    (FACTORY_OFFSET, spec.appName)]

/-- The segment map of `verify_build`. -/
def buildFiles (json : Json) (dir : BuildDir) (spec : BoardSpec) : Except ToolError FlashFiles := do
  let metadata ← readJson json dir (py "flasher_args.json")
  require (dictHas (PyValue.get (py "flash_settings") metadata) (py "flash_size")
    spec.flashSizeText = true) "flasher_args.json selects the wrong flash size"
  require (dictHas (PyValue.get (py "extra_esptool_args") metadata) (py "chip") spec.chip = true)
    "flasher_args.json selects the wrong chip"
  let files ← flashFiles metadata
  require (files.length = (expectedFiles spec).length ∧ ∀ file ∈ expectedFiles spec, file ∈ files)
    "unexpected flash segment map: \x7b\x7d"
  require (∀ file ∈ files, dir.isFile file.2) "missing build image \x7b\x7d"
  return files

/-- What `verify_build` asks of the partition table. -/
def verifyTable (dir : BuildDir) (spec : BoardSpec) : Except ToolError Unit := do
  let rawTable ← dir.readBytes (py "partition_table/partition-table.bin")
  let (partitions, foundMd5) ← parsePartitionTable rawTable
  verifyPartitionContract partitions foundMd5 spec

/-- What `verify_build` asks of the application. -/
def verifyApp (dir : BuildDir) (spec : BoardSpec) : Except ToolError Unit := do
  let app ← dir.readBytes spec.appName
  require (app.length ≤ FACTORY_SIZE) "application is \x7b\x7d bytes; factory limit is \x7b\x7d"
  require (app.take 1 = [0xE9]) "application image has no ESP image magic"

/-- What `verify_build` asks of the bootloader. -/
def verifyBootloader (dir : BuildDir) (spec : BoardSpec) : Except ToolError Unit := do
  let bootloader ← dir.readBytes (py "bootloader/bootloader.bin")
  require (bootloader.take 1 = [0xE9]) "bootloader has no ESP image magic"
  require (spec.isProtected = true → RECOVERY_BOOT_MARKER <:+: bootloader)
    "bootloader is missing the five-second UP Recovery hook"

/-- What `verify_build` asks of the merged image. -/
def verifyMergedFile (dir : BuildDir) (files : FlashFiles) (spec : BoardSpec)
    (requireMerged : Bool) : Except ToolError Unit :=
  match dir spec.mergedName with
  | none => require (requireMerged = false) "missing merged image \x7b\x7d"
  | some merged => verifyMerged merged dir files spec

/-- `plan_path.write_text`. -/
def writePlan (json : Json) (dir : BuildDir) (plan : FlashPlan) :
    Option PyStr → Except ToolError BuildDir
  | none => .ok dir
  | some path =>
    match Python.encodeUtf8 (json.dumps plan.toPy ++ py "\n") with
    | none => .error .unicodeEncodeError
    | some data => .ok (Function.update dir path (some data))

/-- `verify_build`, with the plan it comes to. -/
def verifyBuild (json : Json) (board : FirmwareBoard) (dir : BuildDir) (requireMerged : Bool)
    (planPath : Option PyStr) : Except ToolError FlashPlan := do
  let spec := SPECS board
  ifIsFile dir (py "sdkconfig") (verifySdkconfig dir (py "sdkconfig") spec)
  let files ← buildFiles json dir spec
  verifyTable dir spec
  verifyApp dir spec
  verifyBootloader dir spec
  verifyMergedFile dir files spec requireMerged
  let dir ← writePlan json dir (flashPlan spec files) planPath
  ifIsFile dir (py "flash-plan.json")
    (verifyFlashPlan json dir (py "flash-plan.json") (flashPlan spec files))
  return flashPlan spec files

end VibeUsage
