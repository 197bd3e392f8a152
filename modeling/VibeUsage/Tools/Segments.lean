import VibeUsage.Tools.Firmware

/-!
# Where a plan writes

A segment of a plan takes the bytes of the flash from its offset on, as many as its file has. For a
build that is accepted these are kept apart from each other and from the two reserved regions
exactly when the bootloader and the partition table, too, fit the place before what follows them
(`planSafe_iff_of_verified`).

`exists_of_verifyApp` is the check that there is, `verifyBuild_ok` what an accepted build is known
to be. The condition in `planSafe_iff_of_verified` is about the sizes of the two files only,
whatever they contain.
-/

namespace VibeUsage

open Python (PyStr PyValue Json py)

/-- The bytes of the flash that a segment takes. -/
def segmentRange (dir : BuildDir) (segment : ℤ × PyStr) : Set ℤ :=
  Set.Ico segment.1 (segment.1 + ((dir segment.2).getD []).length)

def cardidRegion : Set ℤ := Set.Ico (CARDID_OFFSET : ℤ) (CARDID_OFFSET + CARDID_SIZE)

def recoveryRegion : Set ℤ := Set.Ico (RECOVERY_OFFSET : ℤ) (RECOVERY_OFFSET + RECOVERY_SIZE)

/-- No segment meets a reserved region or another segment. -/
def PlanSafe (dir : BuildDir) (segments : FlashFiles) : Prop :=
  (∀ segment ∈ segments, Disjoint (segmentRange dir segment) cardidRegion ∧
    Disjoint (segmentRange dir segment) recoveryRegion) ∧
  segments.Pairwise fun a b ↦ Disjoint (segmentRange dir a) (segmentRange dir b)

/-- The order of the segments does not matter. -/
theorem planSafe_of_perm {dir : BuildDir} {a b : FlashFiles} (h : a.Perm b) :
    PlanSafe dir a ↔ PlanSafe dir b := by
  have hpairs : (a.Pairwise fun a b ↦ Disjoint (segmentRange dir a) (segmentRange dir b)) ↔
      b.Pairwise fun a b ↦ Disjoint (segmentRange dir a) (segmentRange dir b) :=
    h.pairwise_iff fun hab ↦ hab.symm
  unfold PlanSafe
  rw [hpairs]
  simp only [h.mem_iff]

/-! ### What a successful check says -/

/-- A requirement that holds. -/
theorem require_eq_ok {condition : Prop} [Decidable condition] {format : String} {u : Unit} :
    require condition format = .ok u ↔ condition := by
  unfold require
  split <;> simp_all

/-- Both parts have succeeded. -/
theorem except_bind_eq_ok {ε α β : Type} {x : Except ε α} {f : α → Except ε β} {b : β} :
    (x >>= f) = .ok b ↔ ∃ a, x = .ok a ∧ f a = .ok b := by
  cases x with
  | error e =>
    constructor
    · intro h
      cases h
    · rintro ⟨a, h, -⟩
      cases h
  | ok a =>
    constructor
    · exact fun h ↦ ⟨a, rfl, h⟩
    · rintro ⟨a', h, h'⟩
      cases h
      exact h'

/-- A file that is read is there. -/
theorem readBytes_eq_ok {dir : BuildDir} {path : PyStr} {data : List UInt8} :
    dir.readBytes path = .ok data ↔ dir path = some data := by
  unfold BuildDir.readBytes
  split <;> simp_all

/-- The segment map is the expected one, in some order. -/
theorem perm_of_buildFiles {json : Json} {dir : BuildDir} {spec : BoardSpec} {files : FlashFiles}
    (h : buildFiles json dir spec = .ok files) : files.Perm (expectedFiles spec) := by
  unfold buildFiles at h
  simp only [except_bind_eq_ok, require_eq_ok] at h
  obtain ⟨_, -, _, -, _, -, found, -, _, ⟨hlength, hmem⟩, _, -, hfiles⟩ := h
  obtain rfl : found = files := by cases hfiles; rfl
  have hnodup : (expectedFiles spec).Nodup := by
    unfold expectedFiles
    simp [PARTITION_TABLE_OFFSET, FACTORY_OFFSET]
  have hsub : (expectedFiles spec).Subperm found := hnodup.subperm hmem
  exact (hsub.perm_of_length_le hlength.le).symm

/-- The partition table has been parsed. -/
theorem exists_of_verifyTable {dir : BuildDir} {spec : BoardSpec} {u : Unit}
    (h : verifyTable dir spec = .ok u) :
    ∃ table, dir (py "partition_table/partition-table.bin") = some table ∧ 0 < table.length := by
  unfold verifyTable at h
  simp only [except_bind_eq_ok, readBytes_eq_ok] at h
  obtain ⟨table, htable, _, hparse, -⟩ := h
  refine ⟨table, htable, ?_⟩
  unfold parsePartitionTable at hparse
  split at hparse
  · cases hparse
  · rename_i hlength
    exact lt_of_lt_of_le (by decide) (not_lt.1 hlength)

/-- A first byte is there. -/
theorem pos_of_take_one {data : List UInt8} {b : UInt8} (h : data.take 1 = [b]) :
    0 < data.length := by
  cases data with
  | nil => cases h
  | cons c data => exact Nat.succ_pos _

/-- **The application** fits its partition. -/
theorem exists_of_verifyApp {dir : BuildDir} {spec : BoardSpec} {u : Unit}
    (h : verifyApp dir spec = .ok u) :
    ∃ app, dir spec.appName = some app ∧ 0 < app.length ∧ app.length ≤ FACTORY_SIZE := by
  unfold verifyApp at h
  simp only [except_bind_eq_ok, readBytes_eq_ok, require_eq_ok] at h
  obtain ⟨app, happ, _, hlength, hmagic⟩ := h
  exact ⟨app, happ, pos_of_take_one hmagic, hlength⟩

/-- The bootloader begins with its magic byte. -/
theorem exists_of_verifyBootloader {dir : BuildDir} {spec : BoardSpec} {u : Unit}
    (h : verifyBootloader dir spec = .ok u) :
    ∃ bootloader, dir (py "bootloader/bootloader.bin") = some bootloader ∧
      0 < bootloader.length := by
  unfold verifyBootloader at h
  simp only [except_bind_eq_ok, readBytes_eq_ok, require_eq_ok] at h
  obtain ⟨bootloader, hboot, _, hmagic, -⟩ := h
  exact ⟨bootloader, hboot, pos_of_take_one hmagic⟩

/-- **What an accepted build is known to be.** -/
theorem verifyBuild_ok {json : Json} {board : FirmwareBoard} {dir : BuildDir} {requireMerged : Bool}
    {planPath : Option PyStr} {plan : FlashPlan}
    (h : verifyBuild json board dir requireMerged planPath = .ok plan) :
    plan.segments.Perm (expectedFiles (SPECS board)) ∧
    ∃ bootloader table app, dir (py "bootloader/bootloader.bin") = some bootloader ∧
      dir (py "partition_table/partition-table.bin") = some table ∧
      dir (SPECS board).appName = some app ∧ 0 < bootloader.length ∧ 0 < table.length ∧
      0 < app.length ∧ app.length ≤ FACTORY_SIZE := by
  unfold verifyBuild at h
  simp only [except_bind_eq_ok] at h
  obtain ⟨_, -, files, hfiles, _, htable, _, happ, _, hboot, _, -, dir', -, _, -, hplan⟩ := h
  obtain rfl : flashPlan (SPECS board) files = plan := by
    cases hplan
    rfl
  obtain ⟨table, htable, htable'⟩ := exists_of_verifyTable htable
  obtain ⟨app, happ, happ', hsize⟩ := exists_of_verifyApp happ
  obtain ⟨bootloader, hboot, hboot'⟩ := exists_of_verifyBootloader hboot
  exact ⟨(List.perm_insertionSort _ _).trans (perm_of_buildFiles hfiles), bootloader, table, app,
    hboot,
    htable, happ, hboot', htable', happ', hsize⟩

/-! ### Safety -/

/-- **What an accepted plan needs.** For a build that `verify_build` accepts for the passport board,
with or without a merged image, the segments of the plan stay clear of the reserved regions and of
each other exactly when the bootloader ends before the partition table and the file of the partition
table before the application. -/
theorem planSafe_iff_of_verified {json : Json} {dir : BuildDir} {requireMerged : Bool}
    {planPath : Option PyStr} {plan : FlashPlan}
    (h : verifyBuild json .passport dir requireMerged planPath = .ok plan) :
    PlanSafe dir plan.segments ↔
      ((dir (py "bootloader/bootloader.bin")).getD []).length ≤ PARTITION_TABLE_OFFSET ∧
      ((dir (py "partition_table/partition-table.bin")).getD []).length ≤
        FACTORY_OFFSET - PARTITION_TABLE_OFFSET := by
  obtain ⟨hperm, bootloader, table, app, hboot, htable, happ, hboot', htable', happ', hsize⟩ :=
    verifyBuild_ok h
  rw [planSafe_of_perm hperm]
  unfold PlanSafe expectedFiles segmentRange cardidRegion recoveryRegion
  simp only [List.mem_cons, List.not_mem_nil, or_false, forall_eq_or_imp, forall_eq,
    List.pairwise_cons, hboot, htable, happ, Option.getD_some, Set.Ico_disjoint_Ico,
    List.Pairwise.nil, and_true, IsEmpty.forall_iff, implies_true]
  unfold PARTITION_TABLE_OFFSET FACTORY_OFFSET CARDID_OFFSET CARDID_SIZE RECOVERY_OFFSET
    RECOVERY_SIZE at *
  unfold FACTORY_SIZE at hsize
  omega

/-! ### A build that is accepted -/

def toLittle (n count : ℕ) : List UInt8 :=
  (List.range count).map fun k ↦ UInt8.ofNat (n / 256 ^ k)

/-- An entry of a partition table. -/
def sampleEntry (kind subtype offset size : ℕ) (label : String) : List UInt8 :=
  let name := (py label).map fun c ↦ UInt8.ofNat c.val
  toLittle 0x50AA 2 ++ toLittle kind 1 ++ toLittle subtype 1 ++ toLittle offset 4 ++
    toLittle size 4 ++ name ++ List.replicate (20 - name.length) 0

def sampleEntries : List UInt8 :=
  sampleEntry 1 2 0x9000 0x6000 "nvs" ++ sampleEntry 1 1 0xF000 0x1000 "phy_init" ++
    sampleEntry 0 0 0x10000 0x300000 "factory" ++ sampleEntry 1 0x40 0x310000 0x20000 "voicebuf" ++
    sampleEntry 1 2 0x356000 0x4000 "cardid" ++ sampleEntry 0 0x20 0x700000 0x100000 "recovery"

/-- The partition table that the contract asks for. -/
def sampleTable : List UInt8 :=
  sampleEntries ++ [0xEB, 0xEB] ++ List.replicate 14 0xFF ++ Md5.digest sampleEntries ++
    List.replicate (PARTITION_TABLE_SIZE - sampleEntries.length - 32) 0xFF

def sampleMetadata : PyValue :=
  .dict [(py "flash_files", .dict [(py "0x0", .str (py "bootloader/bootloader.bin")),
      (py "0x8000", .str (py "partition_table/partition-table.bin")),
      (py "0x10000", .str (py "vibe_usage_ai_passport.bin"))]),
    (py "flash_settings", .dict [(py "flash_size", .str (py "8MB"))]),
    (py "extra_esptool_args", .dict [(py "chip", .str (py "esp32c3"))])]

/-- `flasher_args.json`. -/
def sampleText : PyStr :=
  py "\x7b\"flash_files\": \x7b" ++ py "\"0x0\": " ++ py "\"bootloader/bootloader.bin\", " ++
    py "\"0x8000\": " ++ py "\"partition_table/partition-table.bin\", " ++ py "\"0x10000\": " ++
    py "\"vibe_usage_ai_passport.bin\"\x7d, " ++ py "\"flash_settings\": \x7b\"flash_size\": " ++
    py "\"8MB\"\x7d, " ++ py "\"extra_esptool_args\": " ++ py "\x7b\"chip\": \"esp32c3\"\x7d\x7d"

/-- `json` as far as this build needs it. -/
def sampleJson : Json where
  loads text := if text = sampleText then some sampleMetadata else none
  dumps _ := []

/-- A build with `zeros` zero bytes at the end of the bootloader. -/
def sampleDir (zeros : ℕ) : BuildDir := fun path ↦
  if path = py "flasher_args.json" then Python.encodeUtf8 sampleText
  else if path = py "bootloader/bootloader.bin" then
    some (0xE9 :: RECOVERY_BOOT_MARKER ++ List.replicate zeros 0)
  else if path = py "partition_table/partition-table.bin" then some sampleTable
  else if path = py "vibe_usage_ai_passport.bin" then some [0xE9]
  else none

def samplePlan : FlashPlan :=
  { spec := SPECS .passport, segments := expectedFiles (SPECS .passport) }

/-- The bootloader of the sample. -/
theorem length_bootloader (zeros : ℕ) :
    ((sampleDir zeros (py "bootloader/bootloader.bin")).getD []).length = 36 + zeros := by
  have hne : py "bootloader/bootloader.bin" ≠ py "flasher_args.json" := by decide +kernel
  have hmarker : RECOVERY_BOOT_MARKER.length = 35 := by decide +kernel
  unfold sampleDir
  rw [if_neg hne, if_pos rfl, Option.getD_some, List.length_append, List.length_cons,
    List.length_replicate, hmarker]

/-- A bootloader of 36 bytes is safe. -/
theorem planSafe_iff_of_verified_sample :
    PlanSafe (sampleDir 0) samplePlan.segments ↔
      ((sampleDir 0 (py "bootloader/bootloader.bin")).getD []).length ≤ PARTITION_TABLE_OFFSET ∧
      ((sampleDir 0 (py "partition_table/partition-table.bin")).getD []).length ≤
        FACTORY_OFFSET - PARTITION_TABLE_OFFSET :=
  planSafe_iff_of_verified
    (show verifyBuild sampleJson .passport (sampleDir 0) false none = .ok samplePlan by
      decide +kernel)

/-- A bootloader that reaches into the card's identity is accepted. -/
theorem verified_plan_not_safe :
    verifyBuild sampleJson .passport (sampleDir CARDID_OFFSET) false none = .ok samplePlan ∧
      ¬ PlanSafe (sampleDir CARDID_OFFSET) samplePlan.segments ∧
      ¬ Disjoint (segmentRange (sampleDir CARDID_OFFSET) (0, py "bootloader/bootloader.bin"))
        cardidRegion := by
  have hmeet : ¬ Disjoint
      (segmentRange (sampleDir CARDID_OFFSET) (0, py "bootloader/bootloader.bin"))
      cardidRegion := by
    unfold segmentRange cardidRegion
    rw [length_bootloader, Set.Ico_disjoint_Ico]
    decide
  refine ⟨by decide +kernel, fun hsafe ↦ hmeet (hsafe.1 _ ?_).1, hmeet⟩
  exact List.mem_cons_self

end VibeUsage
