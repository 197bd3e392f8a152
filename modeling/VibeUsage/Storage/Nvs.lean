import VibeUsage.Lib.Program

/-!
# Non-volatile storage

The key-value store of `nvs.h` as this program uses it: the namespaces and keys, the values under
them, and the calls. Every call is one operation of a board on which an operation may fail. A
failure may leave the flash as it was, may have done its work all the same, or may leave the entry
it was writing torn; and the power may go, after which nothing happens until the next boot.

`nvs_open` in `NVS_READWRITE` mode creates the namespace, so `ESP_ERR_NVS_NOT_FOUND` says of a
namespace opened with `NVS_READONLY`, or of a key, that it is not there; a failure of the flash is
another error.
-/

namespace VibeUsage

/-- The `esp_err_t` values other than `ESP_OK`. -/
inductive EspErr
  | fail
  | noMem
  | invalidArg
  | invalidState
  | invalidSize
  | notFound
  | timeout
  | invalidResponse
  | invalidCrc
  | invalidVersion
  | nvsNotFound
  | nvsTypeMismatch
  | nvsInvalidLength
  /-- What a failed operation on the flash reports. -/
  | nvs
deriving DecidableEq, Repr

/-- `wifi`, `vibe_auth`, `vibe_cache`, `vibe_cfg`, `vibe_meta`, `vibe_todo` and `vibe_llm`. -/
inductive Namespace
  | wifi
  | vibeAuth
  | vibeCache
  | vibeCfg
  | vibeMeta
  | vibeTodo
  | vibeLlm
deriving DecidableEq, Repr

/-- `MAX_WIFI_SSID_COUNT` -/
def maxWifiSsidCount : ℕ := 10

inductive NvsKey
  /-- `auth_v1` -/
  | auth
  /-- `cache_a` -/
  | cacheA
  /-- `cache_b` -/
  | cacheB
  /-- `settings_v1` -/
  | settings
  /-- `language_v1` -/
  | language
  /-- `alert_vol_v1` -/
  | alertVol
  /-- `retry_v1` -/
  | retry
  /-- `reset_v1` -/
  | reset
  /-- `list_v1` -/
  | list
  /-- `asr_lang_v1` -/
  | asrLang
  /-- `ssid`, `ssid1`, …, `ssid9` -/
  | ssid (index : Fin maxWifiSsidCount)
  /-- `password`, `password1`, …, `password9` -/
  | password (index : Fin maxWifiSsidCount)
deriving DecidableEq, Repr

inductive NvsValue
  | blob (bytes : List UInt8)
  | u8 (value : UInt8)
  | i64 (value : Int64)
  | str (bytes : List UInt8)
  /-- What a torn write leaves: no read of it succeeds. -/
  | torn
deriving DecidableEq, Repr

/-! ### The flash -/

/-- The entries of the namespaces that exist. -/
def Flash : Type := Namespace → Option (NvsKey → Option NvsValue)

namespace Flash

variable (flash : Flash) (space space' : Namespace) (key key' : NvsKey) (value : NvsValue)

def lookup : Option NvsValue := (flash space).bind fun entries ↦ entries key

def entries : NvsKey → Option NvsValue := (flash space).getD fun _ ↦ none

/-- The namespace exists and holds these entries. -/
def withEntries (entries : NvsKey → Option NvsValue) : Flash := fun other ↦
  if other = space then some entries else flash other

/-- Make sure that the namespace exists. -/
def create : Flash := flash.withEntries space (flash.entries space)

def put : Flash := flash.withEntries space (Function.update (flash.entries space) key (some value))

def erase : Flash := flash.withEntries space (Function.update (flash.entries space) key none)

def eraseAll : Flash := flash.withEntries space fun _ ↦ none

/-- A flash without a namespace. -/
def blank : Flash := fun _ ↦ none

theorem entries_apply : flash.entries space key = flash.lookup space key := by
  unfold entries lookup
  cases flash space <;> rfl

/-- An entry of a namespace that has been replaced. -/
theorem lookup_withEntries (entries : NvsKey → Option NvsValue) :
    (flash.withEntries space entries).lookup space' key =
      if space' = space then entries key else flash.lookup space' key := by
  unfold lookup withEntries
  split
  · rfl
  · rfl

/-- A namespace that is created has no entries of its own. -/
@[simp]
theorem lookup_create : (flash.create space).lookup space' key = flash.lookup space' key := by
  rw [create, lookup_withEntries, entries_apply]
  split
  · rename_i h
    rw [h]
  · rfl

/-- What has been written is read. -/
@[simp]
theorem lookup_put : (flash.put space key value).lookup space' key' =
    if space' = space ∧ key' = key then some value else flash.lookup space' key' := by
  rw [put, lookup_withEntries, Function.update_apply, entries_apply]
  by_cases h : space' = space <;> simp [h]

/-- What has been erased is not. -/
@[simp]
theorem lookup_erase : (flash.erase space key).lookup space' key' =
    if space' = space ∧ key' = key then none else flash.lookup space' key' := by
  rw [erase, lookup_withEntries, Function.update_apply, entries_apply]
  by_cases h : space' = space <;> simp [h]

/-- A namespace that has been emptied has no entries. -/
@[simp]
theorem lookup_eraseAll : (flash.eraseAll space).lookup space' key =
    if space' = space then none else flash.lookup space' key := by
  rw [eraseAll, lookup_withEntries]

end Flash

/-! ### The board -/

/-- What happens to one operation. -/
inductive Fault
  | none
  /-- It fails and has done nothing. -/
  | fails
  /-- It fails and has done its work. -/
  | lands
  /-- It fails and what it was writing is torn. -/
  | tears
  /-- The power goes before it. -/
  | cut
deriving DecidableEq, Repr

/-- The flash, and what will happen to the operations to come. -/
structure Board where
  flash : Flash
  powered : Bool
  /-- The number of operations so far. -/
  tick : ℕ
  faults : ℕ → Fault

namespace Board

/-- The next operation leaves this flash. -/
def leaves (m : Board) (flash : Flash) : Board := { m with flash, tick := m.tick + 1 }

/-- No operation to come fails. -/
structure Works (m : Board) : Prop where
  powered : m.powered = true
  faults : ∀ k, m.tick ≤ k → m.faults k = .none

/-- An operation leaves a board that works. -/
theorem Works.leaves {m : Board} (h : m.Works) (flash : Flash) : (m.leaves flash).Works :=
  ⟨h.powered, fun k hk ↦ h.faults k (Nat.le_of_succ_le hk)⟩

@[simp] theorem leaves_flash (m : Board) (flash : Flash) : (m.leaves flash).flash = flash := rfl

@[simp]
theorem leaves_leaves (m : Board) (flash flash' : Flash) :
    (m.leaves flash).leaves flash' = { m with flash := flash', tick := m.tick + 2 } := rfl

end Board

/-- A program over the board. -/
abbrev Nvs (α : Type) : Type := Prog Board EspErr α

/-- One operation: what it does to the flash, what a torn one does, and how it reports that it
failed. -/
def operate (effect torn : Flash → Flash) (error : EspErr) : Nvs Unit := fun m ↦
  if m.powered then
    match m.faults m.tick with
    | .none => (.ok (), m.leaves (effect m.flash))
    | .fails => (.error error, m.leaves m.flash)
    | .lands => (.error error, m.leaves (effect m.flash))
    | .tears => (.error error, m.leaves (torn m.flash))
    | .cut => (.error error, { m with powered := false })
  else (.error error, m)

/-! ### The calls -/

def malloc : Nvs Unit := operate id id .noMem

/-- `nvs_open` with `NVS_READONLY`. -/
def nvsOpenReadOnly (space : Namespace) : Nvs Unit := do
  operate id id .nvs
  let m ← Prog.get
  Prog.check (m.flash space).isSome .nvsNotFound

/-- `nvs_open` with `NVS_READWRITE`. -/
def nvsOpen (space : Namespace) : Nvs Unit := operate (·.create space) id .nvs

/-- The value under a key that is there. -/
def nvsGet (space : Namespace) (key : NvsKey) : Nvs NvsValue := do
  operate id id .nvs
  let m ← Prog.get
  match m.flash.lookup space key with
  | some .torn => Prog.fail .nvs
  | some value => pure value
  | none => Prog.fail .nvsNotFound

def nvsGetBlob (space : Namespace) (key : NvsKey) : Nvs (List UInt8) := do
  match ← nvsGet space key with
  | .blob bytes => pure bytes
  | _ => Prog.fail .nvsTypeMismatch

def nvsGetU8 (space : Namespace) (key : NvsKey) : Nvs UInt8 := do
  match ← nvsGet space key with
  | .u8 value => pure value
  | _ => Prog.fail .nvsTypeMismatch

def nvsGetI64 (space : Namespace) (key : NvsKey) : Nvs Int64 := do
  match ← nvsGet space key with
  | .i64 value => pure value
  | _ => Prog.fail .nvsTypeMismatch

/-- `nvs_set_blob`, `nvs_set_u8`, `nvs_set_i64` and `nvs_set_str`. -/
def nvsSet (space : Namespace) (key : NvsKey) (value : NvsValue) : Nvs Unit :=
  operate (·.put space key value) (·.put space key .torn) .nvs

def nvsEraseKey (space : Namespace) (key : NvsKey) : Nvs Unit := do
  let m ← Prog.get
  operate (·.erase space key) id .nvs
  Prog.check (m.flash.lookup space key ≠ none) .nvsNotFound

def nvsEraseAll (space : Namespace) : Nvs Unit := operate (·.eraseAll space) id .nvs

def nvsCommit : Nvs Unit := operate id id .nvs

end VibeUsage
