import VibeUsage.Lib.CString

/-!
# Constants and enumerations of the usage component

The values of `vibe_usage.h` that the other modules share. A `size_t` count is a natural number;
fields of fixed width keep it.

The codes of `vibe_error_t` keep their names; `VIBE_OK` is the absence of an error.
-/

namespace VibeUsage

/-- The failures of `vibe_error_t`. `VIBE_OK` is not among them: a call that can fail returns
`Except VibeError`, and a stored status is an `Option VibeError`, `none` standing for `VIBE_OK`. -/
inductive VibeError where
  | invalidArgument
  | invalidJson
  | schema
  | overflow
  | bodyTooLarge
  | tooManyBuckets
  | outOfRange
  | bufferTooSmall
  | crc
  | version
  | cancelled
  | noMemory
  | storage
  | httpStatus
  | dns
  | tls
  | network
  | timeInvalid
  deriving DecidableEq, Repr

/-- The values a `vibe_timezone_t` can hold: the two supported zones, and any other word. -/
inductive Timezone where
  | asiaShanghai
  | utc
  | other (code : UInt32)
  deriving DecidableEq, Repr

/-- The supported zones. -/
def Timezone.Supported (timezone : Timezone) : Prop :=
  timezone = .asiaShanghai ∨ timezone = .utc

instance (timezone : Timezone) : Decidable timezone.Supported :=
  inferInstanceAs (Decidable (_ ∨ _))

/-- The windows a snapshot is ranked by. -/
inductive Window where
  | today
  | sevenDays
  deriving DecidableEq, Repr

/-- The freshness of the selected window, `vibe_data_state_t`. -/
inductive DataState where
  | ready
  | empty
  | stale
  | authRequired
  | linkRequired
  deriving DecidableEq, Repr

/-- `VIBE_SCHEMA_VERSION` -/
def schemaVersion : UInt32 := 1

/-- `VIBE_CACHE_SCHEMA_VERSION` -/
def cacheSchemaVersion : UInt32 := 2

/-- `VIBE_METRIC_ID_API_TOTAL_V1` -/
def metricIdApiTotalV1 : UInt32 := 1

/-- `VIBE_MAX_AGENTS` -/
def maxAgents : ℕ := 12

/-- `VIBE_CACHE_DAYS` -/
def cacheDays : ℕ := 8

/-- `VIBE_SOURCE_SLOTS` -/
def sourceSlots : ℕ := 24

/-- `VIBE_SOURCE_ID_BYTES` -/
def sourceIdBytes : ℕ := 48

/-- `VIBE_CACHE_BLOB_MAX_BYTES` -/
def cacheBlobMaxBytes : ℕ := 4096

/-- `VIBE_OTHER_SOURCE_ID` -/
def otherSourceId : CString :=
  ⟨ascii ['_', '_', 'o', 't', 'h', 'e', 'r', '_', '_'], by decide⟩

end VibeUsage
