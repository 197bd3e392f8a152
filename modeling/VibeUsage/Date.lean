import Mathlib
import VibeUsage.Usage

/-!
# Calendar days, epochs and ISO 8601 texts

`vibe_date.c`. A date key is the `int32_t` whose decimal digits are `YYYYMMDD`; an epoch is an
`int64_t` count of seconds. Intermediate `int` and `int64_t` values are integers, and every
conversion to a narrower type is written out: `u32` is the cast to `unsigned`, `i32` the cast to
`int`. No other arithmetic of the file can leave its type.

The functions are in the order of the source: the two conversions between days and dates, keys, the
scanner of ISO 8601, and the bounds of a day. What they compute is the subject of `Calendar`,
`Gregorian`, `Iso8601` and `Bounds`.
-/

namespace VibeUsage

/-- The conversion to `unsigned`. -/
def u32 (x : ℤ) : ℤ := x % 2 ^ 32

/-- The conversion to `int`. -/
def i32 (x : ℤ) : ℤ := x.bmod (2 ^ 32)

def isLeap (year : ℤ) : Bool :=
  decide ((year % 4 = 0 ∧ year % 100 ≠ 0) ∨ year % 400 = 0)

def daysInMonth (year month : ℤ) : ℤ :=
  if month = 2 ∧ isLeap year then 29
  else if 1 ≤ month ∧ month ≤ 12 then
    [31, 28, 31, 30, 31, 30, 31, 31, 30, 31, 30, 31].getD (month - 1).toNat 0
  else 0

/-- Year, month and day of a key, when they name a day of the years 1 to 9999. -/
def splitDate (key : ℤ) : Option (ℤ × ℤ × ℤ) :=
  if key ≤ 0 then none
  else
    let year := key / 10000
    let month := (key / 100) % 100
    let day := key % 100
    if 1 ≤ year ∧ year ≤ 9999 ∧ 1 ≤ month ∧ month ≤ 12 ∧ 1 ≤ day ∧ day ≤ daysInMonth year month
    then some (year, month, day)
    else none

/-- Days since 1970-01-01. `month` and `day` are unsigned, so `month - 3` is reduced before the
division, as in the source. -/
def daysFromCivil (year month day : ℤ) : ℤ :=
  let year := if month ≤ 2 then year - 1 else year
  let era := (if year ≥ 0 then year else year - 399).tdiv 400
  let yearOfEra := u32 (year - era * 400)
  let dayOfYear := u32 (u32 (153 * (month + if month > 2 then -3 else 9) + 2) / 5 + day - 1)
  let dayOfEra := u32 (yearOfEra * 365 + yearOfEra / 4 - yearOfEra / 100 + dayOfYear)
  era * 146097 + dayOfEra - 719468

/-- Year, month and day of a day number. The year is assembled in `int`. -/
def civilFromDays (days : ℤ) : ℤ × ℤ × ℤ :=
  let days := days + 719468
  let era := (if days ≥ 0 then days else days - 146096).tdiv 146097
  let dayOfEra := u32 (days - era * 146097)
  let yearOfEra :=
    u32 (dayOfEra - dayOfEra / 1460 + dayOfEra / 36524 - dayOfEra / 146096) / 365
  let year := i32 (i32 yearOfEra + i32 (era * 400))
  let dayOfYear := u32 (dayOfEra - (365 * yearOfEra + yearOfEra / 4 - yearOfEra / 100))
  let monthPrime := u32 (5 * dayOfYear + 2) / 153
  let day := u32 (dayOfYear - u32 (153 * monthPrime + 2) / 5 + 1)
  let month := u32 (monthPrime + if monthPrime < 10 then 3 else -9)
  (if month ≤ 2 then i32 (year + 1) else year, month, day)

def floorDiv (value divisor : ℤ) : ℤ :=
  let quotient := value.tdiv divisor
  let remainder := value.tmod divisor
  if remainder < 0 then quotient - 1 else quotient

/-- A run of exactly `count` decimal digits from `offset`, continuing the value `result`. -/
def parseDigits (text : CString) (offset : ℕ) : (count : ℕ) → (result : ℤ) → Option ℤ
  | 0, result => some result
  | count + 1, result =>
    let c := text.byteAt offset
    if c < 0x30 ∨ c > 0x39 then none
    else parseDigits text (offset + 1) count (result * 10 + (c.toNat - 0x30 : ℕ))

def vibeDateIsValid (dateKey : Int32) : Bool :=
  (splitDate dateKey.toInt).isSome

def vibeDateAddDays (dateKey deltaDays : Int32) : Except VibeError Int32 :=
  match splitDate dateKey.toInt with
  | none => .error .invalidArgument
  | some (year, month, day) =>
    let serial := daysFromCivil year month day + deltaDays.toInt
    let (year, month, day) := civilFromDays serial
    if year < 1 ∨ year > 9999 then .error .outOfRange
    else .ok (Int32.ofInt (year * 10000 + month * 100 + day))

def vibeDateFromEpoch (epochSeconds : Int64) (timezone : Timezone) : Except VibeError Int32 :=
  if ¬ timezone.Supported then .error .invalidArgument
  else
    let offset : ℤ := if timezone = .asiaShanghai then 8 * 3600 else 0
    if epochSeconds.toInt > 2 ^ 63 - 1 - offset then .error .overflow
    else
      let localSeconds := epochSeconds.toInt + offset
      let serial := floorDiv localSeconds 86400
      let (year, month, day) := civilFromDays serial
      if year < 1 ∨ year > 9999 then .error .outOfRange
      else .ok (Int32.ofInt (year * 10000 + month * 100 + day))

/-- The cursor after the optional fraction of a second, which starts at index 19. -/
def skipFraction (text : CString) : Option ℕ :=
  if text.byteAt 19 = 0x2E then
    let digits := (text.bytes.drop 20).takeWhile fun c ↦ 0x30 ≤ c ∧ c ≤ 0x39
    if digits = [] then none else some (20 + digits.length)
  else some 19

/-- The offset from UTC in seconds that ends the text at `cursor`, if a zone designator does. -/
def parseOffset (text : CString) (cursor : ℕ) : Option ℤ :=
  let c := text.byteAt cursor
  if c = 0x5A ∨ c = 0x7A then
    if cursor + 1 = text.bytes.length then some 0 else none
  else if cursor + 6 = text.bytes.length ∧ (c = 0x2B ∨ c = 0x2D) ∧
      text.byteAt (cursor + 3) = 0x3A then do
    let hour ← parseDigits text (cursor + 1) 2 0
    let minute ← parseDigits text (cursor + 4) 2 0
    if hour > 23 ∨ minute > 59 then none
    else
      let offset := hour * 3600 + minute * 60
      return if c = 0x2D then -offset else offset
  else none

/-- The calendar and clock fields of the text's first nineteen bytes. -/
structure IsoFields where
  year : ℤ
  month : ℤ
  day : ℤ
  hour : ℤ
  minute : ℤ
  second : ℤ

/-- `YYYY-MM-DDTHH:MM:SS` with every field in range. -/
def parseIsoFields (text : CString) : Option IsoFields := do
  let length := text.bytes.length
  let separator := text.byteAt 10
  if length < 20 ∨ length > 64 ∨ text.byteAt 4 ≠ 0x2D ∨ text.byteAt 7 ≠ 0x2D ∨
      (separator ≠ 0x54 ∧ separator ≠ 0x74 ∧ separator ≠ 0x20) ∨
      text.byteAt 13 ≠ 0x3A ∨ text.byteAt 16 ≠ 0x3A then none
  else
    let year ← parseDigits text 0 4 0
    let month ← parseDigits text 5 2 0
    let day ← parseDigits text 8 2 0
    let hour ← parseDigits text 11 2 0
    let minute ← parseDigits text 14 2 0
    let second ← parseDigits text 17 2 0
    if year < 1 ∨ year > 9999 ∨ month < 1 ∨ month > 12 ∨ day < 1 ∨
        day > daysInMonth year month ∨ hour > 23 ∨ minute > 59 ∨ second > 60 then none
    else some ⟨year, month, day, hour, minute, second⟩

def vibeIso8601ToEpoch (text : CString) : Except VibeError Int64 :=
  match (do
    let fields ← parseIsoFields text
    let cursor ← skipFraction text
    let offset ← parseOffset text cursor
    return (fields, offset)) with
  | none => .error .schema
  | some (fields, offset) =>
    let serial := daysFromCivil fields.year fields.month fields.day
    let seconds := serial * 86400 + fields.hour * 3600 + fields.minute * 60 +
      if fields.second = 60 then 59 else fields.second
    .ok (Int64.ofInt (seconds - offset))

def vibeIso8601ToDate (text : CString) (timezone : Timezone) : Except VibeError Int32 := do
  let epoch ← vibeIso8601ToEpoch text
  vibeDateFromEpoch epoch timezone

/-- The ASCII digit of a value below ten. -/
def digitChar (n : ℤ) : UInt8 := UInt8.ofNat (0x30 + n.toNat)

def vibeDateFormatIso (dateKey : Int32) : Except VibeError (List UInt8) :=
  match splitDate dateKey.toInt with
  | none => .error .invalidArgument
  | some (year, month, day) =>
    .ok [digitChar (year / 1000), digitChar (year / 100 % 10), digitChar (year / 10 % 10),
      digitChar (year % 10), 0x2D, digitChar (month / 10), digitChar (month % 10), 0x2D,
      digitChar (day / 10), digitChar (day % 10)]

/-- The UTC instants that bound a local day, both inclusive. -/
def vibeDateApiBounds (dateKey : Int32) (timezone : Timezone) :
    Except VibeError (List UInt8 × List UInt8) := do
  if ¬ vibeDateIsValid dateKey ∨ ¬ timezone.Supported then throw .invalidArgument
  let startKey ← if timezone = .asiaShanghai then vibeDateAddDays dateKey (-1) else pure dateKey
  let startDate ← vibeDateFormatIso startKey
  let endDate ← vibeDateFormatIso dateKey
  let startHour := if timezone = .asiaShanghai then ['1', '6'] else ['0', '0']
  let endHour := if timezone = .asiaShanghai then ['1', '5'] else ['2', '3']
  return (startDate ++ ascii (['T'] ++ startHour ++
      [':', '0', '0', ':', '0', '0', '.', '0', '0', '0', 'Z']),
    endDate ++ ascii (['T'] ++ endHour ++
      [':', '5', '9', ':', '5', '9', '.', '9', '9', '9', 'Z']))

end VibeUsage
