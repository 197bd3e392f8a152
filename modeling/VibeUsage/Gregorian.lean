import VibeUsage.Bounds

/-!
# The Gregorian calendar

The calendar by itself: a date that exists, and the date after it. "`n` days after" is that
successor taken `n` times, and `daysAfter_iff` says that it is a difference of day numbers. Over it,
`vibe_date_add_days` and `vibe_date_from_epoch` of `vibe_date.c`: what they answer is stated in
terms of the calendar alone, and `vibeDateAddDaysChecked` repeats the arithmetic of the first with
every intermediate value checked against its C type.

* `vibeDateAddDays_exact` says what is added, when it is refused, and that no value leaves its type.
* `vibeDateFromEpoch_exact_iff` says for which instants the date is right or refused, and
  `vibeDateFromEpoch_wraps` gives one where it is neither: the year is narrowed to an `int`.
-/

namespace VibeUsage

/-- A date of the proleptic Gregorian calendar. -/
structure GregorianDate where
  year : ℤ
  month : ℤ
  day : ℤ
  isDate : IsDate year month day

namespace GregorianDate

@[ext]
theorem ext {d d' : GregorianDate} (hyear : d.year = d'.year) (hmonth : d.month = d'.month)
    (hday : d.day = d'.day) : d = d' := by
  cases d
  cases d'
  obtain rfl := hyear
  obtain rfl := hmonth
  obtain rfl := hday
  rfl

/-- A month has at least 28 days. -/
theorem daysInMonth_pos {year month : ℤ} (h : 1 ≤ month) (h' : month ≤ 12) :
    28 ≤ daysInMonth year month := by
  rw [daysInMonth_eq h h']
  split
  · split <;> omega
  · split <;> omega

/-- A month has a first day. -/
theorem isDate_first {year month : ℤ} (h : 1 ≤ month) (h' : month ≤ 12) : IsDate year month 1 := by
  have hlong : 28 ≤ daysInMonth year month := daysInMonth_pos h h'
  exact ⟨h, h', le_rfl, by omega⟩

/-- The next day: of the month, of the year or of the next year. -/
def tomorrow (d : GregorianDate) : GregorianDate :=
  if hday : d.day < daysInMonth d.year d.month then
    { d with
      day := d.day + 1
      isDate := by
        have hpos := d.isDate.day_pos
        exact ⟨d.isDate.month_pos, d.isDate.month_le, by omega, hday⟩ }
  else if hmonth : d.month < 12 then
    { year := d.year, month := d.month + 1, day := 1
      isDate := by
        have hpos := d.isDate.month_pos
        exact isDate_first (by omega) (by omega) }
  else
    { year := d.year + 1, month := 1, day := 1, isDate := isDate_first (by decide) (by decide) }

/-- `d'` is `n` days after `d`, or `-n` days before it. -/
def DaysAfter (d : GregorianDate) (n : ℤ) (d' : GregorianDate) : Prop :=
  (0 ≤ n ∧ tomorrow^[n.toNat] d = d') ∨ (n ≤ 0 ∧ tomorrow^[(-n).toNat] d' = d)

/-- 1970-01-01. -/
def unixEpoch : GregorianDate := ⟨1970, 1, 1, isDate_first (by decide) (by decide)⟩

/-- The date's day, in days since 1970-01-01. -/
def number (d : GregorianDate) : ℤ := dayNumber d.year d.month d.day

/-- The instant `seconds` after the start of 1970-01-01 is within the date. -/
def Contains (d : GregorianDate) (seconds : ℤ) : Prop :=
  ∃ n, unixEpoch.DaysAfter n d ∧ n * 86400 ≤ seconds ∧ seconds < (n + 1) * 86400

/-! ### Day numbers count days -/

/-- Days are counted from 1970. -/
theorem number_unixEpoch : unixEpoch.number = 0 := by decide

/-- Different days have different numbers. -/
theorem number_injective {d d' : GregorianDate} (h : d.number = d'.number) : d = d' := by
  obtain ⟨hyear, hmonth, hday⟩ := dayNumber_injective d.isDate d'.isDate h
  exact ext hyear hmonth hday

/-- The last day of a month, and the first of the next. -/
theorem dayNumber_next_month {year month : ℤ} (h : 1 ≤ month) (hlt : month < 12) :
    dayNumber year (month + 1) 1 = dayNumber year month (daysInMonth year month) + 1 := by
  rw [daysInMonth_eq h (by omega)]
  have hcases : month = 1 ∨ month = 2 ∨ month = 3 ∨ month = 4 ∨ month = 5 ∨ month = 6 ∨
      month = 7 ∨ month = 8 ∨ month = 9 ∨ month = 10 ∨ month = 11 := by omega
  have hleap : (if isLeap year then (29 : ℤ) else 28) =
      28 + (year / 4 - (year - 1) / 4) - (year / 100 - (year - 1) / 100) +
        (year / 400 - (year - 1) / 400) := by
    split
    · rename_i hleap
      have := isLeap_iff.1 hleap
      omega
    · rename_i hleap
      have := mt isLeap_iff.2 hleap
      omega
  unfold dayNumber
  rcases hcases with rfl | rfl | rfl | rfl | rfl | rfl | rfl | rfl | rfl | rfl | rfl <;>
    simp at hleap ⊢ <;> omega

/-- **The day after has the next number.** -/
theorem number_tomorrow (d : GregorianDate) : d.tomorrow.number = d.number + 1 := by
  unfold tomorrow number
  split
  · dsimp only
    unfold dayNumber
    dsimp only
    omega
  · rename_i hday
    have hlast : d.day = daysInMonth d.year d.month :=
      le_antisymm d.isDate.day_le (not_lt.1 hday)
    split
    · rename_i hmonth
      dsimp only
      rw [dayNumber_next_month d.isDate.month_pos hmonth, ← hlast]
    · rename_i hmonth
      have hdec : d.month = 12 := le_antisymm d.isDate.month_le (not_lt.1 hmonth)
      rw [hdec, daysInMonth_eq (by decide) (by decide)] at hlast
      dsimp only
      rw [hdec, hlast]
      unfold dayNumber
      norm_num
      omega

/-- **A day that is `n` days later** has a number that is larger by `n`. -/
theorem number_iterate (d : GregorianDate) (n : ℕ) : (tomorrow^[n] d).number = d.number + n := by
  induction n with
  | zero => simp
  | succ n ih =>
    rw [Function.iterate_succ_apply', number_tomorrow, ih]
    push_cast
    omega

/-- **Days after, by numbers.** -/
theorem daysAfter_iff {d d' : GregorianDate} {n : ℤ} :
    d.DaysAfter n d' ↔ d'.number = d.number + n := by
  constructor
  · rintro (⟨hn, rfl⟩ | ⟨hn, rfl⟩)
    · rw [number_iterate]
      omega
    · rw [number_iterate]
      omega
  · intro h
    rcases le_total 0 n with hn | hn
    · refine Or.inl ⟨hn, number_injective ?_⟩
      rw [number_iterate]
      omega
    · refine Or.inr ⟨hn, number_injective ?_⟩
      rw [number_iterate]
      omega

/-- A second is on the day whose number it has. -/
theorem contains_iff {d : GregorianDate} {seconds : ℤ} :
    d.Contains seconds ↔ d.number = seconds / 86400 := by
  unfold Contains
  simp only [daysAfter_iff, number_unixEpoch]
  constructor
  · rintro ⟨n, hn, hle, hlt⟩
    omega
  · intro h
    exact ⟨d.number, by omega, by omega, by omega⟩

/-- Every day has its date. -/
theorem exists_number (days : ℤ) : ∃ d : GregorianDate, d.number = days := by
  obtain ⟨year, month, day, -, hdate, hnumber⟩ := civilFromDays_eq days
  exact ⟨⟨year, month, day, hdate⟩, hnumber⟩

/-- The date that `civil_from_days` names, but for the year's conversion to `int`. -/
theorem civilFromDays_number (d : GregorianDate) :
    civilFromDays d.number = (i32 d.year, d.month, d.day) := by
  obtain ⟨year, month, day, hcivil, hdate, hnumber⟩ := civilFromDays_eq d.number
  obtain ⟨rfl, rfl, rfl⟩ := dayNumber_injective hdate d.isDate hnumber
  exact hcivil

/-! ### Keys -/

/-- The key that names the date. -/
def Named (d : GregorianDate) (key : Int32) : Prop :=
  key.toInt = d.year * 10000 + d.month * 100 + d.day ∧ 1 ≤ d.year ∧ d.year ≤ 9999

/-- A key names the day that it is split into. -/
theorem named_iff {d : GregorianDate} {key : Int32} :
    d.Named key ↔ splitDate key.toInt = some (d.year, d.month, d.day) := by
  rw [splitDate_eq_some]
  exact ⟨fun ⟨hkey, hy, hy'⟩ ↦ ⟨hkey, d.isDate, hy, hy'⟩, fun ⟨hkey, _, hy, hy'⟩ ↦ ⟨hkey, hy, hy'⟩⟩

/-- That day has the number of the key. -/
theorem Named.number {d : GregorianDate} {key : Int32} (h : d.Named key) :
    d.number = serial key := by
  rw [serial_eq (named_iff.1 h)]
  rfl

/-- The valid keys are those that name a date. -/
theorem vibeDateIsValid_iff_named {key : Int32} :
    vibeDateIsValid key = true ↔ ∃ d : GregorianDate, d.Named key := by
  rw [vibeDateIsValid_iff]
  constructor
  · rintro ⟨year, month, day, h⟩
    exact ⟨⟨year, month, day, (splitDate_eq_some.1 h).2.1⟩, named_iff.2 h⟩
  · rintro ⟨d, h⟩
    exact ⟨_, _, _, named_iff.1 h⟩

/-- A date of the years 1 to 9999 has a key. -/
theorem exists_named {d : GregorianDate} (hy : 1 ≤ d.year) (hy' : d.year ≤ 9999) :
    ∃ key, d.Named key :=
  ⟨_, named_iff.2 (splitDate_ofInt d.isDate hy hy')⟩

end GregorianDate

open GregorianDate

/-! ### Adding days -/

/-- **A key some days later** names the date that many days later. -/
theorem vibeDateAddDays_named {d : GregorianDate} {key delta key' : Int32} (h : d.Named key) :
    vibeDateAddDays key delta = .ok key' ↔
      ∃ d' : GregorianDate, d.DaysAfter delta.toInt d' ∧ d'.Named key' := by
  rw [vibeDateAddDays_eq_ok]
  constructor
  · rintro ⟨-, hvalid', hserial⟩
    obtain ⟨d', hd'⟩ := vibeDateIsValid_iff_named.1 hvalid'
    exact ⟨d', daysAfter_iff.2 (by rw [hd'.number, h.number, hserial]), hd'⟩
  · rintro ⟨d', hafter, hd'⟩
    rw [daysAfter_iff, hd'.number, h.number] at hafter
    exact ⟨vibeDateIsValid_iff_named.2 ⟨d, h⟩, vibeDateIsValid_iff_named.2 ⟨d', hd'⟩, hafter⟩

/-- There is a key exactly for a date of the years 1 to 9999. -/
theorem vibeDateAddDays_succeeds_iff {d : GregorianDate} {key delta : Int32} (h : d.Named key) :
    (∃ key', vibeDateAddDays key delta = .ok key') ↔
      ∃ d' : GregorianDate, d.DaysAfter delta.toInt d' ∧ 1 ≤ d'.year ∧ d'.year ≤ 9999 := by
  constructor
  · rintro ⟨key', hkey'⟩
    obtain ⟨d', hafter, hd'⟩ := (vibeDateAddDays_named h).1 hkey'
    exact ⟨d', hafter, hd'.2⟩
  · rintro ⟨d', hafter, hy, hy'⟩
    obtain ⟨key', hkey'⟩ := exists_named hy hy'
    exact ⟨key', (vibeDateAddDays_named h).2 ⟨d', hafter, hkey'⟩⟩

/-- The days between two keys are far from the limits of an `int`. -/
theorem toInt_of_addDays {key delta key' : Int32} (h : vibeDateAddDays key delta = .ok key') :
    -3652059 < delta.toInt ∧ delta.toInt < 3652059 := by
  obtain ⟨hvalid, hvalid', hserial⟩ := vibeDateAddDays_ok h
  have hrange := serial_range hvalid
  have hrange' := serial_range hvalid'
  omega

/-- **Adding twice is adding the sum**, and the sum does not wrap. -/
theorem vibeDateAddDays_add {key a b key₁ key₂ : Int32} (h₁ : vibeDateAddDays key a = .ok key₁)
    (h₂ : vibeDateAddDays key₁ b = .ok key₂) :
    (a + b).toInt = a.toInt + b.toInt ∧ vibeDateAddDays key (a + b) = .ok key₂ := by
  have ha := toInt_of_addDays h₁
  have hb := toInt_of_addDays h₂
  have hsum : (a + b).toInt = a.toInt + b.toInt := by
    rw [Int32.toInt_add, Int.bmod_eq_of_le (by omega) (by omega)]
  obtain ⟨hvalid, -, hserial₁⟩ := vibeDateAddDays_ok h₁
  obtain ⟨-, hvalid₂, hserial₂⟩ := vibeDateAddDays_ok h₂
  exact ⟨hsum, vibeDateAddDays_eq_ok.2 ⟨hvalid, hvalid₂, by omega⟩⟩

/-- No days later it is the same day. -/
theorem vibeDateAddDays_zero {key : Int32} (h : vibeDateIsValid key = true) :
    vibeDateAddDays key 0 = .ok key :=
  vibeDateAddDays_eq_ok.2 ⟨h, h, by simp⟩

/-- **More days, a later date.** -/
theorem vibeDateAddDays_lt_iff {key m n keyₘ keyₙ : Int32} (hm : vibeDateAddDays key m = .ok keyₘ)
    (hn : vibeDateAddDays key n = .ok keyₙ) : keyₘ < keyₙ ↔ m < n := by
  obtain ⟨-, hvalidₘ, hserialₘ⟩ := vibeDateAddDays_ok hm
  obtain ⟨-, hvalidₙ, hserialₙ⟩ := vibeDateAddDays_ok hn
  rw [← serial_lt_iff hvalidₘ hvalidₙ, Int32.lt_iff_toInt_lt]
  omega

/-! ### The arithmetic, checked -/

/-- A value of type `int`, when it is one. -/
def checkedInt (x : ℤ) : Option ℤ := if -2 ^ 31 ≤ x ∧ x < 2 ^ 31 then some x else none

/-- A value of type `int64_t`, when it is one. -/
def checkedInt64 (x : ℤ) : Option ℤ := if -2 ^ 63 ≤ x ∧ x < 2 ^ 63 then some x else none

/-- A value of type `unsigned`, when it is one. -/
def checkedUnsigned (x : ℤ) : Option ℤ := if 0 ≤ x ∧ x < 2 ^ 32 then some x else none

/-- A value of 32 bits does not wrap. -/
theorem checkedInt_of_range {x : ℤ} (h : -2 ^ 31 ≤ x) (h' : x < 2 ^ 31) : checkedInt x = some x :=
  if_pos ⟨h, h'⟩

/-- Nor does one of 64 bits. -/
theorem checkedInt64_of_range {x : ℤ} (h : -2 ^ 63 ≤ x) (h' : x < 2 ^ 63) :
    checkedInt64 x = some x :=
  if_pos ⟨h, h'⟩

/-- Nor does an unsigned one. -/
theorem checkedUnsigned_of_range {x : ℤ} (h : 0 ≤ x) (h' : x < 2 ^ 32) :
    checkedUnsigned x = some x :=
  if_pos ⟨h, h'⟩

/-- `days_from_civil`, undefined where a value leaves its type. Only the shift of the month is meant
to wrap. -/
def daysFromCivilChecked (year month day : ℤ) : Option ℤ := do
  let year ← checkedInt (if month ≤ 2 then year - 1 else year)
  let shifted ← checkedInt (if year ≥ 0 then year else year - 399)
  let era := shifted.tdiv 400
  let eraStart ← checkedInt (era * 400)
  let yearOfEra ← checkedUnsigned (← checkedInt (year - eraStart))
  let monthShifted := u32 (month + if month > 2 then u32 (-3) else 9)
  let monthDays ← checkedUnsigned (153 * monthShifted + 2)
  let dayOfYear ← checkedUnsigned (monthDays / 5 + day - 1)
  let dayOfEra ← checkedUnsigned (yearOfEra * 365 + yearOfEra / 4 - yearOfEra / 100 + dayOfYear)
  let eraDays ← checkedInt64 (era * 146097)
  checkedInt64 ((← checkedInt64 (eraDays + dayOfEra)) - 719468)

/-- `civil_from_days`, undefined where a value leaves its type. Only the shift of the month is meant
to wrap. -/
def civilFromDaysChecked (days : ℤ) : Option (ℤ × ℤ × ℤ) := do
  let days ← checkedInt64 (days + 719468)
  let shifted ← checkedInt64 (if days ≥ 0 then days else days - 146096)
  let era := shifted.tdiv 146097
  let eraDays ← checkedInt64 (era * 146097)
  let dayOfEra ← checkedUnsigned (← checkedInt64 (days - eraDays))
  let cycles ← checkedUnsigned (dayOfEra - dayOfEra / 1460 + dayOfEra / 36524 - dayOfEra / 146096)
  let yearOfEra := cycles / 365
  let eraStart ← checkedInt (← checkedInt64 (era * 400))
  let year ← checkedInt ((← checkedInt yearOfEra) + eraStart)
  let dayOfYear ← checkedUnsigned (dayOfEra - (365 * yearOfEra + yearOfEra / 4 - yearOfEra / 100))
  let monthPrime := (← checkedUnsigned (5 * dayOfYear + 2)) / 153
  let monthDays ← checkedUnsigned (153 * monthPrime + 2)
  let day ← checkedUnsigned (dayOfYear - monthDays / 5 + 1)
  let month := u32 (monthPrime + if monthPrime < 10 then 3 else u32 (-9))
  let year ← checkedInt (if month ≤ 2 then year + 1 else year)
  return (year, month, day)

/-- `vibe_date_add_days`, undefined where a value leaves its type. -/
def vibeDateAddDaysChecked (dateKey deltaDays : Int32) : Option (Except VibeError Int32) :=
  match splitDate dateKey.toInt with
  | none => some (.error .invalidArgument)
  | some (year, month, day) => do
    let serial ← checkedInt64 ((← daysFromCivilChecked year month day) + deltaDays.toInt)
    let (year, month, day) ← civilFromDaysChecked serial
    if year < 1 ∨ year > 9999 then return .error .outOfRange
    else
      let years ← checkedInt (year * 10000)
      let months ← checkedInt (month * 100)
      return .ok (Int32.ofInt (← checkedInt ((← checkedInt (years + months)) + day)))

/-- **No step wraps** on the way from a date to its number. -/
theorem daysFromCivilChecked_eq {year month day : ℤ} (h : IsDate year month day) (hy : 1 ≤ year)
    (hy' : year ≤ 9999) : daysFromCivilChecked year month day =
      some (daysFromCivil year month day) := by
  have hd := day_le_31 h
  obtain ⟨hm, hm', hpos, -⟩ := h
  unfold daysFromCivilChecked daysFromCivil
  dsimp only
  generalize hyear : (if month ≤ 2 then year - 1 else year) = y
  have hyear' : 0 ≤ y ∧ y ≤ 9999 := by split at hyear <;> omega
  have hera : (if y ≥ 0 then y else y - 399).tdiv 400 = y / 400 := tdiv_floor (k := 400) (by decide)
  have hshift : u32 (month + if month > 2 then u32 (-3) else 9) = (month + 9) % 12 := by
    unfold u32
    split <;> omega
  have hmonth : u32 (153 * (month + if month > 2 then -3 else 9) + 2) =
      153 * ((month + 9) % 12) + 2 := by
    rw [u32_of_range] <;> split <;> omega
  rw [checkedInt_of_range (by omega) (by omega), Option.bind_eq_bind, Option.bind_some,
    checkedInt_of_range (by split <;> omega) (by split <;> omega)]
  simp only [Option.bind_some, hera, hshift, hmonth]
  generalize hmd : 153 * ((month + 9) % 12) + 2 = md
  have hmd' : 2 ≤ md ∧ md ≤ 1685 := by omega
  have hyoe : y - y / 400 * 400 = y % 400 := by omega
  rw [checkedInt_of_range (by omega) (by omega), Option.bind_some, hyoe,
    checkedInt_of_range (by omega) (by omega), Option.bind_some,
    checkedUnsigned_of_range (by omega) (by omega), Option.bind_some,
    checkedUnsigned_of_range (by omega) (by omega), Option.bind_some,
    checkedUnsigned_of_range (by omega) (by omega), Option.bind_some,
    checkedUnsigned_of_range (by omega) (by omega), Option.bind_some,
    checkedInt64_of_range (by omega) (by omega), Option.bind_some,
    checkedInt64_of_range (by omega) (by omega), Option.bind_some,
    checkedInt64_of_range (by omega) (by omega), u32_of_range (x := y % 400) (by omega) (by omega),
    u32_of_range (x := md / 5 + day - 1) (by omega) (by omega),
    u32_of_range (by omega) (by omega)]

/-- Nor on the way back. -/
theorem civilFromDaysChecked_eq {days : ℤ} (h : -2 ^ 33 ≤ days) (h' : days ≤ 2 ^ 33) :
    civilFromDaysChecked days = some (civilFromDays days) := by
  unfold civilFromDaysChecked civilFromDays
  dsimp only
  rw [checkedInt64_of_range (by omega) (by omega), Option.bind_eq_bind, Option.bind_some]
  generalize hshifted : days + 719468 = n
  have hera : (if n ≥ 0 then n else n - 146096).tdiv 146097 = n / 146097 :=
    tdiv_floor (k := 146097) (by decide)
  have hdoe : n - n / 146097 * 146097 = n % 146097 := by omega
  rw [checkedInt64_of_range (by split <;> omega) (by split <;> omega)]
  simp only [Option.bind_some, hera]
  rw [checkedInt64_of_range (by omega) (by omega), Option.bind_some, hdoe,
    checkedInt64_of_range (by omega) (by omega), Option.bind_some,
    checkedUnsigned_of_range (by omega) (by omega), Option.bind_some,
    u32_of_range (x := n % 146097) (by omega) (by omega)]
  -- From here on the words are those of one era, far below 2 to the 31st.
  generalize hera' : n / 146097 = era
  generalize hdoe' : n % 146097 = doe
  obtain ⟨yoe, doy, hyoe, hy, hy', hdoy, hd, hd'⟩ := @exists_yearOfEra doe (by omega) (by omega)
  have hdoy' : doe - (365 * yoe + yoe / 4 - yoe / 100) = doy := by omega
  rw [checkedUnsigned_of_range (by omega) (by omega), Option.bind_some,
    u32_of_range (x := doe - doe / 1460 + doe / 36524 - doe / 146096) (by omega) (by omega), hyoe,
    checkedInt64_of_range (by omega) (by omega), Option.bind_some,
    checkedInt_of_range (by omega) (by omega), Option.bind_some,
    checkedInt_of_range (by omega) (by omega), Option.bind_some,
    checkedInt_of_range (by omega) (by omega), Option.bind_some, hdoy',
    checkedUnsigned_of_range (by omega) (by omega), Option.bind_some,
    u32_of_range (x := doy) (by omega) (by omega),
    checkedUnsigned_of_range (x := 5 * doy + 2) (by omega) (by omega), Option.bind_some,
    u32_of_range (x := 5 * doy + 2) (by omega) (by omega)]
  generalize hmp : (5 * doy + 2) / 153 = mp
  have hshift : u32 (mp + if mp < 10 then 3 else u32 (-9)) =
    u32 (mp + if mp < 10 then 3 else -9) := by
    unfold u32
    split <;> omega
  rw [checkedUnsigned_of_range (by omega) (by omega), Option.bind_some,
    u32_of_range (x := 153 * mp + 2) (by omega) (by omega),
    checkedUnsigned_of_range (by omega) (by omega), Option.bind_some, hshift,
    checkedInt_of_range (by split <;> omega) (by split <;> omega), Option.bind_some,
    u32_of_range (x := doy - (153 * mp + 2) / 5 + 1) (by omega) (by omega),
    i32_of_range (x := yoe) (by omega) (by omega),
    i32_of_range (x := era * 400) (by omega) (by omega),
    i32_of_range (x := yoe + era * 400) (by omega) (by omega),
    i32_of_range (x := yoe + era * 400 + 1) (by omega) (by omega)]
  rfl

/-- **No value leaves its type**, whatever the number of days. -/
theorem vibeDateAddDaysChecked_eq (key delta : Int32) :
    vibeDateAddDaysChecked key delta = some (vibeDateAddDays key delta) := by
  have hdelta : -2 ^ 31 ≤ delta.toInt ∧ delta.toInt < 2 ^ 31 :=
    ⟨Int32.le_toInt delta, Int32.toInt_lt delta⟩
  unfold vibeDateAddDaysChecked vibeDateAddDays
  cases hs : splitDate key.toInt with
  | none => rfl
  | some date =>
    obtain ⟨year, month, day⟩ := date
    obtain ⟨-, hdate, hy, hy'⟩ := splitDate_eq_some.1 hs
    have hrange := dayNumber_range hdate hy hy'
    have hdays := daysFromCivil_eq hdate
    dsimp only
    rw [daysFromCivilChecked_eq hdate hy hy', Option.bind_eq_bind, Option.bind_some,
      checkedInt64_of_range (by omega) (by omega), Option.bind_some,
      civilFromDaysChecked_eq (by omega) (by omega), Option.bind_eq_bind, Option.bind_some]
    obtain ⟨d, hd⟩ := exists_number (daysFromCivil year month day + delta.toInt)
    have hle := day_le_31 d.isDate
    have hpos := d.isDate.day_pos
    have hmpos := d.isDate.month_pos
    have hmle := d.isDate.month_le
    rw [← hd, civilFromDays_number]
    dsimp only
    split
    · rfl
    · rw [checkedInt_of_range (by omega) (by omega), Option.bind_some,
        checkedInt_of_range (by omega) (by omega), Option.bind_some,
        checkedInt_of_range (by omega) (by omega), Option.bind_some,
        checkedInt_of_range (by omega) (by omega)]
      rfl

/-! ### The two conversions -/

/-- The days that the years 1 to 9999 consist of. -/
theorem year_range_iff {d : GregorianDate} :
    1 ≤ d.year ∧ d.year ≤ 9999 ↔ -719162 ≤ d.number ∧ d.number < 2932897 := by
  constructor
  · rintro ⟨hy, hy'⟩
    exact dayNumber_range d.isDate hy hy'
  · rintro ⟨h, h'⟩
    have hbounds := dayNumber_bounds d.isDate
    have hone : dayNumber 1 1 1 = -719162 := by decide
    have hlast : dayNumber 10000 1 1 = 2932897 := by decide
    have hnumber : d.number = dayNumber d.year d.month d.day := rfl
    constructor
    · by_contra hlt
      have := dayNumber_year_mono (show d.year + 1 ≤ 1 by omega)
      omega
    · by_contra hlt
      have := dayNumber_year_mono (show 10000 ≤ d.year by omega)
      omega

/-- From a date to its day and back. -/
theorem civilFromDays_daysFromCivil {d : GregorianDate} (hy : 1 ≤ d.year) (hy' : d.year ≤ 9999) :
    civilFromDays (daysFromCivil d.year d.month d.day) = (d.year, d.month, d.day) := by
  rw [daysFromCivil_eq d.isDate]
  have hcivil := civilFromDays_number d
  rw [i32_of_range (by omega) (by omega)] at hcivil
  exact hcivil

/-- From a day to its date and back. -/
theorem daysFromCivil_civilFromDays {days : ℤ} (h : -719162 ≤ days) (h' : days < 2932897) :
    daysFromCivil (civilFromDays days).1 (civilFromDays days).2.1 (civilFromDays days).2.2 =
      days := by
  obtain ⟨d, rfl⟩ := exists_number days
  obtain ⟨hy, hy'⟩ := year_range_iff.2 ⟨h, h'⟩
  rw [civilFromDays_number, i32_of_range (by omega) (by omega)]
  exact daysFromCivil_eq d.isDate

/-- **Calendar arithmetic is exact.** -/
theorem vibeDateAddDays_exact :
    (∀ (d : GregorianDate) (key delta key' : Int32), d.Named key →
      (vibeDateAddDays key delta = .ok key' ↔
        ∃ d' : GregorianDate, d.DaysAfter delta.toInt d' ∧ d'.Named key')) ∧
    (∀ (d : GregorianDate) (key delta : Int32), d.Named key →
      ((∃ key', vibeDateAddDays key delta = .ok key') ↔
        ∃ d' : GregorianDate, d.DaysAfter delta.toInt d' ∧ 1 ≤ d'.year ∧ d'.year ≤ 9999)) ∧
    (∀ key a b key₁ key₂ : Int32, vibeDateAddDays key a = .ok key₁ →
      vibeDateAddDays key₁ b = .ok key₂ →
        (a + b).toInt = a.toInt + b.toInt ∧ vibeDateAddDays key (a + b) = .ok key₂) ∧
    (∀ key : Int32, vibeDateIsValid key = true → vibeDateAddDays key 0 = .ok key) ∧
    (∀ key m n keyₘ keyₙ : Int32, vibeDateAddDays key m = .ok keyₘ →
      vibeDateAddDays key n = .ok keyₙ → (keyₘ < keyₙ ↔ m < n)) ∧
    (∀ key delta : Int32, vibeDateAddDaysChecked key delta = some (vibeDateAddDays key delta)) ∧
    (∀ d : GregorianDate, 1 ≤ d.year → d.year ≤ 9999 →
      civilFromDays (daysFromCivil d.year d.month d.day) = (d.year, d.month, d.day)) ∧
    (∀ days : ℤ, -719162 ≤ days → days < 2932897 →
      daysFromCivil (civilFromDays days).1 (civilFromDays days).2.1 (civilFromDays days).2.2 =
        days) :=
  ⟨fun _ _ _ _ h ↦ vibeDateAddDays_named h, fun _ _ _ h ↦ vibeDateAddDays_succeeds_iff h,
    fun _ _ _ _ _ h₁ h₂ ↦ vibeDateAddDays_add h₁ h₂, fun _ h ↦ vibeDateAddDays_zero h,
    fun _ _ _ _ _ hm hn ↦ vibeDateAddDays_lt_iff hm hn, vibeDateAddDaysChecked_eq,
    fun _ hy hy' ↦ civilFromDays_daysFromCivil hy hy',
    fun _ h h' ↦ daysFromCivil_civilFromDays h h'⟩

/-! ### The date of an instant -/

/-- The date that contains the instant in the zone. -/
def GregorianDate.ContainsLocal (d : GregorianDate) (epoch : Int64) (timezone : Timezone) : Prop :=
  d.Contains (epoch.toInt + utcOffset timezone)

/-- The year is not one of the years 1 to 9999, but the `int` that `civil_from_days` makes of it is.
-/
def GregorianDate.YearWraps (d : GregorianDate) : Prop :=
  ¬ (1 ≤ d.year ∧ d.year ≤ 9999) ∧ 1 ≤ i32 d.year ∧ i32 d.year ≤ 9999

/-- An offset is at most eight hours. -/
theorem utcOffset_range (timezone : Timezone) :
    0 ≤ utcOffset timezone ∧ utcOffset timezone ≤ 28800 := by
  unfold utcOffset
  split <;> omega

/-- What `vibe_date_from_epoch` answers for an instant of the date, when it has no overflow. -/
theorem vibeDateFromEpoch_eq {d : GregorianDate} {epoch : Int64} {timezone : Timezone}
    (hzone : timezone.Supported) (hd : d.ContainsLocal epoch timezone)
    (hfits : epoch.toInt + utcOffset timezone < 2 ^ 63) :
    vibeDateFromEpoch epoch timezone =
      if i32 d.year < 1 ∨ i32 d.year > 9999 then .error .outOfRange
      else .ok (Int32.ofInt (i32 d.year * 10000 + d.month * 100 + d.day)) := by
  have hnumber := contains_iff.1 hd
  unfold vibeDateFromEpoch
  rw [if_neg (not_not.2 hzone)]
  dsimp only
  rw [floorDiv_eq]
  show (if epoch.toInt > 2 ^ 63 - 1 - utcOffset timezone then _ else
    keyOfDays ((epoch.toInt + utcOffset timezone) / 86400)) = _
  rw [if_neg (by omega), ← hnumber, keyOfDays, civilFromDays_number]

/-- An instant whose date cannot be computed is not in a year that wraps into the range. -/
theorem not_yearWraps_of_overflow {d : GregorianDate} {epoch : Int64} {timezone : Timezone}
    (hd : d.ContainsLocal epoch timezone) (hfits : 2 ^ 63 ≤ epoch.toInt + utcOffset timezone) :
    ¬ d.YearWraps := by
  have hoffset := utcOffset_range timezone
  have hepoch := epoch.toInt_lt
  have hnumber := contains_iff.1 hd
  have hfar : 9999 < (civilFromDays d.number).1 := civilFromDays_far (by omega) (by omega)
  rw [civilFromDays_number] at hfar
  exact fun hwraps ↦ absurd hwraps.2.2 (not_le.2 hfar)

/-- **The date of an instant is right or refused, exactly when its year does not wrap.** -/
theorem vibeDateFromEpoch_exact_iff (epoch : Int64) {timezone : Timezone}
    (hzone : timezone.Supported) :
    (∀ key, vibeDateFromEpoch epoch timezone = .ok key →
      ∃ d : GregorianDate, d.ContainsLocal epoch timezone ∧ d.Named key) ↔
    ∀ d : GregorianDate, d.ContainsLocal epoch timezone → ¬ d.YearWraps := by
  obtain ⟨d, hnumber⟩ := exists_number ((epoch.toInt + utcOffset timezone) / 86400)
  have hd : d.ContainsLocal epoch timezone := contains_iff.2 hnumber
  -- An instant is in one day, so every date that contains it is this one.
  have hunique : ∀ {d' : GregorianDate}, d'.ContainsLocal epoch timezone → d' = d := fun hd' ↦
    number_injective ((contains_iff.1 hd').trans hnumber.symm)
  constructor
  · intro hright d' hd' hwraps
    obtain rfl := hunique hd'
    obtain ⟨hyear, hlow, hhigh⟩ := hwraps
    rcases lt_or_ge (epoch.toInt + utcOffset timezone) (2 ^ 63) with hfits | hover
    · have hok := vibeDateFromEpoch_eq hzone hd hfits
      rw [if_neg (by omega)] at hok
      obtain ⟨d'', hd'', hnamed⟩ := hright _ hok
      obtain rfl := hunique hd''
      exact hyear hnamed.2
    · exact not_yearWraps_of_overflow hd hover ⟨hyear, hlow, hhigh⟩
  · intro hnone key hok
    rcases lt_or_ge (epoch.toInt + utcOffset timezone) (2 ^ 63) with hfits | hover
    · rw [vibeDateFromEpoch_eq hzone hd hfits] at hok
      split at hok
      · cases hok
      · rename_i hrange
        have hyear : 1 ≤ d.year ∧ d.year ≤ 9999 := by
          by_contra hyear
          exact hnone d hd ⟨hyear, by omega, by omega⟩
        obtain rfl := Except.ok.inj hok
        refine ⟨d, hd, named_iff.2 ?_⟩
        rw [i32_of_range (by omega) (by omega)]
        exact splitDate_ofInt d.isDate hyear.1 hyear.2
    · have hoffset := utcOffset_range timezone
      obtain ⟨error, herror⟩ := vibeDateFromEpoch_far timezone (show _ ≤ epoch.toInt by omega)
      rw [herror] at hok
      cases hok

/-- An ordinary instant, in the zone that is ahead of UTC. -/
theorem vibeDateFromEpoch_exact_iff_sample :
    (∀ key, vibeDateFromEpoch 1767196800 .asiaShanghai = .ok key →
      ∃ d : GregorianDate, d.ContainsLocal 1767196800 .asiaShanghai ∧ d.Named key) ↔
    ∀ d : GregorianDate, d.ContainsLocal 1767196800 .asiaShanghai → ¬ d.YearWraps :=
  vibeDateFromEpoch_exact_iff 1767196800 (Or.inl rfl)

/-- **A date from far ahead**: 2³² years after the start of 2000, the answer is that start. -/
theorem vibeDateFromEpoch_wraps :
    ¬ ∀ (epoch : Int64) (timezone : Timezone), timezone.Supported →
      ∀ key, vibeDateFromEpoch epoch timezone = .ok key →
        ∃ d : GregorianDate, d.ContainsLocal epoch timezone ∧ d.Named key := by
  intro h
  have hok : vibeDateFromEpoch 135536077748188800 .utc = .ok 20000101 := by decide +kernel
  obtain ⟨d, hd, hnamed⟩ := h _ _ (Or.inr rfl) _ hok
  have hday := (contains_iff.1 hd).symm.trans hnamed.number
  revert hday
  decide +kernel

end VibeUsage
