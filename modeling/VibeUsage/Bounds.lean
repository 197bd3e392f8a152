import VibeUsage.Calendar

/-!
# The bounds of a day

The server is asked for the instants between two formatted UTC texts, and the buckets it answers
with are filtered by the date of their own texts in the configured zone. Both routes are compared
with the seconds of a local day, counted from the day's serial: a text lies within the bounds
exactly when the filter keeps it, and the day after starts one second after the last.

`vibeDateApiBounds_epochs` gives the two instants, and `vibeDateApiBounds_agree` the comparison. The
fraction of the last second is cut off by both routes, so that the second before midnight belongs to
the day that ends.
-/

namespace VibeUsage

/-! ### From an epoch to a key -/

/-- The offset of a supported zone. -/
def utcOffset (timezone : Timezone) : ℤ := if timezone = .asiaShanghai then 8 * 3600 else 0

/-- The division of the source rounds down. -/
theorem floorDiv_eq (value : ℤ) : floorDiv value 86400 = value / 86400 := by
  unfold floorDiv
  rcases Int.le_total 0 value with h | h
  · have hmod : ¬ value.tmod 86400 < 0 := by
      rw [Int.tmod_eq_emod_of_nonneg h]
      omega
    simp only [hmod, if_false]
    exact Int.tdiv_eq_ediv_of_nonneg h
  · obtain ⟨n, rfl⟩ : ∃ n, value = -n := ⟨-value, by omega⟩
    have hdiv : (-n).tdiv 86400 = -(n / 86400) := by
      rw [Int.neg_tdiv, Int.tdiv_eq_ediv_of_nonneg (by omega)]
    have hmod : (-n).tmod 86400 = -(n % 86400) := by
      rw [Int.neg_tmod, Int.tmod_eq_emod_of_nonneg (by omega)]
    dsimp only
    rw [hdiv, hmod]
    split <;> omega

/-- **The date of an instant**: the day that the local second count falls in. -/
theorem vibeDateFromEpoch_eq_ok {epoch : Int64} {timezone : Timezone} {key : Int32}
    (h : -2 ^ 53 ≤ epoch.toInt) (h' : epoch.toInt ≤ 2 ^ 53) (hzone : timezone.Supported) :
    vibeDateFromEpoch epoch timezone = .ok key ↔
      vibeDateIsValid key = true ∧ serial key = (epoch.toInt + utcOffset timezone) / 86400 := by
  have hoffset : 0 ≤ utcOffset timezone ∧ utcOffset timezone ≤ 28800 := by
    unfold utcOffset
    split <;> omega
  have hdef : vibeDateFromEpoch epoch timezone =
      keyOfDays ((epoch.toInt + utcOffset timezone) / 86400) := by
    unfold vibeDateFromEpoch
    rw [if_neg (not_not.2 hzone)]
    dsimp only
    rw [floorDiv_eq]
    show (if epoch.toInt > 2 ^ 63 - 1 - utcOffset timezone then _ else _) = _
    rw [if_neg (by omega)]
    rfl
  rw [hdef, keyOfDays_eq_ok (by omega) (by omega)]

/-- The years of the last seconds that can be counted do not come out as years with four digits,
although they do not fit into an `int`. -/
theorem civilFromDays_far {days : ℤ} (h : 106751991117300 ≤ days) (h' : days ≤ 106751991167301) :
    9999 < (civilFromDays days).1 := by
  have hera : (if days + 719468 ≥ 0 then days + 719468 else days + 719468 - 146096).tdiv 146097 =
      730692566 := by
    rw [if_pos (by omega), Int.tdiv_eq_ediv_of_nonneg (by omega)]
    omega
  have hcentury : i32 (730692566 * 400) = 219250272 := by decide
  unfold civilFromDays
  dsimp only
  rw [hera, hcentury]
  generalize hdoe : days + 719468 - 730692566 * 146097 = doe
  have hdoe' : 0 ≤ doe ∧ doe < 146097 := by omega
  rw [u32_of_range (x := doe) (by omega) (by omega),
    u32_of_range (x := doe - doe / 1460 + doe / 36524 - doe / 146096) (by omega) (by omega)]
  generalize hyoe : (doe - doe / 1460 + doe / 36524 - doe / 146096) / 365 = yoe
  have hyoe' : 0 ≤ yoe ∧ yoe ≤ 400 := by omega
  rw [i32_of_range (x := yoe) (by omega) (by omega),
    i32_of_range (x := yoe + 219250272) (by omega) (by omega),
    i32_of_range (x := yoe + 219250272 + 1) (by omega) (by omega)]
  have heither (early : Prop) [Decidable early] :
      9999 < if early then yoe + 219250272 + 1 else yoe + 219250272 := by
    split <;> omega
  exact heither _

/-- **At the end of time** there is no date. -/
theorem vibeDateFromEpoch_far {epoch : Int64} (timezone : Timezone)
    (h : 2 ^ 63 - 2 ^ 32 ≤ epoch.toInt) :
    ∃ error, vibeDateFromEpoch epoch timezone = .error error := by
  unfold vibeDateFromEpoch
  split
  · exact ⟨_, rfl⟩
  · dsimp only
    generalize hoffset : (if timezone = .asiaShanghai then 8 * 3600 else 0 : ℤ) = offset
    have hoffset' : 0 ≤ offset ∧ offset ≤ 28800 := by
      rw [← hoffset]
      split <;> omega
    split
    · exact ⟨_, rfl⟩
    · have hfar : 106751991117300 ≤ (epoch.toInt + offset) / 86400 := by omega
      have hyear := civilFromDays_far hfar (by omega)
      rw [floorDiv_eq, if_pos (Or.inr hyear)]
      exact ⟨_, rfl⟩

/-! ### From a text to an epoch -/

/-- Digits are no negative number. -/
theorem parseDigits_nonneg {text : CString} {offset count : ℕ} {result n : ℤ} (h : 0 ≤ result)
    (hn : parseDigits text offset count result = some n) : 0 ≤ n := by
  induction count generalizing offset result with
  | zero =>
    rw [parseDigits] at hn
    cases hn
    exact h
  | succ count ih =>
    rw [parseDigits] at hn
    split at hn
    · cases hn
    · exact ih (by omega) hn

/-- A field of a text is in range. -/
structure IsoFields.InRange (fields : IsoFields) : Prop where
  date : IsDate fields.year fields.month fields.day
  year_pos : 1 ≤ fields.year
  year_le : fields.year ≤ 9999
  hour : 0 ≤ fields.hour ∧ fields.hour ≤ 23
  minute : 0 ≤ fields.minute ∧ fields.minute ≤ 59
  second : 0 ≤ fields.second ∧ fields.second ≤ 60

/-- **The fields of a timestamp** are in range. -/
theorem parseIsoFields_inRange {text : CString} {fields : IsoFields}
    (h : parseIsoFields text = some fields) : fields.InRange := by
  unfold parseIsoFields at h
  dsimp only at h
  split at h
  · cases h
  simp only [Option.bind_eq_bind, Option.bind_eq_some_iff] at h
  obtain ⟨year, hyear, month, hmonth, day, hday, hour, hhour, minute, hminute, second, hsecond,
      h⟩ :=
    h
  split at h
  · cases h
  rename_i hrange
  cases Option.some.inj h
  have hhour := parseDigits_nonneg (by decide) hhour
  have hminute := parseDigits_nonneg (by decide) hminute
  have hsecond := parseDigits_nonneg (by decide) hsecond
  simp only [not_or, Int.not_lt, gt_iff_lt] at hrange
  obtain ⟨hy, hy', hm, hm', hd, hd', hh, hmin, hs⟩ := hrange
  exact ⟨⟨hm, hm', hd, hd'⟩, hy, hy', ⟨hhour, hh⟩, ⟨hminute, hmin⟩, ⟨hsecond, hs⟩⟩

/-- An offset is less than a day. -/
theorem parseOffset_range {text : CString} {cursor : ℕ} {offset : ℤ}
    (h : parseOffset text cursor = some offset) : -86400 < offset ∧ offset < 86400 := by
  unfold parseOffset at h
  dsimp only at h
  split at h
  · split at h
    · cases Option.some.inj h
      decide
    · cases h
  split at h
  · simp only [Option.bind_eq_bind, Option.bind_eq_some_iff] at h
    obtain ⟨hour, hhour, minute, hminute, h⟩ := h
    have hhour := parseDigits_nonneg (by decide) hhour
    have hminute := parseDigits_nonneg (by decide) hminute
    split at h
    · cases h
    · cases Option.some.inj h
      split <;> omega
  · cases h

/-- The epoch of a text is far from the ends of its type. -/
theorem vibeIso8601ToEpoch_range {text : CString} {epoch : Int64}
    (h : vibeIso8601ToEpoch text = .ok epoch) : -2 ^ 53 ≤ epoch.toInt ∧ epoch.toInt ≤ 2 ^ 53 := by
  unfold vibeIso8601ToEpoch at h
  split at h
  · cases h
  rename_i fields offset hparse
  simp only [Option.bind_eq_bind, Option.bind_eq_some_iff] at hparse
  obtain ⟨fields', hfields, cursor, -, offset', hoffset, hpair⟩ := hparse
  obtain ⟨rfl, rfl⟩ := Prod.mk.inj (Option.some.inj hpair)
  have hfields := parseIsoFields_inRange hfields
  have hoffset := parseOffset_range hoffset
  have hdays := dayNumber_range hfields.date hfields.year_pos hfields.year_le
  have hhour := hfields.hour
  have hminute := hfields.minute
  have hsecond := hfields.second
  rw [daysFromCivil_eq hfields.date] at h
  rw [← Except.ok.inj h, Int64.toInt_ofInt_of_le] <;> split <;> omega

/-! ### The text of a bound -/

/-- A digit is its number behind that of zero. -/
theorem digitChar_toNat {n : ℤ} (h : 0 ≤ n) (h' : n ≤ 9) :
    (digitChar n).toNat = 0x30 + n.toNat := by
  unfold digitChar
  rw [UInt8.toNat_ofNat']
  exact Nat.mod_eq_of_lt (by omega)

/-- One digit of a run. -/
theorem parseDigits_digit {text : CString} {offset : ℕ} {n : ℤ} (count : ℕ) (result : ℤ)
    (h : 0 ≤ n) (h' : n ≤ 9) (hbyte : text.byteAt offset = digitChar n) :
    parseDigits text offset (count + 1) result =
      parseDigits text (offset + 1) count (result * 10 + n) := by
  have hdigit := digitChar_toNat h h'
  have hlow : (0x30 : UInt8).toNat = 0x30 := rfl
  have hhigh : (0x39 : UInt8).toNat = 0x39 := rfl
  rw [parseDigits, hbyte, if_neg, hdigit]
  · congr 2
    omega
  · rw [not_or, gt_iff_lt, UInt8.lt_iff_toNat_lt, UInt8.lt_iff_toNat_lt]
    omega

/-- A field of two digits. -/
theorem parseDigits_two {text : CString} {offset : ℕ} {n : ℤ} (h : 0 ≤ n) (h' : n ≤ 99)
    (hfirst : text.byteAt offset = digitChar (n / 10))
    (hsecond : text.byteAt (offset + 1) = digitChar (n % 10)) :
    parseDigits text offset 2 0 = some n := by
  rw [parseDigits_digit 1 0 (by omega) (by omega) hfirst,
    parseDigits_digit 0 _ (by omega) (by omega) hsecond, parseDigits]
  congr 1
  omega

/-- The field of the year. -/
theorem parseDigits_four {text : CString} {n : ℤ} (h : 0 ≤ n) (h' : n ≤ 9999)
    (h₀ : text.byteAt 0 = digitChar (n / 1000)) (h₁ : text.byteAt 1 = digitChar (n / 100 % 10))
    (h₂ : text.byteAt 2 = digitChar (n / 10 % 10)) (h₃ : text.byteAt 3 = digitChar (n % 10)) :
    parseDigits text 0 4 0 = some n := by
  rw [parseDigits_digit 3 0 (by omega) (by omega) h₀, parseDigits_digit 2 _ (by omega) (by omega)
    h₁,
    parseDigits_digit 1 _ (by omega) (by omega) h₂, parseDigits_digit 0 _ (by omega) (by omega) h₃,
    parseDigits]
  congr 1
  omega

/-- `YYYY-MM-DDTHH:MM:SS.fffZ` -/
def boundText (year month day hour minute second : ℤ) (fraction : UInt8) : List UInt8 :=
  [digitChar (year / 1000), digitChar (year / 100 % 10), digitChar (year / 10 % 10),
    digitChar (year % 10), 0x2D, digitChar (month / 10), digitChar (month % 10), 0x2D,
    digitChar (day / 10), digitChar (day % 10), 0x54, digitChar (hour / 10), digitChar (hour % 10),
    0x3A, digitChar (minute / 10), digitChar (minute % 10), 0x3A, digitChar (second / 10),
    digitChar (second % 10), 0x2E, fraction, fraction, fraction, 0x5A]

/-- A digit is no NUL. -/
theorem digitChar_ne_zero {n : ℤ} (h : 0 ≤ n) (h' : n ≤ 9) : digitChar n ≠ 0 := by
  intro hzero
  have hdigit := digitChar_toNat h h'
  rw [hzero, UInt8.toNat_zero] at hdigit
  omega

/-- **The epoch of a bound.** -/
theorem vibeIso8601ToEpoch_boundText {year month day hour minute second : ℤ} {fraction : UInt8}
    (hdate : IsDate year month day) (hy : 1 ≤ year) (hy' : year ≤ 9999)
    (hhour : 0 ≤ hour ∧ hour ≤ 23) (hminute : 0 ≤ minute ∧ minute ≤ 59)
    (hsecond : 0 ≤ second ∧ second ≤ 59) (hfraction : fraction = 0x30 ∨ fraction = 0x39) :
    vibeIso8601ToEpoch (.ofBytes (boundText year month day hour minute second fraction)) =
      .ok (Int64.ofInt (dayNumber year month day * 86400 + hour * 3600 + minute * 60 +
        second)) := by
  have hm := hdate.month_pos
  have hm' := hdate.month_le
  have hd := hdate.day_pos
  have hd' := day_le_31 hdate
  generalize htext : CString.ofBytes (boundText year month day hour minute second fraction) = text
  -- No byte of the text is a NUL, so none is cut off.
  have hbytes : text.bytes = boundText year month day hour minute second fraction := by
    rw [← htext]
    apply CString.ofBytes_bytes_of_noNul
    unfold boundText
    have hdigits : ∀ n : ℤ, 0 ≤ n → n ≤ 9 → ¬ 0 = digitChar n :=
      fun n h h' heq ↦ digitChar_ne_zero h h' heq.symm
    simp only [List.mem_cons, List.not_mem_nil, or_false, not_or]
    refine ⟨hdigits _ ?_ ?_, hdigits _ ?_ ?_, hdigits _ ?_ ?_, hdigits _ ?_ ?_, by decide,
      hdigits _ ?_ ?_, hdigits _ ?_ ?_, by decide, hdigits _ ?_ ?_, hdigits _ ?_ ?_, by decide,
      hdigits _ ?_ ?_, hdigits _ ?_ ?_, by decide, hdigits _ ?_ ?_, hdigits _ ?_ ?_, by decide,
      hdigits _ ?_ ?_, hdigits _ ?_ ?_, by decide, ?_, ?_, ?_, by decide⟩
    any_goals omega
    all_goals rcases hfraction with rfl | rfl <;> decide
  have hbyte : ∀ k, text.byteAt k =
      (boundText year month day hour minute second fraction).getD k 0 := by
    intro k
    unfold CString.byteAt
    rw [hbytes]
  have hlength : text.bytes.length = 24 := by
    rw [hbytes]
    rfl
  -- The three parts of the text, one after the other: the fields, the fraction, the `Z`.
  have hfields : parseIsoFields text = some ⟨year, month, day, hour, minute, second⟩ := by
    unfold parseIsoFields
    dsimp only
    rw [hlength, hbyte 10, hbyte 4, hbyte 7, hbyte 13, hbyte 16, if_neg, parseDigits_four (by omega)
      hy' (hbyte 0) (hbyte 1) (hbyte 2) (hbyte 3)]
    · simp only [Option.bind_eq_bind, Option.bind_some]
      rw [parseDigits_two (by omega) (by omega) (hbyte 5) (hbyte 6), Option.bind_some,
        parseDigits_two (by omega) (by omega) (hbyte 8) (hbyte 9), Option.bind_some,
        parseDigits_two (by omega) (by omega) (hbyte 11) (hbyte 12), Option.bind_some,
        parseDigits_two (by omega) (by omega) (hbyte 14) (hbyte 15), Option.bind_some,
        parseDigits_two (by omega) (by omega) (hbyte 17) (hbyte 18), Option.bind_some, if_neg]
      have := hdate.day_le
      omega
    · show ¬ ((24 : ℕ) < 20 ∨ (24 : ℕ) > 64 ∨ (0x2D : UInt8) ≠ 0x2D ∨ (0x2D : UInt8) ≠ 0x2D ∨
        ((0x54 : UInt8) ≠ 0x54 ∧ (0x54 : UInt8) ≠ 0x74 ∧ (0x54 : UInt8) ≠ 0x20) ∨
        (0x3A : UInt8) ≠ 0x3A ∨ (0x3A : UInt8) ≠ 0x3A)
      decide
  have hcursor : skipFraction text = some 23 := by
    unfold skipFraction
    have hdrop : text.bytes.drop 20 = [fraction, fraction, fraction, 0x5A] := by
      rw [hbytes]
      rfl
    have hdot : text.byteAt 19 = 0x2E := hbyte 19
    rw [hdot, hdrop]
    rcases hfraction with rfl | rfl <;> decide
  have hoffset : parseOffset text 23 = some 0 := by
    unfold parseOffset
    rw [hbyte 23, hlength]
    rfl
  unfold vibeIso8601ToEpoch
  simp only [hfields, hcursor, hoffset, Option.bind_eq_bind, Option.bind_some, Option.pure_def]
  rw [daysFromCivil_eq hdate, if_neg (by omega), Int.sub_zero]

/-! ### The bounds -/

/-- The first second of a local day. -/
def firstSecond (key : Int32) (timezone : Timezone) : ℤ :=
  serial key * 86400 - utcOffset timezone

/-- A date is written digit by digit. -/
theorem vibeDateFormatIso_eq {key : Int32} {year month day : ℤ}
    (h : splitDate key.toInt = some (year, month, day)) :
    vibeDateFormatIso key = .ok [digitChar (year / 1000), digitChar (year / 100 % 10),
      digitChar (year / 10 % 10), digitChar (year % 10), 0x2D, digitChar (month / 10),
      digitChar (month % 10), 0x2D, digitChar (day / 10), digitChar (day % 10)] := by
  unfold vibeDateFormatIso
  rw [h]

/-- The two texts of a day whose bounds start on `startKey` at `hour`. -/
def boundTexts (key startKey : Int32) (hour hour' : List Char) :
    Except VibeError (List UInt8 × List UInt8) :=
  (vibeDateFormatIso startKey).bind fun startDate ↦ (vibeDateFormatIso key).bind fun endDate ↦
    .ok (startDate ++ ascii (['T'] ++ hour ++
        [':', '0', '0', ':', '0', '0', '.', '0', '0', '0', 'Z']),
      endDate ++ ascii (['T'] ++ hour' ++ [':', '5', '9', ':', '5', '9', '.', '9', '9', '9', 'Z']))

/-- The bounds of a day in UTC. -/
theorem vibeDateApiBounds_utc {key : Int32} (h : vibeDateIsValid key = true) :
    vibeDateApiBounds key .utc = boundTexts key key ['0', '0'] ['2', '3'] := by
  unfold vibeDateApiBounds
  rw [if_neg (by simp [h, Timezone.Supported])]
  rfl

/-- **The bounds of a day in Shanghai** begin on the day before. -/
theorem vibeDateApiBounds_asiaShanghai {key : Int32} (h : vibeDateIsValid key = true) :
    vibeDateApiBounds key .asiaShanghai = (vibeDateAddDays key (-1)).bind fun startKey ↦
      boundTexts key startKey ['1', '6'] ['1', '5'] := by
  unfold vibeDateApiBounds
  rw [if_neg (by simp [h, Timezone.Supported])]
  rfl

/-- The bounds are refused for an invalid key and for an unknown zone. -/
theorem valid_of_vibeDateApiBounds {key : Int32} {timezone : Timezone}
    {texts : List UInt8 × List UInt8} (h : vibeDateApiBounds key timezone = .ok texts) :
    vibeDateIsValid key = true ∧ timezone.Supported := by
  by_contra hnot
  unfold vibeDateApiBounds at h
  rw [if_pos (by tauto)] at h
  cases h

/-- The texts of a day, and what they are read as. -/
theorem boundTexts_spec {key startKey : Int32} {hour hour' : ℤ} {digits digits' : List Char}
    (hvalid : vibeDateIsValid key = true) (hstart : vibeDateIsValid startKey = true)
    (hhour : 0 ≤ hour ∧ hour ≤ 23) (hhour' : 0 ≤ hour' ∧ hour' ≤ 23)
    (hdigits : ascii digits = [digitChar (hour / 10), digitChar (hour % 10)])
    (hdigits' : ascii digits' = [digitChar (hour' / 10), digitChar (hour' % 10)]) :
    ∃ start finish, boundTexts key startKey digits digits' = .ok (start, finish) ∧
      ∃ first last : Int64, vibeIso8601ToEpoch (.ofBytes start) = .ok first ∧
        vibeIso8601ToEpoch (.ofBytes finish) = .ok last ∧
        first.toInt = serial startKey * 86400 + hour * 3600 ∧
        last.toInt = serial key * 86400 + hour' * 3600 + 3599 := by
  obtain ⟨y, m, d, hs⟩ := vibeDateIsValid_iff.1 hvalid
  obtain ⟨y', m', d', hs'⟩ := vibeDateIsValid_iff.1 hstart
  obtain ⟨-, hd, hy, hle⟩ := splitDate_eq_some.1 hs
  obtain ⟨-, hd', hy', hle'⟩ := splitDate_eq_some.1 hs'
  have hrange := serial_range hvalid
  have hrange' := serial_range hstart
  refine ⟨boundText y' m' d' hour 0 0 0x30, boundText y m d hour' 59 59 0x39, ?_,
    Int64.ofInt (dayNumber y' m' d' * 86400 + hour * 3600 + 0 * 60 + 0),
    Int64.ofInt (dayNumber y m d * 86400 + hour' * 3600 + 59 * 60 + 59),
    vibeIso8601ToEpoch_boundText hd' hy' hle' hhour (by decide) (by decide) (Or.inl rfl),
    vibeIso8601ToEpoch_boundText hd hy hle hhour' (by decide) (by decide) (Or.inr rfl), ?_, ?_⟩
  · unfold boundTexts
    rw [vibeDateFormatIso_eq hs, vibeDateFormatIso_eq hs']
    unfold ascii at hdigits hdigits' ⊢
    rw [List.map_append, List.map_append, hdigits, List.map_append, List.map_append, hdigits']
    rfl
  · rw [← serial_eq hs', Int64.toInt_ofInt_of_le] <;> omega
  · rw [← serial_eq hs, Int64.toInt_ofInt_of_le] <;> omega

/-- **The epochs of the bounds**: the first and the last second of the day. -/
theorem vibeDateApiBounds_epochs {key : Int32} {timezone : Timezone} {start finish : List UInt8}
    (h : vibeDateApiBounds key timezone = .ok (start, finish)) :
    ∃ first last : Int64, vibeIso8601ToEpoch (.ofBytes start) = .ok first ∧
      vibeIso8601ToEpoch (.ofBytes finish) = .ok last ∧
      first.toInt = firstSecond key timezone ∧ last.toInt = firstSecond key timezone + 86399 := by
  obtain ⟨hvalid, hzone⟩ := valid_of_vibeDateApiBounds h
  unfold firstSecond utcOffset
  rcases hzone with rfl | rfl
  · rw [vibeDateApiBounds_asiaShanghai hvalid] at h
    cases hadd : vibeDateAddDays key (-1) with
    | error error =>
      rw [hadd] at h
      cases h
    | ok startKey =>
      rw [hadd] at h
      obtain ⟨-, hstart, hserial⟩ := vibeDateAddDays_eq_ok.1 hadd
      have hone : (-1 : Int32).toInt = -1 := by decide
      obtain ⟨start', finish', htexts, first, last, hfirst, hlast, hfirst', hlast'⟩ :=
        @boundTexts_spec key startKey 16 15 ['1', '6'] ['1', '5'] hvalid hstart (by decide)
          (by decide) (by decide) (by decide)
      obtain ⟨rfl, rfl⟩ := Prod.mk.inj (Except.ok.inj (htexts.symm.trans h))
      refine ⟨first, last, hfirst, hlast, ?_, ?_⟩ <;> simp only [if_true] <;> omega
  · rw [vibeDateApiBounds_utc hvalid] at h
    obtain ⟨start', finish', htexts, first, last, hfirst, hlast, hfirst', hlast'⟩ :=
      @boundTexts_spec key key 0 23 ['0', '0'] ['2', '3'] hvalid hvalid (by decide)
        (by decide) (by decide) (by decide)
    obtain ⟨rfl, rfl⟩ := Prod.mk.inj (Except.ok.inj (htexts.symm.trans h))
    refine ⟨first, last, hfirst, hlast, ?_, ?_⟩ <;>
      rw [if_neg (show ¬ Timezone.utc = .asiaShanghai by decide)] <;> omega

/-- A day after one with bounds has bounds. -/
theorem exists_bounds_succ {key key' : Int32} {timezone : Timezone}
    {texts : List UInt8 × List UInt8} (h : vibeDateApiBounds key timezone = .ok texts)
    (hnext : vibeDateAddDays key 1 = .ok key') :
    ∃ start finish, vibeDateApiBounds key' timezone = .ok (start, finish) := by
  obtain ⟨hvalid, hzone⟩ := valid_of_vibeDateApiBounds h
  obtain ⟨-, hvalid', hserial⟩ := vibeDateAddDays_eq_ok.1 hnext
  have hone : (1 : Int32).toInt = 1 := by decide
  have hminus : (-1 : Int32).toInt = -1 := by decide
  rcases hzone with rfl | rfl
  · have hback : vibeDateAddDays key' (-1) = .ok key :=
      vibeDateAddDays_eq_ok.2 ⟨hvalid', hvalid, by omega⟩
    obtain ⟨start, finish, htexts, -⟩ :=
      @boundTexts_spec key' key 16 15 ['1', '6'] ['1', '5'] hvalid' hvalid (by decide)
        (by decide) (by decide) (by decide)
    refine ⟨start, finish, ?_⟩
    rw [vibeDateApiBounds_asiaShanghai hvalid', hback]
    exact htexts
  · obtain ⟨start, finish, htexts, -⟩ :=
      @boundTexts_spec key' key' 0 23 ['0', '0'] ['2', '3'] hvalid' hvalid' (by decide)
        (by decide) (by decide) (by decide)
    exact ⟨start, finish, (vibeDateApiBounds_utc hvalid').trans htexts⟩

/-- **The bounds and the filter agree**: a text is dated to the day exactly when its instant lies
within the bounds, and the bounds of the next day start where these end. -/
theorem vibeDateApiBounds_agree {key : Int32} {timezone : Timezone} {start finish : List UInt8}
    (h : vibeDateApiBounds key timezone = .ok (start, finish)) :
    ∃ first last : Int64, vibeIso8601ToEpoch (.ofBytes start) = .ok first ∧
      vibeIso8601ToEpoch (.ofBytes finish) = .ok last ∧
      (∀ text epoch, vibeIso8601ToEpoch text = .ok epoch →
        (vibeIso8601ToDate text timezone = .ok key ↔ first ≤ epoch ∧ epoch ≤ last)) ∧
      ∀ key', vibeDateAddDays key 1 = .ok key' → ∃ start' finish' first',
        vibeDateApiBounds key' timezone = .ok (start', finish') ∧
        vibeIso8601ToEpoch (.ofBytes start') = .ok first' ∧ first'.toInt = last.toInt + 1 := by
  obtain ⟨hvalid, hzone⟩ := valid_of_vibeDateApiBounds h
  obtain ⟨first, last, hfirst, hlast, hfirst', hlast'⟩ := vibeDateApiBounds_epochs h
  refine ⟨first, last, hfirst, hlast, ?_, ?_⟩
  · intro text epoch hepoch
    obtain ⟨hlow, hhigh⟩ := vibeIso8601ToEpoch_range hepoch
    have hdate : vibeIso8601ToDate text timezone = vibeDateFromEpoch epoch timezone := by
      unfold vibeIso8601ToDate
      rw [hepoch]
      rfl
    rw [hdate, vibeDateFromEpoch_eq_ok hlow hhigh hzone, Int64.le_iff_toInt_le,
      Int64.le_iff_toInt_le, hfirst', hlast']
    unfold firstSecond
    constructor
    · rintro ⟨-, hserial⟩
      omega
    · rintro ⟨hge, hle⟩
      exact ⟨hvalid, by omega⟩
  · intro key' hnext
    obtain ⟨start', finish', hbounds⟩ := exists_bounds_succ h hnext
    obtain ⟨first', -, hstart', -, hepoch', -⟩ := vibeDateApiBounds_epochs hbounds
    refine ⟨start', finish', first', hbounds, hstart', ?_⟩
    obtain ⟨-, -, hserial⟩ := vibeDateAddDays_eq_ok.1 hnext
    -- The day after starts where the last second of this one ends.
    have hone : (1 : Int32).toInt = 1 := by decide
    unfold firstSecond at hepoch' hlast'
    omega

/-- The day before a leap day, in Shanghai. -/
theorem vibeDateApiBounds_agree_leap :
    ∃ texts : List UInt8 × List UInt8, vibeDateApiBounds 20240228 .asiaShanghai = .ok texts ∧
      ∃ first last : Int64, vibeIso8601ToEpoch (.ofBytes texts.1) = .ok first ∧
      vibeIso8601ToEpoch (.ofBytes texts.2) = .ok last ∧
      (∀ text epoch, vibeIso8601ToEpoch text = .ok epoch →
        (vibeIso8601ToDate text .asiaShanghai = .ok 20240228 ↔ first ≤ epoch ∧ epoch ≤ last)) ∧
      ∀ key', vibeDateAddDays 20240228 1 = .ok key' → ∃ start' finish' first',
        vibeDateApiBounds key' .asiaShanghai = .ok (start', finish') ∧
        vibeIso8601ToEpoch (.ofBytes start') = .ok first' ∧ first'.toInt = last.toInt + 1 := by
  have hok : (vibeDateApiBounds 20240228 .asiaShanghai).isOk = true := by decide +kernel
  cases hbounds : vibeDateApiBounds 20240228 .asiaShanghai with
  | error error =>
    rw [hbounds] at hok
    cases hok
  | ok texts => exact ⟨texts, rfl, vibeDateApiBounds_agree hbounds⟩

end VibeUsage
