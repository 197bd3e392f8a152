import VibeUsage.Date

/-!
# The calendar of `vibe_date.c`

`days_from_civil` and `civil_from_days` are compared with a day number that is linear in the year,
its quotients and the month, where `omega` can work. The two are inverse to each other, a date key
is valid exactly when it names such a date, and keys are ordered as the days are. What the rest of
the development uses is `vibeDateAddDays_ok`: a day that is `n` days later has a serial that is `n`
greater.

The conversions are `daysFromCivil_eq` and `civilFromDays_eq`. Neither uses a table of months: March
comes first in the year that the source counts in, so that the days before a month are a linear
function of it, rounded down.
-/

namespace VibeUsage

/-! ### Day numbers -/

/-- Days since 1970-01-01 of a date of the proleptic calendar, whose years start in March. -/
def dayNumber (year month day : ℤ) : ℤ :=
  let y := if month ≤ 2 then year - 1 else year
  365 * y + y / 4 - y / 100 + y / 400 + (153 * ((month + 9) % 12) + 2) / 5 + day - 1 - 719468

/-- A date of the calendar. -/
structure IsDate (year month day : ℤ) : Prop where
  month_pos : 1 ≤ month
  month_le : month ≤ 12
  day_pos : 1 ≤ day
  day_le : day ≤ daysInMonth year month

/-- The table of the months. -/
theorem daysInMonth_eq {year month : ℤ} (h : 1 ≤ month) (h' : month ≤ 12) :
    daysInMonth year month =
      if month = 2 then (if isLeap year then 29 else 28)
      else if month = 4 ∨ month = 6 ∨ month = 9 ∨ month = 11 then 30 else 31 := by
  have hcases : month = 1 ∨ month = 2 ∨ month = 3 ∨ month = 4 ∨ month = 5 ∨ month = 6 ∨
      month = 7 ∨ month = 8 ∨ month = 9 ∨ month = 10 ∨ month = 11 ∨ month = 12 := by omega
  rcases hcases with rfl | rfl | rfl | rfl | rfl | rfl | rfl | rfl | rfl | rfl | rfl | rfl <;>
    cases hleap : isLeap year <;> simp [daysInMonth, hleap]

/-- The rule of the leap years. -/
theorem isLeap_iff {year : ℤ} :
    isLeap year = true ↔ (year % 4 = 0 ∧ year % 100 ≠ 0) ∨ year % 400 = 0 := by
  unfold isLeap
  rw [decide_eq_true_eq]

/-- A day is at most the 31st. -/
theorem day_le_31 {year month day : ℤ} (h : IsDate year month day) : day ≤ 31 := by
  have hle := h.day_le
  rw [daysInMonth_eq h.month_pos h.month_le] at hle
  split at hle
  · split at hle <;> omega
  · split at hle <;> omega

/-- A value that fits 32 bits stays as it is. -/
theorem u32_of_range {x : ℤ} (h : 0 ≤ x) (h' : x < 2 ^ 32) : u32 x = x :=
  Int.emod_eq_of_lt h h'

/-- So does a signed one. -/
theorem i32_of_range {x : ℤ} (h : -2 ^ 31 ≤ x) (h' : x < 2 ^ 31) : i32 x = x := by
  unfold i32
  rw [Int.bmod_def]
  omega

/-- The idiom of the source for a division that rounds down. -/
theorem tdiv_floor {x k : ℤ} (hk : 0 < k) :
    (if x ≥ 0 then x else x - (k - 1)).tdiv k = x / k := by
  split
  · exact Int.tdiv_eq_ediv_of_nonneg ‹_›
  · have hneg : (x - (k - 1)).tdiv k = -((k - 1 - x) / k) := by
      rw [show x - (k - 1) = -(k - 1 - x) by ring, Int.neg_tdiv,
        Int.tdiv_eq_ediv_of_nonneg (by omega)]
    have hdiv := Int.mul_ediv_add_emod (k - 1 - x) k
    have hnonneg := Int.emod_nonneg (k - 1 - x) hk.ne'
    have hlt := Int.emod_lt_of_pos (k - 1 - x) hk
    rw [hneg, eq_comm, Int.ediv_eq_iff_of_pos hk]
    constructor <;> linarith

/-! ### From a date to its day -/

/-- The day of the year, which starts in March: the months before it, and the day. -/
def dayOfYear (month day : ℤ) : ℤ := (153 * ((month + 9) % 12) + 2) / 5 + day - 1

/-- **`days_from_civil` counts days.** -/
theorem daysFromCivil_eq {year month day : ℤ} (h : IsDate year month day) :
    daysFromCivil year month day = dayNumber year month day := by
  have hd' := day_le_31 h
  obtain ⟨hm, hm', hd, -⟩ := h
  have hmonth : u32 (153 * (month + if month > 2 then -3 else 9) + 2) =
      153 * ((month + 9) % 12) + 2 := by
    rw [u32_of_range] <;> split <;> omega
  have hday : u32 ((153 * ((month + 9) % 12) + 2) / 5 + day - 1) =
      (153 * ((month + 9) % 12) + 2) / 5 + day - 1 := by
    rw [u32_of_range] <;> omega
  unfold daysFromCivil dayNumber
  dsimp only
  generalize (if month ≤ 2 then year - 1 else year) = y
  have hera : (if y ≥ 0 then y else y - 399).tdiv 400 = y / 400 := tdiv_floor (k := 400) (by decide)
  have hyoe : u32 (y - y / 400 * 400) = y % 400 := by
    rw [u32_of_range] <;> omega
  rw [hmonth, hday, hera, hyoe]
  generalize hx : (153 * ((month + 9) % 12) + 2) / 5 + day - 1 = x
  have hx0 : 0 ≤ x ∧ x ≤ 400 := by omega
  rw [u32_of_range] <;> omega

/-! ### From a day to its date -/

/-- The year of an era, from centuries, leap cycles and years. -/
theorem yearOfEra_eq {doe c q y t : ℤ} (hd : doe = 36524 * c + 1461 * q + 365 * y + t)
    (hc : 0 ≤ c) (hc' : c ≤ 3) (hq : 0 ≤ q) (hq' : q ≤ 24) (hy : 0 ≤ y) (hy' : y ≤ 3) (ht : 0 ≤ t)
    (ht' : t ≤ 364 ∨ (t = 365 ∧ y = 3)) (hlast : doe ≠ 36524 * c + 36524) :
    (doe - doe / 1460 + doe / 36524 - doe / 146096) / 365 = 100 * c + 4 * q + y := by
  have h₁ : doe / 146096 = 0 := by omega
  have h₂ : doe / 36524 = c := by omega
  have h₃ : doe / 1460 = 25 * c + q + (24 * c + q + (365 * y + t)) / 1460 := by omega
  rw [h₁, h₂, h₃]
  have h₄ : (24 * c + q + (365 * y + t)) / 1460 = 0 ∨
      (24 * c + q + (365 * y + t)) / 1460 = 1 := by omega
  rcases h₄ with h₄ | h₄ <;> rw [h₄] <;> omega

/-- The year and the day of the year of a day of an era: the day is the 366th only in the year
before a leap year. -/
theorem exists_yearOfEra {doe : ℤ} (h : 0 ≤ doe) (h' : doe ≤ 146096) :
    ∃ yoe doy, (doe - doe / 1460 + doe / 36524 - doe / 146096) / 365 = yoe ∧ 0 ≤ yoe ∧ yoe ≤ 399 ∧
      doe = 365 * yoe + yoe / 4 - yoe / 100 + doy ∧ 0 ≤ doy ∧
      (doy ≤ 364 ∨ doy = 365 ∧ (((yoe + 1) % 4 = 0 ∧ (yoe + 1) % 100 ≠ 0) ∨ yoe = 399)) := by
  by_cases hlast : doe = 146096
  · subst hlast
    exact ⟨399, 365, by decide, by decide, by decide, by decide, by
      decide, Or.inr ⟨rfl, Or.inr rfl⟩⟩
  -- a century has 24 leap cycles of 1461 days and four years of 365
  obtain ⟨c, r, hdoe, hc, hc', hr, hr'⟩ : ∃ c r, doe = 36524 * c + r ∧ 0 ≤ c ∧ c ≤ 3 ∧ 0 ≤ r ∧
      r ≤ 36523 := ⟨doe / 36524, doe % 36524, by omega, by omega, by omega, by omega, by omega⟩
  obtain ⟨q, s, hrs, hq, hq', hs, hs'⟩ : ∃ q s, r = 1461 * q + s ∧ 0 ≤ q ∧ q ≤ 24 ∧ 0 ≤ s ∧
      s ≤ 1460 := ⟨r / 1461, r % 1461, by omega, by omega, by omega, by omega, by omega⟩
  obtain ⟨y, t, hst, hy, hy', ht, ht'⟩ : ∃ y t, s = 365 * y + t ∧ 0 ≤ y ∧ y ≤ 3 ∧ 0 ≤ t ∧
      (t ≤ 364 ∨ (t = 365 ∧ y = 3)) := by
    by_cases hs4 : s = 1460
    · exact ⟨3, 365, by omega, by decide, by decide, by decide, Or.inr ⟨rfl, rfl⟩⟩
    · exact ⟨s / 365, s % 365, by omega, by omega, by omega, by omega, by omega⟩
  refine ⟨100 * c + 4 * q + y, t, yearOfEra_eq (by omega) hc hc' hq hq' hy hy' ht ht' (by omega),
    by omega, by omega, by omega, ht, ?_⟩
  rcases ht' with ht' | ⟨rfl, rfl⟩
  · exact Or.inl ht'
  · exact Or.inr ⟨rfl, Or.inl ⟨by omega, by omega⟩⟩

/-- The month and the day of a day of the year. -/
theorem exists_month {doy : ℤ} (h : 0 ≤ doy) (h' : doy ≤ 365) :
    ∃ mp month day, (5 * doy + 2) / 153 = mp ∧ 0 ≤ mp ∧ mp ≤ 11 ∧
      month = (if mp < 10 then mp + 3 else mp - 9) ∧ day = doy - (153 * mp + 2) / 5 + 1 ∧
      1 ≤ day ∧ (month = 2 → day ≤ 29 ∧ (day = 29 → doy = 365)) ∧
      (month ≠ 2 → day ≤
        if month = 4 ∨ month = 6 ∨ month = 9 ∨ month = 11 then 30 else 31) := by
  refine ⟨_, _, _, rfl, by omega, by omega, rfl, rfl, by omega, ?_, ?_⟩
  · intro hm
    have hmp : (5 * doy + 2) / 153 = 11 := by split at hm <;> omega
    rw [hmp]
    omega
  · intro hm
    have hcases : (5 * doy + 2) / 153 = 0 ∨ (5 * doy + 2) / 153 = 1 ∨ (5 * doy + 2) / 153 = 2 ∨
        (5 * doy + 2) / 153 = 3 ∨ (5 * doy + 2) / 153 = 4 ∨ (5 * doy + 2) / 153 = 5 ∨
        (5 * doy + 2) / 153 = 6 ∨ (5 * doy + 2) / 153 = 7 ∨ (5 * doy + 2) / 153 = 8 ∨
        (5 * doy + 2) / 153 = 9 ∨ (5 * doy + 2) / 153 = 10 ∨ (5 * doy + 2) / 153 = 11 := by omega
    rcases hcases with h | h | h | h | h | h | h | h | h | h | h | h <;> rw [h] at hm ⊢ <;>
      simp at hm ⊢ <;> omega

/-- **`civil_from_days` names the day**, up to the conversion of its year to `int`. -/
theorem civilFromDays_eq (days : ℤ) :
    ∃ year month day, civilFromDays days = (i32 year, month, day) ∧ IsDate year month day ∧
      dayNumber year month day = days := by
  -- Days are counted from the first of March of a year 0, in eras of 400 years, so that a leap day
  -- is the last of its year.
  have hera : (if days + 719468 ≥ 0 then days + 719468 else days + 719468 - 146096).tdiv 146097 =
      (days + 719468) / 146097 := tdiv_floor (k := 146097) (by decide)
  have hdoe : u32 (days + 719468 - (days + 719468) / 146097 * 146097) =
      (days + 719468) % 146097 := by
    rw [u32_of_range] <;> omega
  unfold civilFromDays
  dsimp only
  rw [hera, hdoe]
  generalize hera' : (days + 719468) / 146097 = era
  generalize hdoe' : (days + 719468) % 146097 = doe
  obtain ⟨yoe, doy, hyoe, hy, hy', hdoy, hd, hd'⟩ := @exists_yearOfEra doe (by omega)
    (by omega)
  have hinner : u32 (doe - doe / 1460 + doe / 36524 - doe / 146096) =
      doe - doe / 1460 + doe / 36524 - doe / 146096 := by
    rw [u32_of_range] <;> omega
  rw [hinner, hyoe]
  have hdoy' : u32 (doe - (365 * yoe + yoe / 4 - yoe / 100)) = doy := by
    rw [u32_of_range] <;> omega
  have hyear : i32 (i32 yoe + i32 (era * 400)) = i32 (yoe + era * 400) := by
    unfold i32
    rw [Int.bmod_add_bmod, Int.add_bmod_bmod]
  rw [hdoy', hyear]
  obtain ⟨mp, month, day, hmp, hm, hm', hmonth, hday, hpos, htwo, hother⟩ :=
    exists_month hd (by omega)
  -- No step on unsigned words wraps.
  have h₁ : u32 (5 * doy + 2) = 5 * doy + 2 := by rw [u32_of_range] <;> omega
  rw [h₁, hmp]
  have h₂ : u32 (153 * mp + 2) = 153 * mp + 2 := by rw [u32_of_range] <;> omega
  have hle : day ≤ 31 := by
    by_cases hm2 : month = 2
    · have := (htwo hm2).1
      omega
    · have := hother hm2
      split at this <;> omega
  have h₃ : u32 (doy - (153 * mp + 2) / 5 + 1) = day := by rw [u32_of_range] <;> omega
  have h₄ : u32 (mp + if mp < 10 then 3 else -9) = month := by
    rw [u32_of_range] <;> split at hmonth <;> split <;> omega
  rw [h₂, h₃, h₄]
  have hmonth' : 1 ≤ month ∧ month ≤ 12 := by split at hmonth <;> omega
  have hyear' : (if month ≤ 2 then i32 (i32 (yoe + era * 400) + 1) else i32 (yoe + era * 400)) =
      i32 (if month ≤ 2 then yoe + era * 400 + 1 else yoe + era * 400) := by
    split
    · unfold i32
      rw [Int.bmod_add_bmod]
    · rfl
  rw [hyear']
  refine ⟨_, month, day, rfl, ⟨hmonth'.1, hmonth'.2, hpos, ?_⟩, ?_⟩
  · rw [daysInMonth_eq hmonth'.1 hmonth'.2]
    by_cases hm2 : month = 2
    · obtain ⟨hle29, hleap⟩ := htwo hm2
      rw [if_pos hm2, if_pos (by omega : month ≤ 2)]
      by_cases h29 : day = 29
      · have hlong : isLeap (yoe + era * 400 + 1) = true := by
          rw [isLeap_iff]
          have := hleap h29
          omega
        rw [hlong, if_pos rfl]
        exact hle29
      · split <;> omega
    · rw [if_neg hm2]
      exact hother hm2
  -- March to February back to January to December.
  · unfold dayNumber
    dsimp only
    have hshift : (if month ≤ 2 then
        (if month ≤ 2 then yoe + era * 400 + 1 else yoe + era * 400) - 1 else
        (if month ≤ 2 then yoe + era * 400 + 1 else yoe + era * 400)) = yoe + era * 400 := by
      split <;> omega
    have hmod : (month + 9) % 12 = mp := by split at hmonth <;> omega
    have h₅ : (yoe + era * 400) / 4 = yoe / 4 + era * 100 := by omega
    have h₆ : (yoe + era * 400) / 100 = yoe / 100 + era * 4 := by omega
    have h₇ : (yoe + era * 400) / 400 = era := by omega
    rw [hshift, hmod, h₅, h₆, h₇]
    omega

/-- Within 2³⁸ days of the epoch the year fits an `int`. -/
theorem civilFromDays_spec {days : ℤ} (h : -2 ^ 38 ≤ days) (h' : days ≤ 2 ^ 38) :
    ∃ year month day, civilFromDays days = (year, month, day) ∧ IsDate year month day ∧
      dayNumber year month day = days := by
  obtain ⟨year, month, day, hcivil, hdate, hnumber⟩ := civilFromDays_eq days
  have hle := day_le_31 hdate
  have hpos := hdate.day_pos
  have hyear : -2 ^ 31 ≤ year ∧ year < 2 ^ 31 := by
    rw [← hnumber] at h h'
    unfold dayNumber at h h'
    dsimp only at h h'
    split at h <;> omega
  exact ⟨year, month, day, by rw [hcivil, i32_of_range hyear.1 hyear.2], hdate, hnumber⟩

/-! ### Keys -/

/-- A key that names a date of the years 1 to 9999. -/
theorem splitDate_eq_some {key year month day : ℤ} :
    splitDate key = some (year, month, day) ↔
      key = year * 10000 + month * 100 + day ∧ IsDate year month day ∧ 1 ≤ year ∧ year ≤ 9999 := by
  constructor
  · intro h
    unfold splitDate at h
    dsimp only at h
    split at h
    · cases h
    · split at h
      · rename_i hd
        obtain ⟨rfl, rfl, rfl⟩ :
            key / 10000 = year ∧ key / 100 % 100 = month ∧ key % 100 = day := by
          simpa using h
        obtain ⟨hy, hy', hm, hm', hd, hd'⟩ := hd
        exact ⟨by omega, ⟨hm, hm', hd, hd'⟩, hy, hy'⟩
      · cases h
  · rintro ⟨rfl, h, hy, hy'⟩
    have hd' := day_le_31 h
    obtain ⟨hm, hm', hd, hle⟩ := h
    have h₁ : (year * 10000 + month * 100 + day) / 10000 = year := by omega
    have h₂ : (year * 10000 + month * 100 + day) / 100 % 100 = month := by omega
    have h₃ : (year * 10000 + month * 100 + day) % 100 = day := by omega
    unfold splitDate
    dsimp only
    rw [if_neg (by omega), h₁, h₂, h₃, if_pos ⟨hy, hy', hm, hm', hd, hle⟩]

/-- The day a key names, as a number; keys that name none are all the same. -/
def serial (key : Int32) : ℤ :=
  match splitDate key.toInt with
  | some (year, month, day) => dayNumber year month day
  | none => 0

/-- A key is valid when it can be split. -/
theorem vibeDateIsValid_iff {key : Int32} :
    vibeDateIsValid key = true ↔
      ∃ year month day, splitDate key.toInt = some (year, month, day) := by
  unfold vibeDateIsValid
  rw [Option.isSome_iff_exists]
  constructor
  · rintro ⟨⟨y, m, d⟩, h⟩
    exact ⟨y, m, d, h⟩
  · rintro ⟨y, m, d, h⟩
    exact ⟨(y, m, d), h⟩

/-- The number of a key is that of its date. -/
theorem serial_eq {key : Int32} {year month day : ℤ}
    (h : splitDate key.toInt = some (year, month, day)) : serial key =
      dayNumber year month day := by
  unfold serial
  rw [h]

/-- A date is in its year. -/
theorem dayNumber_bounds {year month day : ℤ} (h : IsDate year month day) :
    dayNumber year 1 1 ≤ dayNumber year month day ∧
      dayNumber year month day < dayNumber (year + 1) 1 1 := by
  have hle := h.day_le
  obtain ⟨hm, hm', hd, -⟩ := h
  rw [daysInMonth_eq hm hm'] at hle
  have hleap : isLeap year = true → year % 4 = 0 ∧ (year % 100 ≠ 0 ∨ year % 400 = 0) := by
    rw [isLeap_iff]
    omega
  have hcases : month = 1 ∨ month = 2 ∨ month = 3 ∨ month = 4 ∨ month = 5 ∨ month = 6 ∨
      month = 7 ∨ month = 8 ∨ month = 9 ∨ month = 10 ∨ month = 11 ∨ month = 12 := by omega
  unfold dayNumber
  rcases hcases with rfl | rfl | rfl | rfl | rfl | rfl | rfl | rfl | rfl | rfl | rfl | rfl <;>
    simp at hle ⊢ <;> omega

/-- A month ends before the next one. -/
theorem dayNumber_lt_succ {year month day : ℤ} (h : IsDate year month day) (hlt : month < 12) :
    dayNumber year month day < dayNumber year (month + 1) 1 := by
  have hle := h.day_le
  obtain ⟨hm, hm', hd, -⟩ := h
  rw [daysInMonth_eq hm hm'] at hle
  have hfeb : (if isLeap year then (29 : ℤ) else 28) ≤
      28 + (year / 4 - (year - 1) / 4) - (year / 100 - (year - 1) / 100) +
        (year / 400 - (year - 1) / 400) := by
    split
    · rename_i hleap
      have := isLeap_iff.1 hleap
      omega
    · omega
  have hcases : month = 1 ∨ month = 2 ∨ month = 3 ∨ month = 4 ∨ month = 5 ∨ month = 6 ∨
      month = 7 ∨ month = 8 ∨ month = 9 ∨ month = 10 ∨ month = 11 := by omega
  unfold dayNumber
  rcases hcases with rfl | rfl | rfl | rfl | rfl | rfl | rfl | rfl | rfl | rfl | rfl <;>
    simp at hle ⊢ <;> omega

/-- Later months have larger numbers. -/
theorem dayNumber_month_mono {year month month' : ℤ} (hm : 1 ≤ month) (hle : month ≤ month')
    (hm' : month' ≤ 12) : dayNumber year month 1 ≤ dayNumber year month' 1 := by
  have hmod : (month + 9) % 12 = if month ≤ 2 then month + 9 else month - 3 := by split <;> omega
  have hmod' : (month' + 9) % 12 = if month' ≤ 2 then month' + 9 else month' - 3 := by
    split <;> omega
  unfold dayNumber
  rw [hmod, hmod']
  dsimp only
  split <;> split <;> omega

/-- So have later years. -/
theorem dayNumber_year_mono {year year' : ℤ} (h : year ≤ year') :
    dayNumber year 1 1 ≤ dayNumber year' 1 1 := by
  unfold dayNumber
  simp only [show (1 : ℤ) ≤ 2 by decide, if_true]
  omega

/-- **Dates in the order of the calendar are in the order of their days.** -/
theorem dayNumber_lt {year month day year' month' day' : ℤ} (h : IsDate year month day)
    (h' : IsDate year' month' day')
    (hlt : year * 10000 + month * 100 + day < year' * 10000 + month' * 100 + day') :
    dayNumber year month day < dayNumber year' month' day' := by
  have hd := day_le_31 h
  have hd' := day_le_31 h'
  have hday := h.day_pos
  have hday' := h'.day_pos
  have hm := h.month_pos
  have hm' := h'.month_pos
  have hmle := h.month_le
  have hmle' := h'.month_le
  rcases lt_trichotomy year year' with hy | rfl | hy
  · calc dayNumber year month day
        < dayNumber (year + 1) 1 1 := (dayNumber_bounds h).2
      _ ≤ dayNumber year' 1 1 := dayNumber_year_mono hy
      _ ≤ dayNumber year' month' day' := (dayNumber_bounds h').1
  · rcases lt_trichotomy month month' with hmonth | rfl | hmonth
    · have hfirst : dayNumber year month' 1 ≤ dayNumber year month' day' := by
        unfold dayNumber
        dsimp only
        omega
      calc dayNumber year month day
          < dayNumber year (month + 1) 1 := dayNumber_lt_succ h (by omega)
        _ ≤ dayNumber year month' 1 := dayNumber_month_mono (by omega) hmonth hmle'
        _ ≤ dayNumber year month' day' := hfirst
    · unfold dayNumber
      dsimp only
      omega
    · omega
  · omega

/-- **Valid keys are ordered as their days are.** -/
theorem serial_lt_iff {key key' : Int32} (h : vibeDateIsValid key = true)
    (h' : vibeDateIsValid key' = true) : serial key < serial key' ↔ key < key' := by
  obtain ⟨y, m, d, hs⟩ := vibeDateIsValid_iff.1 h
  obtain ⟨y', m', d', hs'⟩ := vibeDateIsValid_iff.1 h'
  obtain ⟨hkey, hd, -⟩ := splitDate_eq_some.1 hs
  obtain ⟨hkey', hd', -⟩ := splitDate_eq_some.1 hs'
  rw [serial_eq hs, serial_eq hs', Int32.lt_iff_toInt_lt]
  constructor
  · intro hlt
    by_contra hge
    rcases Int.lt_or_eq_of_le (Int.not_lt.1 hge) with hgt | heq
    · have := dayNumber_lt hd' hd (by omega)
      omega
    · rw [heq, hs] at hs'
      obtain ⟨rfl, rfl, rfl⟩ : y = y' ∧ m = m' ∧ d = d' := by simpa using hs'
      omega
  · intro hlt
    exact dayNumber_lt hd hd' (by omega)

/-- **Different keys** have different numbers. -/
theorem serial_injective {key key' : Int32} (h : vibeDateIsValid key = true)
    (h' : vibeDateIsValid key' = true) (heq : serial key = serial key') : key = key' := by
  have hlt := mt (serial_lt_iff h h').2 (by omega)
  have hgt := mt (serial_lt_iff h' h).2 (by omega)
  exact Int32.le_antisymm (Int32.not_lt.1 hgt) (Int32.not_lt.1 hlt)

/-! ### Days before and after -/

/-- A key assembled from a date of the years 1 to 9999. -/
theorem splitDate_ofInt {year month day : ℤ} (h : IsDate year month day) (hy : 1 ≤ year)
    (hy' : year ≤ 9999) :
    splitDate (Int32.ofInt (year * 10000 + month * 100 + day)).toInt = some (year, month, day) := by
  have hd := day_le_31 h
  have hm := h.month_pos
  have hm' := h.month_le
  have hd' := h.day_pos
  have hint : (Int32.ofInt (year * 10000 + month * 100 + day)).toInt =
      year * 10000 + month * 100 + day := by
    exact Int32.toInt_ofInt_of_le (by omega) (by omega)
  rw [hint]
  exact splitDate_eq_some.2 ⟨rfl, h, hy, hy'⟩

/-- The last lines of `vibe_date_add_days` and `vibe_date_from_epoch`. -/
def keyOfDays (days : ℤ) : Except VibeError Int32 :=
  let (year, month, day) := civilFromDays days
  if year < 1 ∨ year > 9999 then .error .outOfRange
  else .ok (Int32.ofInt (year * 10000 + month * 100 + day))

/-- A date is determined by its day. -/
theorem dayNumber_injective {year month day year' month' day' : ℤ} (h : IsDate year month day)
    (h' : IsDate year' month' day') (heq : dayNumber year month day = dayNumber year' month' day') :
    year = year' ∧ month = month' ∧ day = day' := by
  have hd := day_le_31 h
  have hd' := day_le_31 h'
  have hday := h.day_pos
  have hday' := h'.day_pos
  have hm := h.month_pos
  have hm' := h'.month_pos
  have hmle := h.month_le
  have hmle' := h'.month_le
  rcases lt_trichotomy (year * 10000 + month * 100 + day) (year' * 10000 + month' * 100 + day')
    with hlt | hsame | hlt
  · have := dayNumber_lt h h' hlt
    omega
  · omega
  · have := dayNumber_lt h' h hlt
    omega

/-- **The key of a day**, when it has one. -/
theorem keyOfDays_eq_ok {days : ℤ} (h : -2 ^ 38 ≤ days) (h' : days ≤ 2 ^ 38) {key : Int32} :
    keyOfDays days = .ok key ↔ vibeDateIsValid key = true ∧ serial key = days := by
  obtain ⟨y', m', d', hcivil, hd', hnumber⟩ := civilFromDays_spec h h'
  have hdef : keyOfDays days = if y' < 1 ∨ y' > 9999 then .error .outOfRange
      else .ok (Int32.ofInt (y' * 10000 + m' * 100 + d')) := by
    unfold keyOfDays
    rw [hcivil]
  rw [hdef]
  constructor
  · intro hok
    split at hok
    · cases hok
    rename_i hrange
    have hs' := splitDate_ofInt hd' (by omega) (by omega)
    rw [← Except.ok.inj hok]
    exact ⟨vibeDateIsValid_iff.2 ⟨y', m', d', hs'⟩, by rw [serial_eq hs', hnumber]⟩
  · rintro ⟨hvalid, hserial⟩
    obtain ⟨y, m, d, hs⟩ := vibeDateIsValid_iff.1 hvalid
    obtain ⟨hkey, hd, hy, hy'⟩ := splitDate_eq_some.1 hs
    rw [serial_eq hs, ← hnumber] at hserial
    obtain ⟨rfl, rfl, rfl⟩ := dayNumber_injective hd hd' hserial
    rw [if_neg (by omega), ← hkey, Int32.ofInt_toInt]

/-- The days of the years 1 to 9999. -/
theorem dayNumber_range {year month day : ℤ} (h : IsDate year month day) (hy : 1 ≤ year)
    (hy' : year ≤ 9999) : -719162 ≤ dayNumber year month day ∧
      dayNumber year month day < 2932897 := by
  have hyear := dayNumber_bounds h
  have hlow := dayNumber_year_mono hy
  have hhigh := dayNumber_year_mono (show year + 1 ≤ 10000 by omega)
  have hone : dayNumber 1 1 1 = -719162 := by decide
  have hlast : dayNumber 10000 1 1 = 2932897 := by decide
  omega

/-- The day of a valid key. -/
theorem serial_range {key : Int32} (h : vibeDateIsValid key = true) :
    -719162 ≤ serial key ∧ serial key < 2932897 := by
  obtain ⟨y, m, d, hs⟩ := vibeDateIsValid_iff.1 h
  obtain ⟨-, hd, hy, hy'⟩ := splitDate_eq_some.1 hs
  rw [serial_eq hs]
  exact dayNumber_range hd hy hy'

/-- **A day some days later**: both keys are valid, and their serials say how many. -/
theorem vibeDateAddDays_eq_ok {key delta key' : Int32} :
    vibeDateAddDays key delta = .ok key' ↔ vibeDateIsValid key = true ∧
      vibeDateIsValid key' = true ∧ serial key' = serial key + delta.toInt := by
  have hdelta : -2 ^ 31 ≤ delta.toInt ∧ delta.toInt < 2 ^ 31 :=
    ⟨Int32.le_toInt delta, Int32.toInt_lt delta⟩
  cases hs : splitDate key.toInt with
  | none =>
    have hinvalid : vibeDateIsValid key = false := by
      unfold vibeDateIsValid
      rw [hs]
      rfl
    unfold vibeDateAddDays
    rw [hs, hinvalid]
    simp
  | some ymd =>
    obtain ⟨y, m, d⟩ := ymd
    have hvalid := vibeDateIsValid_iff.2 ⟨y, m, d, hs⟩
    have hrange := serial_range hvalid
    obtain ⟨-, hd, -⟩ := splitDate_eq_some.1 hs
    have hdays : daysFromCivil y m d = serial key := by rw [serial_eq hs, daysFromCivil_eq hd]
    have hdef : vibeDateAddDays key delta = keyOfDays (serial key + delta.toInt) := by
      unfold vibeDateAddDays
      rw [hs]
      dsimp only
      rw [hdays]
      rfl
    rw [hdef, keyOfDays_eq_ok (by omega) (by omega), hvalid]
    simp

/-- A day some days later is as many days later. -/
theorem vibeDateAddDays_ok {key delta key' : Int32} (h : vibeDateAddDays key delta = .ok key') :
    vibeDateIsValid key = true ∧ vibeDateIsValid key' = true ∧
      serial key' = serial key + delta.toInt :=
  vibeDateAddDays_eq_ok.1 h

end VibeUsage
