import VibeUsage.Gregorian
import VibeUsage.Lib.Digits
import VibeUsage.Lib.Json

/-!
# ISO 8601 timestamps

The timestamps that `vibe_iso8601_to_epoch` is for: an `IsoTimestamp` has a date of the calendar, a
time of day and an offset from UTC, all in range, and `Denotes` is the instant in seconds. The
scanner of `vibe_date.c` goes by fixed indices instead, and `vibeIso8601ToEpoch_eq_ok` says that it
accepts the texts of timestamps, with their instants.

* `isoParts_eq_some` takes a text apart into the clock, the fraction and the offset.
* `vibeIso8601_exact` is the result: what is accepted and for which instant, that an instant has one
  epoch however it is written, and that a key written as a date comes back.
A leap second is the second before it, and a fraction is dropped.
-/

namespace VibeUsage

open Rfc8259 (IsDigit)
open GregorianDate (named_iff vibeDateIsValid_iff_named)

/-! ### Timestamps -/

/-- `YYYY-MM-DD`, a separator and `HH:MM:SS`. -/
structure IsoClock where
  date : GregorianDate
  year_pos : 1 ≤ date.year
  year_le : date.year ≤ 9999
  separator : UInt8
  separator_mem : separator = 0x54 ∨ separator = 0x74 ∨ separator = 0x20
  hour : ℕ
  hour_le : hour ≤ 23
  minute : ℕ
  minute_le : minute ≤ 59
  second : ℕ
  second_le : second ≤ 60

/-- `Z`, or the signed offset of a local time from UTC. -/
inductive IsoZone where
  | utc (lower : Bool)
  | offset (west : Bool) (hour minute : ℕ) (hour_le : hour ≤ 23) (minute_le : minute ≤ 59)

/-- A dot and one or more digits, or nothing. -/
def IsFraction (fraction : List UInt8) : Prop :=
  fraction = [] ∨ ∃ digits, fraction = 0x2E :: digits ∧ digits ≠ [] ∧ ∀ b ∈ digits, IsDigit b

structure IsoTimestamp where
  clock : IsoClock
  fraction : List UInt8
  isFraction : IsFraction fraction
  zone : IsoZone

/-- `YYYY-MM-DD` -/
def GregorianDate.text (d : GregorianDate) : List UInt8 :=
  paddedDigits 4 d.year.toNat ++ 0x2D :: (paddedDigits 2 d.month.toNat ++
    0x2D :: paddedDigits 2 d.day.toNat)

/-- `HH:MM:SS` -/
def clockText (hour minute second : ℕ) : List UInt8 :=
  paddedDigits 2 hour ++ 0x3A :: (paddedDigits 2 minute ++ 0x3A :: paddedDigits 2 second)

def IsoClock.text (c : IsoClock) : List UInt8 :=
  c.date.text ++ c.separator :: clockText c.hour c.minute c.second

def IsoClock.fields (c : IsoClock) : IsoFields :=
  ⟨c.date.year, c.date.month, c.date.day, c.hour, c.minute, c.second⟩

def IsoZone.text : IsoZone → List UInt8
  | utc lower => [if lower then 0x7A else 0x5A]
  | offset west hour minute _ _ =>
    (if west then 0x2D else 0x2B) :: (paddedDigits 2 hour ++ 0x3A :: paddedDigits 2 minute)

def IsoTimestamp.text (t : IsoTimestamp) : List UInt8 := t.clock.text ++ (t.fraction ++ t.zone.text)

/-- What local clocks are ahead of UTC, in seconds. -/
def IsoZone.seconds : IsoZone → ℤ
  | utc _ => 0
  | offset west hour minute _ _ =>
    if west then -(hour * 3600 + minute * 60) else hour * 3600 + minute * 60

/-- The instant `epoch` seconds after the start of 1970-01-01 in UTC: a leap second counts as the
second before it, and the fraction does not count. -/
def IsoTimestamp.Denotes (t : IsoTimestamp) (epoch : ℤ) : Prop :=
  ∃ days, GregorianDate.unixEpoch.DaysAfter days t.clock.date ∧
    epoch = days * 86400 + t.clock.hour * 3600 + t.clock.minute * 60 + min t.clock.second 59 -
      t.zone.seconds

/-! ### The fields -/

/-- **A run of digits.** -/
theorem parseDigits_eq_some {text : CString} {offset count : ℕ} {result v : ℤ} :
    parseDigits text offset count result = some v ↔
      ∃ n : ℕ, n < 10 ^ count ∧ v = result * 10 ^ count + n ∧
        paddedDigits count n <+: text.bytes.drop offset := by
  induction count generalizing offset result with
  | zero =>
    rw [parseDigits, Option.some.injEq]
    constructor
    · rintro rfl
      exact ⟨0, by simp, by simp, List.nil_prefix⟩
    · rintro ⟨n, hn, rfl, -⟩
      obtain rfl : n = 0 := Nat.lt_one_iff.1 hn
      simp
  | succ count ih =>
    have hlow : (0x30 : UInt8).toNat = 0x30 := rfl
    have hhigh : (0x39 : UInt8).toNat = 0x39 := rfl
    -- The run splits into its first digit and the others.
    have hhead : ∀ {n : ℕ}, n < 10 ^ (count + 1) →
        (paddedDigits (count + 1) n <+: text.bytes.drop offset ↔
          (text.byteAt offset).toNat = 0x30 + n / 10 ^ count ∧
            paddedDigits count (n % 10 ^ count) <+: text.bytes.drop (offset + 1)) := by
      intro n hn
      rw [paddedDigits, CString.field_iff (digit_ne_zero (lead_lt hn)), ← UInt8.toNat_inj,
        toNat_digit (lead_lt hn)]
    rw [parseDigits]
    split
    · rename_i hbad
      rw [gt_iff_lt, UInt8.lt_iff_toNat_lt, UInt8.lt_iff_toNat_lt] at hbad
      constructor
      · intro h
        cases h
      · rintro ⟨n, hn, -, hfront⟩
        have hlead := lead_lt hn
        have hbyte := ((hhead hn).1 hfront).1
        generalize n / 10 ^ count = lead at hlead hbyte
        omega
    · rename_i hgood
      rw [gt_iff_lt, UInt8.lt_iff_toNat_lt, UInt8.lt_iff_toNat_lt] at hgood
      rw [ih]
      constructor
      · rintro ⟨n, hn, rfl, hfront⟩
        -- The number read is the first digit times a power of ten, plus the rest.
        generalize hd : (text.byteAt offset).toNat - 0x30 = d
        have hdiv : (d * 10 ^ count + n) / 10 ^ count = d := by
          rw [mul_comm, Nat.mul_add_div (by positivity), Nat.div_eq_of_lt hn, Nat.add_zero]
        have hmod : (d * 10 ^ count + n) % 10 ^ count = n := by
          rw [mul_comm, Nat.mul_add_mod, Nat.mod_eq_of_lt hn]
        have hlt : d * 10 ^ count + n < 10 ^ (count + 1) := by
          rw [pow_succ]
          have hmul : d * 10 ^ count ≤ 9 * 10 ^ count := Nat.mul_le_mul_right _ (by omega)
          omega
        refine ⟨_, hlt, ?_, (hhead hlt).2 ?_⟩
        · push_cast
          ring
        · rw [hdiv, hmod]
          exact ⟨by omega, hfront⟩
      · rintro ⟨n, hn, rfl, hfront⟩
        obtain ⟨hbyte, hfront⟩ := (hhead hn).1 hfront
        refine ⟨_, Nat.mod_lt _ (by positivity), ?_, hfront⟩
        have hsplit : (n : ℤ) = 10 ^ count * ↑(n / 10 ^ count) + ↑(n % 10 ^ count) := by
          exact_mod_cast (Nat.div_add_mod n (10 ^ count)).symm
        rw [hbyte, Nat.add_sub_cancel_left, hsplit]
        ring

/-- A field read by itself. -/
theorem parseDigits_zero_eq_some {text : CString} {offset count : ℕ} {v : ℤ} :
    parseDigits text offset count 0 = some v ↔
      ∃ n : ℕ, n < 10 ^ count ∧ v = n ∧ paddedDigits count n <+: text.bytes.drop offset := by
  rw [parseDigits_eq_some]
  simp only [Int.zero_mul, Int.zero_add]

/-- Digits are read as the number they stand for. -/
theorem parseDigits_of_front {text : CString} {offset count : ℕ} {v : ℤ} (h : 0 ≤ v)
    (hlt : v < 10 ^ count) (hfront : paddedDigits count v.toNat <+: text.bytes.drop offset) :
    parseDigits text offset count 0 = some v :=
  parseDigits_zero_eq_some.2 ⟨v.toNat, by zify; rwa [Int.toNat_of_nonneg h],
    (Int.toNat_of_nonneg h).symm, hfront⟩

/-- The fields of a date and a time of day, at their indices. -/
theorem isoText_prefix_iff {text : CString} {year month day hour minute second : ℕ}
    {separator : UInt8} (hseparator : separator ≠ 0) :
    (paddedDigits 4 year ++ 0x2D :: (paddedDigits 2 month ++ 0x2D :: paddedDigits 2 day)) ++
        separator :: clockText hour minute second <+: text.bytes.drop 0 ↔
      (paddedDigits 4 year <+: text.bytes.drop 0 ∧ text.byteAt 4 = 0x2D ∧
        paddedDigits 2 month <+: text.bytes.drop 5 ∧ text.byteAt 7 = 0x2D ∧
        paddedDigits 2 day <+: text.bytes.drop 8) ∧ text.byteAt 10 = separator ∧
      paddedDigits 2 hour <+: text.bytes.drop 11 ∧ text.byteAt 13 = 0x3A ∧
      paddedDigits 2 minute <+: text.bytes.drop 14 ∧ text.byteAt 16 = 0x3A ∧
      paddedDigits 2 second <+: text.bytes.drop 17 := by
  have hdash : (0x2D : UInt8) ≠ 0 := by decide
  have hcolon : (0x3A : UInt8) ≠ 0 := by decide
  simp only [clockText, prefix_append_iff, CString.field_iff hdash, CString.field_iff hcolon,
    CString.field_iff hseparator, List.length_append, List.length_cons, length_paddedDigits,
    Nat.reduceAdd]

/-- **The clock** is the text's first nineteen bytes. -/
theorem parseIsoFields_eq_some {text : CString} {fields : IsoFields} :
    parseIsoFields text = some fields ↔ 20 ≤ text.bytes.length ∧ text.bytes.length ≤ 64 ∧
      ∃ c : IsoClock, c.text <+: text.bytes ∧ fields = c.fields := by
  unfold parseIsoFields
  dsimp only
  constructor
  · intro h
    split at h
    · cases h
    rename_i hform
    simp only [Option.bind_eq_bind, Option.bind_eq_some_iff] at h
    obtain ⟨year, hyear, month, hmonth, day, hday, hour, hhour, minute, hminute, second, hsecond,
        h⟩ :=
      h
    split at h
    · cases h
    rename_i hrange
    obtain rfl := (Option.some.inj h).symm
    rw [parseDigits_zero_eq_some] at hyear hmonth hday hhour hminute hsecond
    obtain ⟨year, hyear, rfl, hyear'⟩ := hyear
    obtain ⟨month, hmonth, rfl, hmonth'⟩ := hmonth
    obtain ⟨day, hday, rfl, hday'⟩ := hday
    obtain ⟨hour, hhour, rfl, hhour'⟩ := hhour
    obtain ⟨minute, hminute, rfl, hminute'⟩ := hminute
    obtain ⟨second, hsecond, rfl, hsecond'⟩ := hsecond
    simp only [not_or, not_and, Int.not_lt, Nat.not_lt, gt_iff_lt, ne_eq, not_not] at hform hrange
    obtain ⟨hshort, hlong, hdash, hdash', hseparator, hcolon, hcolon'⟩ := hform
    obtain ⟨hy, hy', hm, hm', hd, hd', hh, hmin, hs⟩ := hrange
    -- The separator may be any of three bytes; none of them is the NUL that `byteAt` gives past the
    -- end.
    have hletter : text.byteAt 10 = 0x54 ∨ text.byteAt 10 = 0x74 ∨ text.byteAt 10 = 0x20 := by
      tauto
    have hne : text.byteAt 10 ≠ 0 := by
      rcases hletter with h | h | h <;> rw [h] <;> decide
    let date : GregorianDate := ⟨year, month, day, hm, hm', hd, hd'⟩
    let clock : IsoClock := ⟨date, hy, hy', text.byteAt 10, hletter, hour, by omega, minute,
      by omega, second, by omega⟩
    refine ⟨hshort, hlong, clock, ?_, rfl⟩
    exact (isoText_prefix_iff hne).2 ⟨⟨hyear', hdash, hmonth', hdash', hday'⟩, rfl, hhour', hcolon,
      hminute', hcolon', hsecond'⟩
  · rintro ⟨hshort, hlong, c, hfront, rfl⟩
    have hne : c.separator ≠ 0 := by
      rcases c.separator_mem with h | h | h <;> rw [h] <;> decide
    obtain ⟨⟨hyear, hdash, hmonth, hdash', hday⟩, hseparator, hhour, hcolon, hminute, hcolon',
      hsecond⟩ := (isoText_prefix_iff hne).1 hfront
    obtain ⟨hm, hm', hd, hd'⟩ := c.date.isDate
    have hd31 := day_le_31 c.date.isDate
    have hy := c.year_pos
    have hy' := c.year_le
    have hh := c.hour_le
    have hmin := c.minute_le
    have hs := c.second_le
    have hletter := c.separator_mem
    rw [if_neg, parseDigits_of_front (by omega) (by omega) hyear]
    · simp only [Option.bind_eq_bind, Option.bind_some]
      rw [parseDigits_of_front (by omega) (by omega) hmonth, Option.bind_some,
        parseDigits_of_front (by omega) (by omega) hday, Option.bind_some,
        parseDigits_of_front (v := c.hour) (by omega) (by omega) hhour, Option.bind_some,
        parseDigits_of_front (v := c.minute) (by omega) (by omega) hminute, Option.bind_some,
        parseDigits_of_front (v := c.second) (by omega) (by omega) hsecond, Option.bind_some,
        if_neg (by omega)]
      rfl
    · rw [hseparator, hdash, hdash', hcolon, hcolon']
      simp only [ne_eq, not_true_eq_false, false_or, or_false]
      rintro (h | h | ⟨h, h', h''⟩)
      · omega
      · omega
      · exact hletter.elim h fun hletter ↦ hletter.elim h' h''

/-! ### The fraction and the offset -/

/-- A byte that no fraction goes on with. -/
def EndsFraction (b : UInt8) : Prop := b ≠ 0x2E ∧ ¬ IsDigit b

/-- A fraction is skipped. -/
theorem skipFraction_of_isFraction {text : CString} {fraction rest : List UInt8}
    (h : IsFraction fraction) (hdrop : text.bytes.drop 19 = fraction ++ rest)
    (hrest : ∀ b ∈ rest.head?, EndsFraction b) :
    skipFraction text = some (19 + fraction.length) := by
  have hbyte : text.byteAt 19 = (fraction ++ rest).headD 0 := by
    rw [CString.byteAt, ← hdrop, List.headD_eq_head?_getD, List.head?_drop,
      List.getD_eq_getElem?_getD]
  have htail : text.bytes.drop 20 = (fraction ++ rest).tail := by
    rw [← hdrop, List.tail_drop]
  unfold skipFraction
  rw [hbyte, htail]
  obtain rfl | ⟨digits, rfl, hne, hdigits⟩ := h
  · rw [if_neg, List.length_nil]
    cases rest with
    | nil => decide
    | cons b rest => exact (hrest b rfl).1
  · have htake : (digits ++ rest).takeWhile (fun c ↦ 0x30 ≤ c ∧ c ≤ 0x39) = digits := by
      have hdecide : ∀ b ∈ digits, decide (0x30 ≤ b ∧ b ≤ 0x39) = true :=
        fun b hb ↦ decide_eq_true (hdigits b hb)
      rw [List.takeWhile_append_of_pos hdecide]
      cases rest with
      | nil => simp
      | cons b rest =>
        have hstop : ¬ (0x30 ≤ b ∧ b ≤ 0x39) := (hrest b rfl).2
        rw [List.takeWhile_cons_of_neg (by simpa using hstop), List.append_nil]
    rw [List.cons_append, List.headD_cons, if_pos rfl, List.tail_cons, htake]
    dsimp only
    rw [if_neg hne, List.length_cons]
    congr 1
    omega

/-- What is skipped is a fraction. -/
theorem exists_isFraction {text : CString} {cursor : ℕ} (h : skipFraction text = some cursor) :
    ∃ fraction, IsFraction fraction ∧
      text.bytes.drop 19 = fraction ++ text.bytes.drop cursor := by
  unfold skipFraction at h
  split at h
  · rename_i hdot
    dsimp only at h
    split at h
    · cases h
    rename_i hne
    obtain rfl := Option.some.inj h
    generalize hdigits : (text.bytes.drop 20).takeWhile (fun c ↦ 0x30 ≤ c ∧ c ≤ 0x39) = digits at *
    have hfront : digits <+: text.bytes.drop 20 := hdigits ▸ List.takeWhile_prefix _
    have hfield := (CString.field_iff (show (0x2E : UInt8) ≠ 0 by decide)).2 ⟨hdot, hfront⟩
    refine ⟨0x2E :: digits, Or.inr ⟨digits, rfl, hne, fun b hb ↦ ?_⟩, ?_⟩
    · rw [← hdigits] at hb
      have hdigit := List.mem_takeWhile_imp hb
      exact of_decide_eq_true hdigit
    · obtain ⟨rest, hrest⟩ := hfield
      have hdrop : rest = text.bytes.drop (20 + digits.length) := by
        have hcongr := congrArg (List.drop (digits.length + 1)) hrest
        rw [List.drop_drop, ← List.length_cons, List.drop_left] at hcongr
        rw [hcongr]
        congr 1
        rw [List.length_cons]
        omega
      rw [← hrest, hdrop]
  · obtain rfl := Option.some.inj h
    exact ⟨[], Or.inl rfl, rfl⟩

/-- **The offset** is the rest of the text. -/
theorem parseOffset_eq_some {text : CString} {cursor : ℕ} {offset : ℤ} :
    parseOffset text cursor = some offset ↔
      ∃ z : IsoZone, text.bytes.drop cursor = z.text ∧ offset = z.seconds := by
  have hcolon : (0x3A : UInt8) ≠ 0 := by decide
  have hlength : (text.bytes.drop cursor).length = text.bytes.length - cursor := List.length_drop
  unfold parseOffset
  dsimp only
  constructor
  · intro h
    split at h
    -- A `Z` must be the last byte.
    · rename_i hletter
      split at h
      · rename_i hend
        obtain rfl := Option.some.inj h
        have hne : text.byteAt cursor ≠ 0 := by
          rcases hletter with h | h <;> rw [h] <;> decide
        have hfront := (CString.field_iff hne).2 ⟨rfl, List.nil_prefix⟩
        have hdrop := eq_iff_front.2 ⟨hfront, by rw [hlength, List.length_singleton]; omega⟩
        rcases hletter with hletter | hletter
        · exact ⟨.utc false, by rw [hdrop, hletter]; rfl, rfl⟩
        · exact ⟨.utc true, by rw [hdrop, hletter]; rfl, rfl⟩
      · cases h
    split at h
    -- An offset must end where the text does, which makes it the rest.
    · rename_i hform
      obtain ⟨hend, hsign, hmark⟩ := hform
      simp only [Option.bind_eq_bind, Option.bind_eq_some_iff] at h
      obtain ⟨hour, hhour, minute, hminute, h⟩ := h
      rw [parseDigits_zero_eq_some] at hhour hminute
      obtain ⟨hour, -, rfl, hhour⟩ := hhour
      obtain ⟨minute, -, rfl, hminute⟩ := hminute
      split at h
      · cases h
      rename_i hrange
      obtain rfl := Option.some.inj h
      have hne : text.byteAt cursor ≠ 0 := by
        rcases hsign with h | h <;> rw [h] <;> decide
      have hfront : text.byteAt cursor :: (paddedDigits 2 hour ++ 0x3A :: paddedDigits 2 minute) <+:
          text.bytes.drop cursor := by
        rw [CString.field_iff hne, prefix_append_iff, CString.field_iff hcolon, length_paddedDigits]
        exact ⟨rfl, hhour, hmark, hminute⟩
      have hdrop := eq_iff_front.2 ⟨hfront, by
        rw [hlength, List.length_cons, List.length_append, List.length_cons, length_paddedDigits,
          length_paddedDigits]
        omega⟩
      refine ⟨.offset (decide (text.byteAt cursor = 0x2D)) hour minute (by omega) (by omega), ?_,
        ?_⟩
      · rw [hdrop]
        rcases hsign with h | h <;> rw [h] <;> rfl
      · simp only [IsoZone.seconds, decide_eq_true_eq]
    · cases h
  · rintro ⟨z, hdrop, rfl⟩
    have htext : z.text <+: text.bytes.drop cursor := hdrop ▸ List.prefix_rfl
    have hend : text.bytes.length - cursor = z.text.length := by rw [← hlength, hdrop]
    cases z with
    | utc lower =>
      rw [IsoZone.text, List.length_singleton] at hend
      have hletter : text.byteAt cursor = 0x5A ∨ text.byteAt cursor = 0x7A := by
        cases lower
        · exact Or.inl ((CString.field_iff (by decide)).1 htext).1
        · exact Or.inr ((CString.field_iff (by decide)).1 htext).1
      rw [if_pos hletter, if_pos (by omega)]
      rfl
    | offset west hour minute hhour hminute =>
      have hne : (if west then 0x2D else 0x2B : UInt8) ≠ 0 := by cases west <;> decide
      rw [IsoZone.text, CString.field_iff hne, prefix_append_iff, CString.field_iff hcolon,
        length_paddedDigits] at htext
      obtain ⟨hsign, hhour', hmark, hminute'⟩ := htext
      simp only [IsoZone.text, List.length_cons, List.length_append, length_paddedDigits] at hend
      have hletter : ¬ (text.byteAt cursor = 0x5A ∨ text.byteAt cursor = 0x7A) := by
        rw [hsign]
        cases west <;> decide
      have hform : text.byteAt cursor = 0x2B ∨ text.byteAt cursor = 0x2D := by
        rw [hsign]
        cases west <;> decide
      rw [if_neg hletter, if_pos ⟨by omega, hform, hmark⟩,
        parseDigits_of_front (v := hour) (by omega) (by omega) hhour', Option.bind_eq_bind,
        Option.bind_some,
        parseDigits_of_front (v := minute) (by omega) (by omega) hminute', Option.bind_some,
        if_neg (by omega), hsign]
      cases west <;> rfl

/-! ### The scanner -/

/-- The byte that a zone starts with. -/
theorem IsoZone.endsFraction (z : IsoZone) : ∀ b ∈ z.text.head?, EndsFraction b := by
  unfold EndsFraction
  cases z with
  | utc lower =>
    cases lower <;> rintro b ⟨⟩ <;> decide
  | offset west =>
    cases west <;> rintro b ⟨⟩ <;> decide

@[simp] theorem IsoClock.length_text (c : IsoClock) : c.text.length = 19 := by
  simp [IsoClock.text, GregorianDate.text, clockText]

/-- A timestamp has at least twenty bytes. -/
theorem IsoTimestamp.length_le (t : IsoTimestamp) : 20 ≤ t.text.length := by
  have hzone : 1 ≤ t.zone.text.length := by
    cases t.zone <;> simp [IsoZone.text]
  simp only [IsoTimestamp.text, List.length_append, IsoClock.length_text]
  omega

/-- **The texts of timestamps**, with the parts that the scanner takes from them. -/
theorem isoParts_eq_some {text : CString} {fields : IsoFields} {offset : ℤ} :
    (∃ cursor, parseIsoFields text = some fields ∧ skipFraction text = some cursor ∧
      parseOffset text cursor = some offset) ↔
      text.bytes.length ≤ 64 ∧ ∃ t : IsoTimestamp, text.bytes = t.text ∧
        fields = t.clock.fields ∧ offset = t.zone.seconds := by
  simp only [parseIsoFields_eq_some, parseOffset_eq_some]
  constructor
  · rintro ⟨cursor, ⟨-, hlong, c, ⟨rest, hclock⟩, rfl⟩, hcursor, z, hzone, rfl⟩
    obtain ⟨fraction, hfraction, hdrop⟩ := exists_isFraction hcursor
    have hrest : text.bytes.drop 19 = rest := by
      rw [← hclock, ← c.length_text, List.drop_left]
    refine ⟨hlong, ⟨c, fraction, hfraction, z⟩, ?_, rfl, rfl⟩
    rw [IsoTimestamp.text, ← hclock, ← hrest, hdrop, hzone]
  · rintro ⟨hlong, t, htext, rfl, rfl⟩
    have hdrop : text.bytes.drop 19 = t.fraction ++ t.zone.text := by
      rw [htext, IsoTimestamp.text, ← t.clock.length_text, List.drop_left]
    have hzone : text.bytes.drop (19 + t.fraction.length) = t.zone.text := by
      rw [← List.drop_drop, hdrop, List.drop_left]
    refine ⟨_, ⟨?_, hlong, t.clock, ?_, rfl⟩,
      skipFraction_of_isFraction t.isFraction hdrop t.zone.endsFraction, t.zone, hzone, rfl⟩
    · rw [htext]
      exact t.length_le
    · rw [htext]
      exact List.prefix_append _ _

/-- The instant, by the day's number. -/
def IsoTimestamp.instant (t : IsoTimestamp) : ℤ :=
  t.clock.date.number * 86400 + t.clock.hour * 3600 + t.clock.minute * 60 +
    min t.clock.second 59 - t.zone.seconds

/-- It denotes its instant. -/
theorem IsoTimestamp.denotes_iff {t : IsoTimestamp} {epoch : ℤ} :
    t.Denotes epoch ↔ epoch = t.instant := by
  simp only [Denotes, GregorianDate.daysAfter_iff, GregorianDate.number_unixEpoch, Int.zero_add]
  constructor
  · rintro ⟨_, rfl, h⟩
    exact h
  · intro h
    exact ⟨_, rfl, h⟩

/-- The epoch that the scanner makes of its parts. -/
theorem vibeIso8601ToEpoch_of_parts {text : CString} {epoch : Int64} :
    vibeIso8601ToEpoch text = .ok epoch ↔ ∃ fields offset,
      (∃ cursor, parseIsoFields text = some fields ∧ skipFraction text = some cursor ∧
        parseOffset text cursor = some offset) ∧
      Int64.ofInt (daysFromCivil fields.year fields.month fields.day * 86400 + fields.hour * 3600 +
        fields.minute * 60 + (if fields.second = 60 then 59 else fields.second) - offset) =
          epoch := by
  unfold vibeIso8601ToEpoch
  simp only [Option.bind_eq_bind, Option.pure_def]
  constructor
  · intro h
    split at h
    · cases h
    · rename_i fields offset hparts
      simp only [Option.bind_eq_some_iff, Option.some.injEq] at hparts
      obtain ⟨fields', hfields, cursor, hcursor, offset', hoffset, hpair⟩ := hparts
      obtain ⟨rfl, rfl⟩ := Prod.mk.inj hpair
      exact ⟨_, _, ⟨cursor, hfields, hcursor, hoffset⟩, Except.ok.inj h⟩
  · rintro ⟨fields, offset, ⟨cursor, hfields, hcursor, hoffset⟩, hepoch⟩
    simp only [hfields, hcursor, hoffset, Option.bind_some]
    rw [hepoch]

/-- The instant of a timestamp is far from the ends of its type. -/
theorem IsoTimestamp.toInt_ofInt (t : IsoTimestamp) : (Int64.ofInt t.instant).toInt =
    t.instant := by
  have hdays := dayNumber_range t.clock.date.isDate t.clock.year_pos t.clock.year_le
  have hhour := t.clock.hour_le
  have hminute := t.clock.minute_le
  have hzone : -86400 < t.zone.seconds ∧ t.zone.seconds < 86400 := by
    cases t.zone with
    | utc lower => exact ⟨by simp [IsoZone.seconds], by simp [IsoZone.seconds]⟩
    | offset west hour minute hhour hminute =>
      cases west <;> simp only [IsoZone.seconds] <;> split <;> omega
  unfold instant GregorianDate.number
  rw [Int64.toInt_ofInt_of_le] <;> omega

/-- What the scanner makes of the parts of a timestamp. -/
theorem IsoTimestamp.instant_eq (t : IsoTimestamp) :
    daysFromCivil t.clock.fields.year t.clock.fields.month t.clock.fields.day * 86400 +
      t.clock.fields.hour * 3600 + t.clock.fields.minute * 60 +
      (if t.clock.fields.second = 60 then 59 else t.clock.fields.second) - t.zone.seconds =
      t.instant := by
  have hsecond := t.clock.second_le
  have hdays := daysFromCivil_eq t.clock.date.isDate
  unfold instant GregorianDate.number IsoClock.fields
  dsimp only
  rw [hdays]
  split <;> omega

/-- **The epoch of a text.** -/
theorem vibeIso8601ToEpoch_eq_ok {text : CString} {epoch : Int64} :
    vibeIso8601ToEpoch text = .ok epoch ↔ text.bytes.length ≤ 64 ∧
      ∃ t : IsoTimestamp, text.bytes = t.text ∧ t.Denotes epoch.toInt := by
  rw [vibeIso8601ToEpoch_of_parts]
  simp only [isoParts_eq_some, IsoTimestamp.denotes_iff]
  constructor
  · rintro ⟨_, _, ⟨hlong, t, htext, rfl, rfl⟩, hepoch⟩
    rw [t.instant_eq] at hepoch
    exact ⟨hlong, t, htext, by rw [← hepoch, t.toInt_ofInt]⟩
  · rintro ⟨hlong, t, htext, hepoch⟩
    exact ⟨_, _, ⟨hlong, t, htext, rfl, rfl⟩, by rw [t.instant_eq, ← hepoch, Int64.ofInt_toInt]⟩

/-- One instant, whatever its offset from UTC. -/
theorem vibeIso8601ToEpoch_eq_of_denotes {text : CString} {t : IsoTimestamp} {epoch : ℤ}
    (htext : text.bytes = t.text) (hlong : text.bytes.length ≤ 64) (h : t.Denotes epoch) :
    vibeIso8601ToEpoch text = .ok (Int64.ofInt epoch) := by
  rw [IsoTimestamp.denotes_iff] at h
  exact vibeIso8601ToEpoch_eq_ok.2 ⟨hlong, t, htext, IsoTimestamp.denotes_iff.2 (by
    rw [h, t.toInt_ofInt])⟩

/-! ### Texts in UTC -/

/-- `YYYY-MM-DDTHH:MM:SSZ` -/
def isoText (year month day hour minute second : ℕ) : List UInt8 :=
  (paddedDigits 4 year ++ 0x2D :: (paddedDigits 2 month ++ 0x2D :: paddedDigits 2 day)) ++
    0x54 :: clockText hour minute second ++ [0x5A]

/-- A timestamp in UTC has twenty bytes. -/
theorem length_isoText (year month day hour minute second : ℕ) :
    (isoText year month day hour minute second).length = 20 := by
  simp [isoText, clockText]

/-- It has no NUL. -/
theorem zero_notMem_isoText {year month day hour minute second : ℕ} (hyear : year < 10 ^ 4)
    (hmonth : month < 10 ^ 2) (hday : day < 10 ^ 2) (hhour : hour < 10 ^ 2)
    (hminute : minute < 10 ^ 2) (hsecond : second < 10 ^ 2) :
    0 ∉ isoText year month day hour minute second := by
  simp only [isoText, clockText, List.mem_append, List.mem_cons, zero_notMem_paddedDigits hyear,
    zero_notMem_paddedDigits hmonth, zero_notMem_paddedDigits hday, zero_notMem_paddedDigits hhour,
    zero_notMem_paddedDigits hminute, zero_notMem_paddedDigits hsecond, List.not_mem_nil]
  decide

/-- A timestamp of twenty bytes has no fraction and is in UTC. -/
theorem IsoTimestamp.of_length {t : IsoTimestamp} (h : t.text.length = 20) :
    t.zone.seconds = 0 := by
  rw [IsoTimestamp.text, List.length_append, List.length_append, IsoClock.length_text] at h
  cases hzone : t.zone with
  | utc => rfl
  | offset =>
    simp only [hzone, IsoZone.text, List.length_cons, List.length_append, length_paddedDigits] at h
    omega

/-- **The epoch of a text in UTC**, if its fields are in range. -/
theorem vibeIso8601ToEpoch_isoText {year month day hour minute second : ℕ} {epoch : Int64}
    (hyear : year < 10 ^ 4) (hmonth : month < 10 ^ 2) (hday : day < 10 ^ 2) (hhour : hour < 10 ^ 2)
    (hminute : minute < 10 ^ 2) (hsecond : second < 10 ^ 2) :
    vibeIso8601ToEpoch (.ofBytes (isoText year month day hour minute second)) = .ok epoch ↔
      ∃ c : IsoClock, c.date.year = year ∧ c.date.month = month ∧ c.date.day = day ∧
        c.hour = hour ∧ c.minute = minute ∧ c.second = second ∧
        epoch.toInt = c.date.number * 86400 + hour * 3600 + minute * 60 + min second 59 := by
  have hbytes := CString.ofBytes_bytes_of_noNul
    (zero_notMem_isoText hyear hmonth hday hhour hminute hsecond)
  have hlength := length_isoText year month day hour minute second
  rw [vibeIso8601ToEpoch_eq_ok, hbytes, hlength]
  simp only [IsoTimestamp.denotes_iff]
  constructor
  · rintro ⟨-, t, htext, hepoch⟩
    have hzone : t.zone.seconds = 0 := IsoTimestamp.of_length (by rw [← htext, hlength])
    have hne : t.clock.separator ≠ 0 := by
      rcases t.clock.separator_mem with h | h | h <;> rw [h] <;> decide
    -- The text starts with both clocks, so the two agree field by field.
    have hclock : t.clock.text <+: (CString.ofBytes
        (isoText year month day hour minute second)).bytes.drop 0 := by
      rw [List.drop_zero, hbytes, htext]
      exact List.prefix_append _ _
    have hiso : (paddedDigits 4 year ++ 0x2D :: (paddedDigits 2 month ++
        0x2D :: paddedDigits 2 day)) ++ 0x54 :: clockText hour minute second <+:
        (CString.ofBytes (isoText year month day hour minute second)).bytes.drop 0 := by
      rw [List.drop_zero, hbytes]
      exact List.prefix_append _ _
    obtain ⟨⟨hy, -, hm, -, hd⟩, -, hh, -, hmin, -, hs⟩ := (isoText_prefix_iff hne).1 hclock
    obtain ⟨⟨hy', -, hm', -, hd'⟩, -, hh', -, hmin', -, hs'⟩ :=
      (isoText_prefix_iff (by decide)).1 hiso
    have hrange := t.clock.date.isDate
    have hd31 := day_le_31 hrange
    obtain ⟨hm1, hm12, hd1, -⟩ := hrange
    have hy1 := t.clock.year_pos
    have hy9 := t.clock.year_le
    have hh23 := t.clock.hour_le
    have hmin59 := t.clock.minute_le
    have hs60 := t.clock.second_le
    have hyeq := eq_of_front (by omega) hyear hy hy'
    have hmeq := eq_of_front (by omega) hmonth hm hm'
    have hdeq := eq_of_front (by omega) hday hd hd'
    have hheq := eq_of_front (by omega) hhour hh hh'
    have hmineq := eq_of_front (by omega) hminute hmin hmin'
    have hseq := eq_of_front (by omega) hsecond hs hs'
    refine ⟨t.clock, by omega, by omega, by omega, hheq, hmineq, hseq, ?_⟩
    rw [hepoch, IsoTimestamp.instant, hzone, hheq, hmineq, hseq, Int.sub_zero]
  · rintro ⟨c, hy, hm, hd, rfl, rfl, rfl, hepoch⟩
    -- The separator does not matter; `isoText` has a `T`.
    let clock : IsoClock := { c with separator := 0x54, separator_mem := Or.inl rfl }
    refine ⟨by decide, ⟨clock, [], Or.inl rfl, .utc false⟩, ?_, ?_⟩
    · rw [isoText, IsoTimestamp.text, IsoClock.text, GregorianDate.text, hy, hm, hd]
      simp only [Int.toNat_natCast, List.nil_append]
      rfl
    · rw [hepoch, IsoTimestamp.instant]
      exact (Int.sub_zero _).symm

/-! ### Back from a key -/

/-- A date is written as its name. -/
theorem vibeDateFormatIso_of_named {d : GregorianDate} {key : Int32} (h : d.Named key) :
    vibeDateFormatIso key = .ok d.text := by
  have hy := h.2.1
  have hm := d.isDate.month_pos
  have hd := d.isDate.day_pos
  have hthousands : (d.year / 1000).toNat = d.year.toNat / 1000 := by omega
  have hhundreds : (d.year / 100 % 10).toNat = d.year.toNat % 1000 / 100 := by omega
  have htens : (d.year / 10 % 10).toNat = d.year.toNat % 1000 % 100 / 10 := by omega
  have hones : (d.year % 10).toNat = d.year.toNat % 1000 % 100 % 10 := by omega
  have hpair : ∀ {n : ℤ}, 1 ≤ n →
      (n / 10).toNat = n.toNat / 10 ∧ (n % 10).toNat = n.toNat % 10 := by
    omega
  rw [vibeDateFormatIso_eq (named_iff.1 h), GregorianDate.text]
  simp only [digitChar, hthousands, hhundreds, htens, hones, hpair hm, hpair hd, paddedDigits,
    Nat.reducePow, Nat.div_one, List.cons_append, List.nil_append]

/-- The first second of a date, in UTC. -/
def GregorianDate.midnight (d : GregorianDate) (hy : 1 ≤ d.year) (hy' : d.year ≤ 9999) :
    IsoTimestamp where
  clock := ⟨d, hy, hy', 0x54, Or.inl rfl, 0, by decide, 0, by decide, 0, by decide⟩
  fraction := []
  isFraction := Or.inl rfl
  zone := .utc false

/-- `T00:00:00Z` -/
def midnightText : List UInt8 := ascii ['T', '0', '0', ':', '0', '0', ':', '0', '0', 'Z']

/-- Midnight is written behind the date. -/
theorem GregorianDate.text_midnight {d : GregorianDate} (hy : 1 ≤ d.year) (hy' : d.year ≤ 9999) :
    (d.midnight hy hy').text = d.text ++ midnightText := by
  have hclock : 0x54 :: (clockText 0 0 0 ++ [0x5A]) = midnightText := by decide
  rw [← hclock, IsoTimestamp.text, IsoClock.text, List.append_assoc]
  rfl

/-- **Midnight of a day** is on that day. -/
theorem vibeIso8601ToDate_midnight {d : GregorianDate} {key : Int32} (h : d.Named key) :
    vibeIso8601ToDate (.ofBytes (d.text ++ midnightText)) .utc = .ok key := by
  have hyear : d.year.toNat < 10 ^ 4 := by
    have hy := h.2.2
    omega
  have hmonth : d.month.toNat < 10 ^ 2 := by
    have hm := d.isDate.month_le
    omega
  have hday : d.day.toNat < 10 ^ 2 := by
    have hd := day_le_31 d.isDate
    omega
  have hnoNul : 0 ∉ d.text ++ midnightText := by
    rw [List.mem_append, GregorianDate.text, List.mem_append, List.mem_cons, List.mem_append,
      List.mem_cons]
    simp only [zero_notMem_paddedDigits hyear, zero_notMem_paddedDigits hmonth,
      zero_notMem_paddedDigits hday]
    decide
  have hdenotes : (d.midnight h.2.1 h.2.2).Denotes (d.number * 86400) := by
    rw [IsoTimestamp.denotes_iff]
    simp [IsoTimestamp.instant, GregorianDate.midnight, IsoZone.seconds]
  -- The year is at most 9999, so the seconds fit.
  have hdays := dayNumber_range d.isDate h.2.1 h.2.2
  have hepoch : (Int64.ofInt (d.number * 86400)).toInt = d.number * 86400 := by
    unfold GregorianDate.number
    rw [Int64.toInt_ofInt_of_le] <;> omega
  have hbytes := CString.ofBytes_bytes_of_noNul hnoNul
  have hlength : (d.text ++ midnightText).length = 20 := by
    simp [GregorianDate.text, midnightText, ascii]
  unfold vibeIso8601ToDate
  rw [vibeIso8601ToEpoch_eq_of_denotes (hbytes.trans (GregorianDate.text_midnight h.2.1 h.2.2).symm)
    (by rw [hbytes, hlength]; decide) hdenotes]
  refine (vibeDateFromEpoch_eq_ok ?_ ?_ (show Timezone.utc.Supported from Or.inr rfl)).2
    ⟨vibeDateIsValid_iff_named.2 ⟨d, h⟩, ?_⟩
  · unfold GregorianDate.number at hepoch ⊢
    omega
  · unfold GregorianDate.number at hepoch ⊢
    omega
  · rw [hepoch, ← h.number]
    show d.number = (d.number * 86400 + 0) / 86400
    omega

/-- **ISO 8601, exactly**: what is accepted and what it is taken for, that one instant has one epoch
however it is written, and that a key written as a date is read back. -/
theorem vibeIso8601_exact :
    (∀ (text : CString) (epoch : Int64), vibeIso8601ToEpoch text = .ok epoch ↔
      text.bytes.length ≤ 64 ∧ ∃ t : IsoTimestamp, text.bytes = t.text ∧ t.Denotes epoch.toInt) ∧
    (∀ (text text' : CString) (t t' : IsoTimestamp) (epoch : ℤ),
      text.bytes = t.text → text.bytes.length ≤ 64 → text'.bytes = t'.text →
      text'.bytes.length ≤ 64 → t.Denotes epoch → t'.Denotes epoch →
      vibeIso8601ToEpoch text = .ok (Int64.ofInt epoch) ∧
        vibeIso8601ToEpoch text' = vibeIso8601ToEpoch text) ∧
    ∀ key, vibeDateIsValid key = true → ∃ date, vibeDateFormatIso key = .ok date ∧
      vibeIso8601ToDate (.ofBytes (date ++ midnightText)) .utc = .ok key := by
  refine ⟨fun _ _ ↦ vibeIso8601ToEpoch_eq_ok, ?_, ?_⟩
  · intro text text' t t' epoch htext hlong htext' hlong' h h'
    have hepoch := vibeIso8601ToEpoch_eq_of_denotes htext hlong h
    exact ⟨hepoch, (vibeIso8601ToEpoch_eq_of_denotes htext' hlong' h').trans hepoch.symm⟩
  · intro key hkey
    obtain ⟨d, hd⟩ := vibeDateIsValid_iff_named.1 hkey
    exact ⟨d.text, vibeDateFormatIso_of_named hd, vibeIso8601ToDate_midnight hd⟩

end VibeUsage
