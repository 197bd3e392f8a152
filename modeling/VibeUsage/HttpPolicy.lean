import VibeUsage.Iso8601
import VibeUsage.Lib.Decimal

/-!
# Retry-After

`vibe_http_parse_retry_after` of `vibe_http_policy.c`: the header gives a number of seconds, or an
`ImfFixdate`, which the code writes out as an ISO 8601 text and reads back. Letters are compared
with `lower` on both sides; the other bytes of a date are their own lower case, so
`prefix_lower_iff` takes such a comparison apart like any other text.

* `parseImfFixdate_eq_some` says which texts are dates, `readDelay_eq_some` which are numbers.
* `retryAfter_of_digit` and `retryAfter_of_date` are what the two come to.
* `vibeHttpParseRetryAfter_exact` is the header as a whole, for every value of it and of the clock.
-/

namespace VibeUsage

open Rfc8259 (IsDigit)

/-! ### vibe_http_policy.c -/

def isOws (b : UInt8) : Bool := b = 0x20 || b = 0x09

def skipOws (text : CString) : CString :=
  ⟨text.bytes.dropWhile isOws, fun h ↦ text.noNul ((List.dropWhile_sublist _).mem h)⟩

/-- `tolower` on one byte. -/
def lower (b : UInt8) : UInt8 := if 0x41 ≤ b ∧ b ≤ 0x5A then b + 0x20 else b

/-- `strncasecmp(text, name, strlen(name)) == 0` for a name without a NUL. -/
def startsWithName (text name : List UInt8) : Bool :=
  (text.take name.length).map lower = name.map lower

def months : List (List UInt8) :=
  [['J', 'a', 'n'], ['F', 'e', 'b'], ['M', 'a', 'r'], ['A', 'p', 'r'], ['M', 'a', 'y'],
    ['J', 'u', 'n'], ['J', 'u', 'l'], ['A', 'u', 'g'], ['S', 'e', 'p'], ['O', 'c', 't'],
    ['N', 'o', 'v'], ['D', 'e', 'c']].map ascii

/-- The number of the first month whose name the text starts with, or zero. -/
def monthNumber (text : List UInt8) : ℕ :=
  match months.findIdx? (startsWithName text) with
  | some month => month + 1
  | none => 0

def weekdays : List (List UInt8) :=
  [['M', 'o', 'n'], ['T', 'u', 'e'], ['W', 'e', 'd'], ['T', 'h', 'u'], ['F', 'r', 'i'],
    ['S', 'a', 't'], ['S', 'u', 'n']].map ascii

def validWeekday (text : List UInt8) : Bool := weekdays.any (startsWithName text)

def digitsAt (text : CString) (offset : ℕ) : (count : ℕ) → Bool
  | 0 => true
  | count + 1 =>
    if text.byteAt offset < 0x30 ∨ text.byteAt offset > 0x39 then false
    else digitsAt text (offset + 1) count

/-- `isspace` -/
def isspace (b : UInt8) : Bool := b = 0x20 || (0x09 ≤ b && b ≤ 0x0D)

/-- `sscanf` of one `%u` with a field width: white space is skipped, and the field may have a sign.
-/
def sscanfUnsigned (width : ℕ) (text : List UInt8) : Option ℕ :=
  let field := (text.dropWhile isspace).take width
  let negative := field.head? = some 0x2D
  let unsigned := if negative ∨ field.head? = some 0x2B then field.tail else field
  let digits := unsigned.takeWhile fun b ↦ IsDigit b
  if digits = [] then none
  else
    let value := digitsValue digits % 2 ^ 32
    some (if negative then (2 ^ 32 - value) % 2 ^ 32 else value)

/-- `%0<width>u` -/
def formatUnsigned (width n : ℕ) : List UInt8 :=
  if n < 10 ^ width then paddedDigits width n else Rfc8259.decimalText n

/-- The format `%04u-%02d-%02uT%02u:%02u:%02uZ`. -/
def formatIso (year month day hour minute second : ℕ) : List UInt8 :=
  (formatUnsigned 4 year ++ 0x2D :: (formatUnsigned 2 month ++ 0x2D :: formatUnsigned 2 day)) ++
    0x54 :: (formatUnsigned 2 hour ++ 0x3A :: (formatUnsigned 2 minute ++
      0x3A :: formatUnsigned 2 second)) ++ [0x5A]

def parseImfFixdate (value : CString) : Option Int64 := do
  if value.bytes.length ≠ 29 ∨ value.byteAt 3 ≠ 0x2C ∨ value.byteAt 4 ≠ 0x20 ∨
      value.byteAt 7 ≠ 0x20 ∨ value.byteAt 11 ≠ 0x20 ∨ value.byteAt 16 ≠ 0x20 ∨
      value.byteAt 19 ≠ 0x3A ∨ value.byteAt 22 ≠ 0x3A ∨ value.byteAt 25 ≠ 0x20 ∨
      (value.bytes.drop 26).map lower ≠ (ascii ['G', 'M', 'T']).map lower ∨
      ¬ validWeekday value.bytes ∨ ¬ digitsAt value 5 2 ∨ ¬ digitsAt value 12 4 ∨
      ¬ digitsAt value 17 2 ∨ ¬ digitsAt value 20 2 ∨ ¬ digitsAt value 23 2 then none
  else
    let day ← sscanfUnsigned 2 (value.bytes.drop 5)
    let year ← sscanfUnsigned 4 (value.bytes.drop 12)
    let hour ← sscanfUnsigned 2 (value.bytes.drop 17)
    let minute ← sscanfUnsigned 2 (value.bytes.drop 20)
    let second ← sscanfUnsigned 2 (value.bytes.drop 23)
    let month := monthNumber (value.bytes.drop 8)
    if month = 0 ∨ year > 9999 ∨ day = 0 ∨ day > 31 ∨ hour > 23 ∨ minute > 59 ∨ second > 59 then
      none
    else
      let iso := formatIso year month day hour minute second
      -- the buffer has room for twenty bytes and the terminator
      if iso.length = 20 then (vibeIso8601ToEpoch (.ofBytes (iso.take 20))).toOption else none

/-- The digits after `parsed`, with what follows them. The product stays below `2 ^ 64`. -/
def readDelay : (parsed : ℕ) → List UInt8 → Option (ℕ × List UInt8)
  | parsed, [] => some (parsed, [])
  | parsed, b :: rest =>
    if IsDigit b then
      let parsed := parsed * 10 + (b.toNat - 0x30)
      if parsed > 2 ^ 32 - 1 then none else readDelay parsed rest
    else some (parsed, b :: rest)

/-- The delay in seconds, when the header is accepted. -/
def vibeHttpParseRetryAfter (value : CString) (nowUtc : Int64) : Option UInt32 :=
  let value := skipOws value
  if IsDigit (value.byteAt 0) then do
    let (parsed, rest) ← readDelay 0 value.bytes
    if rest.dropWhile isOws ≠ [] then none else some (UInt32.ofNat parsed)
  else if nowUtc < 0 then none
  else do
    let retryUtc ← parseImfFixdate value
    if retryUtc ≤ nowUtc then some 0
    else
      let delta := (retryUtc - nowUtc).toUInt64
      if delta > 0xFFFFFFFF then none else some delta.toUInt32

/-! ### IMF-fixdate -/

/-- A date and a time of day in GMT, with any day of the week. -/
structure ImfFixdate where
  weekday : List UInt8
  weekday_mem : weekday ∈ weekdays
  date : GregorianDate
  year_pos : 1 ≤ date.year
  year_le : date.year ≤ 9999
  hour : ℕ
  hour_le : hour ≤ 23
  minute : ℕ
  minute_le : minute ≤ 59
  second : ℕ
  second_le : second ≤ 59

def monthName (month : ℤ) : List UInt8 := months.getD (month - 1).toNat []

/-- A text of the form `Sun, 06 Nov 1994 08:49:37 GMT`. -/
def imfText (weekday : List UInt8) (day : ℕ) (month : List UInt8)
    (year hour minute second : ℕ) : List UInt8 :=
  weekday ++ 0x2C :: 0x20 :: (paddedDigits 2 day ++ 0x20 :: (month ++
    0x20 :: (paddedDigits 4 year ++ 0x20 :: (clockText hour minute second ++
      0x20 :: ascii ['G', 'M', 'T']))))

def ImfFixdate.text (d : ImfFixdate) : List UInt8 :=
  imfText d.weekday d.date.day.toNat (monthName d.date.month) d.date.year.toNat d.hour d.minute
    d.second

/-- The instant `epoch` seconds after the start of 1970-01-01. -/
def ImfFixdate.Denotes (d : ImfFixdate) (epoch : ℤ) : Prop :=
  ∃ days, GregorianDate.unixEpoch.DaysAfter days d.date ∧
    epoch = days * 86400 + d.hour * 3600 + d.minute * 60 + d.second

/-- Equal but for the case of letters. -/
def SameLetters (a b : List UInt8) : Prop := a.map lower = b.map lower

/-! ### Letters of either case -/

/-- Not a letter. -/
def Caseless (b : UInt8) : Prop := ¬ (0x41 ≤ b ∧ b ≤ 0x5A) ∧ ¬ (0x61 ≤ b ∧ b ≤ 0x7A)

instance instDecidableCaseless (b : UInt8) : Decidable (Caseless b) :=
  inferInstanceAs (Decidable (_ ∧ _))

/-- A byte without case is its own lower one only. -/
theorem lower_eq_iff {b c : UInt8} (hc : Caseless c) : lower b = c ↔ b = c := by
  obtain ⟨hupper, hlower⟩ := hc
  have hadd : (b + 0x20).toNat = (b.toNat + 0x20) % 256 := UInt8.toNat_add b 0x20
  simp only [UInt8.le_iff_toNat_le, UInt8.reduceToNat] at hupper hlower
  unfold lower
  simp only [UInt8.le_iff_toNat_le, UInt8.reduceToNat]
  split
  · rw [← UInt8.toNat_inj, ← UInt8.toNat_inj, hadd]
    omega
  · exact Iff.rfl

/-- It is its own lower one. -/
theorem lower_of_caseless {b : UInt8} (h : Caseless b) : lower b = b := (lower_eq_iff h).2 rfl

/-- So is a text of such bytes. -/
theorem map_lower_of_caseless {a : List UInt8} (h : ∀ b ∈ a, Caseless b) : a.map lower = a := by
  rw [List.map_congr_left fun b hb ↦ lower_of_caseless (h b hb), List.map_id']

/-- **Bytes that are not letters** are the same in either case. -/
theorem prefix_lower_iff {a l : List UInt8} (h : ∀ b ∈ a, Caseless b) :
    a <+: l.map lower ↔ a <+: l := by
  induction a generalizing l with
  | nil => simp
  | cons b a ih =>
    cases l with
    | nil => simp
    | cons c l =>
      rw [List.map_cons, List.cons_prefix_cons, List.cons_prefix_cons,
        ih fun b' hb' ↦ h b' (List.mem_cons_of_mem _ hb'), eq_comm,
        lower_eq_iff (h b List.mem_cons_self), eq_comm]

/-- Digits have no case. -/
theorem caseless_of_mem_paddedDigits {width n : ℕ} (h : n < 10 ^ width) :
    ∀ b ∈ paddedDigits width n, Caseless b := by
  intro b hb
  obtain ⟨hlow, hhigh⟩ := digit_of_mem_paddedDigits h hb
  simp only [Caseless, UInt8.le_iff_toNat_le, UInt8.reduceToNat]
  omega

/-- A name is compared without its case. -/
theorem startsWithName_iff {text name : List UInt8} :
    startsWithName text name = true ↔ name.map lower <+: text.map lower := by
  rw [startsWithName, decide_eq_true_eq, List.prefix_iff_eq_take, List.length_map, List.map_take,
    eq_comm]

/-- The string in lower case. -/
def lowerText (text : CString) : CString where
  bytes := text.bytes.map lower
  noNul := by
    intro h
    obtain ⟨b, hb, hzero⟩ := List.mem_map.1 h
    rw [lower_eq_iff (by decide)] at hzero
    exact text.noNul (hzero ▸ hb)

/-- A separator stands in the lower text where it stood. -/
theorem byteAt_lowerText {text : CString} {k : ℕ} {c : UInt8} (hc : Caseless c) :
    (lowerText text).byteAt k = c ↔ text.byteAt k = c := by
  have hzero : lower 0 = 0 := by decide
  rw [CString.byteAt, lowerText, ← hzero, List.getD_map, ← CString.byteAt, lower_eq_iff hc]

/-- So do digits. -/
theorem prefix_lowerText {text : CString} {k width n : ℕ} (h : n < 10 ^ width) :
    paddedDigits width n <+: (lowerText text).bytes.drop k ↔
      paddedDigits width n <+: text.bytes.drop k := by
  rw [lowerText, ← List.map_drop, prefix_lower_iff (caseless_of_mem_paddedDigits h)]

/-- So does a name, in whatever case. -/
theorem name_prefix_lowerText {text : CString} {k : ℕ} {name : List UInt8} :
    name.map lower <+: (lowerText text).bytes.drop k ↔
      startsWithName (text.bytes.drop k) name = true := by
  rw [lowerText, ← List.map_drop, startsWithName_iff]

/-- What `parse_imf_fixdate` compares before it reads the fields. -/
structure ImfForm (value : CString) : Prop where
  length : value.bytes.length = 29
  comma : value.byteAt 3 = 0x2C
  space : value.byteAt 4 = 0x20
  afterDay : value.byteAt 7 = 0x20
  afterMonth : value.byteAt 11 = 0x20
  afterYear : value.byteAt 16 = 0x20
  afterHour : value.byteAt 19 = 0x3A
  afterMinute : value.byteAt 22 = 0x3A
  afterSecond : value.byteAt 25 = 0x20
  gmt : (value.bytes.drop 26).map lower = (ascii ['G', 'M', 'T']).map lower

/-- **The fields of a date**, at their columns. -/
theorem sameLetters_imfText_iff {value : CString} {weekday month : List UInt8}
    {day year hour minute second : ℕ} (hweekday : weekday.length = 3) (hmonth : month.length = 3)
    (hday : day < 10 ^ 2) (hyear : year < 10 ^ 4) (hhour : hour < 10 ^ 2)
    (hminute : minute < 10 ^ 2) (hsecond : second < 10 ^ 2) :
    SameLetters value.bytes (imfText weekday day month year hour minute second) ↔
      ImfForm value ∧ startsWithName value.bytes weekday = true ∧
      paddedDigits 2 day <+: value.bytes.drop 5 ∧
      startsWithName (value.bytes.drop 8) month = true ∧
      paddedDigits 4 year <+: value.bytes.drop 12 ∧
      paddedDigits 2 hour <+: value.bytes.drop 17 ∧
      paddedDigits 2 minute <+: value.bytes.drop 20 ∧
      paddedDigits 2 second <+: value.bytes.drop 23 := by
  have hcomma : Caseless 0x2C := by decide
  have hspace : Caseless 0x20 := by decide
  have hcolon : Caseless 0x3A := by decide
  have hdigits : ∀ {width n : ℕ}, n < 10 ^ width → (paddedDigits width n).map lower =
      paddedDigits width n := fun h ↦ map_lower_of_caseless (caseless_of_mem_paddedDigits h)
  have htext : (imfText weekday day month year hour minute second).map lower =
      weekday.map lower ++ 0x2C :: 0x20 :: (paddedDigits 2 day ++ 0x20 :: (month.map lower ++
        0x20 :: (paddedDigits 4 year ++ 0x20 :: (clockText hour minute second ++
          0x20 :: (ascii ['G', 'M', 'T']).map lower)))) := by
    simp only [imfText, clockText, List.map_append, List.map_cons, hdigits hday, hdigits hyear,
      hdigits hhour, hdigits hminute, hdigits hsecond, lower_of_caseless hcomma,
      lower_of_caseless hspace, lower_of_caseless hcolon]
  have hlength : (imfText weekday day month year hour minute second).length = 29 := by
    simp [imfText, clockText, hweekday, hmonth, ascii]
  have hlower : value.bytes.map lower = (lowerText value).bytes.drop 0 := rfl
  rw [SameLetters, eq_iff_front, htext, List.length_map, ← htext, List.length_map, hlength, htext,
    hlower]
  -- The text is taken apart from the left, each field at the column that the ones before it leave.
  simp only [clockText, prefix_append_iff, CString.field_iff (show (0x2C : UInt8) ≠ 0 by decide),
    CString.field_iff (show (0x20 : UInt8) ≠ 0 by decide),
    CString.field_iff (show (0x3A : UInt8) ≠ 0 by decide), byteAt_lowerText hcomma,
    byteAt_lowerText hspace, byteAt_lowerText hcolon, prefix_lowerText hday, prefix_lowerText hyear,
    prefix_lowerText hhour, prefix_lowerText hminute, prefix_lowerText hsecond,
    name_prefix_lowerText, List.length_append, List.length_cons, List.length_map,
    length_paddedDigits, hweekday, hmonth, Nat.reduceAdd]
  rw [List.drop_zero]
  have hgmt : value.bytes.length = 29 →
      (startsWithName (value.bytes.drop 26) (ascii ['G', 'M', 'T']) = true ↔
        (value.bytes.drop 26).map lower = (ascii ['G', 'M', 'T']).map lower) := by
    intro h29
    rw [startsWithName, decide_eq_true_eq, List.take_of_length_le]
    rw [List.length_drop, h29]
    decide
  constructor
  · rintro ⟨⟨hw, h₃, h₄, hd, h₇, hm, h₁₁, hy, h₁₆, ⟨hh, h₁₉, hmin, h₂₂, hs⟩, h₂₅, hg⟩, h29⟩
    exact ⟨⟨h29, h₃, h₄, h₇, h₁₁, h₁₆, h₁₉, h₂₂, h₂₅, (hgmt h29).1 hg⟩,
      hw, hd, hm, hy, hh, hmin, hs⟩
  · rintro ⟨form, hw, hd, hm, hy, hh, hmin, hs⟩
    exact ⟨⟨hw, form.comma, form.space, hd, form.afterDay, hm, form.afterMonth, hy, form.afterYear,
      ⟨hh, form.afterHour, hmin, form.afterMinute, hs⟩, form.afterSecond,
      (hgmt form.length).2 form.gmt⟩, form.length⟩

/-! ### The fields of a date -/

/-- Digits are asked for where they are read. -/
theorem digitsAt_eq (text : CString) (offset count : ℕ) (result : ℤ) :
    digitsAt text offset count = (parseDigits text offset count result).isSome := by
  induction count generalizing offset result with
  | zero => rfl
  | succ count ih =>
    rw [digitsAt, parseDigits]
    split
    · rfl
    · exact ih _ _

/-- **Digits stand there** when a number of that width does. -/
theorem digitsAt_iff {text : CString} {offset count : ℕ} :
    digitsAt text offset count = true ↔
      ∃ n < 10 ^ count, paddedDigits count n <+: text.bytes.drop offset := by
  rw [digitsAt_eq text offset count 0, Option.isSome_iff_exists]
  simp only [parseDigits_zero_eq_some]
  constructor
  · rintro ⟨v, n, hn, -, hfront⟩
    exact ⟨n, hn, hfront⟩
  · rintro ⟨n, hn, hfront⟩
    exact ⟨_, n, hn, rfl, hfront⟩

/-- **A field of digits is read as its number.** -/
theorem sscanfUnsigned_eq {width n : ℕ} {text : List UInt8} (hpos : 0 < width) (h : n < 10 ^ width)
    (hfits : n < 2 ^ 32) (hfront : paddedDigits width n <+: text) :
    sscanfUnsigned width text = some n := by
  obtain ⟨rest, rfl⟩ := hfront
  have hdigits : ∀ b ∈ paddedDigits width n, IsDigit b := by
    intro b hb
    obtain ⟨hlow, hhigh⟩ := digit_of_mem_paddedDigits h hb
    simp only [IsDigit, UInt8.le_iff_toNat_le, UInt8.reduceToNat]
    omega
  have hvalue := digitsValue_paddedDigits h
  have hlength := length_paddedDigits width n
  generalize paddedDigits width n = field at *
  cases field with
  | nil => exact absurd hlength (by simp; omega)
  | cons b field =>
    have hb := hdigits b List.mem_cons_self
    have hclear : ∀ b : UInt8, IsDigit b → isspace b = false ∧ b ≠ 0x2D ∧ b ≠ 0x2B := by
      decide +kernel
    obtain ⟨hspace, hminus, hplus⟩ := hclear b hb
    have htake : ((b :: field ++ rest).dropWhile isspace).take width = b :: field := by
      rw [List.cons_append, List.dropWhile_cons_of_neg (by simp [hspace]), ← hlength,
        ← List.cons_append, List.take_left]
    have hall : (b :: field).takeWhile (fun b ↦ IsDigit b) = b :: field :=
      List.takeWhile_eq_self_iff.2 fun c hc ↦ decide_eq_true (hdigits c hc)
    unfold sscanfUnsigned
    simp only [htake, List.head?_cons, Option.some.injEq, hminus, hplus, or_self, if_false, hall,
      hvalue, Nat.mod_eq_of_lt hfits, reduceCtorEq]

/-- A month has three letters. -/
theorem length_of_mem_months {name : List UInt8} (h : name ∈ months) : name.length = 3 := by
  revert name
  decide

/-- So has a weekday. -/
theorem length_of_mem_weekdays {name : List UInt8} (h : name ∈ weekdays) : name.length = 3 := by
  revert name
  decide

/-- So has the month of a number. -/
theorem length_monthName {month : ℤ} (h : 1 ≤ month) (h' : month ≤ 12) :
    (monthName month).length = 3 := by
  have hlt : (month - 1).toNat < months.length := by
    show (month - 1).toNat < 12
    omega
  rw [monthName, List.getD_eq_getElem _ _ hlt]
  exact length_of_mem_months (List.getElem_mem hlt)

/-- **The number of a month**, by its name. -/
theorem monthNumber_eq_iff (text : List UInt8) {month : ℕ} (h : 1 ≤ month) :
    monthNumber text = month ↔
      month ≤ 12 ∧ startsWithName text (monthName month) = true := by
  have hunique : ∀ i < 12, ∀ j < 12, (months.getD i []).map lower = (months.getD j []).map lower →
      i = j := by decide
  have hmatch : ∀ {i : ℕ} (hi : i < months.length), (startsWithName text months[i] = true ↔
      (text.take 3).map lower = months[i].map lower) := by
    intro i hi
    rw [startsWithName, decide_eq_true_eq, length_of_mem_months (List.getElem_mem hi)]
  have hfind : ∀ i, months.findIdx? (startsWithName text) = some i ↔
      i < months.length ∧ startsWithName text (months.getD i []) = true := by
    intro i
    rw [List.findIdx?_eq_some_iff_getElem]
    constructor
    · rintro ⟨hi, hname, -⟩
      exact ⟨hi, by rwa [List.getD_eq_getElem _ _ hi]⟩
    · rintro ⟨hi, hname⟩
      rw [List.getD_eq_getElem _ _ hi] at hname
      refine ⟨hi, hname, fun j hj hname' ↦ ?_⟩
      have heq := ((hmatch (hj.trans hi)).1 hname').symm.trans ((hmatch hi).1 hname)
      rw [← List.getD_eq_getElem _ [] hi, ← List.getD_eq_getElem _ [] (hj.trans hi)] at heq
      exact hj.ne (hunique j (hj.trans hi) i hi heq)
  have hlength : months.length = 12 := rfl
  have hcast : ((month : ℤ) - 1).toNat = month - 1 := by omega
  rw [monthName, hcast, monthNumber]
  constructor
  · intro heq
    cases hsome : months.findIdx? (startsWithName text) with
    | none =>
      rw [hsome] at heq
      exact absurd heq (by show (0 : ℕ) ≠ month; omega)
    | some i =>
      rw [hsome] at heq
      obtain ⟨hi, hname⟩ := (hfind i).1 hsome
      obtain rfl : i = month - 1 := by
        dsimp only at heq
        omega
      exact ⟨by omega, hname⟩
  · rintro ⟨hle, hname⟩
    rw [(hfind (month - 1)).2 ⟨by omega, hname⟩]
    exact Nat.sub_add_cancel h

/-- A weekday is one of the seven, in whatever case. -/
theorem validWeekday_iff {text : List UInt8} :
    validWeekday text = true ↔ ∃ name ∈ weekdays, startsWithName text name = true := by
  rw [validWeekday, List.any_eq_true]

/-! ### parse_imf_fixdate -/

theorem formatIso_eq {year month day hour minute second : ℕ} (hyear : year < 10 ^ 4)
    (hmonth : month < 10 ^ 2) (hday : day < 10 ^ 2) (hhour : hour < 10 ^ 2)
    (hminute : minute < 10 ^ 2) (hsecond : second < 10 ^ 2) :
    formatIso year month day hour minute second = isoText year month day hour minute second := by
  simp only [formatIso, formatUnsigned, if_pos hyear, if_pos hmonth, if_pos hday, if_pos hhour,
    if_pos hminute, if_pos hsecond, isoText, clockText]

/-- The instant, by the day's number. -/
def ImfFixdate.instant (d : ImfFixdate) : ℤ :=
  d.date.number * 86400 + d.hour * 3600 + d.minute * 60 + d.second

/-- A date denotes its instant. -/
theorem ImfFixdate.denotes_iff {d : ImfFixdate} {epoch : ℤ} :
    d.Denotes epoch ↔ epoch = d.instant := by
  simp only [Denotes, GregorianDate.daysAfter_iff, GregorianDate.number_unixEpoch, Int.zero_add]
  constructor
  · rintro ⟨_, rfl, h⟩
    exact h
  · intro h
    exact ⟨_, rfl, h⟩

/-- **What is read back** from the fields of a date. -/
theorem epoch_of_fields {year month day hour minute second : ℕ} {epoch : Int64}
    (hyear : year < 10 ^ 4) (hmonth : month < 10 ^ 2) (hday : day < 10 ^ 2) (hhour : hour ≤ 23)
    (hminute : minute ≤ 59) (hsecond : second ≤ 59) {weekday : List UInt8}
    (hweekday : weekday ∈ weekdays) :
    (let iso := formatIso year month day hour minute second
      if iso.length = 20 then (vibeIso8601ToEpoch (.ofBytes (iso.take 20))).toOption else none) =
        some epoch ↔
      ∃ d : ImfFixdate, d.weekday = weekday ∧ d.date.year = year ∧ d.date.month = month ∧
        d.date.day = day ∧ d.hour = hour ∧ d.minute = minute ∧ d.second = second ∧
        d.Denotes epoch.toInt := by
  have hlength := length_isoText year month day hour minute second
  dsimp only
  rw [formatIso_eq hyear hmonth hday (by omega) (by omega) (by omega), if_pos hlength,
    List.take_of_length_le hlength.le]
  have hoption : ∀ result : Except VibeError Int64,
      result.toOption = some epoch ↔ result = .ok epoch := by
    rintro (error | epoch') <;> simp [Except.toOption]
  rw [hoption, vibeIso8601ToEpoch_isoText hyear hmonth hday (by omega) (by omega) (by omega)]
  have hmin : min second 59 = second := by omega
  simp only [ImfFixdate.denotes_iff, ImfFixdate.instant, hmin]
  constructor
  · rintro ⟨c, hy, hm, hd, rfl, rfl, rfl, hepoch⟩
    exact ⟨⟨weekday, hweekday, c.date, c.year_pos, c.year_le, c.hour, c.hour_le, c.minute,
      c.minute_le, c.second, hsecond⟩, rfl, hy, hm, hd, rfl, rfl, rfl, hepoch⟩
  · rintro ⟨d, -, hy, hm, hd, rfl, rfl, rfl, hepoch⟩
    exact ⟨⟨d.date, d.year_pos, d.year_le, 0x54, Or.inl rfl, d.hour, d.hour_le, d.minute,
      d.minute_le, d.second, by omega⟩, hy, hm, hd, rfl, rfl, rfl, hepoch⟩

/-- **A date is accepted for its instant.** -/
theorem parseImfFixdate_eq_some {value : CString} {epoch : Int64} :
    parseImfFixdate value = some epoch ↔
      ∃ d : ImfFixdate, SameLetters value.bytes d.text ∧ d.Denotes epoch.toInt := by
  unfold parseImfFixdate
  dsimp only
  constructor
  · intro h
    split at h
    · cases h
    rename_i hchecks
    simp only [not_or, ne_eq, not_not] at hchecks
    -- The separators make the form, the digits and the names the fields.
    obtain ⟨h29, h₃, h₄, h₇, h₁₁, h₁₆, h₁₉, h₂₂, h₂₅, hgmt, hw, hd, hy, hh, hmin, hs⟩ := hchecks
    have form : ImfForm value := ⟨h29, h₃, h₄, h₇, h₁₁, h₁₆, h₁₉, h₂₂, h₂₅, hgmt⟩
    obtain ⟨weekday, hweekday, hname⟩ := validWeekday_iff.1 hw
    obtain ⟨day, hday, hd⟩ := digitsAt_iff.1 hd
    obtain ⟨year, hyear, hy⟩ := digitsAt_iff.1 hy
    obtain ⟨hour, hhour, hh⟩ := digitsAt_iff.1 hh
    obtain ⟨minute, hminute, hmin⟩ := digitsAt_iff.1 hmin
    obtain ⟨second, hsecond, hs⟩ := digitsAt_iff.1 hs
    simp only [sscanfUnsigned_eq (by decide) hday (by omega) hd,
      sscanfUnsigned_eq (by decide) hyear (by omega) hy,
      sscanfUnsigned_eq (by decide) hhour (by omega) hh,
      sscanfUnsigned_eq (by decide) hminute (by omega) hmin,
      sscanfUnsigned_eq (by decide) hsecond (by omega) hs, Option.bind_eq_bind,
      Option.bind_some] at h
    split at h
    · cases h
    rename_i hrange
    generalize hnumber : monthNumber (value.bytes.drop 8) = month at h hrange
    obtain ⟨hmonth, hmonthName⟩ := (monthNumber_eq_iff _ (by omega)).1 hnumber
    have hlength : (monthName month).length = 3 := length_monthName (by omega) (by omega)
    obtain ⟨d, rfl, hy', hm', hd', rfl, rfl, rfl, hdenotes⟩ :=
      (epoch_of_fields hyear (by omega) hday
      (by omega) (by omega) (by omega) hweekday).1 h
    refine ⟨d, ?_, hdenotes⟩
    rw [ImfFixdate.text, hy', hm', hd', Int.toNat_natCast, Int.toNat_natCast,
      sameLetters_imfText_iff (length_of_mem_weekdays hweekday) hlength hday hyear hhour hminute
        hsecond]
    exact ⟨form, hname, hd, hmonthName, hy, hh, hmin, hs⟩
  -- `sscanf` reads at most two digits a field, which the separators behind them bear out.
  · rintro ⟨d, htext, hdenotes⟩
    have hm := d.date.isDate.month_pos
    have hm12 := d.date.isDate.month_le
    have hd := d.date.isDate.day_pos
    have hd31 := day_le_31 d.date.isDate
    have hy := d.year_pos
    have hy9 := d.year_le
    have hh := d.hour_le
    have hmin := d.minute_le
    have hs := d.second_le
    have hday : d.date.day.toNat < 10 ^ 2 := by omega
    have hyear : d.date.year.toNat < 10 ^ 4 := by omega
    have hmonth : d.date.month.toNat < 10 ^ 2 := by omega
    rw [ImfFixdate.text, sameLetters_imfText_iff (length_of_mem_weekdays d.weekday_mem)
      (length_monthName hm hm12) hday hyear (by omega) (by omega) (by omega)] at htext
    obtain ⟨form, hname, hd', hmonthName, hy', hh', hmin', hs'⟩ := htext
    have hnumber : monthNumber (value.bytes.drop 8) = d.date.month.toNat := by
      rw [monthNumber_eq_iff _ (by omega), Int.toNat_of_nonneg (by omega)]
      exact ⟨by omega, hmonthName⟩
    rw [if_neg]
    · simp only [sscanfUnsigned_eq (by decide) hday (by omega) hd',
        sscanfUnsigned_eq (by decide) hyear (by omega) hy',
        sscanfUnsigned_eq (by decide) (show d.hour < 10 ^ 2 by omega) (by omega) hh',
        sscanfUnsigned_eq (by decide) (show d.minute < 10 ^ 2 by omega) (by omega) hmin',
        sscanfUnsigned_eq (by decide) (show d.second < 10 ^ 2 by omega) (by omega) hs',
        Option.bind_eq_bind, Option.bind_some, hnumber]
      rw [if_neg (by omega)]
      exact (epoch_of_fields hyear hmonth hday hh hmin hs d.weekday_mem).2 ⟨d, rfl, by omega,
        by omega, by omega, rfl, rfl, rfl, hdenotes⟩
    · simp only [form.length, form.comma, form.space, form.afterDay, form.afterMonth,
        form.afterYear,
        form.afterHour, form.afterMinute, form.afterSecond, form.gmt,
        validWeekday_iff.2 ⟨_, d.weekday_mem, hname⟩, digitsAt_iff.2 ⟨_, hday, hd'⟩,
        digitsAt_iff.2 ⟨_, hyear, hy'⟩, digitsAt_iff.2 ⟨_, show d.hour < 10 ^ 2 by omega, hh'⟩,
        digitsAt_iff.2 ⟨_, show d.minute < 10 ^ 2 by omega, hmin'⟩,
        digitsAt_iff.2 ⟨_, show d.second < 10 ^ 2 by omega, hs'⟩]
      decide

/-! ### vibe_http_parse_retry_after -/

/-- Spaces and tabs. -/
def IsOws (bytes : List UInt8) : Prop := ∀ b ∈ bytes, b = 0x20 ∨ b = 0x09

/-- What a header without leading white space asks for, in seconds from `now`. -/
inductive Asks (now : ℤ) : List UInt8 → ℕ → Prop where
  | seconds (digits ows : List UInt8) (hne : digits ≠ []) (hdigits : ∀ b ∈ digits, IsDigit b)
      (hows : IsOws ows) : Asks now (digits ++ ows) (digitsValue digits)
  | date (d : ImfFixdate) (bytes : List UInt8) (epoch : ℤ) (hnow : 0 ≤ now)
      (htext : SameLetters bytes d.text) (hdenotes : d.Denotes epoch) :
      Asks now bytes (max 0 (epoch - now)).toNat

/-- A space or a tab. -/
theorem isOws_iff {b : UInt8} : isOws b = true ↔ b = 0x20 ∨ b = 0x09 := by
  simp [isOws]

/-- A digit is neither. -/
theorem isOws_of_digit {b : UInt8} (h : IsDigit b) : isOws b = false := by
  revert b
  decide +kernel

/-- Space in front is skipped. -/
theorem dropWhile_isOws {ows : List UInt8} (h : IsOws ows) (rest : List UInt8) :
    (ows ++ rest).dropWhile isOws = rest.dropWhile isOws := by
  induction ows with
  | nil => rfl
  | cons b ows ih =>
    rw [List.cons_append, List.dropWhile_cons_of_pos (isOws_iff.2 (h b List.mem_cons_self))]
    exact ih fun b' hb' ↦ h b' (List.mem_cons_of_mem b hb')

/-- Nothing but space is left. -/
theorem dropWhile_isOws_eq_nil_iff {ows : List UInt8} : ows.dropWhile isOws = [] ↔ IsOws ows := by
  rw [List.dropWhile_eq_nil_iff]
  simp only [isOws_iff, IsOws]

/-- White space is skipped up to a byte that is none. -/
theorem skipOws_of_append {value : CString} {ows bytes : List UInt8} (h : IsOws ows)
    (hvalue : value.bytes = ows ++ bytes) {b : UInt8} {tail : List UInt8}
      (hhead : bytes = b :: tail)
    (hb : isOws b = false) : (skipOws value).bytes = bytes := by
  show value.bytes.dropWhile isOws = bytes
  rw [hvalue, dropWhile_isOws h, hhead, List.dropWhile_cons_of_neg (by simp [hb])]

/-- What is skipped is space. -/
theorem exists_skipOws (value : CString) :
    ∃ ows, IsOws ows ∧ value.bytes = ows ++ (skipOws value).bytes :=
  ⟨value.bytes.takeWhile isOws, fun _ hb ↦ isOws_iff.1 (List.mem_takeWhile_imp hb),
    List.takeWhile_append_dropWhile.symm⟩

/-- The digits that `bytes` starts with continue `parsed` to `v`, and `rest` follows them. -/
def DigitRun (parsed : ℕ) (bytes : List UInt8) (v : ℕ) (rest : List UInt8) : Prop :=
  ∃ digits, bytes = digits ++ rest ∧ (∀ b ∈ digits, IsDigit b) ∧ (∀ b ∈ rest.head?, ¬ IsDigit b) ∧
    v = digitsFrom parsed digits

/-- **One more digit.** -/
theorem digitRun_cons {parsed v : ℕ} {b : UInt8} {bytes rest : List UInt8} (hb : IsDigit b) :
    DigitRun parsed (b :: bytes) v rest ↔
      DigitRun (parsed * 10 + (b.toNat - 0x30)) bytes v rest := by
  constructor
  · rintro ⟨digits, hbytes, hdigits, hrest, hv⟩
    cases digits with
    | nil =>
      obtain rfl : b :: bytes = rest := hbytes
      exact absurd hb (hrest b rfl)
    | cons c digits =>
      obtain ⟨rfl, rfl⟩ := List.cons.inj hbytes
      exact ⟨digits, rfl, fun b' hb' ↦ hdigits b' (List.mem_cons_of_mem _ hb'), hrest, hv⟩
  · rintro ⟨digits, rfl, hdigits, hrest, hv⟩
    exact ⟨b :: digits, rfl, List.forall_mem_cons.2 ⟨hb, hdigits⟩, hrest, hv⟩

/-- A run ends where no digit follows. -/
theorem digitRun_of_not_digit {parsed v : ℕ} {bytes rest : List UInt8}
    (h : ∀ b ∈ bytes.head?, ¬ IsDigit b) :
    DigitRun parsed bytes v rest ↔ v = parsed ∧ rest = bytes := by
  constructor
  · rintro ⟨digits, rfl, hdigits, -, rfl⟩
    cases digits with
    | nil => exact ⟨rfl, rfl⟩
    | cons c digits => exact absurd (hdigits c List.mem_cons_self) (h c rfl)
  · rintro ⟨rfl, rfl⟩
    exact ⟨[], rfl, by simp, h, rfl⟩

/-- **The loop over the digits**, which gives up past 32 bits. -/
theorem readDelay_eq_some {parsed v : ℕ} {bytes rest : List UInt8} (h : parsed ≤ 2 ^ 32 - 1) :
    readDelay parsed bytes = some (v, rest) ↔ DigitRun parsed bytes v rest ∧ v ≤ 2 ^ 32 - 1 := by
  induction bytes generalizing parsed with
  | nil =>
    rw [readDelay, digitRun_of_not_digit (by simp), Option.some.injEq, Prod.mk.injEq]
    constructor
    · rintro ⟨rfl, rfl⟩
      exact ⟨⟨rfl, rfl⟩, h⟩
    · rintro ⟨⟨rfl, rfl⟩, -⟩
      exact ⟨rfl, rfl⟩
  | cons b bytes ih =>
    rw [readDelay]
    dsimp only
    split
    · rename_i hb
      rw [digitRun_cons hb]
      split
      · rename_i hbig
        constructor
        · intro hnone
          cases hnone
        · -- the value only grows
          rintro ⟨⟨digits, -, -, -, rfl⟩, hle⟩
          have hgrows := le_digitsFrom (parsed * 10 + (b.toNat - 0x30)) digits
          omega
      · rename_i hsmall
        exact ih (not_lt.1 hsmall)
    · rename_i hb
      rw [digitRun_of_not_digit fun b' hb' ↦ by cases hb'; exact hb, Option.some.injEq,
        Prod.mk.injEq]
      constructor
      · rintro ⟨rfl, rfl⟩
        exact ⟨⟨rfl, rfl⟩, h⟩
      · rintro ⟨⟨rfl, rfl⟩, -⟩
        exact ⟨rfl, rfl⟩

/-- The instants of the years 1 to 9999. -/
theorem ImfFixdate.instant_range (d : ImfFixdate) :
    -62135596800 ≤ d.instant ∧ d.instant < 253402300800 := by
  have hdays := year_range_iff.1 ⟨d.year_pos, d.year_le⟩
  have hhour := d.hour_le
  have hminute := d.minute_le
  have hsecond := d.second_le
  unfold instant
  omega

/-- Every instant of these years is denoted. -/
theorem exists_imfFixdate {epoch : ℤ} (h : -62135596800 ≤ epoch) (h' : epoch < 253402300800) :
    ∃ d : ImfFixdate, d.Denotes epoch := by
  obtain ⟨date, hnumber⟩ := GregorianDate.exists_number (epoch / 86400)
  obtain ⟨hy, hy'⟩ := year_range_iff.2 (show _ ≤ date.number ∧ date.number < _ by omega)
  refine ⟨⟨ascii ['M', 'o', 'n'], by decide, date, hy, hy', (epoch % 86400 / 3600).toNat, by omega,
    (epoch % 3600 / 60).toNat, by omega, (epoch % 60).toNat, by omega⟩, ?_⟩
  rw [ImfFixdate.denotes_iff, ImfFixdate.instant]
  dsimp only
  omega

/-- A run begins with a digit. -/
theorem head_digits {digits : List UInt8} (rest : List UInt8) (hne : digits ≠ [])
    (hdigits : ∀ b ∈ digits, IsDigit b) : ∃ b tail, digits ++ rest = b :: tail ∧ IsDigit b := by
  cases digits with
  | nil => exact absurd rfl hne
  | cons b digits => exact ⟨b, digits ++ rest, rfl, hdigits b List.mem_cons_self⟩

/-- A date starts with a letter. -/
theorem head_date {d : ImfFixdate} {bytes : List UInt8} (h : SameLetters bytes d.text) :
    ∃ b tail, bytes = b :: tail ∧ ¬ IsDigit b ∧ isOws b = false := by
  have hletters : ∀ name ∈ weekdays, ∀ b ∈ name, ∀ c, lower c = lower b →
      ¬ IsDigit c ∧ isOws c = false := by decide +kernel
  have hweekday := length_of_mem_weekdays d.weekday_mem
  cases hname : d.weekday with
  | nil =>
    rw [hname] at hweekday
    cases hweekday
  | cons b name =>
    rw [SameLetters, ImfFixdate.text, imfText, hname] at h
    cases bytes with
    | nil => cases h
    | cons c bytes =>
      obtain ⟨hlower, -⟩ := List.cons.inj h
      obtain ⟨hdigit, hows⟩ := hletters _ d.weekday_mem b
        (by rw [hname]; exact List.mem_cons_self) c
        hlower
      exact ⟨c, bytes, rfl, hdigit, hows⟩

/-- **A number of seconds.** -/
theorem retryAfter_of_digit {value : CString} {now : Int64} {delay : UInt32}
    (h : IsDigit ((skipOws value).byteAt 0)) :
    vibeHttpParseRetryAfter value now = some delay ↔
      ∃ digits ows, (skipOws value).bytes = digits ++ ows ∧ digits ≠ [] ∧
        (∀ b ∈ digits, IsDigit b) ∧ IsOws ows ∧ digitsValue digits = delay.toNat := by
  have hows : ∀ b : UInt8, b = 0x20 ∨ b = 0x09 → ¬ IsDigit b := by
    rintro b (rfl | rfl) <;> decide
  obtain ⟨b, tail, htail, hb⟩ : ∃ b tail, (skipOws value).bytes = b :: tail ∧ IsDigit b := by
    unfold CString.byteAt at h
    cases htail : (skipOws value).bytes with
    | nil =>
      rw [htail] at h
      exact absurd h (by decide)
    | cons b tail =>
      rw [htail] at h
      exact ⟨b, tail, rfl, h⟩
  unfold vibeHttpParseRetryAfter
  dsimp only
  rw [if_pos h]
  simp only [Option.bind_eq_bind, Option.bind_eq_some_iff, Prod.exists,
    readDelay_eq_some (show 0 ≤ 2 ^ 32 - 1 by decide), ne_eq, ite_not]
  constructor
  · rintro ⟨v, rest, ⟨⟨digits, hbytes, hdigits, -, rfl⟩, hle⟩, hdelay⟩
    split at hdelay
    · rename_i hrest
      obtain rfl := Option.some.inj hdelay
      have hrest := dropWhile_isOws_eq_nil_iff.1 hrest
      refine ⟨digits, rest, hbytes, ?_, hdigits, hrest, ?_⟩
      · rintro rfl
        obtain rfl : b :: tail = rest := htail.symm.trans hbytes
        exact hows b (hrest b List.mem_cons_self) hb
      · rw [UInt32.toNat_ofNat', Nat.mod_eq_of_lt (by omega), digitsValue]
    · cases hdelay
  · rintro ⟨digits, ows, hbytes, hne, hdigits, hows', hvalue⟩
    have hlt := delay.toNat_lt
    refine ⟨digitsValue digits, ows, ⟨⟨digits, hbytes, hdigits, fun b hb ↦ ?_, rfl⟩, by omega⟩, ?_⟩
    · exact hows b (hows' b (List.mem_of_mem_head? hb))
    · rw [if_pos (dropWhile_isOws_eq_nil_iff.2 hows'), hvalue, UInt32.ofNat_toNat]

/-- **A date.** -/
theorem retryAfter_of_date {value : CString} {now : Int64} {d : ImfFixdate} (hnow : 0 ≤ now.toInt)
    (h : SameLetters (skipOws value).bytes d.text) :
    vibeHttpParseRetryAfter value now =
      if max 0 (d.instant - now.toInt) ≤ 2 ^ 32 - 1 then
        some (UInt32.ofNat (max 0 (d.instant - now.toInt)).toNat)
      else none := by
  obtain ⟨b, tail, hbytes, hb, -⟩ := head_date h
  have hrange := d.instant_range
  have hupper := now.toInt_lt
  have hepoch : (Int64.ofInt d.instant).toInt = d.instant :=
    Int64.toInt_ofInt_of_le (by omega) (by omega)
  have hparse : parseImfFixdate (skipOws value) = some (Int64.ofInt d.instant) :=
    parseImfFixdate_eq_some.2 ⟨d, h, ImfFixdate.denotes_iff.2 hepoch⟩
  have hfirst : ¬ IsDigit ((skipOws value).byteAt 0) := by
    rw [CString.byteAt, hbytes]
    exact hb
  have hnonneg : ¬ now < 0 := by
    rw [Int64.lt_iff_toInt_lt]
    exact not_lt.2 hnow
  unfold vibeHttpParseRetryAfter
  dsimp only
  rw [if_neg hfirst, if_neg hnonneg, hparse, Option.bind_eq_bind, Option.bind_some]
  split
  · rename_i hle
    rw [Int64.le_iff_toInt_le, hepoch] at hle
    rw [max_eq_left (by omega), if_pos (by decide)]
    rfl
  · rename_i hlt
    rw [Int64.le_iff_toInt_le, hepoch] at hlt
    rw [max_eq_right (by omega)]
    -- The two instants are within the years 1 to 9999 and an `int64_t`, so the difference does not
    -- wrap.
    have hdelta : (Int64.ofInt d.instant - now).toInt = d.instant - now.toInt := by
      rw [Int64.toInt_sub, hepoch, Int.bmod_eq_of_le] <;> omega
    have hword : (Int64.ofInt d.instant - now).toUInt64.toNat = (d.instant - now.toInt).toNat := by
      have hle : 0 ≤ Int64.ofInt d.instant - now := by
        rw [Int64.le_iff_toInt_le, hdelta]
        exact (show (0 : ℤ) ≤ _ by omega)
      rw [Int64.toNat_toUInt64_of_le hle, Int64.toNatClampNeg, hdelta]
    have hbound : ((Int64.ofInt d.instant - now).toUInt64 > 0xFFFFFFFF) ↔
        ¬ (d.instant - now.toInt ≤ 2 ^ 32 - 1) := by
      rw [gt_iff_lt, UInt64.lt_iff_toNat_lt, hword]
      show 0xFFFFFFFF < (d.instant - now.toInt).toNat ↔ _
      omega
    simp only [hbound, ite_not]
    split
    · congr 1
      rw [← UInt32.toNat_inj, UInt64.toNat_toUInt32, hword, UInt32.toNat_ofNat']
    · rfl

/-- What is no number of seconds is a date. -/
theorem exists_date_of_some {value : CString} {now : Int64} {delay : UInt32}
    (hdigit : ¬ IsDigit ((skipOws value).byteAt 0))
    (h : vibeHttpParseRetryAfter value now = some delay) :
    ∃ d : ImfFixdate, 0 ≤ now.toInt ∧ SameLetters (skipOws value).bytes d.text := by
  unfold vibeHttpParseRetryAfter at h
  dsimp only at h
  rw [if_neg hdigit] at h
  split at h
  · cases h
  · rename_i hnow
    obtain ⟨retry, hretry, -⟩ := Option.bind_eq_some_iff.1 h
    obtain ⟨d, htext, -⟩ := parseImfFixdate_eq_some.1 hretry
    rw [Int64.lt_iff_toInt_lt] at hnow
    exact ⟨d, not_lt.1 hnow, htext⟩

/-- The text of a date is a C string without white space before it. -/
theorem ImfFixdate.skipOws_text (d : ImfFixdate) : (skipOws (.ofBytes d.text)).bytes = d.text := by
  have hm := d.date.isDate.month_pos
  have hm' := d.date.isDate.month_le
  have hd := day_le_31 d.date.isDate
  have hy := d.year_le
  have hh := d.hour_le
  have hmin := d.minute_le
  have hs := d.second_le
  have hweekday : 0 ∉ d.weekday := by
    have hnames : ∀ name ∈ weekdays, 0 ∉ name := by decide
    exact hnames _ d.weekday_mem
  have hmonth : 0 ∉ monthName d.date.month := by
    have hnames : ∀ name ∈ months, 0 ∉ name := by decide
    have hlt : (d.date.month - 1).toNat < months.length := by
      show (d.date.month - 1).toNat < 12
      omega
    rw [monthName, List.getD_eq_getElem _ _ hlt]
    exact hnames _ (List.getElem_mem hlt)
  have hnoNul : 0 ∉ d.text := by
    simp only [text, imfText, clockText, List.mem_append, List.mem_cons, hweekday, hmonth,
      zero_notMem_paddedDigits (show d.date.day.toNat < 10 ^ 2 by omega),
      zero_notMem_paddedDigits (show d.date.year.toNat < 10 ^ 4 by omega),
      zero_notMem_paddedDigits (show d.hour < 10 ^ 2 by omega),
      zero_notMem_paddedDigits (show d.minute < 10 ^ 2 by omega),
      zero_notMem_paddedDigits (show d.second < 10 ^ 2 by omega)]
    decide
  obtain ⟨b, tail, hbytes, -, hows⟩ := head_date (show SameLetters d.text d.text from rfl)
  exact skipOws_of_append (show IsOws [] by simp [IsOws]) (CString.ofBytes_bytes_of_noNul hnoNul)
    hbytes hows

/-! ### What the parser is for -/

/-- **Retry-After, exactly**: what a header asks for, that a date in GMT comes out as the time that
is left until it unless that is too long, and that every instant can be given as a date. -/
theorem vibeHttpParseRetryAfter_exact :
    (∀ (value : CString) (now : Int64) (delay : UInt32),
      vibeHttpParseRetryAfter value now = some delay ↔ ∃ ows bytes, value.bytes = ows ++ bytes ∧
        IsOws ows ∧ Asks now.toInt bytes delay.toNat) ∧
    (∀ (d : ImfFixdate) (epoch : ℤ) (now : Int64), d.Denotes epoch → 0 ≤ now.toInt →
      vibeHttpParseRetryAfter (.ofBytes d.text) now =
        if max 0 (epoch - now.toInt) ≤ 2 ^ 32 - 1 then
          some (UInt32.ofNat (max 0 (epoch - now.toInt)).toNat)
        else none) ∧
    ∀ epoch : ℤ, -62135596800 ≤ epoch → epoch < 253402300800 →
      ∃ d : ImfFixdate, d.Denotes epoch := by
  refine ⟨fun value now delay ↦ ?_, fun d epoch now hdenotes hnow ↦ ?_,
    fun _ h h' ↦ exists_imfFixdate h h'⟩
  · constructor
    · intro h
      obtain ⟨ows, hows, hbytes⟩ := exists_skipOws value
      refine ⟨ows, _, hbytes, hows, ?_⟩
      -- A digit makes it a number of seconds, anything else must be a date.
      by_cases hdigit : IsDigit ((skipOws value).byteAt 0)
      · obtain ⟨digits, ows', hbytes', hne, hdigits, hows', hvalue⟩ :=
          (retryAfter_of_digit hdigit).1 h
        rw [hbytes', ← hvalue]
        exact .seconds digits ows' hne hdigits hows'
      · obtain ⟨d, hnow, htext⟩ := exists_date_of_some hdigit h
        rw [retryAfter_of_date hnow htext] at h
        split at h
        · rename_i hle
          obtain rfl := Option.some.inj h
          rw [UInt32.toNat_ofNat', Nat.mod_eq_of_lt (by omega)]
          exact .date d _ d.instant hnow htext (ImfFixdate.denotes_iff.2 rfl)
        · cases h
    · rintro ⟨ows, bytes, hbytes, hows, hasks⟩
      have hlt := delay.toNat_lt
      have hback := UInt32.ofNat_toNat (x := delay)
      generalize hseconds : delay.toNat = seconds at hasks hlt hback
      cases hasks with
      | seconds digits ows' hne hdigits hows' =>
        obtain ⟨b, tail, hhead, hb⟩ := head_digits ows' hne hdigits
        have hskip := skipOws_of_append hows hbytes hhead (isOws_of_digit hb)
        have hfirst : IsDigit ((skipOws value).byteAt 0) := by
          rw [CString.byteAt, hskip, hhead]
          exact hb
        exact (retryAfter_of_digit hfirst).2 ⟨digits, ows', hskip, hne, hdigits, hows',
          hseconds.symm⟩
      | date d _ epoch hnow htext hdenotes =>
        obtain ⟨b, tail, hhead, -, hb⟩ := head_date htext
        obtain rfl := ImfFixdate.denotes_iff.1 hdenotes
        have hskip := skipOws_of_append hows hbytes hhead hb
        rw [retryAfter_of_date hnow (by rw [hskip]; exact htext), if_pos (by omega), hback]
  · obtain rfl := ImfFixdate.denotes_iff.1 hdenotes
    exact retryAfter_of_date hnow (by rw [d.skipOws_text]; rfl)

end VibeUsage
