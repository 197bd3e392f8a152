import VibeUsage.Lib.Json
import VibeUsage.Parser.Model

/-!
# The number check is the number grammar

`json_number_valid` walks over a token part by part and asks that nothing is left. Each part is
compared with its rule of the grammar in both directions: what the part skips is a text of the rule,
and a text of the rule is skipped when what follows cannot continue it.

`jsonNumberValid_iff` puts the three parts together. A part that is skipped is skipped as far as it
goes, which is why each rule says what may follow it.
-/

namespace VibeUsage

open Rfc8259 (IsDigit IsDigits IsInt IsFrac IsExp IsNumber NumberByte)

/-- The digits of the source are the digits of the grammar. -/
theorem isDigitByte_iff {b : UInt8} : isDigitByte b = true ↔ IsDigit b := by
  simp [isDigitByte, IsDigit]

/-- The bytes that may stand in a number. -/
theorem numberByte_iff {b : UInt8} : numberByte b = true ↔ NumberByte b := by
  simp [numberByte, NumberByte, isDigitByte_iff, or_assoc]

/-- A text that no digit starts. -/
def NoDigit (t : List UInt8) : Prop := ∀ b ∈ t.head?, ¬ IsDigit b

/-- What a run of digits is taken as. -/
theorem isDigits_takeWhile {t : List UInt8} (h : t.takeWhile isDigitByte ≠ []) :
    IsDigits (t.takeWhile isDigitByte) :=
  ⟨h, fun _ hb ↦ isDigitByte_iff.1 (by simpa using List.all_eq_true.1 List.all_takeWhile _ hb)⟩

/-- A run of digits is taken whole when no digit follows it. -/
theorem takeWhile_digits {ds r : List UInt8} (hds : ∀ b ∈ ds, IsDigit b) (hr : NoDigit r) :
    (ds ++ r).takeWhile isDigitByte = ds ∧ (ds ++ r).dropWhile isDigitByte = r := by
  have hall : ∀ b ∈ ds, isDigitByte b = true := fun b hb ↦ isDigitByte_iff.2 (hds b hb)
  rw [List.takeWhile_append_of_pos hall, List.dropWhile_append_of_pos hall]
  cases r with
  | nil => simp
  | cons c r =>
    have hc : ¬ isDigitByte c = true := fun h ↦ hr c (by simp) (isDigitByte_iff.1 h)
    simp [hc]

/-! ### The three parts -/

/-- What is skipped is an integer part. -/
theorem skipNumberInteger_sound {t r : List UInt8} (h : skipNumberInteger t = some r) :
    ∃ int, t = int ++ r ∧ IsInt int := by
  cases t with
  | nil => cases h
  | cons c t =>
    unfold skipNumberInteger at h
    dsimp only at h
    by_cases hzero : c = 0x30
    · rw [if_pos hzero] at h
      subst hzero
      cases t with
      | nil =>
        obtain rfl := Option.some.inj h
        exact ⟨[0x30], rfl, Or.inl rfl⟩
      | cons d t =>
        dsimp only at h
        split at h
        · cases h
        · obtain rfl := Option.some.inj h
          exact ⟨[0x30], rfl, Or.inl rfl⟩
    · rw [if_neg hzero] at h
      split at h
      · cases h
      next hrange =>
        obtain rfl := Option.some.inj h
        refine ⟨c :: t.takeWhile isDigitByte, by simp, Or.inr ⟨c, _, rfl, ?_, hzero, ?_⟩⟩
        · simp only [UInt8.lt_iff_toNat_lt, gt_iff_lt, UInt8.reduceToNat] at hrange
          unfold IsDigit
          simp only [UInt8.le_iff_toNat_le, UInt8.reduceToNat]
          omega
        · intro b hb
          exact isDigitByte_iff.1 (by simpa using List.all_eq_true.1 List.all_takeWhile _ hb)

/-- **An integer part** is skipped when no digit follows it. -/
theorem skipNumberInteger_complete {int r : List UInt8} (hint : IsInt int) (hr : NoDigit r) :
    skipNumberInteger (int ++ r) = some r := by
  rcases hint with rfl | ⟨d, ds, rfl, hd, hne, hds⟩
  · cases r with
    | nil => rfl
    | cons c r =>
      have hc : ¬ isDigitByte c = true := fun h ↦ hr c (by simp) (isDigitByte_iff.1 h)
      simp [skipNumberInteger, hc]
  · have hrange : ¬ (d < 0x31 ∨ d > 0x39) := by
      unfold IsDigit at hd
      have hne' : d.toNat ≠ 0x30 := fun h ↦ hne (UInt8.toNat_inj.1 h)
      simp only [UInt8.le_iff_toNat_le, UInt8.lt_iff_toNat_lt, gt_iff_lt,
        UInt8.reduceToNat] at hd ⊢
      omega
    have hdrop := (takeWhile_digits hds hr).2
    simp [skipNumberInteger, hne, hrange, hdrop]

/-- What is skipped is a fraction, perhaps an empty one. -/
theorem skipNumberFraction_sound {t r : List UInt8} (h : skipNumberFraction t = some r) :
    ∃ frac, t = frac ++ r ∧ IsFrac frac := by
  cases t with
  | nil =>
    obtain rfl := Option.some.inj h
    exact ⟨[], rfl, Or.inl rfl⟩
  | cons c t =>
    rw [skipNumberFraction] at h
    split at h
    next hdot =>
      subst hdot
      split at h
      · cases h
      next hdigits =>
        obtain rfl := Option.some.inj h
        refine ⟨0x2E :: t.takeWhile isDigitByte, by simp, Or.inr ⟨_, rfl, ?_⟩⟩
        exact isDigits_takeWhile (by simpa using hdigits)
    · obtain rfl := Option.some.inj h
      exact ⟨[], rfl, Or.inl rfl⟩

/-- **A fraction** is skipped when neither a digit nor a dot follows it. -/
theorem skipNumberFraction_complete {frac r : List UInt8} (hfrac : IsFrac frac) (hr : NoDigit r)
    (hdot : ∀ b ∈ r.head?, b ≠ 0x2E) : skipNumberFraction (frac ++ r) = some r := by
  rcases hfrac with rfl | ⟨ds, rfl, hne, hds⟩
  · cases r with
    | nil => rfl
    | cons c r => simp [skipNumberFraction, hdot c (by simp)]
  · obtain ⟨htake, hdrop⟩ := takeWhile_digits hds hr
    have hsome : (ds.isEmpty) = false := by simpa using hne
    simp [skipNumberFraction, htake, hdrop, hsome]

/-- What is skipped is an exponent, perhaps an empty one. -/
theorem skipNumberExponent_sound {t r : List UInt8} (h : skipNumberExponent t = some r) :
    ∃ exp, t = exp ++ r ∧ IsExp exp := by
  cases t with
  | nil =>
    obtain rfl := Option.some.inj h
    exact ⟨[], rfl, Or.inl rfl⟩
  | cons c t =>
    unfold skipNumberExponent at h
    dsimp only at h
    split at h
    next he =>
      -- the optional sign decides where the digits start
      obtain ⟨sign, digits, ht, hsign, h⟩ : ∃ sign digits, t = sign ++ digits ∧
          (sign = [] ∨ sign = [0x2B] ∨ sign = [0x2D]) ∧
          (if (digits.takeWhile isDigitByte).isEmpty = true then none
            else some (digits.dropWhile isDigitByte)) = some r := by
        cases t with
        | nil => exact ⟨[], [], rfl, Or.inl rfl, h⟩
        | cons s t =>
          dsimp only at h
          by_cases hs : s = 0x2B ∨ s = 0x2D
          · simp only [if_pos hs] at h
            refine ⟨[s], t, rfl, Or.inr ?_, h⟩
            rcases hs with rfl | rfl
            · exact Or.inl rfl
            · exact Or.inr rfl
          · simp only [if_neg hs] at h
            exact ⟨[], s :: t, rfl, Or.inl rfl, h⟩
      split at h
      · cases h
      next hdigits =>
        obtain rfl := Option.some.inj h
        refine ⟨c :: (sign ++ digits.takeWhile isDigitByte), by simp [ht],
          Or.inr ⟨c, sign, _, rfl, he, hsign, ?_⟩⟩
        exact isDigits_takeWhile (by simpa using hdigits)
    · obtain rfl := Option.some.inj h
      exact ⟨[], rfl, Or.inl rfl⟩

/-- **An exponent** is skipped to its end. -/
theorem skipNumberExponent_complete {exp : List UInt8} (hexp : IsExp exp) :
    skipNumberExponent exp = some [] := by
  rcases hexp with rfl | ⟨e, sign, ds, rfl, he, hsign, hne, hds⟩
  · rfl
  · obtain ⟨htake, hdrop⟩ := takeWhile_digits (r := []) hds (by simp [NoDigit])
    rw [List.append_nil] at htake hdrop
    have hsome : ds.isEmpty = false := by simpa using hne
    unfold skipNumberExponent
    dsimp only
    rw [if_pos he]
    rcases hsign with rfl | rfl | rfl
    · cases ds with
      | nil => exact absurd rfl hne
      | cons d ds =>
        have hd := hds d (by simp)
        have hs : ¬ (d = 0x2B ∨ d = 0x2D) := by
          rintro (rfl | rfl) <;> revert hd <;> decide
        simp [hs, htake, hdrop]
    · simp [htake, hdrop, hsome]
    · simp [htake, hdrop, hsome]

/-! ### The whole number -/

/-- An exponent begins with its letter. -/
theorem head_of_isExp {exp : List UInt8} (h : IsExp exp) :
    ∀ b ∈ exp.head?, b = 0x65 ∨ b = 0x45 := by
  rcases h with rfl | ⟨e, sign, ds, rfl, he, -⟩
  · simp
  · simpa using he

/-- So no digit begins it. -/
theorem noDigit_of_isExp {exp : List UInt8} (h : IsExp exp) : NoDigit exp := by
  intro b hb
  rcases head_of_isExp h b hb with rfl | rfl <;> decide

/-- Nor does a digit begin what follows an integer part. -/
theorem noDigit_of_isFrac {frac exp : List UInt8} (hfrac : IsFrac frac) (hexp : IsExp exp) :
    NoDigit (frac ++ exp) := by
  rcases hfrac with rfl | ⟨ds, rfl, -⟩
  · exact noDigit_of_isExp hexp
  · intro b hb
    obtain rfl : 0x2E = b := by simpa using hb
    decide

/-- An integer part has no sign of its own. -/
theorem noMinus_of_isInt {int : List UInt8} (h : IsInt int) : ∃ c t, int = c :: t ∧ c ≠ 0x2D := by
  rcases h with rfl | ⟨d, ds, rfl, hd, -⟩
  · exact ⟨_, _, rfl, by decide⟩
  · refine ⟨d, ds, rfl, ?_⟩
    rintro rfl
    revert hd
    decide

/-- **The check accepts exactly the numbers of the grammar.** -/
theorem jsonNumberValid_iff {t : List UInt8} : jsonNumberValid t = true ↔ IsNumber t := by
  constructor
  · intro h
    -- The sign, and then the three parts one after the other.
    obtain ⟨sign, u, ht, hsign, h⟩ : ∃ sign u, t = sign ++ u ∧ (sign = [] ∨ sign = [0x2D]) ∧
        ((skipNumberInteger u).bind fun u ↦
          (skipNumberFraction u).bind skipNumberExponent) = some [] := by
      unfold jsonNumberValid at h
      cases t with
      | nil => cases h
      | cons c t =>
        dsimp only at h
        split at h
        next rest hrest =>
          obtain rfl : rest = [] := by simpa using h
          by_cases hc : c = 0x2D
          · subst hc
            rw [if_pos rfl] at hrest
            exact ⟨[0x2D], t, rfl, Or.inr rfl, hrest⟩
          · rw [if_neg hc] at hrest
            exact ⟨[], c :: t, rfl, Or.inl rfl, hrest⟩
        · cases h
    obtain ⟨r₁, h₁, hrest⟩ := Option.bind_eq_some_iff.1 h
    obtain ⟨r₂, h₂, h₃⟩ := Option.bind_eq_some_iff.1 hrest
    obtain ⟨int, rfl, hint⟩ := skipNumberInteger_sound h₁
    obtain ⟨frac, rfl, hfrac⟩ := skipNumberFraction_sound h₂
    obtain ⟨exp, rfl, hexp⟩ := skipNumberExponent_sound h₃
    exact ⟨sign, int, frac, exp, by simp [ht], hsign, hint, hfrac, hexp⟩
  · rintro ⟨sign, int, frac, exp, rfl, hsign, hint, hfrac, hexp⟩
    have hparts : ((skipNumberInteger (int ++ (frac ++ exp))).bind fun u ↦
        (skipNumberFraction u).bind skipNumberExponent) = some [] := by
      rw [skipNumberInteger_complete hint (noDigit_of_isFrac hfrac hexp), Option.bind_some,
        skipNumberFraction_complete hfrac (noDigit_of_isExp hexp), Option.bind_some,
        skipNumberExponent_complete hexp]
      intro b hb
      rcases head_of_isExp hexp b hb with rfl | rfl <;> decide
    obtain ⟨c, t, rfl, hc⟩ := noMinus_of_isInt hint
    rcases hsign with rfl | rfl
    · simp only [List.nil_append, List.append_assoc, List.cons_append] at hparts ⊢
      simp [jsonNumberValid, hc, hparts]
    · simp only [List.append_assoc, List.cons_append] at hparts ⊢
      simp [jsonNumberValid, hparts]

/-- `Rfc8259.exists_cons_of_isNumber` in the predicates of the source. -/
theorem exists_cons_of_isNumber {n : List UInt8} (h : IsNumber n) :
    ∃ c ds, n = c :: ds ∧ (c = 0x2D ∨ isDigitByte c = true) ∧
      ∀ b ∈ ds, numberByte b = true := by
  obtain ⟨c, ds, hn, hc, hds⟩ := Rfc8259.exists_cons_of_isNumber h
  exact ⟨c, ds, hn, hc.imp_right isDigitByte_iff.2, fun b hb ↦ numberByte_iff.2 (hds b hb)⟩

end VibeUsage
