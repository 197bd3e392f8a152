import VibeUsage.Lib.Json

/-!
# Whole numbers in JSON

The digits of a whole number are a JSON number, and they say which one it is.

So a number that a program writes is read back by any reader of the grammar, without knowing how it
is written.
-/

namespace Rfc8259

/-- The decimal digits of a whole number. -/
def decimalText (n : ℕ) : List UInt8 := (Nat.toDigits 10 n).map Char.toUInt8

/-- A digit is written as a digit. -/
theorem isDigit_digitChar {n : ℕ} (h : n < 10) : IsDigit (Nat.digitChar n).toUInt8 := by
  revert n
  decide

/-- Only zero is written as one. -/
theorem digitChar_ne_zero {n : ℕ} (h : n < 10) (hpos : 0 < n) :
    (Nat.digitChar n).toUInt8 ≠ 0x30 := by
  revert n
  decide

/-- A number below ten is one digit. -/
theorem decimalText_of_lt {n : ℕ} (h : n < 10) : decimalText n = [(Nat.digitChar n).toUInt8] := by
  rw [decimalText, Nat.toDigits_of_lt_base h, List.map_singleton]

/-- Another has its last digit behind the others. -/
theorem decimalText_of_le {n : ℕ} (h : 10 ≤ n) :
    decimalText n = decimalText (n / 10) ++ [(Nat.digitChar (n % 10)).toUInt8] := by
  rw [decimalText, Nat.toDigits_of_base_le (by decide) h, List.map_append, List.map_singleton,
    decimalText]

/-- The digits of a positive number start with one that is not zero. -/
theorem exists_decimalText {n : ℕ} (hpos : 0 < n) :
    ∃ d ds, decimalText n = d :: ds ∧ IsDigit d ∧ d ≠ 0x30 ∧ ∀ b ∈ ds, IsDigit b := by
  induction n using Nat.strong_induction_on with
  | _ n ih =>
    rcases Nat.lt_or_ge n 10 with hlt | hge
    · exact ⟨_, [], decimalText_of_lt hlt, isDigit_digitChar hlt, digitChar_ne_zero hlt hpos,
        fun b hb ↦ by cases hb⟩
    · obtain ⟨d, ds, hds, hd, hne, hall⟩ := ih (n / 10) (by omega) (by omega)
      refine ⟨d, ds ++ [(Nat.digitChar (n % 10)).toUInt8], ?_, hd, hne, fun b hb ↦ ?_⟩
      · rw [decimalText_of_le hge, hds, List.cons_append]
      · rcases List.mem_append.1 hb with hb | hb
        · exact hall b hb
        · rw [List.mem_singleton.1 hb]
          exact isDigit_digitChar (Nat.mod_lt _ (by decide))

/-- **A number is written without leading zeros.** -/
theorem isInt_decimalText (n : ℕ) : IsInt (decimalText n) := by
  rcases Nat.eq_zero_or_pos n with rfl | hpos
  · exact Or.inl rfl
  · exact Or.inr (exists_decimalText hpos)

/-- An integer part alone is a number. -/
theorem isNumber_of_isInt {t : List UInt8} (h : IsInt t) : IsNumber t :=
  ⟨[], t, [], [], by simp, Or.inl rfl, h, Or.inl rfl, Or.inl rfl⟩

/-- So it is behind a sign. -/
theorem isNumber_neg_of_isInt {t : List UInt8} (h : IsInt t) : IsNumber (0x2D :: t) :=
  ⟨[0x2D], t, [], [], by simp, Or.inr rfl, h, Or.inl rfl, Or.inl rfl⟩

/-- A natural number is written as a number of the grammar. -/
theorem isNumber_decimalText (n : ℕ) : IsNumber (decimalText n) :=
  isNumber_of_isInt (isInt_decimalText n)

/-- A number below a power of ten has that many digits at most. -/
theorem length_decimalText_le {n k : ℕ} (hk : 0 < k) (h : n < 10 ^ k) :
    (decimalText n).length ≤ k := by
  rw [decimalText, List.length_map]
  exact (Nat.length_toDigits_le_iff (by decide) hk).2 h

end Rfc8259
